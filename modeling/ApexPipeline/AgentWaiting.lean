import ApexPipeline.AgentLock

/-! Whether an `Acquire` that polls is in the queue. A call is found there by its channel and branch
only, so calls that share a branch share a row. -/
namespace ApexPipeline.AgentLock
open AgentQueue Execution List Option List.Sublist

def Waits (q : Queue) (channel branch : String) : Prop :=
  ∃ e ∈ q.rows, e.channel = channel ∧ e.branch = branch ∧ e.status = .waiting

instance (q : Queue) (channel branch : String) : Decidable (Waits q channel branch) :=
  inferInstanceAs (Decidable (∃ e ∈ q.rows, _))

def Call.Alike (first second : Call) : Prop := first.channel = second.channel ∧ first.branch = second.branch

instance (first second : Call) : Decidable (first.Alike second) := inferInstanceAs (Decidable (_ ∧ _))

/-- Every `Acquire` that polls has a waiting row. -/
def Remembered (w : World) : Prop := ∀ call ∈ w.calls, Waits w.queue call.channel call.branch

instance (w : World) : Decidable (Remembered w) := inferInstanceAs (Decidable (∀ call ∈ w.calls, _))

/-- The call whose row an action uses up or deletes, and the calls that poll on. -/
def consumed (w : World) : Action → Option (Call × List Call)
  | .tryAcquire call =>
    if (tryAcquire w.queue call.channel call.branch call.pid).1 then some (call,w.calls) else none
  | .poll index => w.calls[index]?.bind fun call =>
    if (tryPromote w.queue call.channel call.branch).1 then some (call,w.calls.eraseIdx index) else none
  | .cancel index => w.calls[index]?.map fun call => (call,w.calls.eraseIdx index)
  | _ => none

def Unshared (w : World) (action : Action) : Prop :=
  ∀ call rest, consumed w action = some (call,rest) → ∀ other ∈ rest, ¬ other.Alike call

/-- Nobody asks for a channel under a branch for which an `Acquire` polls already. -/
def Alone (w : World) : Action → Prop
  | .acquire call | .tryAcquire call => ∀ other ∈ w.calls, ¬ other.Alike call
  | _ => True

instance (w : World) : (action : Action) → Decidable (Alone w action)
  | .acquire call | .tryAcquire call => inferInstanceAs (Decidable (∀ other ∈ w.calls, ¬ other.Alike call))
  | .poll _ | .cancel _ | .fail _ | .cleanupStale | .updatePID _ _ | .release _ | .die _ => isTrue trivial

/-- The channel is free, and every row of another branch comes after a row of this one. -/
def First (q : Queue) (channel branch : String) : Prop :=
  hasActiveEntry q channel = false ∧
  ∀ e ∈ q.rows, e.channel = channel → e.status = .waiting → e.branch ≠ branch →
    ∃ own ∈ q.rows, own.channel = channel ∧ own.branch = branch ∧ own.status = .waiting ∧ own.id < e.id

section Rows
variable {q next : Queue} {channel branch channel' branch' : String} {pid : Int}

theorem waits_insert : Waits (insertEntryTx q channel branch pid status) channel' branch' ↔
    Waits q channel' branch' ∨ status = .waiting ∧ channel' = channel ∧ branch' = branch := by
  constructor
  · rintro ⟨e,member,rfl,rfl,waiting⟩
    rcases mem_insert member with old | rfl
    · exact .inl ⟨e,old,rfl,rfl,waiting⟩
    · exact .inr ⟨waiting,rfl,rfl⟩
  · rintro (⟨e,member,here⟩ | ⟨waiting,rfl,rfl⟩)
    · exact ⟨e,mem_append_left _ member,here⟩
    · exact ⟨_,mem_append_right _ mem_cons_self,rfl,rfl,waiting⟩

theorem waits_register (waits : Waits q channel' branch' ∨ channel' = channel ∧ branch' = branch) :
    Waits (register q channel branch pid) channel' branch' := by
  rw [register]
  split
  · rename_i present
    rcases waits with waits | ⟨rfl,rfl⟩
    · exact waits
    · exact hasWaitingEntryForBranch_iff.mp present
  · exact waits_insert.mpr (waits.imp_right (.intro rfl))

theorem waits_update (held : ∀ e, selected e = true → e.status = .active) (waits : Waits q channel branch) :
    Waits (q.update selected change) channel branch := by
  obtain ⟨e,member,here,own,waiting⟩ := waits
  refine ⟨e,mem_map.mpr ⟨e,member,if_neg fun chosen => ?_⟩,here,own,waiting⟩
  rw [held e chosen] at waiting
  cases waiting

theorem waits_cancel : Waits (cancel q channel branch) channel' branch' ↔
    Waits q channel' branch' ∧ ¬ (channel' = channel ∧ branch' = branch) := by
  constructor
  · rintro ⟨e,member,rfl,rfl,waiting⟩
    obtain ⟨old,spared⟩ := mem_filter.mp member
    refine ⟨⟨e,old,rfl,rfl,waiting⟩,fun here => ?_⟩
    simp [here.1,here.2,waiting] at spared
  · rintro ⟨⟨e,member,rfl,rfl,waiting⟩,elsewhere⟩
    refine ⟨e,mem_filter.mpr ⟨member,?_⟩,rfl,rfl,waiting⟩
    rw [Bool.not_eq_true',decide_eq_false_iff_not]
    exact fun chosen => elsewhere ⟨chosen.1,chosen.2.1⟩

theorem waits_cleanupStale (ordered : InOrder q) (living : ∀ e ∈ q.rows, e.status = .waiting → alive e = true)
    (waits : Waits q channel branch) : Waits (cleanupStale alive q).2 channel branch := by
  obtain ⟨e,member,here,own,waiting⟩ := waits
  rw [Waits,cleanupStale_delete ordered]
  exact ⟨e,mem_filter.mpr ⟨member,decide_eq_true (.inr (living e member waiting))⟩,here,own,waiting⟩

theorem waiting_unique (ordered : InOrder q) (first : e ∈ q.rows) (second : e' ∈ q.rows) (here : e.channel = e'.channel)
    (own : e.branch = e'.branch) (waits : e.status = .waiting) (waits' : e'.status = .waiting) : e = e' := by
  have symmetric : Std.Symm fun a b : Entry =>
      a.channel = b.channel → a.branch = b.branch → a.status = .waiting → b.status ≠ .waiting :=
    ⟨fun a b apart here own left right => apart here.symm own.symm right left⟩
  by_contra different
  exact ordered.oneWaiting.forall first second different here own waits waits'

theorem waits_promote (ordered : InOrder q) (only : ∀ e ∈ q.rows, selected e = true ↔ e = first)
    (present : first ∈ q.rows) (waiting : first.status = .waiting) :
    Waits (q.update selected fun e => { e with status := .active }) channel branch ↔
    Waits q channel branch ∧ ¬ (channel = first.channel ∧ branch = first.branch) := by
  constructor
  · rintro ⟨e,member,rfl,rfl,waits⟩
    obtain ⟨old,was,rfl⟩ := mem_map.mp member
    by_cases chosen : selected old = true
    · rw [if_pos chosen] at waits
      cases waits
    · rw [if_neg chosen] at waits ⊢
      refine ⟨⟨old,was,rfl,rfl,waits⟩,fun here => chosen ((only old was).mpr ?_)⟩
      exact waiting_unique ordered was present here.1 here.2 waits waiting
  · rintro ⟨⟨e,member,rfl,rfl,waits⟩,elsewhere⟩
    refine ⟨e,mem_map.mpr ⟨e,member,if_neg fun chosen => elsewhere ?_⟩,rfl,rfl,waits⟩
    rw [(only e member).mp chosen]
    exact ⟨rfl,rfl⟩

theorem promotion_consumes (promotion : Promotion q next channel branch) (ordered : InOrder q) :
    Waits next channel' branch' ↔ Waits q channel' branch' ∧ ¬ (channel' = channel ∧ branch' = branch) := by
  obtain ⟨first,selected,found,rfl,only,rfl⟩ := promotion
  obtain ⟨present,rfl,waiting⟩ := (firstWaitingTx_some found).1
  exact waits_promote ordered (only ordered) present waiting

theorem tryAcquire_consumes (ordered : InOrder q) (acquired : (tryAcquire q channel branch pid).1 = true) :
    Waits (tryAcquire q channel branch pid).2 channel' branch' ↔
    Waits q channel' branch' ∧ ¬ (channel' = channel ∧ branch' = branch) := by
  rcases @tryAcquire_cases q channel branch pid with same | ⟨_,next,same,promotion | ⟨found,rfl⟩⟩
  · rw [same] at acquired
    cases acquired
  · rw [same]
    exact promotion_consumes promotion ordered
  -- nobody waits for the channel at all
  simp only [same,waits_insert]
  constructor
  · rintro (⟨e,member,rfl,rfl,waiting⟩ | ⟨waiting,-⟩)
    · exact ⟨⟨e,member,rfl,rfl,waiting⟩,fun here => firstWaitingTx_none found e member here.1 waiting⟩
    · cases waiting
  · exact fun waits => .inl waits.1

theorem update_waiting
    (moved : ∀ e, selected e = true → (change e).status ≠ .waiting) (member : e ∈ (q.update selected change).rows)
    (waiting : e.status = .waiting) : e ∈ q.rows := by
  obtain ⟨old,was,rfl⟩ := mem_map.mp member
  by_cases chosen : selected old = true
  · rw [if_pos chosen] at waiting
    exact absurd waiting (moved old chosen)
  · rw [if_neg chosen]
    exact was

theorem register_waiting (member : e ∈ (register q channel branch pid).rows) : e ∈ q.rows ∨ e.pid = pid := by
  rw [register] at member
  split at member
  · exact .inl member
  · rcases mem_insert member with old | rfl
    · exact .inl old
    · exact .inr rfl

theorem promotion_waiting (promotion : Promotion q next channel branch) (member : e ∈ next.rows)
    (waiting : e.status = .waiting) : e ∈ q.rows := by
  obtain ⟨_,_,_,_,_,rfl⟩ := promotion
  exact update_waiting (fun _ _ waits => by cases waits) member waiting

theorem tryAcquire_waiting (member : e ∈ (tryAcquire q channel branch pid).2.rows) (waiting : e.status = .waiting) :
    e ∈ q.rows ∨ e.pid = pid := by
  rcases @tryAcquire_cases q channel branch pid with same | ⟨_,next,same,promotion | ⟨_,rfl⟩⟩ <;>
    rw [same] at member
  · exact register_waiting member
  · exact .inl (promotion_waiting promotion member waiting)
  · rcases mem_insert member with old | rfl
    · exact .inl old
    · cases waiting

theorem tryPromote_waiting (member : e ∈ (tryPromote q channel branch).2.rows) (waiting : e.status = .waiting) :
    e ∈ q.rows := by
  rcases @tryPromote_cases q channel branch with same | ⟨_,next,same,promotion⟩ <;> rw [same] at member
  · exact member
  · exact promotion_waiting promotion member waiting

theorem first_promoted (waits : Waits q channel branch) (first : First q channel branch) :
    (tryPromote q channel branch).1 = true := by
  obtain ⟨free,ahead⟩ := first
  obtain ⟨e,member,here,-,waiting⟩ := waits
  have busy : ¬ hasActiveEntry q channel = true := by rw [free]; nofun
  cases found : firstWaitingTx q channel with
  | none => exact absurd waiting (firstWaitingTx_none found e member here)
  | some front =>
    obtain ⟨⟨present,there,queued⟩,least⟩ := firstWaitingTx_some found
    have own : front.branch = branch := by
      by_contra other
      obtain ⟨row,inside,same,-,waits,less⟩ := ahead front present there queued other
      exact Nat.not_lt.mpr (least row inside same waits) less
    simp only [tryPromote,if_neg busy,found,own,ne_eq,not_true_eq_false,if_false,decide_eq_true_eq]
    exact countP_pos_iff.mpr ⟨front,present,decide_eq_true ⟨rfl,queued⟩⟩

end Rows

inductive Motion (w next : World) : Action → Prop
  | added (call : Call) (calls : next.calls = w.calls ++ [call])
      (rows : ∀ channel branch, Waits w.queue channel branch ∨ channel = call.channel ∧ branch = call.branch →
        Waits next.queue channel branch) : Motion w next (.acquire call)
  | kept (action : Action) (spared : consumed w action = none) (calls : next.calls.Sublist w.calls)
      (rows : ∀ channel branch, Waits w.queue channel branch → Waits next.queue channel branch) : Motion w next action
  | consumed (action : Action) (call : Call) (taken : consumed w action = some (call,next.calls))
      (calls : next.calls.Sublist w.calls)
      (rows : ∀ channel branch, Waits next.queue channel branch ↔
        Waits w.queue channel branch ∧ ¬ (channel = call.channel ∧ branch = call.branch)) : Motion w next action

section Steps
variable {w next : World} {action : Action}

theorem step_motion (ordered : InOrder w.queue)
    (living : ∀ e ∈ w.queue.rows, e.status = .waiting → w.alive e.pid = true)
    (stepped : step w action = some next) : Motion w next action := by
  cases action with
  | acquire call =>
    simp only [step] at stepped
    obtain ⟨_,rfl⟩ := of_guard stepped
    exact .added call rfl fun _ _ => waits_register
  | tryAcquire call =>
    simp only [step] at stepped
    obtain ⟨_,rfl⟩ := of_guard stepped
    cases acquired : (tryAcquire w.queue call.channel call.branch call.pid).1 with
    | true =>
      exact .consumed _ call (if_pos acquired) (refl _) fun _ _ => tryAcquire_consumes ordered acquired
    | false =>
      refine .kept _ (if_neg ?_) (refl _) fun _ _ waits => ?_
      · rw [acquired]
        exact Bool.false_ne_true
      · rw [tryAcquire_refused acquired]
        exact waits_register (.inl waits)
  | poll index =>
    obtain ⟨call,there,stepped⟩ := map_eq_some_iff.mp stepped
    cases promoted : (tryPromote w.queue call.channel call.branch).1 with
    | true =>
      simp only [promoted,if_true] at stepped
      cases stepped
      rcases @tryPromote_cases w.queue call.channel call.branch with same | ⟨_,next,same,promotion⟩
      · cases (congrArg Prod.fst same).symm.trans promoted
      refine .consumed _ call ?_ (eraseIdx_sublist _ _) fun _ _ => ?_
      · simp only [consumed,there,bind_some,promoted,if_true]
      · simpa only [same] using promotion_consumes promotion ordered
    | false =>
      simp only [promoted,Bool.false_eq_true,if_false] at stepped
      cases stepped
      refine .kept _ ?_ (refl _) fun _ _ waits => ?_
      · simp only [consumed,there,bind_some,promoted,Bool.false_eq_true,if_false]
      · rw [tryPromote_refused promoted]
        exact waits
  | cancel index =>
    obtain ⟨call,there,rfl⟩ := map_eq_some_iff.mp stepped
    refine .consumed _ call ?_ (eraseIdx_sublist _ _) fun _ _ => waits_cancel
    simp only [consumed,there,map_some]
  | fail index =>
    obtain ⟨call,there,rfl⟩ := map_eq_some_iff.mp stepped
    exact .kept _ rfl (eraseIdx_sublist _ _) fun _ _ waits => waits
  | cleanupStale =>
    cases stepped
    exact .kept _ rfl (refl _) fun _ _ => waits_cleanupStale ordered living
  | updatePID index child =>
    obtain ⟨hold,there,stepped⟩ := bind_eq_some_iff.mp stepped
    obtain ⟨-,rfl⟩ := of_guard stepped
    refine .kept _ rfl (refl _) fun _ _ => ?_
    rw [updatePID_update]
    exact waits_update fun _ chosen => (of_decide_eq_true chosen).2.2
  | release index =>
    obtain ⟨hold,there,stepped⟩ := bind_eq_some_iff.mp stepped
    obtain ⟨-,rfl⟩ := of_guard stepped
    exact .kept _ rfl (refl _) fun _ _ => waits_update fun _ chosen => (of_decide_eq_true chosen).2
  | die pid =>
    cases stepped
    exact .kept _ rfl (refl _) fun _ _ waits => waits

def Action.caller : Action → Option Int
  | .acquire call | .tryAcquire call => some call.pid
  | _ => none

theorem step_waiting (ordered : InOrder w.queue) (stepped : step w action = some next) (member : e ∈ next.queue.rows)
    (waiting : e.status = .waiting) : e ∈ w.queue.rows ∨ action.caller = some e.pid ∧ w.alive e.pid = true := by
  cases action with
  | acquire call =>
    simp only [step] at stepped
    obtain ⟨living,rfl⟩ := of_guard stepped
    rcases register_waiting member with old | same
    · exact .inl old
    · exact .inr ⟨congrArg some same.symm,same ▸ living⟩
  | tryAcquire call =>
    simp only [step] at stepped
    obtain ⟨living,rfl⟩ := of_guard stepped
    rcases tryAcquire_waiting member waiting with old | same
    · exact .inl old
    · exact .inr ⟨congrArg some same.symm,same ▸ living⟩
  | poll index =>
    obtain ⟨call,there,rfl⟩ := map_eq_some_iff.mp stepped
    left
    dsimp only at member
    split at member <;> exact tryPromote_waiting member waiting
  | cancel index =>
    obtain ⟨call,there,rfl⟩ := map_eq_some_iff.mp stepped
    exact .inl (mem_of_mem_filter member)
  | fail index =>
    obtain ⟨call,there,rfl⟩ := map_eq_some_iff.mp stepped
    exact .inl member
  | cleanupStale =>
    cases stepped
    rw [perform,cleanupStale_delete ordered] at member
    exact .inl (mem_of_mem_filter member)
  | updatePID index child =>
    obtain ⟨hold,there,stepped⟩ := bind_eq_some_iff.mp stepped
    obtain ⟨-,rfl⟩ := of_guard stepped
    rw [updatePID_update] at member
    refine .inl (update_waiting (fun e chosen waits => ?_) member waiting)
    cases (of_decide_eq_true chosen).2.2.symm.trans waits
  | release index =>
    obtain ⟨hold,there,stepped⟩ := bind_eq_some_iff.mp stepped
    obtain ⟨-,rfl⟩ := of_guard stepped
    exact .inl (update_waiting (fun _ _ waits => by cases waits) member waiting)
  | die pid =>
    cases stepped
    exact .inl member

theorem step_dead (stepped : step w action = some next) :
    next.dead = w.dead ∨ ∃ pid, action = .die pid ∧ next.dead = pid :: w.dead := by
  cases action with
  | acquire | tryAcquire =>
    obtain ⟨_,rfl⟩ := of_guard stepped
    exact .inl rfl
  | poll =>
    obtain ⟨call,there,rfl⟩ := map_eq_some_iff.mp stepped
    left
    dsimp only
    split <;> rfl
  | cancel | fail =>
    obtain ⟨call,there,rfl⟩ := map_eq_some_iff.mp stepped
    exact .inl rfl
  | cleanupStale =>
    cases stepped
    exact .inl rfl
  | updatePID | release =>
    obtain ⟨hold,there,stepped⟩ := bind_eq_some_iff.mp stepped
    split at stepped <;> cases stepped
    exact .inl rfl
  | die pid =>
    cases stepped
    exact .inr ⟨pid,rfl,rfl⟩

def Lasting (callers : Int → Prop) : Action → Prop
  | .acquire call | .tryAcquire call => callers call.pid
  | .die pid => ¬ callers pid
  | _ => True

structure Guarded (callers : Int → Prop) (w : World) : Prop where
  ordered : InOrder w.queue
  rows : ∀ e ∈ w.queue.rows, e.status = .waiting → callers e.pid ∧ 0 < e.pid
  dead : ∀ pid ∈ w.dead, ¬ callers pid

theorem Guarded.living (guarded : Guarded callers w) (e : Entry) (member : e ∈ w.queue.rows)
    (waiting : e.status = .waiting) : w.alive e.pid = true := by
  obtain ⟨calls,positive⟩ := guarded.rows e member waiting
  exact decide_eq_true ⟨positive,fun gone => guarded.dead _ gone calls⟩

theorem guarded_step (guarded : Guarded callers w) (lasting : Lasting callers action)
    (stepped : step w action = some next) : Guarded callers next := by
  refine ⟨ordered_step w action next guarded.ordered stepped,fun e member waiting => ?_,fun pid gone => ?_⟩
  · rcases step_waiting guarded.ordered stepped member waiting with old | ⟨caller,living⟩
    · exact guarded.rows e old waiting
    refine ⟨?_,(of_decide_eq_true living).1⟩
    cases action with
    | acquire call | tryAcquire call => exact Option.some.inj caller ▸ lasting
    | _ => cases caller
  · rcases step_dead stepped with same | ⟨other,rfl,more⟩
    · exact guarded.dead pid (same ▸ gone)
    rw [more] at gone
    rcases mem_cons.mp gone with rfl | old
    · exact lasting
    · exact guarded.dead pid old

theorem remembered_step (remembered : Remembered w) (motion : Motion w next action) :
    Remembered next ↔ Unshared w action := by
  cases motion with
  | added call calls rows =>
    refine iff_of_true (fun other member => ?_) nofun
    rw [calls] at member
    rcases mem_concat member with old | rfl
    · exact rows _ _ (.inl (remembered other old))
    · exact rows _ _ (.inr ⟨rfl,rfl⟩)
  | kept _ spared calls rows =>
    refine iff_of_true (fun other member => rows _ _ (remembered other (calls.mem member))) fun call rest taken => ?_
    rw [spared] at taken
    cases taken
  | consumed _ call taken calls rows =>
    constructor
    · intro after own rest same other member
      cases taken.symm.trans same
      exact ((rows _ _).mp (after other member)).2
    · intro unshared other member
      exact (rows _ _).mpr ⟨remembered other (calls.mem member),unshared call _ taken other member⟩

def Distinct (w : World) : Prop := w.calls.Pairwise fun first second => ¬ first.Alike second

theorem Call.Alike.symm {first second : Call} (alike : first.Alike second) : second.Alike first :=
  ⟨alike.1.symm,alike.2.symm⟩

theorem eraseIdx_apart {calls : List Call} (distinct : calls.Pairwise fun first second => ¬ first.Alike second)
    (there : calls[index]? = some call) (other : Call) (member : other ∈ calls.eraseIdx index) : ¬ other.Alike call := by
  obtain ⟨inside,rfl⟩ := List.getElem?_eq_some_iff.mp there
  have apart := ((List.getElem_cons_eraseIdx_perm inside).pairwise_iff fun {_ _} apart alike => apart alike.symm).mpr distinct
  exact fun alike => (pairwise_cons.mp apart).1 other member alike.symm

variable (distinct : Distinct w) (alone : Alone w action)
include distinct alone

theorem Distinct.unshared : Unshared w action := by
  intro call rest taken
  cases action with
  | tryAcquire asked =>
    simp only [consumed] at taken
    split at taken <;> cases taken
    exact alone
  | poll index =>
    obtain ⟨own,there,taken⟩ := bind_eq_some_iff.mp taken
    split at taken <;> cases taken
    exact eraseIdx_apart distinct there
  | cancel index =>
    obtain ⟨own,there,taken⟩ := map_eq_some_iff.mp taken
    cases taken
    exact eraseIdx_apart distinct there
  | _ => cases taken

theorem distinct_step (motion : Motion w next action) : Distinct next := by
  cases motion with
  | added call calls rows =>
    rw [Distinct,calls]
    refine pairwise_append.mpr ⟨distinct,pairwise_singleton _ _,fun other member own new => ?_⟩
    cases mem_singleton.mp new
    exact alone other member
  | kept _ spared calls rows | consumed _ call taken calls rows => exact List.Pairwise.sublist calls distinct

end Steps

section Runs
variable {schedule : List Action}

def Calling (schedule : List Action) (pid : Int) : Prop :=
  ∃ call : Call, call.pid = pid ∧ (.acquire call ∈ schedule ∨ .tryAcquire call ∈ schedule)

theorem lasting_run (alive : ∀ call, .acquire call ∈ schedule ∨ .tryAcquire call ∈ schedule → .die call.pid ∉ schedule) :
    Along step (fun _ => Lasting (Calling schedule)) {} schedule := by
  refine Along.of_forall fun _ action member => ?_
  cases action with
  | acquire call => exact ⟨call,rfl,.inl member⟩
  | tryAcquire call => exact ⟨call,rfl,.inr member⟩
  | die pid =>
    rintro ⟨call,rfl,calls⟩
    exact alive call calls member
  | _ => trivial

theorem guarded_initial (callers : Int → Prop) : Guarded callers {} := ⟨inOrder_initial,nofun,nofun⟩

/-- While the calling processes live, every `Acquire` that polls keeps its row exactly if no grant and no
cancellation takes a row for which another `Acquire` polls, and so if no two calls share their channel and branch. A
call with a row is granted the lock at its first poll after the rows before it are released. -/
theorem acquire_remembered_iff (schedule : List Action) (final : World) (runs : run step {} schedule = some final)
    (alive : ∀ call, .acquire call ∈ schedule ∨ .tryAcquire call ∈ schedule → .die call.pid ∉ schedule) :
    (Throughout step Remembered {} schedule ↔ Along step Unshared {} schedule) ∧
    (Along step Alone {} schedule → Throughout step Remembered {} schedule) ∧
    ∀ w, Remembered w → ∀ call ∈ w.calls, First w.queue call.channel call.branch →
      (tryPromote w.queue call.channel call.branch).1 = true := by
  have lasting := lasting_run alive
  have initial := guarded_initial (Calling schedule)
  have guarded : Throughout step (Guarded (Calling schedule)) {} schedule :=
    throughout_guarded _ (fun _ _ _ => guarded_step) initial lasting
  refine ⟨throughout_iff Unshared _ Remembered ?_ nofun guarded.along runs,fun alone => ?_,?_⟩
  · intro w action next remembered guarded stepped
    exact remembered_step remembered (step_motion guarded.ordered guarded.living stepped)
  · have held : Throughout step (fun w => Guarded (Calling schedule) w ∧ Remembered w ∧ Distinct w) {} schedule := by
      refine throughout_guarded _ ?_ ⟨initial,nofun,List.Pairwise.nil⟩ (lasting.and alone)
      rintro w action next ⟨guarded,remembered,distinct⟩ ⟨lasting,alone⟩ stepped
      have motion := step_motion guarded.ordered guarded.living stepped
      exact ⟨guarded_step guarded lasting stepped,(remembered_step remembered motion).mpr (distinct.unshared alone),
        distinct_step distinct alone motion⟩
    exact held.imp fun _ held => held.2.1
  · exact fun w remembered call member first => first_promoted (remembered call member) first

/-- Process 2 asks while process 1 builds, and is granted the lock when that is released. -/
theorem acquire_remembered_second :
    Throughout step Remembered {} [.acquire ⟨1,"build","a"⟩,.poll 0,.acquire ⟨2,"build","b"⟩,.poll 0,.cleanupStale,
      .release 0,.poll 0] ∧
    ∃ final, run step {} [.acquire ⟨1,"build","a"⟩,.poll 0,.acquire ⟨2,"build","b"⟩,.poll 0,.cleanupStale,
      .release 0,.poll 0] = some final ∧ final.holds.map (fun hold => hold.pid) = [2] := by
  have runs := (some_get (by decide +kernel : (run step {} [.acquire ⟨1,"build","a"⟩,.poll 0,
    .acquire ⟨2,"build","b"⟩,.poll 0,.cleanupStale,.release 0,.poll 0]).isSome = true)).symm
  exact ⟨(acquire_remembered_iff _ _ runs (by simp)).2.1 (by decide +kernel),_,runs,by decide +kernel⟩

/-- Two calls of one branch have one row. The first one takes it, and when it has released the lock the
second one polls on with no row in the table to promote. -/
theorem acquire_forgets_second :
    ∃ w, run step {} [.acquire ⟨1,"build","a"⟩,.acquire ⟨2,"build","a"⟩,.poll 0,.release 0] = some w ∧
      w.calls = [⟨2,"build","a"⟩] ∧ ¬ Remembered w ∧ (∀ e ∈ w.queue.rows, e.status = .done) ∧ step w (.poll 0) = some w := by
  decide +kernel

end Runs

end ApexPipeline.AgentLock
