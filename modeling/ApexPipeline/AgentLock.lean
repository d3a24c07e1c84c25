import ApexPipeline.AgentQueue

/-! The lock that the queue table stands for, with its processes. The daemon serves their calls in any order; a
process can die at any time, and its id is not used again. -/
namespace ApexPipeline.AgentLock
open AgentQueue Execution List Option

structure Call where
  pid : Int
  channel : String
  branch : String
  deriving DecidableEq, Repr

/-- A process between a successful acquisition and its own `Release`, with the child
that it has handed the lock to. -/
structure Hold extends Call where
  child : Option Int := none
  deriving DecidableEq, Repr

structure World where
  queue : Queue := {}
  dead : List Int := []
  calls : List Call := []
  holds : List Hold := []
  deriving DecidableEq, Repr

/-- `IsProcessAlive`. -/
def World.alive (w : World) (pid : Int) : Bool := 0 < pid ∧ pid ∉ w.dead

inductive Action where
  | acquire (call : Call)
  | tryAcquire (call : Call)
  | poll (index : Nat)
  | cancel (index : Nat)
  /-- A polling call returns an error of the database and leaves its row. -/
  | fail (index : Nat)
  | cleanupStale
  | updatePID (index : Nat) (child : Int)
  | release (index : Nat)
  | die (pid : Int)
  deriving DecidableEq, Repr

def step (w : World) : Action → Option World
  | .acquire call =>
    if w.alive call.pid then
      some { w with queue := perform w.queue (.acquire call.channel call.branch call.pid), calls := w.calls ++ [call] }
    else none
  | .tryAcquire call =>
    if w.alive call.pid then
      let (acquired,queue) := tryAcquire w.queue call.channel call.branch call.pid
      some { w with queue, holds := if acquired then w.holds ++ [{ call with }] else w.holds }
    else none
  | .poll index => w.calls[index]?.map fun call =>
    let (promoted,queue) := tryPromote w.queue call.channel call.branch
    if promoted then { w with queue, calls := w.calls.eraseIdx index, holds := w.holds ++ [{ call with }] }
    else { w with queue }
  | .cancel index => w.calls[index]?.map fun call =>
    { w with queue := perform w.queue (.cancel call.channel call.branch), calls := w.calls.eraseIdx index }
  | .fail index => w.calls[index]?.map fun _ => { w with calls := w.calls.eraseIdx index }
  | .cleanupStale => some { w with queue := perform w.queue (.cleanupStale fun e => w.alive e.pid) }
  | .updatePID index child => w.holds[index]?.bind fun hold =>
    -- The child is started first; it can have ended by now.
    if w.alive hold.pid ∧ hold.child = none ∧ 0 < child then
      some { w with
        queue := perform w.queue (.updatePID hold.channel hold.branch child)
        holds := w.holds.set index { hold with child := some child } }
    else none
  | .release index => w.holds[index]?.bind fun hold =>
    if w.alive hold.pid ∧ ∀ child, hold.child = some child → w.alive child = false then
      some { w with queue := perform w.queue (.release hold.channel), holds := w.holds.eraseIdx index }
    else none
  | .die pid => some { w with dead := pid :: w.dead }

/-- No two live processes are both between an acquisition of a channel and their `Release` of it. -/
def Exclusive (w : World) : Prop :=
  ∀ a ∈ w.holds, ∀ b ∈ w.holds, w.alive a.pid → w.alive b.pid → a.channel = b.channel → a.pid = b.pid

instance (w : World) : Decidable (Exclusive w) := inferInstanceAs (Decidable (∀ _ ∈ _, _))

structure Locked (w : World) : Prop where
  single : w.holds.Pairwise fun a b => w.alive a.pid → w.alive b.pid → a.channel ≠ b.channel
  active : ∀ hold ∈ w.holds, w.alive hold.pid → hasActiveEntry w.queue hold.channel

/-- No clean-up finds a dead process in the row of a live holder. -/
def Kept (w : World) : Action → Prop
  | .cleanupStale => ∀ hold ∈ w.holds, w.alive hold.pid → ∀ e ∈ w.queue.rows, e.channel = hold.channel →
      e.status = .active → w.alive e.pid
  | _ => True

/-- A call is granted a row of its own process, and clean-ups do not run between the end of a
holder's child and the holder's `Release`. -/
def Prudent (w : World) : Action → Prop
  | .tryAcquire call => (tryAcquire w.queue call.channel call.branch call.pid).1 →
      grantedPid w.queue call.channel call.pid = call.pid
  | .poll index => ∀ call, w.calls[index]? = some call → (tryPromote w.queue call.channel call.branch).1 →
      grantedPid w.queue call.channel call.pid = call.pid
  | .cleanupStale => ∀ hold ∈ w.holds, w.alive hold.pid → ∀ child, hold.child = some child → w.alive child
  | _ => True

inductive Turn (w : World) : Action → World → Prop
  | quiet (queue : Queue) (calls : List Call) (passive : action ≠ .cleanupStale)
      (same : ∀ e, Active queue e ↔ Active w.queue e) : Turn w action { w with queue, calls }
  | granted (call : Call) (queue : Queue) (calls : List Call) (passive : action ≠ .cleanupStale)
      (grant : Grant w.queue queue call.channel call.branch pid) (own : Prudent w action → pid = call.pid) :
      Turn w action { w with queue, calls, holds := w.holds ++ [{ call with }] }
  | cleaned : Turn w .cleanupStale { w with queue := perform w.queue (.cleanupStale fun e => w.alive e.pid) }
  | transferred (index : Nat) (hold : Hold) (child : Int) (there : w.holds[index]? = some hold)
      (living : w.alive hold.pid = true) :
      Turn w (.updatePID index child) { w with
        queue := perform w.queue (.updatePID hold.channel hold.branch child)
        holds := w.holds.set index { hold with child := some child } }
  | released (index : Nat) (hold : Hold) (there : w.holds[index]? = some hold) (living : w.alive hold.pid = true) :
      Turn w (.release index) { w with
        queue := perform w.queue (.release hold.channel), holds := w.holds.eraseIdx index }
  | died (pid : Int) : Turn w (.die pid) { w with dead := pid :: w.dead }

section Steps
variable {w next : World} {action : Action}

theorem step_turn (ordered : InOrder w.queue) (stepped : step w action = some next) : Turn w action next := by
  cases action with
  | acquire call =>
    simp only [step] at stepped
    obtain ⟨_,rfl⟩ := of_guard stepped
    exact .quiet _ _ nofun fun e => active_register
  | tryAcquire call =>
    simp only [step] at stepped
    obtain ⟨_,rfl⟩ := of_guard stepped
    cases acquired : (tryAcquire w.queue call.channel call.branch call.pid).1 with
    | true =>
      exact .granted call _ _ nofun (tryAcquire_granted ordered acquired) fun prudent => prudent acquired
    | false =>
      refine .quiet _ _ nofun fun e => ?_
      rw [tryAcquire_refused acquired]
      exact active_register
  | poll index =>
    obtain ⟨call,there,stepped⟩ := map_eq_some_iff.mp stepped
    cases promoted : (tryPromote w.queue call.channel call.branch).1 with
    | true =>
      simp only [promoted,if_true] at stepped
      cases stepped
      rcases @tryPromote_cases w.queue call.channel call.branch with same | ⟨free,next,same,promotion⟩
      · cases (congrArg Prod.fst same).symm.trans promoted
      rw [same]
      exact .granted call _ _ nofun (promotion.grant ordered free) fun prudent => prudent call there promoted
    | false =>
      simp only [promoted,Bool.false_eq_true,if_false] at stepped
      cases stepped
      rw [tryPromote_refused promoted]
      exact .quiet _ _ nofun fun e => Iff.rfl
  | cancel index =>
    obtain ⟨call,there,rfl⟩ := map_eq_some_iff.mp stepped
    exact .quiet _ _ nofun fun e => active_cancel
  | fail index =>
    obtain ⟨call,there,rfl⟩ := map_eq_some_iff.mp stepped
    exact .quiet _ _ nofun fun e => Iff.rfl
  | cleanupStale =>
    cases stepped
    exact .cleaned
  | updatePID index child =>
    obtain ⟨hold,there,stepped⟩ := bind_eq_some_iff.mp stepped
    obtain ⟨permitted,rfl⟩ := of_guard stepped
    exact .transferred index hold child there permitted.1
  | release index =>
    obtain ⟨hold,there,stepped⟩ := bind_eq_some_iff.mp stepped
    obtain ⟨permitted,rfl⟩ := of_guard stepped
    exact .released index hold there permitted.1
  | die pid =>
    cases stepped
    exact .died pid

theorem step_queue (stepped : step w action = some next) :
    next.queue = w.queue ∨ ∃ operation, next.queue = perform w.queue operation := by
  cases action with
  | acquire call =>
    simp only [step] at stepped
    obtain ⟨_,rfl⟩ := of_guard stepped
    exact .inr ⟨.acquire call.channel call.branch call.pid,rfl⟩
  | tryAcquire call =>
    simp only [step] at stepped
    obtain ⟨_,rfl⟩ := of_guard stepped
    exact .inr ⟨.tryAcquire call.channel call.branch call.pid,rfl⟩
  | poll index =>
    obtain ⟨call,there,rfl⟩ := map_eq_some_iff.mp stepped
    refine .inr ⟨.tryPromote call.channel call.branch,?_⟩
    dsimp only
    split <;> rfl
  | cancel index =>
    obtain ⟨call,there,rfl⟩ := map_eq_some_iff.mp stepped
    exact .inr ⟨.cancel call.channel call.branch,rfl⟩
  | fail index =>
    obtain ⟨call,there,rfl⟩ := map_eq_some_iff.mp stepped
    exact .inl rfl
  | cleanupStale =>
    cases stepped
    exact .inr ⟨.cleanupStale fun e => w.alive e.pid,rfl⟩
  | updatePID index child =>
    obtain ⟨hold,there,stepped⟩ := bind_eq_some_iff.mp stepped
    obtain ⟨-,rfl⟩ := of_guard stepped
    exact .inr ⟨.updatePID hold.channel hold.branch child,rfl⟩
  | release index =>
    obtain ⟨hold,there,stepped⟩ := bind_eq_some_iff.mp stepped
    obtain ⟨-,rfl⟩ := of_guard stepped
    exact .inr ⟨.release hold.channel,rfl⟩
  | die pid =>
    cases stepped
    exact .inl rfl

theorem ordered_step (w : World) (action : Action) (next : World) (ordered : InOrder w.queue)
    (stepped : step w action = some next) : InOrder next.queue := by
  rcases step_queue stepped with same | ⟨operation,performed⟩
  · rw [same]
    exact ordered
  · rw [performed]
    exact inOrder_step _ operation _ ordered rfl

theorem Locked.exclusive (locked : Locked w) : Exclusive w := by
  intro a left b right first second same
  have symmetric : Std.Symm fun a b : Hold => w.alive a.pid → w.alive b.pid → a.channel ≠ b.channel :=
    ⟨fun a b apart left right same => apart right left same.symm⟩
  by_contra different
  exact locked.single.forall left right (fun equal => different (equal ▸ rfl)) first second same

theorem Locked.alone (locked : Locked w) (there : w.holds[index]? = some hold)
    (living : w.alive hold.pid = true) (member : other ∈ w.holds.eraseIdx index)
    (also : w.alive other.pid = true) :
    other.channel ≠ hold.channel := by
  obtain ⟨inside,rfl⟩ := List.getElem?_eq_some_iff.mp there
  have symmetric : ∀ {a b : Hold}, (w.alive a.pid → w.alive b.pid → a.channel ≠ b.channel) →
      w.alive b.pid → w.alive a.pid → b.channel ≠ a.channel := fun apart left right same => apart right left same.symm
  have perm := getElem_cons_eraseIdx_perm inside
  have single := (perm.pairwise_iff symmetric).mpr locked.single
  exact fun same => (pairwise_cons.mp single).1 other member living also same.symm

theorem alive_of_alive (living : World.alive { w with dead := pid :: w.dead } other = true) : w.alive other = true := by
  simp only [World.alive,mem_cons,not_or,decide_eq_true_eq] at living ⊢
  exact ⟨living.1,living.2.2⟩

theorem transferred_calls {holds : List Hold} (child : Int) (there : holds[index]? = some hold) :
    (holds.set index { hold with child := some child }).map Hold.toCall = holds.map Hold.toCall := by
  have mapped : (holds.map Hold.toCall)[index]? = some hold.toCall := by rw [List.getElem?_map,there,map_some]
  obtain ⟨inside,equal⟩ := List.getElem?_eq_some_iff.mp mapped
  rw [List.map_set]
  dsimp only
  rw [← equal,set_getElem_self]

theorem Turn.locked (turn : Turn w action next) (passive : action ≠ .cleanupStale) (locked : Locked w) : Locked next := by
  cases turn with
  | quiet queue calls _ same =>
    refine ⟨locked.single,fun hold member living => ?_⟩
    obtain ⟨e,active,here⟩ := hasActiveEntry_active.mp (locked.active hold member living)
    exact hasActiveEntry_active.mpr ⟨e,(same e).mpr active,here⟩
  | granted call queue calls _ grant own =>
    refine ⟨pairwise_append.mpr ⟨locked.single,pairwise_singleton _ _,?_⟩,?_⟩
    · intro a old b new living _ same
      cases mem_singleton.mp new
      have held := locked.active a old living
      rw [same] at held
      exact grant.was_free held
    · intro hold member living
      rcases mem_concat member with old | rfl
      · exact grant.keeps (locked.active hold old living)
      · exact grant.locks
  | cleaned => exact absurd rfl passive
  | transferred index hold child there living =>
    have same := transferred_calls child there
    constructor
    · have single : (w.holds.map Hold.toCall).Pairwise fun a b => w.alive a.pid → w.alive b.pid → a.channel ≠ b.channel :=
        pairwise_map.mpr locked.single
      rw [← same] at single
      exact pairwise_map.mp single
    · intro other member also
      have inside : other.toCall ∈ (w.holds.set index { hold with child := some child }).map Hold.toCall :=
        mem_map_of_mem member
      rw [same] at inside
      obtain ⟨old,was,equal⟩ := mem_map.mp inside
      rw [← equal] at also ⊢
      exact updatePID_locks child (locked.active old was also)
  | released index hold there living =>
    refine ⟨locked.single.sublist (eraseIdx_sublist _ _),fun other member also => ?_⟩
    obtain ⟨e,active,here⟩ := hasActiveEntry_active.mp (locked.active other (mem_of_mem_eraseIdx member) also)
    refine hasActiveEntry_active.mpr ⟨e,active_release.mpr ⟨active,?_⟩,here⟩
    rw [here]
    exact locked.alone there living member also
  | died pid =>
    refine ⟨locked.single.imp fun apart left right => ?_,fun hold member living => ?_⟩
    · exact apart (alive_of_alive left) (alive_of_alive right)
    · exact locked.active hold member (alive_of_alive living)

/-- A clean-up keeps holders and rows together exactly if it spares the rows of live holders. -/
theorem cleaned_locked (ordered : InOrder w.queue) (locked : Locked w) :
    Locked { w with queue := perform w.queue (.cleanupStale fun e => w.alive e.pid) } ↔ Kept w .cleanupStale := by
  constructor
  · intro after hold member living e inside here active
    obtain ⟨kept,remains,there⟩ := hasActiveEntry_active.mp (after.active hold member living)
    obtain ⟨was,spared⟩ := (active_cleanupStale ordered _).mp remains
    cases active_unique ordered was ⟨inside,active⟩ (there.trans here.symm)
    exact spared
  · intro kept
    refine ⟨locked.single,fun hold member living => ?_⟩
    obtain ⟨e,active,here⟩ := hasActiveEntry_active.mp (locked.active hold member living)
    have spared := kept hold member living e active.1 here active.2
    exact hasActiveEntry_active.mpr ⟨e,(active_cleanupStale ordered _).mpr ⟨active,spared⟩,here⟩

theorem locked_step (w : World) (action : Action) (next : World) (locked : Locked w) (ordered : InOrder w.queue)
    (stepped : step w action = some next) : Locked next ↔ Kept w action := by
  have turn := step_turn ordered stepped
  by_cases passive : action = .cleanupStale
  · subst passive
    cases stepped
    exact cleaned_locked ordered locked
  have spared : Kept w action := by
    cases action with
    | cleanupStale => exact absurd rfl passive
    | _ => trivial
  exact ⟨fun _ => spared,fun _ => turn.locked passive locked⟩

def Owned (w : World) : Prop :=
  ∀ hold ∈ w.holds, w.alive hold.pid → ∀ e, Active w.queue e → e.channel = hold.channel →
    e.branch = hold.branch ∧ e.pid = hold.child.getD hold.pid

theorem Owned.kept (owned : Owned w) (prudent : Prudent w action) : Kept w action := by
  cases action with
  | cleanupStale =>
    intro hold member living e inside here active
    have named := (owned hold member living e ⟨inside,active⟩ here).2
    cases child : hold.child with
    | none =>
      rw [named,child]
      exact living
    | some pid =>
      rw [named,child]
      exact prudent hold member living pid child
  | _ => trivial

theorem Turn.owned (turn : Turn w action next) (ordered : InOrder w.queue) (locked : Locked w) (prudent : Prudent w action)
    (owned : Owned w) : Owned next := by
  cases turn with
  | quiet queue calls _ same => exact fun hold member living e active => owned hold member living e ((same e).mp active)
  | granted call queue calls _ grant own =>
    obtain ⟨row,here,branch,pid,rows⟩ := grant.row
    intro hold member living e active channel
    rcases mem_concat member with old | rfl
    · rcases (rows e).mp active with was | rfl
      · exact owned hold old living e was channel
      · have held := locked.active hold old living
        rw [← channel,here] at held
        exact absurd held grant.was_free
    · rcases (rows e).mp active with was | rfl
      · exact absurd channel (grant.free e was)
      · exact ⟨branch,pid.trans (own prudent)⟩
  | cleaned =>
    intro hold member living e active
    exact owned hold member living e ((active_cleanupStale ordered _).mp active).1
  | transferred index hold child there living =>
    obtain ⟨inside,-⟩ := List.getElem?_eq_some_iff.mp there
    intro other member also e active channel
    have member := (set_perm_cons_eraseIdx inside _).mem_iff.mp member
    rcases mem_cons.mp member with rfl | another
    · rcases active_updatePID.mp active with ⟨was,spared⟩ | ⟨old,was,chosen,rfl⟩
      · have own := owned hold (mem_of_getElem? there) living e was channel
        exact absurd ⟨channel,own.1⟩ spared
      · exact ⟨chosen.2,rfl⟩
    · have apart := locked.alone there living another also
      rcases active_updatePID.mp active with ⟨was,-⟩ | ⟨old,was,chosen,rfl⟩
      · exact owned other (mem_of_mem_eraseIdx another) also e was channel
      · exact absurd (channel.symm.trans chosen.1) apart
  | released index hold there living =>
    intro other member also e active
    exact owned other (mem_of_mem_eraseIdx member) also e (active_release.mp active).1
  | died pid => exact fun hold member living => owned hold member (alive_of_alive living)

end Steps

theorem locked_initial : Locked {} := ⟨.nil,nofun⟩

/-- Holders and rows stay together exactly if every clean-up spares the rows of live holders, and then the lock is
exclusive; so it is if every call is granted a row of its own process and no clean-up comes between the end of a
child and the `Release` of its live holder. -/
theorem lock_exclusive_iff (schedule : List Action) (final : World) (runs : run step {} schedule = some final) :
    (Throughout step Locked {} schedule ↔ Along step Kept {} schedule) ∧
    (Along step Kept {} schedule → Throughout step Exclusive {} schedule) ∧
    (Along step Prudent {} schedule → Throughout step Exclusive {} schedule) := by
  have initial : InOrder ({} : World).queue := inOrder_initial
  have ordered := along_invariant step (fun w => InOrder w.queue) ordered_step initial schedule
  have exact := throughout_iff Kept (fun w _ => InOrder w.queue) Locked locked_step locked_initial ordered runs
  refine ⟨exact,fun kept => (exact.mpr kept).imp fun _ => Locked.exclusive,fun prudent => ?_⟩
  have held : Throughout step (fun w => InOrder w.queue ∧ Locked w ∧ Owned w) {} schedule := by
    refine throughout_guarded _ ?_ ⟨initial,locked_initial,nofun⟩ prudent
    rintro w action next ⟨ordered,locked,owned⟩ prudent stepped
    have kept := owned.kept prudent
    exact ⟨ordered_step w action next ordered stepped,(locked_step w action next locked ordered stepped).mpr kept,
      (step_turn ordered stepped).owned ordered locked prudent owned⟩
  exact held.imp fun _ held => held.2.1.exclusive

section Runs

instance (w : World) : (action : Action) → Decidable (Prudent w action)
  | .tryAcquire call =>
    inferInstanceAs (Decidable ((tryAcquire w.queue call.channel call.branch call.pid).1 → grantedPid _ _ _ = call.pid))
  | .poll index => inferInstanceAs (Decidable (∀ call, w.calls[index]? = some call → _ → _ = _))
  | .cleanupStale => inferInstanceAs (Decidable (∀ hold ∈ w.holds, _ → ∀ child, hold.child = some child → _))
  | .acquire _ | .cancel _ | .fail _ | .updatePID _ _ | .release _ | .die _ => isTrue trivial

def handover : List Action := [.acquire ⟨1,"build","a"⟩,.poll 0,.updatePID 0 10,.tryAcquire ⟨2,"build","c"⟩,.cleanupStale,
  .die 10,.release 0,.tryAcquire ⟨2,"build","c"⟩]

theorem lock_exclusive_handover : Throughout step Exclusive {} handover ∧
    ∃ final, run step {} handover = some final ∧ final.holds.map (fun hold => hold.pid) = [2] := by
  obtain ⟨final,runs,holds⟩ : ∃ final, run step {} handover = some final ∧
      final.holds.map (fun hold => hold.pid) = [2] := by decide +kernel
  have prudent : Along step Prudent {} handover := by decide +kernel
  exact ⟨(lock_exclusive_iff handover final runs).2.2 prudent,final,runs,holds⟩

/-- The child 10 of process 1 has ended, and before process 1 gets to its `Release` the clean-up of process 2 removes
its row: both hold the lock. The `Release` ends the lock of process 2, and process 3 gets it too. -/
theorem cleanup_frees_held_lock :
    ∃ both, run step {} [.acquire ⟨1,"build","a"⟩,.poll 0,.updatePID 0 10,.acquire ⟨2,"build","c"⟩,.die 10,
        .cleanupStale,.poll 0] = some both ∧ ¬ Exclusive both ∧
      ∃ later, run step both [.updatePID 1 20,.release 0,.acquire ⟨3,"build","e"⟩,.poll 0] = some later ∧
        later.holds.map (fun hold => hold.pid) = [2,3] ∧ ¬ Exclusive later := by
  decide +kernel

end Runs

end ApexPipeline.AgentLock
