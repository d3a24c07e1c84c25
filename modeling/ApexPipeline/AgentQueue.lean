import ApexPipeline.Execution

/-! The queue table of the agent daemon and its transactions. One that fails is rolled back, so it is no step.
Whether a process lives is an answer of the operating system and is left open here, row by row. -/
namespace ApexPipeline.AgentQueue
open Execution List

inductive Status where
  | waiting
  | active
  | done
  deriving DecidableEq, Repr

structure Entry where
  id : Nat
  channel : String
  branch : String
  pid : Int
  status : Status
  deriving DecidableEq, Repr

/-- The rows in the order of insertion. Ids come from a counter that never goes back. -/
structure Queue where
  rows : List Entry := []
  lastId : Nat := 0
  deriving DecidableEq, Repr

def Queue.update (q : Queue) (selected : Entry → Bool) (change : Entry → Entry) : Queue :=
  { q with rows := q.rows.map fun e => if selected e then change e else e }

def Queue.delete (q : Queue) (selected : Entry → Bool) : Queue :=
  { q with rows := q.rows.filter fun e => !selected e }

def insertEntryTx (q : Queue) (channel branch : String) (pid : Int) (status : Status) : Queue where
  rows := q.rows ++ [⟨q.lastId + 1,channel,branch,pid,status⟩]
  lastId := q.lastId + 1

def hasActiveEntry (q : Queue) (channel : String) : Bool :=
  0 < q.rows.countP fun e => e.channel = channel ∧ e.status = .active

def hasWaitingEntryForBranch (q : Queue) (channel branch : String) : Bool :=
  0 < q.rows.countP fun e => e.channel = channel ∧ e.branch = branch ∧ e.status = .waiting

def firstWaitingTx (q : Queue) (channel : String) : Option Entry :=
  (q.rows.filter fun e => e.channel = channel ∧ e.status = .waiting).argmin Entry.id

/-- The first transaction of `Acquire`, and what `TryAcquire` does when it must wait. -/
def register (q : Queue) (channel branch : String) (pid : Int) : Queue :=
  if hasWaitingEntryForBranch q channel branch then q else insertEntryTx q channel branch pid .waiting

def tryAcquire (q : Queue) (channel branch : String) (pid : Int) : Bool × Queue :=
  if hasActiveEntry q channel then
    (false,register q channel branch pid)
  else match firstWaitingTx q channel with
    | some first =>
      if first.branch ≠ branch then
        (false,register q channel branch pid)
      else
        -- The row keeps the pid of the call that inserted it.
        (true,q.update (fun e => e.id = first.id) fun e => { e with status := .active })
    | none => (true,insertEntryTx q channel branch pid .active)

def tryPromote (q : Queue) (channel branch : String) : Bool × Queue :=
  if hasActiveEntry q channel then
    (false,q)
  else match firstWaitingTx q channel with
    | none => (false,q)
    | some first =>
      if first.branch ≠ branch then
        (false,q)
      else
        let selected : Entry → Bool := fun e => e.id = first.id ∧ e.status = .waiting
        (0 < q.rows.countP selected,q.update selected fun e => { e with status := .active })

/-- `UpdatePID` found no row to update: "no active entry for channel". -/
inductive Error where
  | noActiveEntry (channel : String)
  deriving DecidableEq, Repr

def updatePID (q : Queue) (channel branch : String) (newPID : Int) : Except Error Queue :=
  let selected : Entry → Bool := fun e => e.channel = channel ∧ e.branch = branch ∧ e.status = .active
  if q.rows.countP selected = 0 then
    .error (.noActiveEntry channel)
  else
    .ok (q.update selected fun e => { e with pid := newPID })

def release (q : Queue) (channel : String) : Queue :=
  q.update (fun e => e.channel = channel ∧ e.status = .active) fun e => { e with status := .done }

/-- The rows are read first; then each dead one is deleted by its id. -/
def cleanupStale (alive : Entry → Bool) (q : Queue) : Nat × Queue :=
  (q.rows.filter fun e => e.status = .active ∨ e.status = .waiting).foldl
    (fun (count,q) r => if alive r then (count,q) else (count + 1,q.delete fun e => e.id = r.id)) (0,q)

/-- What `Acquire` does to the table when its context ends. -/
def cancel (q : Queue) (channel branch : String) : Queue :=
  q.delete fun e => e.channel = channel ∧ e.branch = branch ∧ e.status = .waiting

inductive Operation where
  | tryAcquire (channel branch : String) (pid : Int)
  | acquire (channel branch : String) (pid : Int)
  | tryPromote (channel branch : String)
  | updatePID (channel branch : String) (newPID : Int)
  | release (channel : String)
  | cleanupStale (alive : Entry → Bool)
  | cancel (channel branch : String)

def perform (q : Queue) : Operation → Queue
  | .tryAcquire channel branch pid => (tryAcquire q channel branch pid).2
  | .acquire channel branch pid => register q channel branch pid
  | .tryPromote channel branch => (tryPromote q channel branch).2
  | .updatePID channel branch newPID =>
    match updatePID q channel branch newPID with
    | .ok next => next
    | .error _ => q
  | .release channel => release q channel
  | .cleanupStale alive => (cleanupStale alive q).2
  | .cancel channel branch => cancel q channel branch

def step (q : Queue) (operation : Operation) : Option Queue := some (perform q operation)

structure InOrder (q : Queue) : Prop where
  numbered : ∀ e ∈ q.rows, e.id ≤ q.lastId
  increasing : q.rows.Pairwise fun a b => a.id < b.id
  oneActive : q.rows.Pairwise fun a b => a.channel = b.channel → a.status = .active → b.status ≠ .active
  oneWaiting : q.rows.Pairwise fun a b =>
    a.channel = b.channel → a.branch = b.branch → a.status = .waiting → b.status ≠ .waiting

/-- A row that is active now and was not before has found its channel free and
nobody waiting before it. -/
def Granted (q next : Queue) : Prop :=
  ∀ e ∈ next.rows, e.status = .active → (∃ before ∈ q.rows, before.id = e.id ∧ before.status = .active) ∨
    ∀ other ∈ q.rows, other.channel = e.channel →
      other.status ≠ .active ∧ (other.status = .waiting → ¬ other.id < e.id)

def Final (q next : Queue) : Prop :=
  ∀ e ∈ q.rows, e.status = .done → e ∈ next.rows ∧ ∀ e' ∈ next.rows, e'.id = e.id → e' = e

section Queries
variable {q : Queue} {channel branch : String} {first : Entry}

theorem hasActiveEntry_iff : hasActiveEntry q channel = true ↔ ∃ e ∈ q.rows, e.channel = channel ∧ e.status = .active := by
  simp [hasActiveEntry]

theorem no_active (free : ¬ hasActiveEntry q channel = true) (e : Entry) (member : e ∈ q.rows)
    (here : e.channel = channel) : e.status ≠ .active := by
  intro active
  exact free (hasActiveEntry_iff.mpr ⟨e,member,here,active⟩)

theorem hasWaitingEntryForBranch_iff : hasWaitingEntryForBranch q channel branch = true ↔
    ∃ e ∈ q.rows, e.channel = channel ∧ e.branch = branch ∧ e.status = .waiting := by
  simp [hasWaitingEntryForBranch]

theorem firstWaitingTx_some (found : firstWaitingTx q channel = some first) :
    (first ∈ q.rows ∧ first.channel = channel ∧ first.status = .waiting) ∧
    ∀ e ∈ q.rows, e.channel = channel → e.status = .waiting → first.id ≤ e.id := by
  refine ⟨by simpa using argmin_mem found,?_⟩
  intro e member here waiting
  exact le_of_mem_argmin (by simp [member,here,waiting]) found

theorem firstWaitingTx_none (found : firstWaitingTx q channel = none) (e : Entry) (member : e ∈ q.rows)
    (here : e.channel = channel) : e.status ≠ .waiting := by
  have empty := argmin_eq_none.mp found
  intro waiting
  have waits : e ∈ q.rows.filter fun e => e.channel = channel ∧ e.status = .waiting := by
    simp [member,here,waiting]
  rw [empty] at waits
  cases waits

end Queries

theorem same_id {q : Queue} (ordered : InOrder q) (first : e ∈ q.rows) (second : e' ∈ q.rows)
    (same : e.id = e'.id) : e = e' := by
  have distinct : (q.rows.map Entry.id).Nodup :=
    pairwise_map.mpr (ordered.increasing.imp fun less => Nat.ne_of_lt less)
  exact inj_on_of_nodup_map distinct first second same

inductive Change (q : Queue) : Queue → Prop
  | nothing : Change q q
  | queued (channel branch : String) (pid : Int)
      (new : ∀ e ∈ q.rows, e.channel = channel → e.branch = branch → e.status ≠ .waiting) :
      Change q (insertEntryTx q channel branch pid .waiting)
  | taken (channel branch : String) (pid : Int) (free : ∀ e ∈ q.rows, e.channel = channel → e.status ≠ .active)
      (first : ∀ e ∈ q.rows, e.channel = channel → e.status ≠ .waiting) :
      Change q (insertEntryTx q channel branch pid .active)
  | promoted (first : Entry) (selected : Entry → Bool) (only : ∀ e ∈ q.rows, selected e = true ↔ e = first)
      (present : first ∈ q.rows) (waiting : first.status = .waiting)
      (free : ∀ e ∈ q.rows, e.channel = first.channel → e.status ≠ .active)
      (least : ∀ e ∈ q.rows, e.channel = first.channel → e.status = .waiting → first.id ≤ e.id) :
      Change q (q.update selected fun e => { e with status := .active })
  | transferred (selected : Entry → Bool) (pid : Int) (held : ∀ e, selected e = true → e.status = .active) :
      Change q (q.update selected fun e => { e with pid })
  | released (selected : Entry → Bool) (held : ∀ e, selected e = true → e.status = .active) :
      Change q (q.update selected fun e => { e with status := .done })
  | removed (selected : Entry → Bool) (unfinished : ∀ e ∈ q.rows, selected e = true → e.status ≠ .done) :
      Change q (q.delete selected)

section Transactions
variable {q next : Queue} {channel branch : String} {pid : Int}

theorem register_change : Change q (register q channel branch pid) := by
  rw [register]
  split
  · exact .nothing
  · rename_i absent
    refine .queued _ _ _ fun e member here same waiting => ?_
    exact absent (hasWaitingEntryForBranch_iff.mpr ⟨e,member,here,same,waiting⟩)

/-- The first in line for the channel takes it. -/
def Promotion (q next : Queue) (channel branch : String) : Prop :=
  ∃ first selected, firstWaitingTx q channel = some first ∧ first.branch = branch ∧
    (InOrder q → ∀ e ∈ q.rows, selected e = true ↔ e = first) ∧
    next = q.update selected fun e => { e with status := .active }

theorem first_only (ordered : InOrder q) (found : firstWaitingTx q channel = some first) {selected : Entry → Bool}
    (byId : ∀ e, selected e = true → e.id = first.id) (chosen : selected first = true) :
    ∀ e ∈ q.rows, selected e = true ↔ e = first := by
  intro e member
  constructor
  · intro also
    exact same_id ordered member (firstWaitingTx_some found).1.1 (byId e also)
  · rintro rfl
    exact chosen

theorem tryAcquire_cases : tryAcquire q channel branch pid = (false,register q channel branch pid) ∨
    ¬hasActiveEntry q channel = true ∧ ∃ next, tryAcquire q channel branch pid = (true,next) ∧
      (Promotion q next channel branch ∨
        firstWaitingTx q channel = none ∧ next = insertEntryTx q channel branch pid .active) := by
  unfold tryAcquire
  split
  · exact .inl rfl
  rename_i free
  split
  · rename_i first found
    split
    · exact .inl rfl
    · rename_i own
      refine .inr ⟨free,_,rfl,.inl ⟨first,_,found,not_not.mp own,fun ordered => ?_,rfl⟩⟩
      exact first_only ordered found (fun _ => of_decide_eq_true) (decide_eq_true rfl)
  · exact .inr ⟨free,_,rfl,.inr ⟨‹_›,rfl⟩⟩

/-- The row that was found is still waiting, so the compare-and-set always succeeds. -/
theorem tryPromote_cases : tryPromote q channel branch = (false,q) ∨
    ¬hasActiveEntry q channel = true ∧ ∃ next, tryPromote q channel branch = (true,next) ∧ Promotion q next channel branch := by
  unfold tryPromote
  split
  · exact .inl rfl
  rename_i free
  split
  · exact .inl rfl
  rename_i first found
  split
  · exact .inl rfl
  · rename_i own
    obtain ⟨present,-,waiting⟩ := (firstWaitingTx_some found).1
    have chosen : decide (first.id = first.id ∧ first.status = .waiting) = true := decide_eq_true ⟨rfl,waiting⟩
    refine .inr ⟨free,_,Prod.ext (decide_eq_true (countP_pos_iff.mpr ⟨first,present,chosen⟩)) rfl,
      first,_,found,not_not.mp own,fun ordered => ?_,rfl⟩
    exact first_only ordered found (fun _ also => (of_decide_eq_true also).1) chosen

theorem Promotion.change (promotion : Promotion q next channel branch) (ordered : InOrder q)
    (free : ¬ hasActiveEntry q channel = true) : Change q next := by
  obtain ⟨first,selected,found,_,only,rfl⟩ := promotion
  obtain ⟨⟨present,rfl,waiting⟩,least⟩ := firstWaitingTx_some found
  exact .promoted first selected (only ordered) present waiting (no_active free) least

theorem tryAcquire_change (ordered : InOrder q) : Change q (tryAcquire q channel branch pid).2 := by
  rcases @tryAcquire_cases q channel branch pid with same | ⟨free,next,same,promotion | ⟨found,rfl⟩⟩ <;> rw [same]
  · exact register_change
  · exact promotion.change ordered free
  · exact .taken _ _ _ (no_active free) (firstWaitingTx_none found)

theorem tryPromote_change (ordered : InOrder q) : Change q (tryPromote q channel branch).2 := by
  rcases @tryPromote_cases q channel branch with same | ⟨free,next,same,promotion⟩ <;> rw [same]
  · exact .nothing
  · exact promotion.change ordered free

theorem updatePID_change (updated : updatePID q channel branch pid = .ok next) : Change q next := by
  rw [updatePID] at updated
  split at updated <;> cases updated
  exact .transferred _ _ fun e chosen => (of_decide_eq_true chosen).2.2

theorem release_change : Change q (release q channel) :=
  .released _ fun _ chosen => (of_decide_eq_true chosen).2

theorem cancel_change : Change q (cancel q channel branch) := by
  refine .removed _ fun e _ chosen finished => ?_
  have waiting := (of_decide_eq_true chosen).2.2
  rw [finished] at waiting
  cases waiting

theorem delete_each (alive : Entry → Bool) (entries : List Entry) (count : Nat) (q : Queue) :
    (entries.foldl (fun (count,q) r => if alive r then (count,q) else (count + 1,q.delete fun e => e.id = r.id))
      (count,q)).2 = q.delete fun e => entries.any fun r => !alive r && e.id = r.id := by
  induction entries generalizing count q with
  | nil => simp [Queue.delete]
  | cons r rest ih =>
    by_cases living : alive r = true
    · simp only [foldl_cons,if_pos living]
      rw [ih]
      simp [living]
    · simp only [foldl_cons,if_neg living]
      rw [ih]
      simp [Queue.delete,filter_filter,Bool.and_comm,living]

variable (ordered : InOrder q)
include ordered

theorem cleanupStale_delete (alive : Entry → Bool) :
    (cleanupStale alive q).2.rows = q.rows.filter fun e => e.status = .done ∨ alive e = true := by
  rw [cleanupStale,delete_each,Queue.delete]
  refine filter_congr fun e member => ?_
  rw [Bool.eq_iff_iff]
  simp only [Bool.not_eq_true',any_eq_false,mem_filter,decide_eq_true_eq,Bool.and_eq_true,and_imp,not_and]
  constructor
  · intro kept
    by_cases living : alive e = true
    · exact .inr living
    have closed : ¬ (e.status = .active ∨ e.status = .waiting) := by
      intro opened
      exact kept e member opened (Bool.eq_false_iff.mpr living) rfl
    cases status : e.status with
    | done => exact .inl rfl
    | active => exact absurd (.inl status) closed
    | waiting => exact absurd (.inr status) closed
  · intro kept r other opened stale same
    cases same_id ordered member other same
    rcases kept with finished | living
    · rw [finished] at opened
      rcases opened with h | h <;> cases h
    · rw [living] at stale
      cases stale

theorem cleanupStale_change (alive : Entry → Bool) : Change q (cleanupStale alive q).2 := by
  have whole : (cleanupStale alive q).2 = q.delete fun e => !decide (e.status = .done ∨ alive e = true) := by
    have rows := cleanupStale_delete ordered alive
    have counter : (cleanupStale alive q).2.lastId = q.lastId := by
      rw [cleanupStale,delete_each,Queue.delete]
    rw [Queue.delete]
    simp only [Bool.not_not]
    rw [← rows,← counter]
  rw [whole]
  refine .removed _ fun e _ chosen finished => ?_
  simp [finished] at chosen

theorem perform_change (operation : Operation) : Change q (perform q operation) := by
  cases operation with
  | tryAcquire channel branch pid => exact tryAcquire_change ordered
  | acquire channel branch pid => exact register_change
  | tryPromote channel branch => exact tryPromote_change ordered
  | updatePID channel branch newPID =>
    rw [perform]
    split
    · rename_i updated
      exact updatePID_change updated
    · exact .nothing
  | release channel => exact release_change
  | cleanupStale alive => exact cleanupStale_change ordered alive
  | cancel channel branch => exact cancel_change

end Transactions

section Changes
variable {q next : Queue}

theorem insert_inOrder (ordered : InOrder q)
    (active : status = .active → ∀ e ∈ q.rows, e.channel = channel → e.status ≠ .active)
    (waiting : status = .waiting → ∀ e ∈ q.rows, e.channel = channel → e.branch = branch → e.status ≠ .waiting) :
    InOrder (insertEntryTx q channel branch pid status) := by
  refine ⟨?_,?_,?_,?_⟩
  · intro e member
    rcases mem_append.mp member with old | new
    · exact Nat.le_succ_of_le (ordered.numbered e old)
    · rw [mem_singleton.mp new]
      exact Nat.le_refl _
  · refine pairwise_append.mpr ⟨ordered.increasing,pairwise_singleton _ _,?_⟩
    intro e old new member
    rw [mem_singleton.mp member]
    exact Nat.lt_succ_of_le (ordered.numbered e old)
  · refine pairwise_append.mpr ⟨ordered.oneActive,pairwise_singleton _ _,?_⟩
    intro e old new member here held also
    rw [mem_singleton.mp member] at here also
    exact active also e old here held
  · refine pairwise_append.mpr ⟨ordered.oneWaiting,pairwise_singleton _ _,?_⟩
    intro e old new member here branch queued also
    rw [mem_singleton.mp member] at here branch also
    exact waiting also e old here branch queued

theorem updated_field (selected : Entry → Bool) {change : Entry → Entry} {field : Entry → A}
    (same : ∀ e, field (change e) = field e) (e : Entry) : field (if selected e then change e else e) = field e := by
  split
  · exact same e
  · rfl

theorem update_inOrder (ordered : InOrder q)
    (same : ∀ e, (change e).id = e.id ∧ (change e).channel = e.channel ∧ (change e).branch = e.branch)
    (waiting : ∀ e, selected e = true → (change e).status = .waiting → e.status = .waiting)
    (active : q.rows.Pairwise fun a b => a.channel = b.channel →
      (if selected a then change a else a).status = .active → (if selected b then change b else b).status ≠ .active) :
    InOrder (q.update selected change) := by
  have id := updated_field selected fun e => (same e).1
  have channel := updated_field selected fun e => (same e).2.1
  have branch := updated_field selected fun e => (same e).2.2
  have queued : ∀ e, (if selected e then change e else e).status = .waiting → e.status = .waiting := by
    intro e
    split
    · rename_i chosen
      exact waiting e chosen
    · exact fun h => h
  refine ⟨?_,pairwise_map.mpr ?_,pairwise_map.mpr ?_,pairwise_map.mpr ?_⟩
  · intro e member
    obtain ⟨old,present,rfl⟩ := mem_map.mp member
    rw [id]
    exact ordered.numbered old present
  · refine ordered.increasing.imp fun less => ?_
    rw [id,id]
    exact less
  · refine active.imp fun apart => ?_
    rw [channel,channel]
    exact apart
  · refine ordered.oneWaiting.imp fun apart => ?_
    rw [channel,channel,branch,branch]
    exact fun here alike first second => apart here alike (queued _ first) (queued _ second)

theorem update_oneActive (ordered : InOrder q) {selected : Entry → Bool} (change : Entry → Entry)
    (held : ∀ e, selected e = true → e.status = .active) :
    q.rows.Pairwise fun a b => a.channel = b.channel →
      (if selected a then change a else a).status = .active → (if selected b then change b else b).status ≠ .active := by
  have active : ∀ e, (if selected e then change e else e).status = .active → e.status = .active := by
    intro e
    split
    · rename_i chosen
      exact fun _ => held e chosen
    · exact id
  exact ordered.oneActive.imp fun apart here first second => apart here (active _ first) (active _ second)

theorem promote_oneActive (ordered : InOrder q) {selected : Entry → Bool}
    (only : ∀ e ∈ q.rows, selected e = true ↔ e = first)
    (free : ∀ e ∈ q.rows, e.channel = first.channel → e.status ≠ .active) :
    q.rows.Pairwise fun a b => a.channel = b.channel →
      (if selected a then { a with status := .active } else a).status = .active →
      (if selected b then { b with status := .active } else b).status ≠ .active := by
  refine (ordered.increasing.and ordered.oneActive).imp_of_mem ?_
  rintro a b left right ⟨less,apart⟩ here
  by_cases chosen : selected a = true
  · cases (only a left).mp chosen
    have other : ¬ selected b = true := by
      intro also
      cases (only b right).mp also
      exact Nat.lt_irrefl _ less
    rw [if_neg other]
    exact fun _ => free b right here.symm
  · rw [if_neg chosen]
    intro active
    by_cases also : selected b = true
    · cases (only b right).mp also
      exact absurd active (free a left here)
    · rw [if_neg also]
      exact apart here active

theorem Change.inOrder (change : Change q next) (ordered : InOrder q) : InOrder next := by
  cases change with
  | nothing => exact ordered
  | queued channel branch pid new => exact insert_inOrder ordered nofun fun _ => new
  | taken channel branch pid free first => exact insert_inOrder ordered (fun _ => free) nofun
  | promoted first selected only present waiting free least =>
    exact update_inOrder ordered (fun _ => ⟨rfl,rfl,rfl⟩) (fun _ _ => nofun) (promote_oneActive ordered only free)
  | transferred selected pid held =>
    exact update_inOrder ordered (fun _ => ⟨rfl,rfl,rfl⟩) (fun _ _ => id) (update_oneActive ordered _ held)
  | released selected held =>
    exact update_inOrder ordered (fun _ => ⟨rfl,rfl,rfl⟩) (fun _ _ => nofun) (update_oneActive ordered _ held)
  | removed selected unfinished =>
    exact ⟨fun e member => ordered.numbered e (mem_of_mem_filter member),ordered.increasing.filter _,
      ordered.oneActive.filter _,ordered.oneWaiting.filter _⟩

theorem mem_insert (member : e ∈ (insertEntryTx q channel branch pid status).rows) :
    e ∈ q.rows ∨ e = ⟨q.lastId + 1,channel,branch,pid,status⟩ := by
  rcases mem_append.mp member with old | new
  · exact .inl old
  · exact .inr (mem_singleton.mp new)

variable (change : Change q next)
include change

theorem Change.granted : Granted q next := by
  intro e member active
  have kept : e ∈ q.rows → ∃ before ∈ q.rows, before.id = e.id ∧ before.status = .active :=
    fun old => ⟨e,old,rfl,active⟩
  cases change with
  | nothing => exact .inl (kept member)
  | queued channel branch pid new =>
    rcases mem_insert member with old | rfl
    · exact .inl (kept old)
    · cases active
  | taken channel branch pid free first =>
    rcases mem_insert member with old | rfl
    · exact .inl (kept old)
    · exact .inr fun other present here => ⟨free other present here,fun waiting => absurd waiting (first other present here)⟩
  | promoted first selected only present waiting free least =>
    obtain ⟨old,was,rfl⟩ := mem_map.mp member
    by_cases chosen : selected old = true
    · cases (only old was).mp chosen
      rw [if_pos chosen]
      exact .inr fun other present here => ⟨free other present here,fun waiting =>
        Nat.not_lt.mpr (least other present here waiting)⟩
    · rw [if_neg chosen] at active ⊢
      exact .inl ⟨old,was,rfl,active⟩
  | transferred selected pid held =>
    obtain ⟨old,was,rfl⟩ := mem_map.mp member
    by_cases chosen : selected old = true
    · rw [if_pos chosen]
      exact .inl ⟨old,was,rfl,held old chosen⟩
    · rw [if_neg chosen] at active ⊢
      exact .inl ⟨old,was,rfl,active⟩
  | released selected held =>
    obtain ⟨old,was,rfl⟩ := mem_map.mp member
    by_cases chosen : selected old = true
    · rw [if_pos chosen] at active
      cases active
    · rw [if_neg chosen] at active ⊢
      exact .inl ⟨old,was,rfl,active⟩
  | removed selected unfinished => exact .inl (kept (mem_of_mem_filter member))

theorem Change.stays (present : e ∈ q.rows) (finished : e.status = .done) : e ∈ next.rows := by
  have update : ∀ (selected : Entry → Bool) (change : Entry → Entry), selected e = false →
      e ∈ (q.update selected change).rows := by
    intro selected change spared
    refine mem_map.mpr ⟨e,present,?_⟩
    rw [spared]
    rfl
  have spared : ∀ (selected : Entry → Bool), (∀ e, selected e = true → e.status = .active) → selected e = false := by
    intro selected held
    refine Bool.eq_false_iff.mpr fun chosen => ?_
    have active := held e chosen
    rw [finished] at active
    cases active
  cases change with
  | nothing => exact present
  | queued channel branch pid new | taken channel branch pid free first => exact mem_append_left _ present
  | promoted first selected only there waiting free least =>
    refine update _ _ (Bool.eq_false_iff.mpr fun chosen => ?_)
    cases (only e present).mp chosen
    rw [finished] at waiting
    cases waiting
  | transferred selected pid held | released selected held => exact update _ _ (spared selected held)
  | removed selected unfinished =>
    have spared : selected e = false := Bool.eq_false_iff.mpr fun chosen => unfinished e present chosen finished
    exact mem_filter.mpr ⟨present,by rw [spared]; rfl⟩

theorem Change.final (ordered : InOrder q) : Final q next := by
  intro e present finished
  have stays := change.stays present finished
  refine ⟨stays,fun e' member same => ?_⟩
  exact same_id (change.inOrder ordered) member stays same

end Changes

theorem inOrder_initial : InOrder {} := ⟨nofun,.nil,.nil,.nil⟩

theorem inOrder_step (q : Queue) (operation : Operation) (next : Queue) (ordered : InOrder q)
    (stepped : step q operation = some next) : InOrder next := by
  cases stepped
  exact (perform_change ordered operation).inOrder ordered

/-- The queue grants a channel in the order of arrival. -/
theorem grants_in_arrival_order (schedule : List Operation) : Throughout step InOrder {} schedule ∧
    Along step (fun q operation => ∀ next, step q operation = some next → Granted q next ∧ Final q next) {} schedule := by
  constructor
  · exact throughout_invariant step inOrder_step inOrder_initial schedule
  · have ordered := along_invariant step InOrder inOrder_step inOrder_initial schedule
    refine ordered.imp fun q operation ordered next stepped => ?_
    cases stepped
    have change := perform_change ordered operation
    exact ⟨change.granted,change.final ordered⟩

def Active (q : Queue) (e : Entry) : Prop := e ∈ q.rows ∧ e.status = .active

def grantedPid (q : Queue) (channel : String) (pid : Int) : Int :=
  match firstWaitingTx q channel with
  | some first => first.pid
  | none => pid

structure Grant (q next : Queue) (channel branch : String) (pid : Int) : Prop where
  free : ∀ e, Active q e → e.channel ≠ channel
  row : ∃ row : Entry, row.channel = channel ∧ row.branch = branch ∧ row.pid = pid ∧
    ∀ e, Active next e ↔ Active q e ∨ e = row

section Locks
variable {q next : Queue} {channel branch : String} {pid : Int} {e : Entry}

theorem hasActiveEntry_active : hasActiveEntry q channel = true ↔ ∃ e, Active q e ∧ e.channel = channel := by
  rw [hasActiveEntry_iff]
  constructor
  · rintro ⟨e,member,here,active⟩
    exact ⟨e,⟨member,active⟩,here⟩
  · rintro ⟨e,⟨member,active⟩,here⟩
    exact ⟨e,member,here,active⟩

theorem active_unique (ordered : InOrder q) (first : Active q e) (second : Active q e') (same : e.channel = e'.channel) :
    e = e' := by
  have symmetric : Std.Symm fun a b : Entry => a.channel = b.channel → a.status = .active → b.status ≠ .active :=
    ⟨fun a b apart here left right => apart here.symm right left⟩
  by_contra different
  exact ordered.oneActive.forall first.1 second.1 different same first.2 second.2

theorem active_delete (selected : Entry → Bool) : Active (q.delete selected) e ↔ Active q e ∧ selected e = false := by
  simp [Active,Queue.delete,and_right_comm]

theorem active_insert : Active (insertEntryTx q channel branch pid status) e ↔
    Active q e ∨ status = .active ∧ e = ⟨q.lastId + 1,channel,branch,pid,status⟩ := by
  constructor
  · rintro ⟨member,active⟩
    rcases mem_insert member with old | rfl
    · exact .inl ⟨old,active⟩
    · exact .inr ⟨active,rfl⟩
  · rintro (⟨member,active⟩ | ⟨active,rfl⟩)
    · exact ⟨mem_append_left _ member,active⟩
    · exact ⟨mem_append_right _ mem_cons_self,active⟩

theorem active_register : Active (register q channel branch pid) e ↔ Active q e := by
  rw [register]
  split
  · exact Iff.rfl
  · rw [active_insert]
    simp

theorem active_cancel : Active (cancel q channel branch) e ↔ Active q e := by
  rw [cancel,active_delete]
  refine and_iff_left_of_imp fun held => decide_eq_false fun chosen => ?_
  have waiting := chosen.2.2
  rw [held.2] at waiting
  cases waiting

theorem active_cleanupStale (ordered : InOrder q) (alive : Entry → Bool) :
    Active (cleanupStale alive q).2 e ↔ Active q e ∧ alive e = true := by
  rw [Active,cleanupStale_delete ordered,mem_filter,decide_eq_true_eq]
  constructor
  · rintro ⟨⟨member,kept⟩,active⟩
    rcases kept with finished | living
    · rw [finished] at active
      cases active
    · exact ⟨⟨member,active⟩,living⟩
  · rintro ⟨⟨member,active⟩,living⟩
    exact ⟨⟨member,.inr living⟩,active⟩

theorem active_release : Active (release q channel) e ↔ Active q e ∧ e.channel ≠ channel := by
  constructor
  · rintro ⟨member,active⟩
    obtain ⟨old,was,rfl⟩ := mem_map.mp member
    split at active
    · cases active
    rename_i spared
    rw [if_neg spared]
    exact ⟨⟨was,active⟩,fun here => spared (decide_eq_true ⟨here,active⟩)⟩
  · rintro ⟨⟨member,active⟩,elsewhere⟩
    refine ⟨mem_map.mpr ⟨e,member,if_neg fun chosen => ?_⟩,active⟩
    exact elsewhere (of_decide_eq_true chosen).1

theorem updatePID_update (q : Queue) (channel branch : String) (pid : Int) : perform q (.updatePID channel branch pid) =
    q.update (fun e => e.channel = channel ∧ e.branch = branch ∧ e.status = .active) fun e => { e with pid } := by
  rw [perform,updatePID]
  split
  · rename_i updated
    split at updated <;> cases updated
    rfl
  rename_i failed
  split at failed
  · rename_i nobody
    have spared := countP_eq_zero.mp nobody
    have same : q.rows.map (fun e => if (decide (e.channel = channel ∧ e.branch = branch ∧ e.status = .active)) = true
        then { e with pid } else e) = q.rows := by
      rw [map_congr_left fun e member => if_neg (spared e member)]
      exact map_id' _
    rw [Queue.update,same]
  · cases failed

theorem active_updatePID : Active (perform q (.updatePID channel branch pid)) e ↔
    Active q e ∧ ¬ (e.channel = channel ∧ e.branch = branch) ∨
    ∃ old, Active q old ∧ (old.channel = channel ∧ old.branch = branch) ∧ e = { old with pid } := by
  rw [updatePID_update]
  constructor
  · rintro ⟨member,active⟩
    obtain ⟨old,was,rfl⟩ := mem_map.mp member
    split at active
    · rename_i chosen
      rw [if_pos chosen]
      have here := of_decide_eq_true chosen
      exact .inr ⟨old,⟨was,active⟩,⟨here.1,here.2.1⟩,rfl⟩
    · rename_i spared
      rw [if_neg spared]
      exact .inl ⟨⟨was,active⟩,fun here => spared (decide_eq_true ⟨here.1,here.2,active⟩)⟩
  · rintro (⟨⟨member,active⟩,elsewhere⟩ | ⟨old,⟨was,active⟩,here,rfl⟩)
    · refine ⟨mem_map.mpr ⟨e,member,if_neg fun chosen => ?_⟩,active⟩
      have here := of_decide_eq_true chosen
      exact elsewhere ⟨here.1,here.2.1⟩
    · exact ⟨mem_map.mpr ⟨old,was,if_pos (decide_eq_true ⟨here.1,here.2,active⟩)⟩,active⟩

theorem active_promote (only : ∀ e ∈ q.rows, selected e = true ↔ e = first)
    (present : first ∈ q.rows) (waiting : first.status = .waiting) :
    Active (q.update selected fun e => { e with status := .active }) e ↔
    Active q e ∨ e = { first with status := .active } := by
  constructor
  · rintro ⟨member,active⟩
    obtain ⟨old,was,rfl⟩ := mem_map.mp member
    by_cases chosen : selected old = true
    · rw [if_pos chosen,(only old was).mp chosen]
      exact .inr rfl
    · rw [if_neg chosen] at active ⊢
      exact .inl ⟨was,active⟩
  · rintro (⟨member,active⟩ | rfl)
    · refine ⟨mem_map.mpr ⟨e,member,if_neg fun chosen => ?_⟩,active⟩
      rw [(only e member).mp chosen,waiting] at active
      cases active
    · exact ⟨mem_map.mpr ⟨first,present,if_pos ((only first present).mpr rfl)⟩,rfl⟩

theorem Promotion.grant (promotion : Promotion q next channel branch) (ordered : InOrder q)
    (free : ¬ hasActiveEntry q channel = true) : Grant q next channel branch (grantedPid q channel pid) := by
  obtain ⟨first,selected,found,rfl,only,rfl⟩ := promotion
  obtain ⟨⟨present,here,waiting⟩,-⟩ := firstWaitingTx_some found
  refine ⟨fun e held same => no_active free e held.1 same held.2,?_⟩
  refine ⟨{ first with status := .active },here,rfl,?_,fun e => active_promote (only ordered) present waiting⟩
  rw [grantedPid,found]

theorem tryAcquire_granted (ordered : InOrder q) (acquired : (tryAcquire q channel branch pid).1 = true) :
    Grant q (tryAcquire q channel branch pid).2 channel branch (grantedPid q channel pid) := by
  rcases @tryAcquire_cases q channel branch pid with same | ⟨free,next,same,promotion | ⟨found,rfl⟩⟩
  · rw [same] at acquired
    cases acquired
  · rw [same]
    exact promotion.grant ordered free
  rw [same]
  refine ⟨fun e held same => no_active free e held.1 same held.2,?_⟩
  refine ⟨⟨q.lastId + 1,channel,branch,pid,.active⟩,rfl,rfl,?_,fun e => ?_⟩
  · rw [grantedPid,found]
  · rw [active_insert]
    simp

theorem tryAcquire_refused (refused : (tryAcquire q channel branch pid).1 = false) :
    (tryAcquire q channel branch pid).2 = register q channel branch pid := by
  rcases @tryAcquire_cases q channel branch pid with same | ⟨_,_,same,_⟩
  · rw [same]
  · rw [same] at refused
    cases refused

theorem tryPromote_refused (refused : (tryPromote q channel branch).1 = false) : (tryPromote q channel branch).2 = q := by
  rcases @tryPromote_cases q channel branch with same | ⟨_,_,same,_⟩
  · rw [same]
  · rw [same] at refused
    cases refused

section
variable (grant : Grant q next channel branch pid)
include grant

theorem Grant.locks : hasActiveEntry next channel = true := by
  obtain ⟨row,here,-,-,rows⟩ := grant.row
  exact hasActiveEntry_active.mpr ⟨row,(rows row).mpr (.inr rfl),here⟩

theorem Grant.keeps (held : hasActiveEntry q other = true) :
    hasActiveEntry next other = true := by
  obtain ⟨row,-,-,-,rows⟩ := grant.row
  obtain ⟨e,active,here⟩ := hasActiveEntry_active.mp held
  exact hasActiveEntry_active.mpr ⟨e,(rows e).mpr (.inl active),here⟩

theorem Grant.was_free : ¬ hasActiveEntry q channel = true := by
  intro held
  obtain ⟨e,active,here⟩ := hasActiveEntry_active.mp held
  exact grant.free e active here

end

theorem updatePID_locks (child : Int) (held : hasActiveEntry q other = true) :
    hasActiveEntry (perform q (.updatePID channel branch child)) other = true := by
  obtain ⟨e,active,here⟩ := hasActiveEntry_active.mp held
  by_cases chosen : e.channel = channel ∧ e.branch = branch
  · exact hasActiveEntry_active.mpr ⟨{ e with pid := child },active_updatePID.mpr (.inr ⟨e,active,chosen,rfl⟩),here⟩
  · exact hasActiveEntry_active.mpr ⟨e,active_updatePID.mpr (.inl ⟨active,chosen⟩),here⟩

end Locks

end ApexPipeline.AgentQueue
