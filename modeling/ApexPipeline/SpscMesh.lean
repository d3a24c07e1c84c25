import ApexPipeline.Execution
import ApexPipeline.SpscQueue

/-! The queues between all pairs of cores, `spsc_mesh.cpp`. Every destination drains its queues in calls of
`drain_all_for`, one operation at a time, while the sources go on enqueueing. -/
namespace ApexPipeline.SpscMesh
open Execution Function

variable {n : Nat} {T H : Type}

/-- The queue of a core to itself is a null pointer in the program, and is never used. The constructor makes
a vector of `n * n` pointers, which bounds the number of cores. -/
structure Mesh (n : Nat) (T H : Type) where
  queues : Fin n → Fin n → SpscQueue T H
  drainRotate : Fin n → Fin n
  constructed : n * n ≤ (2^63 - 1) / 8

/-- Where `drain_all_for` stands: at the head of its loop, in the inner loop, or after it. -/
inductive Phase where
  | scan | dequeue | notify
  deriving DecidableEq, Repr

structure Drain (n : Nat) where
  start : Fin n
  offset : Nat
  total : Nat
  batchLimit : Nat
  phase : Phase
  deriving DecidableEq, Repr

/-- `src = (start + offset) % num_cores_`, in 32 bits. -/
def Drain.source (d : Drain n) : Fin n := ⟨(d.start.val + d.offset) % 2^32 % n,Nat.mod_lt _ d.start.pos⟩

/-- The calls that run, and as history the messages put into each queue, those dispatched with their sources, what
the calls returned, and the handlers posted to each core. -/
structure State (n : Nat) (T H : Type) where
  mesh : Mesh n T H
  drains : Fin n → Option (Drain n)
  enqueued : Fin n → Fin n → List T
  dispatched : Fin n → List (Fin n × T)
  returned : Fin n → List Nat
  posted : Fin n → List H

def start (mesh : Mesh n T H) : State n T H :=
  ⟨mesh,fun _ => none,fun src dst => (mesh.queues src dst).items,fun _ => [],fun _ => [],fun _ => []⟩

namespace State

def setQueue (s : State n T H) (src dst : Fin n) (queue : SpscQueue T H) : State n T H :=
  { s with mesh := { s.mesh with queues := fun a b => if a = src ∧ b = dst then queue else s.mesh.queues a b } }

def setDrain (s : State n T H) (dst : Fin n) (d : Drain n) : State n T H :=
  { s with drains := Function.update s.drains dst (some d) }

def record (s : State n T H) (src dst : Fin n) (item : T) : State n T H :=
  { s with enqueued := fun a b => if a = src ∧ b = dst then s.enqueued a b ++ [item] else s.enqueued a b }

def dispatch (s : State n T H) (dst : Fin n) (message : Fin n × T) : State n T H :=
  { s with dispatched := Function.update s.dispatched dst (s.dispatched dst ++ [message]) }

def post (s : State n T H) (src : Fin n) (handler : Option H) : State n T H :=
  { s with posted := Function.update s.posted src (s.posted src ++ handler.toList) }

/-- `try_enqueue`; the message is refused when the queue is full. -/
def enqueue (s : State n T H) (src dst : Fin n) (item : T) : State n T H :=
  match (s.mesh.queues src dst).tryEnqueue item with
  | some queue => (s.setQueue src dst queue).record src dst item
  | none => s

def leave (s : State n T H) (dst : Fin n) (d : Drain n) : State n T H :=
  { s with
    mesh := { s.mesh with
      drainRotate := Function.update s.mesh.drainRotate dst ⟨(d.start.val + 1) % n,Nat.mod_lt _ dst.pos⟩ }
    drains := Function.update s.drains dst none
    returned := Function.update s.returned dst (s.returned dst ++ [d.total]) }

def proceed (s : State n T H) (dst : Fin n) (d : Drain n) : State n T H :=
  match d.phase with
  | .scan =>
    if d.offset < n then
      if d.source = dst then s.setDrain dst { d with offset := d.offset + 1 }
      else if d.batchLimit ≤ d.total then s.leave dst d
      else s.setDrain dst { d with phase := .dequeue }
    else s.leave dst d
  | .dequeue =>
    if d.total < d.batchLimit then
      match (s.mesh.queues d.source dst).tryDequeue with
      | some (message,queue) =>
        ((s.setQueue d.source dst queue).dispatch dst (d.source,message)).setDrain dst { d with total := d.total + 1 }
      | none => s.setDrain dst { d with phase := .notify }
    else s.setDrain dst { d with phase := .notify }
  | .notify =>
    let (handler,queue) := (s.mesh.queues d.source dst).notifyProducerIfWaiting
    ((s.setQueue d.source dst queue).post d.source handler).setDrain dst { d with offset := d.offset + 1, phase := .scan }

end State

inductive Action (n : Nat) (T H : Type) where
  | enqueue (src dst : Fin n) (item : T)
  | suspend (src dst : Fin n) (handler : H)
  | drainAllFor (dst : Fin n) (batchLimit : Nat)
  | proceed (dst : Fin n)
  deriving DecidableEq

/-- A destination is one thread: it makes a call after the one before has returned. -/
def step (s : State n T H) : Action n T H → Option (State n T H)
  | .enqueue src dst item => if src ≠ dst then some (s.enqueue src dst item) else none
  | .suspend src dst handler =>
    if src ≠ dst then some (s.setQueue src dst ((s.mesh.queues src dst).storeHandler handler).setWaiting) else none
  | .drainAllFor dst batchLimit =>
    match s.drains dst with
    | none => some (s.setDrain dst ⟨s.mesh.drainRotate dst,0,0,batchLimit,.scan⟩)
    | some _ => none
  | .proceed dst => (s.drains dst).map (s.proceed dst)

/-- What one destination sees: the contents of the queues towards it and its own calls and history. -/
structure Inbox (n : Nat) (T : Type) where
  items : Fin n → List T
  enqueued : Fin n → List T
  drain : Option (Drain n)
  rotate : Fin n
  dispatched : List (Fin n × T)
  returned : List Nat

def inbox (s : State n T H) (dst : Fin n) : Inbox n T :=
  ⟨fun src => (s.mesh.queues src dst).items,fun src => s.enqueued src dst,s.drains dst,s.mesh.drainRotate dst,
    s.dispatched dst,s.returned dst⟩

inductive Move (dst : Fin n) (v : Inbox n T) : Action n T H → Inbox n T → Prop
  | still (action : Action n T H) (uncalled : ∀ limit, action ≠ .drainAllFor dst limit) (idle : action ≠ .proceed dst) :
      Move dst v action v
  | enqueued (src : Fin n) (item : T) (apart : src ≠ dst) : Move dst v (.enqueue src dst item) { v with
      items := Function.update v.items src (v.items src ++ [item])
      enqueued := Function.update v.enqueued src (v.enqueued src ++ [item]) }
  | called (limit : Nat) (idle : v.drain = none) : Move dst v (.drainAllFor dst limit) { v with
      drain := some ⟨v.rotate,0,0,limit,.scan⟩ }
  | skipped (d : Drain n) (running : v.drain = some d) (phase : d.phase = .scan) (inside : d.offset < n)
      (own : d.source = dst) : Move dst v (.proceed dst) { v with drain := some { d with offset := d.offset + 1 } }
  | entered (d : Drain n) (running : v.drain = some d) (phase : d.phase = .scan) (inside : d.offset < n)
      (other : d.source ≠ dst) (room : d.total < d.batchLimit) : Move dst v (.proceed dst) { v with
      drain := some { d with phase := .dequeue } }
  | left (d : Drain n) (running : v.drain = some d) (phase : d.phase = .scan)
      (past : n ≤ d.offset ∨ d.source ≠ dst ∧ d.batchLimit ≤ d.total) : Move dst v (.proceed dst) { v with
      drain := none
      rotate := ⟨(d.start.val + 1) % n,Nat.mod_lt _ dst.pos⟩
      returned := v.returned ++ [d.total] }
  | dispatched (d : Drain n) (message : T) (rest : List T) (running : v.drain = some d) (phase : d.phase = .dequeue)
      (room : d.total < d.batchLimit) (found : v.items d.source = message :: rest) : Move dst v (.proceed dst) { v with
      items := Function.update v.items d.source rest
      drain := some { d with total := d.total + 1 }
      dispatched := v.dispatched ++ [(d.source,message)] }
  | ended (d : Drain n) (running : v.drain = some d) (phase : d.phase = .dequeue)
      (past : d.batchLimit ≤ d.total ∨ v.items d.source = []) : Move dst v (.proceed dst) { v with
      drain := some { d with phase := .notify } }
  | notified (d : Drain n) (running : v.drain = some d) (phase : d.phase = .notify) : Move dst v (.proceed dst) { v with
      drain := some { d with offset := d.offset + 1, phase := .scan } }

def received (src : Fin n) (messages : List (Fin n × T)) : List T :=
  (messages.filter fun message => message.1 = src).map Prod.snd

def Inbox.queued (v : Inbox n T) (dst : Fin n) : Nat := ∑ src, if src = dst then 0 else (v.items src).length

/-- What has come out of a queue is what went in first, and the rest is still in it. -/
def Inbox.Conserved (v : Inbox n T) : Prop := ∀ src, v.enqueued src = received src v.dispatched ++ v.items src

section Sources

theorem Mesh.small (mesh : Mesh n T H) : n < 2^31 := by
  have constructed := mesh.constructed
  by_contra large
  have squares := Nat.mul_le_mul (Nat.le_of_not_lt large) (Nat.le_of_not_lt large)
  omega

theorem source_val {d : Drain n} (small : n < 2^31) (inside : d.offset ≤ n) :
    d.source.val = (d.start.val + d.offset) % n := by
  have word : d.start.val + d.offset < 2^32 := by
    have := d.start.isLt
    omega
  rw [Drain.source]
  simp only [Nat.mod_eq_of_lt word]

theorem rotation_meets (first target : Fin n) : ∃ offset < n, (first.val + offset) % n = target.val := by
  have low := first.isLt
  have high := target.isLt
  by_cases ahead : first.val ≤ target.val
  · exact ⟨target.val - first.val,by omega,by rw [Nat.add_sub_cancel' ahead,Nat.mod_eq_of_lt high]⟩
  · refine ⟨target.val + n - first.val,by omega,?_⟩
    rw [show first.val + (target.val + n - first.val) = target.val + n by omega,Nat.add_mod_right,Nat.mod_eq_of_lt high]

end Sources

section Refinement
variable {s next : State n T H} {action : Action n T H} {src dst target : Fin n}

section
variable (s : State n T H)

theorem setQueue_own (src dst : Fin n) (queue : SpscQueue T H) :
    inbox (s.setQueue src dst queue) dst =
      { inbox s dst with items := update (inbox s dst).items src queue.items } := by
  simp only [inbox,State.setQueue]
  congr 1
  funext a
  by_cases same : a = src <;> simp [same]

theorem setQueue_same (src target dst : Fin n) (queue : SpscQueue T H)
    (items : queue.items = (s.mesh.queues src target).items) : inbox (s.setQueue src target queue) dst = inbox s dst := by
  by_cases own : dst = target
  · subst own
    have same : (s.mesh.queues src dst).items = (inbox s dst).items src := rfl
    rw [setQueue_own,items,same,update_eq_self]
  · simp only [inbox,State.setQueue,own,and_false,if_false]

end

theorem notify_items (q : SpscQueue T H) : q.notifyProducerIfWaiting.2.items = q.items := by
  simp only [SpscQueue.notifyProducerIfWaiting,SpscQueue.takeWaiting]
  split <;> rfl

theorem proceed_other (d : Drain n) (other : dst ≠ target) : inbox (s.proceed target d) dst = inbox s dst := by
  have drains : ∀ d', update s.drains target d' dst = s.drains dst := fun _ => update_of_ne other ..
  simp only [State.proceed]
  split
  · split
    · split
      · simp only [State.setDrain,inbox,drains]
      · split
        · simp only [State.leave,inbox,drains,update_of_ne other]
        · simp only [State.setDrain,inbox,drains]
    · simp only [State.leave,inbox,drains,update_of_ne other]
  · split
    · split
      · simp only [State.setDrain,State.dispatch,State.setQueue,inbox,drains,update_of_ne other,other,and_false,
          if_false]
      · simp only [State.setDrain,inbox,drains]
    · simp only [State.setDrain,inbox,drains]
  · simp only [State.setDrain,State.post,State.setQueue,inbox,drains,other,and_false,if_false]

section
variable (s : State n T H)

theorem record_own (src dst : Fin n) (item : T) : inbox (s.record src dst item) dst = { inbox s dst with
    enqueued := update (inbox s dst).enqueued src ((inbox s dst).enqueued src ++ [item]) } := by
  simp only [inbox,State.record]
  congr 1
  funext a
  by_cases same : a = src <;> simp [same]

theorem dispatch_own (dst : Fin n) (message : Fin n × T) :
    inbox (s.dispatch dst message) dst = { inbox s dst with dispatched := (inbox s dst).dispatched ++ [message] } := by
  simp only [inbox,State.dispatch,update_self]

theorem post_same (src dst : Fin n) (handler : Option H) : inbox (s.post src handler) dst = inbox s dst := rfl

theorem setDrain_own (dst : Fin n) (d : Drain n) :
    inbox (s.setDrain dst d) dst = { inbox s dst with drain := some d } := by
  simp only [inbox,State.setDrain,update_self]

end

theorem enqueue_move (apart : src ≠ target) (item : T) (dst : Fin n) :
    Move dst (inbox s dst) (.enqueue src target item : Action n T H) (inbox (s.enqueue src target item) dst) := by
  simp only [State.enqueue]
  split
  · rename_i queue taken
    have grown := (SpscQueue.tryEnqueue_some _ taken).2.1
    by_cases own : dst = target
    · subst own
      rw [record_own,setQueue_own,grown]
      exact .enqueued src item apart
    have next : inbox ((s.setQueue src target queue).record src target item) dst = inbox s dst := by
      simp only [inbox,State.record,State.setQueue,own,and_false,if_false]
    rw [next]
    exact .still _ nofun nofun
  · exact .still _ nofun nofun

theorem leave_own (s : State n T H) (dst : Fin n) (d : Drain n) : inbox (s.leave dst d) dst = { inbox s dst with
    drain := none
    rotate := ⟨(d.start.val + 1) % n,Nat.mod_lt _ dst.pos⟩
    returned := (inbox s dst).returned ++ [d.total] } := by
  simp only [inbox,State.leave,update_self]

theorem proceed_move (running : s.drains dst = some d) :
    Move dst (inbox s dst) (.proceed dst : Action n T H) (inbox (s.proceed dst d) dst) := by
  have running : (inbox s dst).drain = some d := running
  obtain ⟨start,offset,total,limit,phase⟩ := d
  cases phase with
  | scan =>
    simp only [State.proceed]
    split
    · rename_i inside
      split
      · rename_i own
        rw [setDrain_own]
        exact .skipped _ running rfl inside own
      rename_i other
      split
      · rename_i full
        rw [leave_own]
        exact .left _ running rfl (.inr ⟨other,full⟩)
      · rename_i room
        rw [setDrain_own]
        exact .entered _ running rfl inside other (Nat.lt_of_not_le room)
    · rename_i outside
      rw [leave_own]
      exact .left _ running rfl (.inl (Nat.le_of_not_lt outside))
  | dequeue =>
    simp only [State.proceed]
    split
    · rename_i room
      split
      · rename_i message queue taken
        have found := (SpscQueue.tryDequeue_some _ _ _ taken).1
        rw [setDrain_own,dispatch_own,setQueue_own]
        exact .dispatched _ message _ running rfl room found
      · rename_i empty
        rw [setDrain_own]
        exact .ended _ running rfl (.inr ((SpscQueue.tryDequeue_none _).mp empty))
    · rename_i full
      rw [setDrain_own]
      exact .ended _ running rfl (.inl (Nat.le_of_not_lt full))
  | notify =>
    simp only [State.proceed]
    rw [setDrain_own,post_same,setQueue_same s _ dst dst _ (notify_items _)]
    exact .notified _ running rfl

theorem step_move (stepped : step s action = some next) (dst : Fin n) : Move dst (inbox s dst) action (inbox next dst) := by
  cases action with
  | enqueue src target item =>
    obtain ⟨apart,rfl⟩ := of_guard stepped
    exact enqueue_move apart item dst
  | suspend src target handler =>
    obtain ⟨_,rfl⟩ := of_guard stepped
    rw [setQueue_same s src target dst ((s.mesh.queues src target).storeHandler handler).setWaiting rfl]
    exact .still _ nofun nofun
  | drainAllFor target limit =>
    simp only [step] at stepped
    split at stepped <;> cases stepped
    rename_i idle
    by_cases own : dst = target
    · subst own
      rw [setDrain_own]
      exact .called limit idle
    have next : inbox (s.setDrain target ⟨s.mesh.drainRotate target,0,0,limit,.scan⟩) dst = inbox s dst := by
      simp only [inbox,State.setDrain,update_of_ne own]
    rw [next]
    refine .still _ (fun limit' same => ?_) nofun
    cases same
    exact own rfl
  | proceed target =>
    obtain ⟨d,running,rfl⟩ := Option.map_eq_some_iff.mp stepped
    by_cases own : dst = target
    · subst own
      exact proceed_move running
    rw [proceed_other d own]
    refine .still _ nofun fun same => ?_
    cases same
    exact own rfl

end Refinement

end ApexPipeline.SpscMesh
