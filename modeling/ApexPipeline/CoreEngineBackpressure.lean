import ApexPipeline.CoreEngineDrain

/-! Suspending on a full queue. One handler slot and one flag serve every coroutine of a core, and a posted
resumption reserves no slot: under which conditions a suspended send is nevertheless served exactly once. -/
namespace ApexPipeline.CoreEngine
open List Option SpscQueue Lane
variable {cfg : Config} {M : Type}

namespace Lane

def inflight (lane : Lane M) : List M :=
  match lane.active with
  | some (m,.exchange) | some (m,.postDrain) => [m]
  | _ => []

/-- Resumptions without an error that have not retried yet: each expects a free slot. -/
def promised (lane : Lane M) : Nat :=
  lane.ready.countP (·.2) + match lane.active with
    | some (_,.retry) => 1
    | _ => 0

def parked (lane : Lane M) : List M :=
  match lane.active with
  | some (_,.setWaiting) => []
  | _ => lane.queue.pendingHandler.toList

/-- Where every call that has begun can be, apart from being destroyed. -/
def calls (lane : Lane M) : Multiset M :=
  lane.completed + lane.refused + lane.aborted + (lane.active.toList.map (·.1) : Multiset M) +
    (lane.ready.map (·.1) : Multiset M) + lane.parked

structure Exact (lane : Lane M) : Prop where
  completes : lane.appended = lane.completed ++ lane.inflight
  delivers : lane.appended = lane.delivered ++ lane.queue.items
  keeps : lane.dropped = []
  room : lane.promised ≤ lane.queue.free
  waits : lane.queue.producerWaiting = true → lane.queue.pendingHandler.isSome ∧
    ∀ m, lane.active ≠ some (m,.setWaiting)
  stores : ∀ m, lane.active = some (m,.setWaiting) → lane.queue.pendingHandler = some m
  accounts : (lane.begun : Multiset M) = lane.calls

theorem begin_exact (lane : Lane M) (m : M) (exact : Exact lane) (free : lane.active = none)
    (point : Point) (first : point = .coTry ∨ point = .postTry) : Exact (lane.begin m point) := by
  obtain ⟨completes,delivers,keeps,room,waits,stores,accounts⟩ := exact
  simp only [inflight,promised,free] at completes room
  simp only [calls,parked,free,toList_none,map_nil,Multiset.coe_nil] at accounts
  rcases first with rfl | rfl
  all_goals
    refine ⟨completes,delivers,keeps,room,fun waiting => ⟨(waits waiting).1,by simp [begin]⟩,by simp [begin],?_⟩
    simp only [begin,calls,parked,toList_some,map_cons,map_nil,← Multiset.coe_add,Multiset.coe_singleton,accounts]
    abel

/-- The steps at which the code takes a free slot for granted, or the handler slot. -/
def Orderly (lane : Lane M) : Point → Prop
  | .coTry | .postTry | .recheck => lane.queue.full = false → lane.promised < lane.queue.free
  | .storeHandler => lane.queue.pendingHandler.isNone = true
  | _ => True

instance (lane : Lane M) (point : Point) : Decidable (lane.Orderly point) :=
  match point with
  | .coTry | .postTry | .recheck =>
    inferInstanceAs (Decidable (lane.queue.full = false → lane.promised < lane.queue.free))
  | .storeHandler => inferInstanceAs (Decidable (lane.queue.pendingHandler.isNone = true))
  | .setWaiting | .retry | .exchange | .postDrain => isTrue trivial

theorem append_exact (lane : Lane M) {m : M} {queue : SpscQueue M M} (exact : Exact lane)
    {point : Point} (busy : lane.active = some (m,point))
    (tries : point = .coTry ∨ point = .postTry ∨ point = .retry)
    (taken : lane.queue.tryEnqueue m = some queue)
    (enough : lane.ready.countP (·.2) < lane.queue.free) : Exact (lane.append queue m) := by
  obtain ⟨completes,delivers,keeps,room,waits,stores,accounts⟩ := exact
  obtain ⟨_,items,free,waiting,handler⟩ := tryEnqueue_some _ taken
  have before : lane.inflight = [] := by
    rcases tries with rfl | rfl | rfl <;> simp [inflight,busy]
  have waiters : lane.parked = lane.queue.pendingHandler.toList := by
    rcases tries with rfl | rfl | rfl <;> simp [parked,busy]
  rw [before,append_nil] at completes
  refine ⟨?_,?_,keeps,?_,?_,by simp [append],?_⟩
  · simp [append,inflight,completes]
  · simp [append,items,delivers]
  · simp only [append,promised]
    omega
  · intro set
    simp only [append] at set ⊢
    rw [waiting] at set
    exact ⟨by rw [handler]; exact (waits set).1,by simp⟩
  · simp only [calls,waiters,busy] at accounts
    simp only [append,calls,parked,handler,accounts]
    rfl

theorem finish_exact (lane : Lane M) (exact : Exact lane)
    (busy : lane.active = some (m,point)) (last : point = .exchange ∨ point = .postDrain) :
    Exact (lane.finish m) := by
  obtain ⟨completes,delivers,keeps,room,waits,stores,accounts⟩ := exact
  rcases last with rfl | rfl
  all_goals
    simp only [inflight,promised,calls,parked,busy] at completes room accounts
    refine ⟨by simp [finish,inflight,completes],delivers,keeps,room,
      fun set => ⟨(waits set).1,by simp [finish]⟩,by simp [finish],?_⟩
    simp only [finish,accounts,calls,parked,← Multiset.coe_add,Multiset.coe_singleton,
      Multiset.coe_nil,toList_some,toList_none,map_cons,map_nil]
    abel

section
variable {next : Lane M} (lane : Lane M)

theorem proceed_exact (exact : Exact lane) (busy : lane.active = some (m,point)) (orderly : lane.Orderly point)
    (moved : lane.proceed m flag point = (next,flag',posts)) : Exact next := by
  have tried (tries : point = .coTry ∨ point = .postTry) (room : lane.queue.full = false) :
      lane.ready.countP (·.2) < lane.queue.free := by
    rcases tries with rfl | rfl
    all_goals simpa [promised,busy] using orderly room
  have whole := exact
  obtain ⟨completes,delivers,keeps,room,waits,stores,accounts⟩ := exact
  cases point with
  | coTry =>
    simp only [proceed] at moved
    split at moved <;> cases moved
    · rename_i taken
      exact append_exact lane whole busy (.inl rfl) taken (tried (.inl rfl) (tryEnqueue_some _ taken).1)
    · simp only [inflight,promised,calls,parked,busy] at completes room accounts
      exact ⟨completes,delivers,keeps,room,fun set => ⟨(waits set).1,by simp⟩,by simp,accounts⟩
  | postTry =>
    simp only [proceed] at moved
    split at moved <;> cases moved
    · rename_i taken
      exact append_exact lane whole busy (.inr (.inl rfl)) taken
        (tried (.inr rfl) (tryEnqueue_some _ taken).1)
    simp only [inflight,promised,calls,parked,busy] at completes room accounts
    refine ⟨completes,delivers,keeps,room,fun set => ⟨(waits set).1,by simp⟩,by simp,?_⟩
    simp only [accounts,calls,parked,← Multiset.coe_add,Multiset.coe_singleton,Multiset.coe_nil,
      toList_some,toList_none,map_cons,map_nil]
    abel
  | recheck =>
    simp only [inflight,promised,calls,parked,busy] at completes room accounts
    simp only [proceed] at moved
    split at moved <;> cases moved
    · exact ⟨completes,delivers,keeps,room,fun set => ⟨(waits set).1,by simp⟩,by simp,accounts⟩
    rename_i space
    have enough := orderly (Bool.eq_false_iff.mpr space)
    simp only [promised,busy] at enough
    refine ⟨completes,delivers,keeps,?_,fun set => ⟨(waits set).1,by simp⟩,by simp,?_⟩
    · simp only [promised,countP_append,countP_singleton]
      simp only [if_true]
      omega
    · simp only [accounts,calls,parked,← Multiset.coe_add,Multiset.coe_singleton,Multiset.coe_nil,
        toList_some,toList_none,map_cons,map_nil,map_append]
      abel
  | storeHandler =>
    have unused : lane.queue.pendingHandler = none := isNone_iff_eq_none.mp orderly
    simp only [inflight,promised,calls,parked,busy] at completes room accounts
    cases moved
    refine ⟨completes,delivers,by simp [keeps,unused],room,?_,?_,?_⟩
    · intro set
      have impossible := (waits set).1
      rw [unused] at impossible
      cases impossible
    · intro m' active
      cases active
      rfl
    · simpa [calls,parked,unused] using accounts
  | setWaiting =>
    have stored := stores m busy
    simp only [inflight,promised,calls,parked,busy] at completes room accounts
    cases moved
    refine ⟨completes,delivers,keeps,room,?_,by simp,?_⟩
    · intro _
      simp [setWaiting,stored]
    · simp only [accounts,calls,parked,setWaiting,stored,toList_some,
        toList_none,map_cons,map_nil,Multiset.coe_nil,Multiset.coe_singleton]
      abel
  | retry =>
    simp only [promised,busy] at room
    simp only [proceed] at moved
    split at moved <;> cases moved
    · exact append_exact lane whole busy (.inr (.inr rfl)) ‹_› (by omega)
    · rename_i refused
      rw [tryEnqueue_none,full_iff] at refused
      omega
  | exchange =>
    simp only [inflight,promised,calls,parked,busy] at completes room accounts
    simp only [proceed] at moved
    split at moved <;> cases moved
    · exact finish_exact lane whole busy (.inl rfl)
    · exact ⟨completes,delivers,keeps,room,fun set => ⟨(waits set).1,by simp⟩,by simp,accounts⟩
  | postDrain =>
    cases moved
    exact finish_exact lane whole busy (.inr rfl)

theorem ready_taken {ready : List (M × Bool)} {i : Nat} {m : M} {normal : Bool}
    (found : ready[i]? = some (m,normal)) :
    (ready.map (·.1) : Multiset M) = {m} + (((ready.eraseIdx i).map (·.1) : List M) : Multiset M) ∧
      ready.countP (·.2) = (ready.eraseIdx i).countP (·.2) + normal.toNat := by
  obtain ⟨inside,value⟩ := List.getElem?_eq_some_iff.mp found
  have moved := (List.getElem_cons_eraseIdx_perm inside).symm
  rw [value] at moved
  constructor
  · have same := Multiset.coe_eq_coe.mpr (moved.map (·.1))
    rw [same,map_cons,← Multiset.cons_coe,Multiset.singleton_add]
  · rw [moved.countP_eq,countP_cons]
    cases normal <;> rfl

theorem resume_exact (exact : Exact lane) (resumed : lane.resume i = some next) : Exact next := by
  obtain ⟨completes,delivers,keeps,room,waits,stores,accounts⟩ := exact
  unfold resume at resumed
  split at resumed <;> cases resumed
  · rename_i m free found
    obtain ⟨moved,count⟩ := ready_taken found
    simp only [inflight,promised,calls,parked,free] at completes room accounts
    refine ⟨completes,delivers,keeps,?_,fun set => ⟨(waits set).1,by simp⟩,by simp,?_⟩
    · simp only [promised]
      simp only [Bool.toNat_true] at count
      omega
    · simp only [accounts,calls,parked,moved,toList_some,toList_none,map_cons,
        map_nil,Multiset.coe_nil,Multiset.coe_singleton]
      abel
  · rename_i m free found
    obtain ⟨moved,count⟩ := ready_taken found
    simp only [inflight,promised,calls,parked,free] at completes room accounts
    refine ⟨by simpa [inflight,free] using completes,delivers,keeps,?_,
      fun set => ⟨(waits set).1,by simp [free]⟩,by simp [free],?_⟩
    · simp only [promised,free]
      simp only [Bool.toNat_false] at count
      omega
    · simp only [accounts,calls,parked,moved,free,← Multiset.coe_add,Multiset.coe_singleton]
      abel

theorem dequeue_exact (exact : Exact lane) (taken : lane.dequeue = some next) : Exact next := by
  obtain ⟨completes,delivers,keeps,room,waits,stores,accounts⟩ := exact
  obtain ⟨m,queue,seen,rfl⟩ := dequeue_some lane next taken
  obtain ⟨items,free,waiting,handler⟩ := tryDequeue_some _ _ _ seen
  refine ⟨completes,?_,keeps,?_,?_,?_,?_⟩
  · simp only [delivers,items]
    simp
  · simp only [promised] at room ⊢
    omega
  · simpa only [waiting,handler] using waits
  · simpa only [handler] using stores
  · simpa only [calls,parked,handler] using accounts

end

theorem wake_exact (lane : Lane M) (normal : Bool) (exact : Exact lane)
    (enough : normal = true → lane.queue.producerWaiting = true →
      lane.promised < lane.queue.free) : Exact (lane.wake normal) := by
  have woken : lane.wake normal = { lane with
      queue := lane.queue.takeWaiting.2
      ready := lane.ready ++ lane.queue.takeWaiting.1.toList.map fun m => (m,normal) } := by
    cases normal <;> rfl
  have items := takeWaiting_items lane.queue
  rw [woken]
  cases waiting : lane.queue.producerWaiting with
  | false => simpa [takeWaiting,waiting] using exact
  | true =>
    obtain ⟨completes,delivers,keeps,room,waits,stores,accounts⟩ := exact
    obtain ⟨present,settled⟩ := waits waiting
    obtain ⟨m,handler⟩ := isSome_iff_exists.mp present
    have waiters : lane.parked = [m] := by
      unfold parked
      split
      · rename_i busy
        exact absurd busy (settled _)
      · simp [handler]
    have gone : parked { lane with
        queue := lane.queue.takeWaiting.2
        ready := lane.ready ++ [(m,normal)] } = [] := by
      unfold parked
      split <;> simp [takeWaiting,waiting]
    have free : lane.queue.takeWaiting.2.free = lane.queue.free := by
      simp only [free,items]
      simp [takeWaiting,waiting]
    have posted : lane.queue.takeWaiting.1 = some m := by
      simp [takeWaiting,waiting,handler]
    rw [posted]
    refine ⟨completes,by rw [items]; exact delivers,keeps,?_,?_,?_,?_⟩
    · simp only [promised,free,toList_some,map_cons,map_nil,countP_append,countP_singleton]
      cases normal with
      | false => simpa [promised] using room
      | true =>
        have slot := enough rfl waiting
        simp only [promised] at slot
        simp only [if_true]
        omega
    · simp [takeWaiting,waiting]
    · intro m' busy
      exact absurd busy (settled m')
    · simp only [toList_some,map_cons,map_nil]
      simp only [calls,waiters] at accounts
      simp only [calls,gone,accounts,map_append,map_cons,map_nil,← Multiset.coe_add,
        Multiset.coe_singleton,Multiset.coe_nil]
      abel

end Lane

/-- The condition on a step: a free slot is taken or announced only when one is left beside those already announced,
and a call suspends only when no other call is suspended on the same queue. -/
def Orderly (s : State cfg M) : Action cfg M → Prop
  | .proceed src =>
    match (s.lanes src).active with
    | some (_,point) => (s.lanes src).Orderly point
    | none => True
  | .drain =>
    match s.handler with
    | .notify offset _ => (s.lanes (s.source offset)).queue.producerWaiting = true →
      (s.lanes (s.source offset)).promised < (s.lanes (s.source offset)).queue.free
    | _ => True
  | _ => True

instance (s : State cfg M) (a : Action cfg M) : Decidable (Orderly s a) :=
  match a with
  | .proceed src =>
    match seen : (s.lanes src).active with
    | some (_,point) => decidable_of_iff ((s.lanes src).Orderly point) (by simp [Orderly,seen])
    | none => isTrue (by simp [Orderly,seen])
  | .drain =>
    match seen : s.handler with
    | .notify offset _ =>
      decidable_of_iff ((s.lanes (s.source offset)).queue.producerWaiting = true →
        (s.lanes (s.source offset)).promised < (s.lanes (s.source offset)).queue.free)
        (by simp [Orderly,seen])
    | .idle | .scan .. | .dequeue .. | .clear | .recheck _ | .exchange | .postDrain =>
      isTrue (by simp [Orderly,seen])
  | .coPostTo .. | .postTo .. | .resume .. | .cancel .. | .beginDrain => isTrue trivial

theorem step_exact (s : State cfg M) (a : Action cfg M) (next : State cfg M)
    (exact : ∀ src, (s.lanes src).Exact) (orderly : Orderly s a) (moved : step s a = some next) :
    ∀ src, (next.lanes src).Exact := by
  intro src
  rcases step_lane s a next moved src with same | changed
  · rw [same]
    exact exact src
  generalize next.lanes src = lane at changed
  cases changed with
  | coPostTo free => exact begin_exact _ _ (exact _) free _ (.inl rfl)
  | postTo free => exact begin_exact _ _ (exact _) free _ (.inr rfl)
  | proceed busy moved =>
    simp only [Orderly,busy] at orderly
    exact proceed_exact _ (exact _) busy orderly moved
  | resume resumed => exact resume_exact _ (exact _) resumed
  | cancel => exact wake_exact _ false (exact _) (by simp)
  | take _ taken => exact dequeue_exact _ (exact _) taken
  | wake seen =>
    simp only [Orderly,seen] at orderly
    exact wake_exact _ true (exact _) (fun _ => orderly)

/-- In every run of orderly steps, each source's messages appended are those of the calls that returned normally (and
of one about to), in order; they are those delivered and those still queued; no call has vanished; and a resumed call
finds room. -/
theorem enqueue_exactly_once (cfg : Config) (queues : Fin cfg.cores → SpscQueue M M)
    (requested : Nat) (word : requested < 2^64) (slots : Fin cfg.cores → Nat → M)
    (created : ∀ src, SpscQueue.create requested word (slots src) = some (queues src))
    (schedule : List (Action cfg M)) (s : State cfg M)
    (orderly : Execution.Along step Orderly (start cfg queues) schedule)
    (runs : Execution.run step (start cfg queues) schedule = some s) (src : Fin cfg.cores) :
    (s.lanes src).appended = (s.lanes src).completed ++ (s.lanes src).inflight ∧
    (s.lanes src).appended = (s.lanes src).delivered ++ (s.lanes src).queue.items ∧
    (s.lanes src).dropped = [] ∧ ((s.lanes src).begun : Multiset M) = (s.lanes src).calls ∧
    ∀ m, (s.lanes src).active = some (m,.retry) → ∃ queue, (s.lanes src).queue.tryEnqueue m = some queue := by
  have initial (src : Fin cfg.cores) : ((start cfg queues).lanes src).Exact := by
    obtain ⟨items,waiting,handler⟩ := create_items _ _ _ _ (created src)
    constructor <;> simp [start,fresh,inflight,promised,calls,parked,items,waiting,handler]
  have exact := Execution.run_guarded step Orderly (fun s => ∀ src, (s.lanes src).Exact)
    step_exact initial orderly runs src
  refine ⟨exact.completes,exact.delivers,exact.keeps,exact.accounts,fun m retries => ?_⟩
  have room := exact.room
  simp only [promised,retries] at room
  cases tried : (s.lanes src).queue.tryEnqueue m with
  | some queue => exact ⟨queue,rfl⟩
  | none =>
    rw [tryEnqueue_none,full_iff] at tried
    omega

def visitOnce : List (Action pair Nat) := .beginDrain :: List.replicate 4 .drain

def overtaken : List (Action pair Nat) :=
  send 1 ++ park 2 ++ visitOnce ++
    [.postTo sender 3,.proceed sender,.proceed sender,.resume sender 0,.proceed sender,.proceed sender]

/-- Two ways to lose a message: a second suspension overwrites the handler of the
first, and a resumed call that finds the queue full again returns normally. -/
theorem suspended_send_lost :
    (∃ s, Execution.run step (start pair fun _ => slot) (send 1 ++ park 2 ++ park 3) = some s ∧
      (s.lanes sender).dropped = [2] ∧ (s.lanes sender).queue.pendingHandler = some 3 ∧
      (s.lanes sender).ready = [] ∧ (s.lanes sender).active = none) ∧
    ∃ s, Execution.run step (start pair fun _ => slot) overtaken = some s ∧
      (s.lanes sender).completed = [1,3,2] ∧ (s.lanes sender).appended = [1,3] ∧
      (s.lanes sender).delivered = [1] ∧ (s.lanes sender).queue.items = [3] := by
  decide +kernel

def served : List (Action pair Nat) :=
  send 1 ++ park 2 ++ visitOnce ++ [.resume sender 0,.proceed sender,.proceed sender] ++ park 3

theorem enqueue_exactly_once_served : ∃ s,Execution.run step (start pair fun _ => slot) served = some s ∧
      (s.lanes sender).appended = (s.lanes sender).completed ++ (s.lanes sender).inflight ∧
      (s.lanes sender).dropped = [] ∧ (s.lanes sender).completed = [1,2] := by
  obtain ⟨s,runs,holds⟩ : ∃ s, Execution.run step (start pair fun _ => slot) served = some s ∧
      (s.lanes sender).completed = [1,2] := by
    decide +kernel
  have orderly : Execution.Along step Orderly (start pair fun _ => slot) served := by
    decide +kernel
  obtain ⟨completes,_,keeps,_⟩ := enqueue_exactly_once pair (fun _ => slot) 1 (by decide)
    (fun _ _ => 0) (fun _ => rfl) served s orderly runs sender
  exact ⟨s,runs,completes,keeps,holds⟩

end ApexPipeline.CoreEngine
