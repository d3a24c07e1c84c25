import ApexPipeline.Execution

/-! `adapter_base.hpp` and `cancellation_token.cpp`: the coroutines of an adapter while it is drained. Each core
works off its queue in order. A post of another thread goes to the back of that queue at once. The `io_context` of a core
has the concurrency hint 1, so a post that a handler makes to its own core waits in a private queue of the
thread until the handler ends, and posts of other threads overtake it. -/
namespace ApexPipeline.AdapterBase
open Execution Function List

inductive AdapterState where
  | closed | running | draining
  deriving DecidableEq, Repr

inductive Posted where
  | spawn | cancelAll
  deriving DecidableEq, Repr

/-- A coroutine that was started. One that has got its signal is `cancelled`, also after its end. -/
inductive Coro where
  | runs | finished | cancelled
  deriving DecidableEq, Repr

def Coro.signal : Coro → Coro
  | .runs => .cancelled
  | coro => coro

def Coro.complete : Coro → Coro
  | .runs => .finished
  | coro => coro

/-- `io_ctxs_[i]` and `tokens_[i]`. `busy` while a handler runs, and `deferred` counts what it has posted to its own
core. The last two are no part of the program: `cancel_all` has been posted, and has run. -/
structure Core where
  queue : List Posted := []
  busy : Bool := false
  deferred : Nat := 0
  slots : List Coro := []
  posted : Bool := false
  swept : Bool := false

def Core.post (core : Core) : Posted → Core
  | .spawn => { core with queue := core.queue ++ [.spawn] }
  | .cancelAll => { core with queue := core.queue ++ [.cancelAll], posted := true }

/-- The next handler of the queue; the coroutine that it starts may go on in it. -/
def Core.run (core : Core) : Option Core :=
  if core.busy then none
  else
    match core.queue with
    | [] => none
    | .spawn :: rest => some { core with queue := rest, busy := true, slots := core.slots ++ [.runs] }
    | .cancelAll :: rest =>
      some { core with queue := rest, busy := true, slots := core.slots.map Coro.signal, swept := true }

def Core.leave (core : Core) : Core :=
  { core with queue := core.queue ++ replicate core.deferred .spawn, busy := false, deferred := 0 }

/-- A call of `spawn_adapter_coro` by a handler of a core or, with `none`, by another thread. -/
structure Call where
  caller : Option Nat
  coreId : Nat
  deriving DecidableEq, Repr

/-- `spawning` are the calls that have found the adapter running and have not posted yet; `next` is the core that
`cancel_all_coros` posts to next. -/
structure State where
  state : AdapterState := .running
  cores : Nat → Core := fun _ => {}
  spawning : List Call := []
  next : Nat := 0

/-- `spawn_adapter_coro` is `load` and `post`, `drain`, which the thread of the server calls, is `drain` and `cancel` for
each core. With `enter` a core begins any other handler, a timer's or a socket's. -/
inductive Action where
  | load (call : Call)
  | post (call : Nat)
  | drain
  | cancel
  | run (coreId : Nat)
  | enter (coreId : Nat)
  | leave (coreId : Nat)
  | complete (coreId slot : Nat)
  deriving DecidableEq, Repr

def State.put (s : State) (coreId : Nat) (core : Core) : State := { s with cores := update s.cores coreId core }

/-- A call is made by a handler that runs, and returns before it ends. -/
def step (coreCount : Nat) (s : State) : Action → Option State
  | .load call =>
    if s.state = .running ∧ call.coreId < coreCount ∧ ∀ core ∈ call.caller, (s.cores core).busy then
      some { s with spawning := s.spawning ++ [call] }
    else none
  | .post call => s.spawning[call]?.map fun called =>
      let core := s.cores called.coreId
      { s with spawning := s.spawning.eraseIdx call }.put called.coreId
        (if called.caller = some called.coreId then { core with deferred := core.deferred + 1 } else core.post .spawn)
  | .drain => some { s with state := .draining, next := 0 }
  | .cancel =>
    if s.state = .draining ∧ s.next < coreCount then
      some ({ s with next := s.next + 1 }.put s.next ((s.cores s.next).post .cancelAll))
    else none
  | .run coreId => (s.cores coreId).run.map (s.put coreId)
  | .enter coreId =>
    if (s.cores coreId).busy then none else some (s.put coreId { s.cores coreId with busy := true })
  | .leave coreId =>
    if (s.cores coreId).busy ∧ ∀ call ∈ s.spawning, call.caller ≠ some coreId then
      some (s.put coreId (s.cores coreId).leave)
    else none
  | .complete coreId slot =>
    let core := s.cores coreId
    some (s.put coreId { core with slots := core.slots.modify slot Coro.complete })

/-- Where `cancel_all` has run, every coroutine had finished before or has got its signal. -/
def Contained (s : State) : Prop := ∀ coreId, (s.cores coreId).swept = true → .runs ∉ (s.cores coreId).slots

/-- A coroutine comes into the queue of its core before `cancel_all` does: one that another thread posts with the post, one
that a handler of the core itself posts when that handler ends. -/
def InTime (s : State) : Action → Prop
  | .post call => ∀ called ∈ s.spawning[call]?, called.caller ≠ some called.coreId → (s.cores called.coreId).posted = false
  | .leave coreId => (s.cores coreId).deferred ≠ 0 → (s.cores coreId).posted = false
  | _ => True

instance (s : State) : (action : Action) → Decidable (InTime s action)
  | .post call => inferInstanceAs (Decidable (∀ called ∈ s.spawning[call]?, _ → _))
  | .leave _ => inferInstanceAs (Decidable (_ → _))
  | .load _ | .drain | .cancel | .run _ | .enter _ | .complete .. => inferInstanceAs (Decidable True)

structure Orderly (core : Core) : Prop where
  unposted : core.posted = false → .cancelAll ∉ core.queue ∧ core.swept = false
  behind : core.queue.Pairwise fun first second => first = .cancelAll → second ≠ .spawn
  swept : core.swept = true → .spawn ∉ core.queue ∧ .runs ∉ core.slots

variable {core : Core}

theorem Orderly.spawns (orderly : Orderly core) (early : core.posted = false) (count : Nat) :
    Orderly { core with queue := core.queue ++ replicate count .spawn } := by
  obtain ⟨free,unswept⟩ := orderly.unposted early
  refine ⟨fun _ => ⟨?_,unswept⟩,pairwise_append.mpr ⟨orderly.behind,?_,?_⟩,fun swept => ?_⟩
  · simp [free]
  · exact pairwise_replicate.mpr (.inr nofun)
  · rintro first member _ _ rfl
    exact absurd member free
  · exact absurd (unswept.symm.trans swept) nofun

theorem Orderly.leave (orderly : Orderly core) (inTime : core.deferred ≠ 0 → core.posted = false) :
    Orderly core.leave := by
  by_cases none : core.deferred = 0
  · simp only [Core.leave,none,replicate_zero,append_nil]
    exact ⟨orderly.unposted,orderly.behind,orderly.swept⟩
  · have spawns := orderly.spawns (inTime none) core.deferred
    exact ⟨spawns.unposted,spawns.behind,spawns.swept⟩

theorem Orderly.cancelAll (orderly : Orderly core) : Orderly (core.post .cancelAll) := by
  refine ⟨nofun,pairwise_append.mpr ⟨orderly.behind,pairwise_singleton ..,?_⟩,fun swept => ?_⟩
  · rintro first _ second last _ rfl
    cases mem_singleton.mp last
  · obtain ⟨free,ended⟩ := orderly.swept swept
    exact ⟨by simpa [Core.post] using free,ended⟩

theorem Orderly.run {next : Core} (orderly : Orderly core) (ran : core.run = some next) : Orderly next := by
  obtain ⟨unposted,behind,swept⟩ := orderly
  unfold Core.run at ran
  split at ran
  · cases ran
  split at ran
  · cases ran
  · rename_i rest queue
    cases ran
    rw [queue] at unposted behind swept
    refine ⟨fun early => ⟨fun member => (unposted early).1 (mem_cons_of_mem _ member),(unposted early).2⟩,
      behind.of_cons,fun done => ?_⟩
    exact absurd mem_cons_self (swept done).1
  · rename_i rest queue
    cases ran
    rw [queue] at unposted behind
    refine ⟨fun early => absurd mem_cons_self (unposted early).1,behind.of_cons,fun _ => ⟨fun member => ?_,?_⟩⟩
    · exact rel_of_pairwise_cons behind member rfl rfl
    · intro member
      obtain ⟨coro,_,same⟩ := mem_map.mp member
      cases coro <;> cases same

theorem Coro.complete_ne (coro : Coro) : coro.complete ≠ .runs := by
  cases coro <;> nofun

theorem Orderly.complete (orderly : Orderly core) (slot : Nat) :
    Orderly { core with slots := core.slots.modify slot Coro.complete } := by
  refine ⟨orderly.unposted,orderly.behind,fun swept => ⟨(orderly.swept swept).1,fun member => ?_⟩⟩
  obtain ⟨place,inside,found⟩ := getElem_of_mem member
  rw [getElem_modify] at found
  split at found
  · exact absurd found (Coro.complete_ne _)
  · exact (orderly.swept swept).2 (found ▸ getElem_mem _)

theorem orderly_step {next : State} (orderly : ∀ coreId, Orderly (s.cores coreId)) (inTime : InTime s action)
    (stepped : step coreCount s action = some next) : ∀ coreId, Orderly (next.cores coreId) := by
  have put {coreId : Nat} {core : Core} (replaced : Orderly core) : ∀ other, Orderly (update s.cores coreId core other) :=
    (forall_update_iff s.cores fun _ => Orderly).mpr ⟨replaced,fun other _ => orderly other⟩
  cases action with
  | load call =>
    obtain ⟨_,rfl⟩ := of_guard stepped
    exact orderly
  | post call =>
    obtain ⟨called,found,rfl⟩ := Option.map_eq_some_iff.mp stepped
    refine put ?_
    have before := orderly called.coreId
    split
    · exact ⟨before.unposted,before.behind,before.swept⟩
    · rename_i foreign
      exact before.spawns (inTime called found foreign) 1
  | drain =>
    cases stepped
    exact orderly
  | cancel =>
    obtain ⟨_,rfl⟩ := of_guard stepped
    exact put (orderly s.next).cancelAll
  | run coreId =>
    obtain ⟨core,ran,rfl⟩ := Option.map_eq_some_iff.mp stepped
    exact put ((orderly coreId).run ran)
  | enter coreId =>
    obtain ⟨_,rfl⟩ := of_unless stepped
    exact put ⟨(orderly coreId).unposted,(orderly coreId).behind,(orderly coreId).swept⟩
  | leave coreId =>
    obtain ⟨_,rfl⟩ := of_guard stepped
    exact put ((orderly coreId).leave inTime)
  | complete coreId slot =>
    cases stepped
    exact put ((orderly coreId).complete slot)

/-- As long as no coroutine comes into the queue of a core after `cancel_all`, none escapes. -/
theorem shutdown_contains (coreCount : Nat) (schedule : List Action) (inTime : Along (step coreCount) InTime {} schedule) :
    Throughout (step coreCount) Contained {} schedule := by
  refine (throughout_guarded (fun s => ∀ coreId, Orderly (s.cores coreId)) ?_ ?_ inTime).imp ?_
  · exact fun _ _ _ orderly inTime stepped => orderly_step orderly inTime stepped
  · exact fun _ => ⟨fun _ => ⟨not_mem_nil,rfl⟩,.nil,nofun⟩
  · exact fun _ orderly coreId swept => ((orderly coreId).swept swept).2

/-- One coroutine is posted by another thread, one by a handler that ends before the adapter is drained, and one by a
call on core 0 that has found the adapter running before. -/
def orderlyShutdown : List Action :=
  [.load ⟨none,0⟩,.post 0,.enter 1,.load ⟨some 1,1⟩,.post 0,.leave 1,.run 0,.load ⟨some 0,1⟩,.drain,.post 0,.leave 0,.cancel,
    .cancel,.run 0,.run 1,.leave 1,.run 1,.leave 1,.run 1]

theorem shutdown_contains_two :
    Along (step 2) InTime {} orderlyShutdown ∧ Throughout (step 2) Contained {} orderlyShutdown := by
  have inTime : Along (step 2) InTime {} orderlyShutdown := by decide
  exact ⟨inTime,shutdown_contains 2 _ inTime⟩

/-- A coroutine starts behind `cancel_all`: the adapter is drained between the check of its state and the post of another
thread, or after the post of a handler that has not ended, as `on_disconnect` of a Redis connection makes it. -/
theorem coroutine_escapes :
    (∃ final, run (step 1) {} [.load ⟨none,0⟩,.drain,.cancel,.post 0,.run 0,.leave 0,.run 0] = some final ∧
      (final.cores 0).swept = true ∧ (final.cores 0).slots = [.runs] ∧ ¬Contained final) ∧
    ∃ final, run (step 1) {} [.enter 0,.load ⟨some 0,0⟩,.post 0,.drain,.cancel,.leave 0,.run 0,.leave 0,.run 0] =
        some final ∧
      (final.cores 0).swept = true ∧ (final.cores 0).slots = [.runs] ∧ ¬Contained final := by
  constructor <;> exact ⟨_,rfl,rfl,rfl,fun contained => contained 0 rfl mem_cons_self⟩

end ApexPipeline.AdapterBase
