import ApexPipeline.Execution
import ApexPipeline.TimingWheelOperations

/-! Runs of the wheel in small steps. A tick is broken up at every callback, and a callback is any finite sequence of
calls; one that throws has made the calls it got to. `tick` itself is such a run. -/
namespace ApexPipeline.TimingWheel
open Execution

inductive Call where
  | schedule (ticks : Nat)
  | cancel (id : Nat)
  | reschedule (id ticks : Nat)
  deriving DecidableEq, Repr

/-- `collected` is phase 1 of a tick. Entries are named by their address; `cancelled` and
`rescheduled` only have the id the caller gave. -/
inductive Event where
  | scheduled (e id tick ticks : Nat)
  | rescheduled (id tick ticks : Nat)
  | cancelled (id : Nat)
  | collected (tick : Nat)
  | fired (e id tick : Nat)
  deriving DecidableEq, Repr

/-- A call that throws `out_of_range` has no effect. -/
def perform (call : Call) (s : TimingWheel × List Event) : Except WheelFault (TimingWheel × List Event) :=
  match call with
  | .schedule ticks =>
    match s.1.schedule ticks with
    | .ok (id,w) => .ok (w,s.2 ++ [.scheduled s.1.allocated id s.1.currentTick ticks])
    | .error .outOfRange => .ok s
    | .error .undefined => .error .undefined
  | .cancel id =>
    match s.1.cancel id with
    | .ok w => .ok (w,s.2 ++ [.cancelled id])
    | .error fault => .error fault
  | .reschedule id ticks =>
    match s.1.reschedule id ticks with
    | .ok w => .ok (w,s.2 ++ [.rescheduled id s.1.currentTick ticks])
    | .error .outOfRange => .ok s
    | .error .undefined => .error .undefined

def performAll : List Call → TimingWheel × List Event → Except WheelFault (TimingWheel × List Event)
  | [], s => .ok s
  | call :: rest, s => do performAll rest (← perform call s)

/-- Where the thread is: in its own code, in `tick` between two callbacks, or in one. -/
inductive Phase where
  | outside | between | inside
  deriving DecidableEq, Repr

/-- `due` is `expired_buf_` from the entry that is processed on. -/
structure Runtime where
  wheel : TimingWheel
  due : List Nat
  phase : Phase
  log : List Event

inductive Action where
  | call (call : Call)
  | tick | invoke | returned | finish
  deriving DecidableEq, Repr

def Runtime.pending (s : Runtime) : List Nat :=
  match s.phase with
  | .inside => s.due.tail
  | _ => s.due

def Runtime.enabled (s : Runtime) : Action → Bool
  | .call _ => s.phase ≠ .between
  | .tick => s.phase = .outside
  | .invoke => s.phase = .between ∧ s.due ≠ []
  | .returned => s.phase = .inside
  | .finish => s.phase = .between ∧ s.due = []

def Runtime.act (s : Runtime) : Action → Option Runtime
  | .call call =>
    match perform call (s.wheel,s.log) with
    | .ok (w,log) => some { s with wheel := w, log := log }
    | .error _ => none
  | .tick =>
    match s.wheel.expire with
    | .ok (expired,w) => some {
        wheel := w, due := expired, phase := .between
        log := s.log ++ [.collected s.wheel.currentTick] }
    | .error _ => none
  | .invoke =>
    match s.due with
    | [] => none
    | e :: _ =>
      match s.wheel.entryAt e with
      | none => none
      | some entry => some { s with
          phase := .inside, log := s.log ++ [.fired e entry.id s.wheel.currentTick] }
  | .returned =>
    match s.due with
    | [] => none
    | e :: rest =>
      match s.wheel.release e with
      | .ok w => some { s with wheel := w, due := rest, phase := .between }
      | .error _ => none
  | .finish => some { s with
      wheel := { s.wheel with currentTick := s.wheel.currentTick + 1 }, phase := .outside }

def step (s : Runtime) (action : Action) : Option Runtime :=
  if s.enabled action then s.act action else none

def start (w : TimingWheel) : Runtime := ⟨w,[],.outside,[]⟩

theorem step_some {s next : Runtime} (moved : step s action = some next) :
    s.enabled action = true ∧ s.act action = some next := by
  unfold step at moved
  split at moved
  · exact ⟨‹_›,moved⟩
  · cases moved

/-- A callback that makes the calls of the next script, noting the run in its log. -/
def scripted (e id : Nat) (s : TimingWheel × List Event × List (List Call)) :
    Except WheelFault (TimingWheel × List Event × List (List Call)) := do
  let (w,log) ← performAll (s.2.2.headD []) (s.1,s.2.1 ++ [.fired e id s.1.currentTick])
  return (w,log,s.2.2.tail)

/-- The actions of a tick whose callbacks follow the scripts. -/
def callbacks : List Nat → List (List Call) → List Action
  | [], _ => []
  | _ :: rest, scripts =>
    .invoke :: ((scripts.headD []).map .call ++ .returned :: callbacks rest scripts.tail)

theorem performAll_runs (calls : List Call) (s : Runtime) (inside : s.phase = .inside)
    (w : TimingWheel) (log : List Event)
    (performed : performAll calls (s.wheel,s.log) = .ok (w,log)) :
    run step s (calls.map .call) = some { s with wheel := w, log := log } := by
  induction calls generalizing s with
  | nil =>
    cases performed
    rfl
  | cons call rest ih =>
    simp only [performAll,bind,Except.bind] at performed
    split at performed
    · cases performed
    rename_i middle first
    refine run_cons.mpr ⟨{ s with wheel := middle.1, log := middle.2 },?_,?_⟩
    · simp [step,Runtime.enabled,Runtime.act,inside,first]
    · exact ih { s with wheel := middle.1, log := middle.2 } inside performed

theorem fire_runs (due : List Nat) (w : TimingWheel) (log : List Event)
    (scripts : List (List Call)) (w' : TimingWheel) (log' : List Event)
    (scripts' : List (List Call))
    (fired : fire scripted due (w,log,scripts) = .ok (w',log',scripts')) :
    run step ⟨w,due,.between,log⟩ (callbacks due scripts) = some ⟨w',[],.between,log'⟩ := by
  induction due generalizing w log scripts with
  | nil =>
    cases fired
    rfl
  | cons e rest ih =>
    unfold fire at fired
    cases found : w.entryAt e with
    | none => simp [found] at fired
    | some entry =>
      simp only [found,scripted,bind,Except.bind,pure,Except.pure] at fired
      split at fired
      · cases fired
      rename_i middle called
      split at called <;> cases called
      rename_i result performed
      split at fired
      · cases fired
      rename_i w₂ released
      have script := performAll_runs (scripts.headD [])
        ⟨w,e :: rest,.inside,log ++ [.fired e entry.id w.currentTick]⟩ rfl _ _ performed
      refine run_cons.mpr ⟨⟨w,e :: rest,.inside,log ++ [.fired e entry.id w.currentTick]⟩,?_,?_⟩
      · simp [step,Runtime.enabled,Runtime.act,found]
      · rw [run_append,script]
        refine run_cons.mpr ⟨⟨w₂,rest,.between,result.2⟩,?_,ih _ _ _ fired⟩
        simp only [step,Runtime.enabled,Runtime.act,released]
        rfl

/-- `tick`, with any callbacks, is a run of small steps. -/
theorem tick_runs (w : TimingWheel) (ticked : tick scripted (w,log ++ [.collected w.currentTick],scripts) =
      .ok (w',log',scripts')) :
    ∃ expired w₁, w.expire = .ok (expired,w₁) ∧
      run step ⟨w,[],.outside,log⟩ (.tick :: (callbacks expired scripts ++ [.finish])) =
        some ⟨w',[],.outside,log'⟩ := by
  unfold tick at ticked
  simp only [bind,Except.bind,pure,Except.pure] at ticked
  split at ticked
  · cases ticked
  rename_i result expired
  split at ticked
  · cases ticked
  rename_i final fired
  obtain ⟨w₂,log₂,scripts₂⟩ := final
  cases ticked
  refine ⟨result.1,result.2,expired,?_⟩
  refine run_cons.mpr ⟨⟨result.2,result.1,.between,log ++ [.collected w.currentTick]⟩,?_,?_⟩
  · simp [step,Runtime.enabled,Runtime.act,expired]
  · rw [run_append,fire_runs _ _ _ _ _ _ _ fired]
    rfl

/-- A timer whose callback arms the next one. -/
theorem tick_runs_rearmed : ∃ w w', (create 2 (by decide)).bind (fun w => (w.schedule 0).toOption) = some (1,w) ∧
    ∃ expired w₁, w.expire = .ok (expired,w₁) ∧
      run step ⟨w,[],.outside,[]⟩ (.tick :: (callbacks expired [[.schedule 1]] ++ [.finish])) =
        some ⟨w',[],.outside,[.collected 0,.fired 0 1 0,.scheduled 1 2 0 1]⟩ :=
  ⟨_,_,rfl,tick_runs _ (show tick scripted (_,_,_) = .ok (_,_,[]) from rfl)⟩

end ApexPipeline.TimingWheel
