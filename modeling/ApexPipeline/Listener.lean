import ApexPipeline.ConnectionLimiter
import ApexPipeline.Execution

/-! Per-IP admission across cores: `checked_accept` and the close callback of `listener.hpp` with the value-returning
`cross_core_call`. The increment travels as a task to the core that owns the address; the caller gives up when its
timer fires, at any time, and then posts a decrement. A core runs one thing at a time, so nothing else touches its
limiter between the steps of a task. -/
namespace ApexPipeline.Listener

structure Config where
  numCores : Nat
  maxPerIp : Nat
  positive : 0 < numCores

/-- The coroutine of `checked_accept`, and after it the connection. -/
inductive Caller where
  | arrived     -- spawned on the accepting core
  | waiting     -- suspended in `cross_core_call`
  | live        -- admitted: handed over, or in its read loop
  | releasing   -- closed, its decrement posted to the owner
  | gone
  deriving DecidableEq, Repr

/-- The task on the owner core. `ran none` is an exception of the function. -/
inductive Task where
  | none
  | queued
  | checked
  | ran (result : Option Bool)
  | done
  deriving DecidableEq, Repr

/-- `State::status` of the call: 0, 1, 2 and 3. -/
inductive Status where
  | pending | completed | timedOut | failed
  deriving DecidableEq, Repr

inductive Compensation where
  | none | posted | done
  deriving DecidableEq, Repr

/-- One accepted socket. `counted` is history: its `try_increment` was granted and
no decrement has been made on its behalf. -/
structure Attempt (cfg : Config) where
  ip : Ip
  accepting : Fin cfg.numCores
  target : Fin cfg.numCores
  caller : Caller
  task : Task
  status : Status
  result : Option Bool
  compensation : Compensation
  counted : Bool

structure State (cfg : Config) where
  limiters : Fin cfg.numCores → ConnectionLimiter
  attempts : List (Attempt cfg)

variable {cfg : Config}

def owner (cfg : Config) (ip : Ip) : Fin cfg.numCores :=
  ⟨ConnectionLimiter.ownerCore ip cfg.numCores,ConnectionLimiter.ownerCore_lt ip cfg.positive⟩

def Attempt.midTask (a : Attempt cfg) : Bool :=
  match a.task with
  | .checked | .ran _ => true
  | _ => false

namespace State

def idle (s : State cfg) (core : Fin cfg.numCores) : Bool :=
  s.attempts.all fun a => !(a.midTask && owner cfg a.ip == core)

def setAttempt (s : State cfg) (i : Nat) (a : Attempt cfg) : State cfg :=
  { s with attempts := s.attempts.set i a }

def setLimiter (s : State cfg) (ip : Ip) (l : ConnectionLimiter) : State cfg :=
  { s with limiters := Function.update s.limiters (owner cfg ip) l }

def count (s : State cfg) (ip : Ip) : Nat := (s.limiters (owner cfg ip)).count ip

def increment (s : State cfg) (ip : Ip) : Bool × State cfg :=
  let (granted,limiter) := (s.limiters (owner cfg ip)).tryIncrement cfg.maxPerIp ip
  (granted,s.setLimiter ip limiter)

def decrement (s : State cfg) (ip : Ip) : State cfg :=
  s.setLimiter ip ((s.limiters (owner cfg ip)).decrement ip)

end State

inductive Action (cfg : Config) where
  | arrive (ip : Ip) (accepting target : Fin cfg.numCores)
  | check (i : Nat)
  | taskLoad (i : Nat)
  | taskRun (i : Nat) (throws : Bool)
  | taskFinish (i : Nat)
  | wake (i : Nat)
  | compensate (i : Nat)
  | close (i : Nat)
  | release (i : Nat)

/-- The start of `checked_accept`: the owner counts at once, another core calls it. -/
def check (s : State cfg) (i : Nat) (a : Attempt cfg) : Option (State cfg) :=
  if a.caller = .arrived then
    if owner cfg a.ip = a.accepting then
      if s.idle a.accepting then
        let (granted,s) := s.increment a.ip
        some (s.setAttempt i { a with
          caller := if granted then .live else .gone, counted := granted })
      else none
    else some (s.setAttempt i { a with caller := .waiting, task := .queued })
  else none

def taskLoad (s : State cfg) (i : Nat) (a : Attempt cfg) : Option (State cfg) :=
  if a.task = .queued ∧ s.idle (owner cfg a.ip) then
    some (s.setAttempt i { a with task := if a.status = .pending then .checked else .done })
  else none

def taskRun (s : State cfg) (i : Nat) (a : Attempt cfg) (throws : Bool) : Option (State cfg) :=
  if a.task = .checked then
    if throws then some (s.setAttempt i { a with task := .ran none })
    else
      let (granted,s) := s.increment a.ip
      some (s.setAttempt i { a with
        task := .ran (some granted), result := some granted, counted := granted })
  else none

/-- The compare-and-exchange from 0 to 1, or to 3 after an exception. -/
def taskFinish (s : State cfg) (i : Nat) (a : Attempt cfg) : Option (State cfg) :=
  match a.task with
  | .ran result =>
    let reached := if result.isSome then .completed else .failed
    some (s.setAttempt i { a with
      task := .done, status := if a.status = .pending then reached else a.status })
  | _ => none

/-- The caller after its timer: it expired, or the task cancelled it. A call without
a value posts the decrement and rejects the socket. -/
def wake (s : State cfg) (i : Nat) (a : Attempt cfg) : Option (State cfg) :=
  if a.caller = .waiting then
    match a.status with
    | .pending => some (s.setAttempt i { a with
        status := .timedOut, caller := .gone, compensation := .posted })
    | .failed => some (s.setAttempt i { a with caller := .gone, compensation := .posted })
    | .completed | .timedOut => a.result.map fun granted =>
        s.setAttempt i { a with caller := if granted then .live else .gone }
  else none

def compensate (s : State cfg) (i : Nat) (a : Attempt cfg) : Option (State cfg) :=
  if a.compensation = .posted ∧ s.idle (owner cfg a.ip) then
    some ((s.decrement a.ip).setAttempt i { a with compensation := .done, counted := false })
  else none

def close (s : State cfg) (i : Nat) (a : Attempt cfg) : Option (State cfg) :=
  if a.caller = .live then
    if owner cfg a.ip = a.target then
      if s.idle a.target then
        some ((s.decrement a.ip).setAttempt i { a with caller := .gone, counted := false })
      else none
    else some (s.setAttempt i { a with caller := .releasing })
  else none

def release (s : State cfg) (i : Nat) (a : Attempt cfg) : Option (State cfg) :=
  if a.caller = .releasing ∧ s.idle (owner cfg a.ip) then
    some ((s.decrement a.ip).setAttempt i { a with caller := .gone, counted := false })
  else none

def step (s : State cfg) : Action cfg → Option (State cfg)
  | .arrive ip accepting target =>
    if ip = [] then none
    else some { s with attempts := s.attempts ++ [⟨ip,accepting,target,.arrived,.none,.pending,none,.none,false⟩] }
  | .check i => s.attempts[i]?.bind (check s i)
  | .taskLoad i => s.attempts[i]?.bind (taskLoad s i)
  | .taskRun i throws => s.attempts[i]?.bind (taskRun s i · throws)
  | .taskFinish i => s.attempts[i]?.bind (taskFinish s i)
  | .wake i => s.attempts[i]?.bind (wake s i)
  | .compensate i => s.attempts[i]?.bind (compensate s i)
  | .close i => s.attempts[i]?.bind (close s i)
  | .release i => s.attempts[i]?.bind (release s i)

def start (cfg : Config) : State cfg := ⟨fun _ => .empty,[]⟩

end ApexPipeline.Listener
