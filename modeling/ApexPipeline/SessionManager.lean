import ApexPipeline.Execution
import ApexPipeline.TimingWheelOperations

/-! The session manager of one core. Its callbacks do not touch the manager, so all that matters is whether they
throw: an exception of `remove_callback_` leaves the function it is called in, one of `timeout_callback_` is caught.
Where sessions are allocated and the receive buffers that `tick` shrinks are left out. -/
namespace ApexPipeline

abbrev SessionId := Nat

/-- The fields of `Session` that the manager owns; `timer_entry_id_` is 0 without a timer. -/
structure ManagedSession where
  id : SessionId
  timerEntryId : Nat
  deriving DecidableEq, Repr

namespace SessionManager

/-- Which of the two callbacks have been set. -/
structure Config where
  heartbeatTimeoutTicks : Nat
  removeCallback : Bool
  timeoutCallback : Bool
  deriving DecidableEq, Repr

inductive Event where
  | created (id : SessionId)
  | touched (id : SessionId)
  | removeCallback (id : SessionId)
  | timeoutCallback (id : SessionId)
  | closed (id : SessionId)
  | ticked
  deriving DecidableEq, Repr

/-- The manager besides its wheel; the log is no part of the program. -/
structure Table where
  nextId : SessionId
  sessions : SessionId → Option ManagedSession
  timerToSession : Nat → Option SessionId
  shrinkTickCounter : Nat
  sessionsCreated : Nat
  sessionsTimeout : Nat
  log : List Event

structure Manager where
  wheel : TimingWheel
  table : Table

def kShrinkIntervalTicks : Nat := 600

def Table.note (t : Table) (event : Event) : Table := { t with log := t.log ++ [event] }

/-- `sessions_[id] = session`, or a field of the session changed through its pointer. -/
def Table.put (t : Table) (session : ManagedSession) : Table :=
  { t with sessions := Function.update t.sessions session.id (some session) }

def Table.erase (t : Table) (id : SessionId) : Table :=
  { t with sessions := Function.update t.sessions id none }

def Table.unlink (t : Table) (timer : Nat) : Table :=
  { t with timerToSession := Function.update t.timerToSession timer none }

def empty : Table :=
  ⟨1,fun _ => none,fun _ => none,0,0,0,[]⟩

/-- When the wheel refuses the delay, the session stays without a timer. -/
def createSession (cfg : Config) (m : Manager) : Except WheelFault Manager :=
  let id := m.table.nextId
  let t := ({ m.table with nextId := id + 1 }.put ⟨id,0⟩).note (.created id)
  if cfg.heartbeatTimeoutTicks > 0 then
    match m.wheel.schedule cfg.heartbeatTimeoutTicks with
    | .ok (timer,w) => .ok ⟨w,{ t.put ⟨id,timer⟩ with
        timerToSession := Function.update t.timerToSession timer (some id)
        sessionsCreated := t.sessionsCreated + 1 }⟩
    | .error .outOfRange => .ok ⟨m.wheel,t⟩
    | .error .undefined => .error .undefined
  else .ok ⟨m.wheel,{ t with sessionsCreated := t.sessionsCreated + 1 }⟩

/-- The call of `remove_callback_` and the removal that follows unless it throws. -/
def Table.dismiss (cfg : Config) (throws : Bool) (id : SessionId) (t : Table) (andThen : Table → Table) : Table :=
  if cfg.removeCallback then
    let t := t.note (.removeCallback id)
    if throws then t else andThen (t.erase id)
  else andThen (t.erase id)

def removeSession (cfg : Config) (m : Manager) (id : SessionId) (throws : Bool) : Except WheelFault Manager :=
  match m.table.sessions id with
  | none => .ok m
  | some session =>
    let t := m.table.note (.closed id)
    if session.timerEntryId ≠ 0 then do
      let w ← m.wheel.cancel session.timerEntryId
      let t := (t.unlink session.timerEntryId).put { session with timerEntryId := 0 }
      return ⟨w,t.dismiss cfg throws id fun t => t⟩
    else .ok ⟨m.wheel,t.dismiss cfg throws id fun t => t⟩

def touchSession (cfg : Config) (m : Manager) (id : SessionId) : Except WheelFault Manager :=
  let touched := m.table.note (.touched id)
  if cfg.heartbeatTimeoutTicks = 0 then .ok ⟨m.wheel,touched⟩
  else
    match m.table.sessions id with
    | none => .ok ⟨m.wheel,touched⟩
    | some session =>
      if session.timerEntryId = 0 then .ok ⟨m.wheel,touched⟩
      else
        match m.wheel.reschedule session.timerEntryId cfg.heartbeatTimeoutTicks with
        | .ok w => .ok ⟨w,touched⟩
        | .error .outOfRange => .ok ⟨m.wheel,touched⟩
        | .error .undefined => .error .undefined

/-- `throwing` are the sessions for which `remove_callback_` throws. -/
def onTimerExpire (cfg : Config) (throwing : List SessionId) (timer : Nat) (t : Table) : Table :=
  match t.timerToSession timer with
  | none => t
  | some id =>
    let t := t.unlink timer
    match t.sessions id with
    | none => t
    | some session =>
      let t := { t with sessionsTimeout := t.sessionsTimeout + 1 }.put
        { session with timerEntryId := 0 }
      t.dismiss cfg (decide (id ∈ throwing)) id fun t =>
        (if cfg.timeoutCallback then t.note (.timeoutCallback id) else t).note (.closed id)

def tick (cfg : Config) (throwing : List SessionId) (m : Manager) : Except WheelFault Manager := do
  let (w,t) ← TimingWheel.tick (fun _ timer s => .ok (s.1,onTimerExpire cfg throwing timer s.2)) (m.wheel,m.table)
  let count := t.shrinkTickCounter + 1
  return ⟨w,{ t with shrinkTickCounter := if count ≥ kShrinkIntervalTicks then 0 else count }.note .ticked⟩

inductive Action where
  | createSession
  | removeSession (id : SessionId) (throws : Bool)
  | touchSession (id : SessionId)
  | tick (throwing : List SessionId)
  deriving DecidableEq, Repr

def perform (cfg : Config) (m : Manager) : Action → Except WheelFault Manager
  | .createSession => createSession cfg m
  | .removeSession id throws => removeSession cfg m id throws
  | .touchSession id => touchSession cfg m id
  | .tick throwing => tick cfg throwing m

def step (cfg : Config) (m : Manager) (action : Action) : Option Manager :=
  (perform cfg m action).toOption

def start (w : TimingWheel) : Manager := ⟨w,empty⟩

end SessionManager
end ApexPipeline
