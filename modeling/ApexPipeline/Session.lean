import ApexPipeline.WireHeader
import ApexPipeline.Execution

/-! The write side of a session: the queue, the two ways into it, and the write pump. The executor is single
threaded, so what a coroutine does between two suspensions is one step; `close` and the senders run between any two
steps of the pump. -/
namespace ApexPipeline

/-- `completion` names the timer that an awaiting sender waits for; `enqueue_write` has
none. -/
structure WriteRequest where
  data : List UInt8
  completion : Option Nat
  deriving DecidableEq, Repr

/-- A pump that has been started is suspended in `async_write`, or its write has
completed and it is to be resumed. -/
inductive Pump where
  | writing (req : WriteRequest)
  | written (req : WriteRequest) (ok : Bool)
  deriving DecidableEq, Repr

def Pump.request : Pump → WriteRequest
  | .writing req | .written req _ => req

def Pump.isWriting : Pump → Bool
  | .writing _ => true
  | .written .. => false

/-- `scheduled` counts the pumps that were spawned and have not run yet. The last four
fields are the history of the calls: they are no part of the program. -/
structure Session where
  isOpen : Bool
  writeQueue : List WriteRequest
  pumpRunning : Bool
  maxQueueDepth : Nat
  scheduled : Nat
  pumps : List Pump
  awaited : Nat
  accepted : List WriteRequest
  handed : List (List UInt8)
  signalled : List (Nat × Except ErrorCode Unit)

namespace Session

def create (maxQueueDepth : Nat) : Session :=
  ⟨true,[],false,maxQueueDepth,0,[],0,[],[],[]⟩

def push (s : Session) (req : WriteRequest) : Session :=
  { s with writeQueue := s.writeQueue ++ [req], accepted := s.accepted ++ [req] }

/-- `co_spawn` of the pump, unless one is running. -/
def spawnPump (s : Session) : Session :=
  if s.pumpRunning then s else { s with pumpRunning := true, scheduled := s.scheduled + 1 }

def enqueueWrite (s : Session) (data : List UInt8) : Except ErrorCode Session :=
  if !s.isOpen then .error .sessionClosed
  else if s.writeQueue.length ≥ s.maxQueueDepth then .error .bufferFull
  else .ok (s.push ⟨data,none⟩).spawnPump

def enqueueWriteRaw (s : Session) (data : List UInt8) : Except ErrorCode Session :=
  s.enqueueWrite data

/-- Up to the wait for the completion timer, which the pump cancels. -/
def enqueueAndAwait (s : Session) (data : List UInt8) : Except ErrorCode Session :=
  if s.writeQueue.length ≥ s.maxQueueDepth then .error .bufferFull
  else .ok { (s.push ⟨data,some s.awaited⟩).spawnPump with awaited := s.awaited + 1 }

def asyncSend (s : Session) (header : WireHeader) (payload : List UInt8) : Except ErrorCode Session :=
  if !s.isOpen then .error .sessionClosed
  else s.enqueueAndAwait (header.serialize ++ payload)

def asyncSendRaw (s : Session) (data : List UInt8) : Except ErrorCode Session :=
  if !s.isOpen then .error .sessionClosed else s.enqueueAndAwait data

def close (s : Session) : Session := { s with isOpen := false }

/-- Sets the result and cancels the timer of a request that has one. -/
def signal (result : Except ErrorCode Unit) (s : Session) (req : WriteRequest) : Session :=
  match req.completion with
  | some waiter => { s with signalled := s.signalled ++ [(waiter,result)] }
  | none => s

/-- The loop of `write_pump` from its condition to the next suspension, or to its end. -/
def pumpLoop (s : Session) : Session :=
  match s.writeQueue with
  | [] => { s with pumpRunning := false }
  | req :: rest =>
    if s.isOpen then { s with
      writeQueue := rest, handed := s.handed ++ [req.data], pumps := s.pumps ++ [.writing req] }
    else { s with pumpRunning := false }

def resume (s : Session) (req : WriteRequest) (ok : Bool) : Session :=
  if ok then (s.signal (.ok ()) req).pumpLoop
  else
    let s := s.signal (.error .sendFailed) req
    let s := s.writeQueue.foldl (signal (.error .sendFailed)) s
    { { s with writeQueue := [] }.close with pumpRunning := false }

inductive Action where
  | enqueueWrite (data : List UInt8)
  | enqueueWriteRaw (data : List UInt8)
  | asyncSend (header : WireHeader) (payload : List UInt8)
  | asyncSendRaw (data : List UInt8)
  | close
  | startPump
  | completeWrite (pump : Nat) (ok : Bool)
  | resumePump (pump : Nat)

def after (s : Session) : Except ErrorCode Session → Session
  | .ok next => next
  | .error _ => s

def step (s : Session) : Action → Option Session
  | .enqueueWrite data => some (s.after (s.enqueueWrite data))
  | .enqueueWriteRaw data => some (s.after (s.enqueueWriteRaw data))
  | .asyncSend header payload => some (s.after (s.asyncSend header payload))
  | .asyncSendRaw data => some (s.after (s.asyncSendRaw data))
  | .close => some s.close
  | .startPump =>
    if s.scheduled = 0 then none else some { s with scheduled := s.scheduled - 1 }.pumpLoop
  | .completeWrite i ok =>
    match s.pumps[i]? with
    | some (.writing req) => some { s with pumps := s.pumps.set i (.written req ok) }
    | _ => none
  | .resumePump i =>
    match s.pumps[i]? with
    | some (.written req ok) => some ({ s with pumps := s.pumps.eraseIdx i }.resume req ok)
    | _ => none

def Action.isPump : Action → Bool
  | .startPump | .completeWrite .. | .resumePump _ => true
  | _ => false

def pumpSteps (schedule : List Action) : Nat := schedule.countP Action.isPump

theorem pumpSteps_cons (action : Action) (rest : List Action) :
    pumpSteps (action :: rest) = pumpSteps rest + action.isPump.toNat := by
  simp only [pumpSteps,List.countP_cons]
  cases action.isPump <;> rfl

theorem spawnPump_isOpen (s : Session) : s.spawnPump.isOpen = s.isOpen := by
  unfold spawnPump
  split <;> rfl

theorem enqueueWrite_isOpen {s next : Session}
    (accepted : s.enqueueWrite data = .ok next) : next.isOpen = s.isOpen := by
  unfold enqueueWrite at accepted
  split at accepted
  · cases accepted
  split at accepted <;> cases accepted
  exact spawnPump_isOpen _

theorem enqueueAndAwait_isOpen {s next : Session}
    (accepted : s.enqueueAndAwait data = .ok next) : next.isOpen = s.isOpen := by
  unfold enqueueAndAwait at accepted
  split at accepted <;> cases accepted
  exact spawnPump_isOpen _

theorem after_isOpen (s : Session)
    (kept : ∀ next, result = .ok next → next.isOpen = s.isOpen) : (s.after result).isOpen = s.isOpen := by
  cases result with
  | error _ => rfl
  | ok next => exact kept next rfl

theorem pumpLoop_isOpen (s : Session) : s.pumpLoop.isOpen = s.isOpen := by
  unfold pumpLoop
  split
  · rfl
  · split <;> rfl

theorem signal_isOpen (result : Except ErrorCode Unit) (s : Session) (req : WriteRequest) :
    (signal result s req).isOpen = s.isOpen := by
  unfold signal
  split <;> rfl

theorem step_isOpen {s next : Session} (steps : s.step action = some next)
    (opened : next.isOpen = true) : s.isOpen = true := by
  cases action with
  | enqueueWrite data =>
    cases steps
    rwa [after_isOpen _ fun _ => enqueueWrite_isOpen] at opened
  | enqueueWriteRaw data =>
    cases steps
    rwa [enqueueWriteRaw,after_isOpen _ fun _ => enqueueWrite_isOpen] at opened
  | asyncSend header payload =>
    cases steps
    rw [after_isOpen] at opened
    · exact opened
    · intro next accepted
      unfold asyncSend at accepted
      split at accepted
      · cases accepted
      · exact enqueueAndAwait_isOpen accepted
  | asyncSendRaw data =>
    cases steps
    rw [after_isOpen] at opened
    · exact opened
    · intro next accepted
      unfold asyncSendRaw at accepted
      split at accepted
      · cases accepted
      · exact enqueueAndAwait_isOpen accepted
  | close =>
    cases steps
    cases opened
  | startPump =>
    obtain ⟨_,rfl⟩ := Execution.of_unless steps
    rwa [pumpLoop_isOpen] at opened
  | completeWrite i ok =>
    simp only [step] at steps
    split at steps <;> cases steps
    exact opened
  | resumePump i =>
    simp only [step] at steps
    split at steps <;> cases steps
    unfold resume at opened
    split at opened
    · rwa [pumpLoop_isOpen,signal_isOpen] at opened
    · cases opened

end Session
end ApexPipeline
