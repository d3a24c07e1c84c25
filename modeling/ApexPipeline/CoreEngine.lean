import ApexPipeline.Execution
import ApexPipeline.SpscQueue

/-! Cross-core messaging towards one destination core: `post_to`, `co_post_to` and `schedule_drain` of
`core_engine.cpp` with `drain_all_for` of `spsc_mesh.cpp`. Every core is single-threaded; the steps of different
cores interleave freely, and each is one queue operation, one access to the drain flag or one post. -/
namespace ApexPipeline.CoreEngine

structure Config where
  cores : Nat
  dst : Fin cores
  batchLimit : Nat

/-- Where the thread of a producer core stands inside a call. -/
inductive Point where
  | coTry          -- `co_post_to`: the first `try_enqueue` of `enqueue`
  | postTry        -- `post_to`: its only `try_enqueue`
  | recheck        -- the queue was full: look again at `consumed_`
  | storeHandler   -- still full: `pending_handler_ = handler`
  | setWaiting     -- `producer_waiting_ = true`, then suspend
  | retry          -- resumed: the `try_enqueue` that must succeed
  | exchange       -- `schedule_drain`: exchange the drain flag
  | postDrain      -- the flag was clear: post the drain handler
  deriving DecidableEq, Repr

/-- A source core with its queue towards the destination. A call is known by the message it sends. `ready` holds the
resumptions posted to the core, `true` for one without an error. The lists after it are history: calls begun,
messages appended and taken out, and calls that returned normally, returned `CrossCoreQueueFull`, were aborted, or
lost their handler. -/
structure Lane (M : Type) where
  queue : SpscQueue M M
  active : Option (M × Point)
  ready : List (M × Bool)
  begun : List M
  appended : List M
  delivered : List M
  completed : List M
  refused : List M
  aborted : List M
  dropped : List M

/-- Where the destination core stands inside a drain handler. `offset` and `total`
are the loop variables of `drain_all_for`. -/
inductive Handler where
  | idle
  | scan (offset total : Nat)
  | dequeue (offset total : Nat)
  | notify (offset total : Nat)
  | clear
  | recheck (src : Nat)
  | exchange
  | postDrain
  deriving DecidableEq, Repr

structure State (cfg : Config) (M : Type) where
  lanes : Fin cfg.cores → Lane M
  drainPending : Bool
  posted : Nat
  rotate : Nat
  handler : Handler

namespace Lane
variable {M : Type}

def fresh (queue : SpscQueue M M) : Lane M := ⟨queue,none,[],[],[],[],[],[],[],[]⟩

def begin (lane : Lane M) (m : M) (point : Point) : Lane M :=
  { lane with active := some (m,point), begun := lane.begun ++ [m] }

def finish (lane : Lane M) (m : M) : Lane M :=
  { lane with active := none, completed := lane.completed ++ [m] }

def append (lane : Lane M) (queue : SpscQueue M M) (m : M) : Lane M :=
  { lane with queue := queue, active := some (m,.exchange), appended := lane.appended ++ [m] }

/-- One step of the active call: the new lane, the drain flag, and whether a drain handler is posted. The assertion
after `retry` is compiled out. -/
def proceed (lane : Lane M) (m : M) (drainPending : Bool) : Point → Lane M × Bool × Bool
  | .coTry =>
    match lane.queue.tryEnqueue m with
    | some queue => (lane.append queue m,drainPending,false)
    | none => ({ lane with active := some (m,.recheck) },drainPending,false)
  | .postTry =>
    match lane.queue.tryEnqueue m with
    | some queue => (lane.append queue m,drainPending,false)
    | none => ({ lane with active := none, refused := lane.refused ++ [m] },drainPending,false)
  | .recheck =>
    if lane.queue.full then ({ lane with active := some (m,.storeHandler) },drainPending,false)
    else ({ lane with active := none, ready := lane.ready ++ [(m,true)] },drainPending,false)
  | .storeHandler =>
    ({ lane with
      queue := lane.queue.storeHandler m
      active := some (m,.setWaiting)
      dropped := lane.dropped ++ lane.queue.pendingHandler.toList },drainPending,false)
  | .setWaiting => ({ lane with queue := lane.queue.setWaiting, active := none },drainPending,false)
  | .retry =>
    match lane.queue.tryEnqueue m with
    | some queue => (lane.append queue m,drainPending,false)
    | none => ({ lane with active := some (m,.exchange) },drainPending,false)
  | .exchange =>
    if drainPending then (lane.finish m,true,false)
    else ({ lane with active := some (m,.postDrain) },true,false)
  | .postDrain => (lane.finish m,drainPending,true)

def resume (lane : Lane M) (i : Nat) : Option (Lane M) :=
  match lane.active, lane.ready[i]? with
  | none, some (m,true) =>
    some { lane with active := some (m,.retry), ready := lane.ready.eraseIdx i }
  | none, some (m,false) =>
    some { lane with ready := lane.ready.eraseIdx i, aborted := lane.aborted ++ [m] }
  | _, _ => none

/-- `normal` tells `notify_producer_if_waiting` from `cancel_waiting_producer`. -/
def wake (lane : Lane M) (normal : Bool) : Lane M :=
  let (handler,queue) :=
    if normal then lane.queue.notifyProducerIfWaiting else lane.queue.cancelWaitingProducer
  { lane with queue := queue, ready := lane.ready ++ handler.toList.map fun m => (m,normal) }

def dequeue (lane : Lane M) : Option (Lane M) :=
  lane.queue.tryDequeue.map fun taken =>
    { lane with queue := taken.2, delivered := lane.delivered ++ [taken.1] }

end Lane

inductive Action (cfg : Config) (M : Type) where
  | coPostTo (src : Fin cfg.cores) (m : M)
  | postTo (src : Fin cfg.cores) (m : M)
  | proceed (src : Fin cfg.cores)
  | resume (src : Fin cfg.cores) (i : Nat)
  | cancel (src : Fin cfg.cores)
  | beginDrain
  | drain

namespace State
variable {cfg : Config} {M : Type}

def setLane (s : State cfg M) (src : Fin cfg.cores) (lane : Lane M) : State cfg M :=
  { s with lanes := Function.update s.lanes src lane }

def source (s : State cfg M) (offset : Nat) : Fin cfg.cores :=
  ⟨(s.rotate + offset) % cfg.cores,Nat.mod_lt _ (Nat.zero_lt_of_lt cfg.dst.isLt)⟩

def leave (s : State cfg M) : State cfg M :=
  { s with rotate := (s.rotate + 1) % cfg.cores, handler := .clear }

def drain (s : State cfg M) : Option (State cfg M) :=
  match s.handler with
  | .idle => none
  | .scan offset total =>
    if offset < cfg.cores then
      if s.source offset = cfg.dst then some { s with handler := .scan (offset + 1) total }
      else if cfg.batchLimit ≤ total then some s.leave
      else some { s with handler := .dequeue offset total }
    else some s.leave
  | .dequeue offset total =>
    if total < cfg.batchLimit then
      match (s.lanes (s.source offset)).dequeue with
      | some lane =>
        some { s.setLane (s.source offset) lane with handler := .dequeue offset (total + 1) }
      | none => some { s with handler := .notify offset total }
    else some { s with handler := .notify offset total }
  | .notify offset total =>
    some { s.setLane (s.source offset) ((s.lanes (s.source offset)).wake true) with
      handler := .scan (offset + 1) total }
  | .clear => some { s with drainPending := false, handler := .recheck 0 }
  | .recheck src =>
    if inside : src < cfg.cores then
      if ⟨src,inside⟩ = cfg.dst then some { s with handler := .recheck (src + 1) }
      else if (s.lanes ⟨src,inside⟩).queue.empty then some { s with handler := .recheck (src + 1) }
      else some { s with handler := .exchange }
    else some { s with handler := .idle }
  | .exchange =>
    if s.drainPending then some { s with handler := .idle }
    else some { s with drainPending := true, handler := .postDrain }
  | .postDrain => some { s with posted := s.posted + 1, handler := .idle }

end State

variable {cfg : Config} {M : Type}

/-- A call begins only while its core runs nothing else, and never at the destination. -/
def step (s : State cfg M) : Action cfg M → Option (State cfg M)
  | .coPostTo src m =>
    if src ≠ cfg.dst ∧ (s.lanes src).active.isNone then
      some (s.setLane src ((s.lanes src).begin m .coTry))
    else none
  | .postTo src m =>
    if src ≠ cfg.dst ∧ (s.lanes src).active.isNone then
      some (s.setLane src ((s.lanes src).begin m .postTry))
    else none
  | .proceed src =>
    match (s.lanes src).active with
    | none => none
    | some (m,point) =>
      let (lane,drainPending,posts) := (s.lanes src).proceed m s.drainPending point
      some { s.setLane src lane with
        drainPending := drainPending
        posted := s.posted + posts.toNat }
  | .resume src i => ((s.lanes src).resume i).map (s.setLane src)
  | .cancel src => some (s.setLane src ((s.lanes src).wake false))
  | .beginDrain =>
    if s.handler = .idle ∧ 0 < s.posted then
      some { s with posted := s.posted - 1, handler := .scan 0 0 }
    else none
  | .drain => s.drain

def start (cfg : Config) (queues : Fin cfg.cores → SpscQueue M M) : State cfg M :=
  ⟨fun src => .fresh (queues src),false,0,0,.idle⟩

end ApexPipeline.CoreEngine
