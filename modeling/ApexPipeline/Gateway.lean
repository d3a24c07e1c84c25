import ApexPipeline.KafkaEnvelope
import ApexPipeline.Session

/-! One run of the gateway: `message_router.cpp`, `pending_requests.cpp`, `response_dispatcher.cpp` and the request
path and sweep of `gateway_service.cpp`, with the sessions of every core. What a core does between two suspensions is
one step. A response is parsed on the consumer's thread and posted to a core, where it is handled later. The tag of a
response says where it came from; it is no part of the program, and neither are the four histories. -/
namespace ApexPipeline.Gateway
open Execution ByteOrder WireHeader KafkaEnvelope

inductive GatewayError where
  | configParseFailed | jwtVerifyFailed | jwtExpired | jwtBlacklisted | routeNotFound | serviceTimeout
  | pendingMapFull | rateLimitedIp | rateLimitedUser | rateLimitedEndpoint
  | subscriptionLimitExceeded | blacklistCheckFailed
  deriving DecidableEq, Repr

def GatewayError.code : GatewayError → UInt16
  | .configParseFailed => 1
  | .jwtVerifyFailed => 2
  | .jwtExpired => 3
  | .jwtBlacklisted => 4
  | .routeNotFound => 5
  | .serviceTimeout => 6
  | .pendingMapFull => 7
  | .rateLimitedIp => 8
  | .rateLimitedUser => 9
  | .rateLimitedEndpoint => 10
  | .subscriptionLimitExceeded => 11
  | .blacklistCheckFailed => 12

/-- `errorResponse` encodes the body of an error frame. -/
structure Config where
  numCores : Nat
  maxPendingPerCore : Nat
  requestTimeout : Int
  maxQueueDepth : Nat
  errorResponse : ErrorCode → String → UInt16 → List UInt8

def wireErrorResponse : UInt8 := 0x04

def routingErrorBit : UInt16 := 0x0002

def buildErrorFrame (cfg : Config) (originalMsgId : UInt32) (code : ErrorCode) (message : String)
    (serviceErrorCode : UInt16) : List UInt8 :=
  let payload := cfg.errorResponse code message serviceErrorCode
  let header : WireHeader := {
    version := WireHeader.currentVersion
    flags := wireErrorResponse
    msgId := originalMsgId
    bodySize := .ofNat payload.length }
  header.serialize ++ payload

def buildWireResponse (routing : RoutingHeader) (payload : List UInt8) (originalMsgId : UInt32) : List UInt8 :=
  let wh : WireHeader := {
    msgId := originalMsgId
    bodySize := .ofNat payload.length
    flags := if routing.flags &&& routingErrorBit ≠ 0 then wireErrorResponse else 0 }
  wh.serialize ++ payload

def sourceGateway : UInt16 := 0

/-- The envelope of a request; `responseTopic` is the topic that this gateway reads. -/
def buildEnvelope (responseTopic : List UInt8) (header : WireHeader) (payload : List UInt8)
    (sessionId userId corrId : UInt64) (coreId : UInt16) (timestamp : UInt64) : List UInt8 :=
  let rh : RoutingHeader := { msgId := header.msgId, flags := 0 }
  let metadata : MetadataPrefix := {coreId, corrId, sourceId := sourceGateway, sessionId, userId, timestamp }
  buildFullEnvelope rh metadata responseTopic payload

structure PendingEntry where
  sessionId : Nat
  originalMsgId : UInt32
  deadline : Int
  deriving DecidableEq, Repr

structure Envelope where
  bytes : List UInt8
  long : envelopeHeaderSize ≤ bytes.length
  deriving DecidableEq, Repr

inductive Posted (Tag : Type) where
  | push (routing : RoutingHeader) (sessionId : UInt64) (raw : Envelope) (tag : Tag)
  | response (corrId : UInt64) (routing : RoutingHeader) (raw : Envelope) (tag : Tag)
  deriving DecidableEq, Repr

structure Core (Tag : Type) where
  coreId : UInt16
  corrCounter : UInt64 := 0
  pending : List (UInt64 × PendingEntry) := []
  nextId : Nat := 1
  sessions : Nat → Option Session := fun _ => none
  posted : List (Posted Tag) := []

/-- What became of a frame: the session was closed or gone, its write queue was full, or the
frame is in the queue. -/
inductive Delivery where
  | absent
  | refused
  | written
  deriving DecidableEq, Repr

namespace Core
variable {Tag : Type}

def generateCorrId (core : Core Tag) : UInt64 × Core Tag :=
  let core := { core with corrCounter := core.corrCounter + 1 }
  let counterMask : UInt64 := ((1 : UInt64) <<< (48 : UInt64)) - 1
  ((core.coreId.toUInt64 <<< (48 : UInt64)) ||| (core.corrCounter &&& counterMask),core)

/-- `emplace` keeps an entry that is there. -/
def insert (cfg : Config) (core : Core Tag) (corrId : UInt64) (sessionId : Nat)
    (originalMsgId : UInt32) (now : Int) : Except ErrorCode (Core Tag) :=
  if core.pending.length ≥ cfg.maxPendingPerCore then .error .serviceError
  else if corrId ∈ core.pending.map Prod.fst then .ok core
  else .ok { core with pending := core.pending ++ [(corrId,⟨sessionId,originalMsgId,now + cfg.requestTimeout⟩)] }

def erase (core : Core Tag) (corrId : UInt64) : Core Tag :=
  { core with pending := core.pending.filter fun entry => entry.1 ≠ corrId }

def extract (core : Core Tag) (corrId : UInt64) : Option PendingEntry × Core Tag :=
  match core.pending.find? fun entry => entry.1 = corrId with
  | none => (none,core)
  | some entry => (some entry.2,core.erase corrId)

def isOpen (core : Core Tag) (id : Nat) : Bool := (core.sessions id).any Session.isOpen

def accepts (core : Core Tag) (id : Nat) : Bool :=
  (core.sessions id).any fun session =>
    session.isOpen && decide (session.writeQueue.length < session.maxQueueDepth)

/-- A frame for a session that is looked up. A session that has left the manager is closed. -/
def write (core : Core Tag) (id : Nat) (frame : List UInt8) : Delivery × Core Tag :=
  match core.sessions id with
  | none => (.absent,core)
  | some session =>
    if !session.isOpen then (.absent,core)
    else
      match session.enqueueWrite frame with
      | .error _ => (.refused,core)
      | .ok session => (.written,{ core with sessions := Function.update core.sessions id (some session) })

end Core

structure Request where
  core : Nat
  session : Nat
  msgId : UInt32
  corrId : UInt64
  time : Int
  deriving DecidableEq, Repr

inductive Outcome (Tag : Type) where
  | response (tag : Tag)
  | timeout
  | routeNotFound
  | pendingMapFull
  deriving DecidableEq, Repr

structure Settlement (Tag : Type) where
  corrId : UInt64
  core : Nat
  session : Nat
  outcome : Outcome Tag
  result : Delivery
  deriving DecidableEq, Repr

structure Pushed (Tag : Type) where
  core : Nat
  session : Nat
  tag : Tag
  result : Delivery
  deriving DecidableEq, Repr

structure State (Tag : Type) where
  cores : Nat → Core Tag
  requests : List Request := []
  settled : List (Settlement Tag) := []
  pushed : List (Pushed Tag) := []

variable {Tag : Type}

def State.put (g : State Tag) (k : Nat) (core : Core Tag) : State Tag :=
  { g with cores := Function.update g.cores k core }

def State.settle (g : State Tag) (k : Nat) (core : Core Tag) (corrId : UInt64) (session : Nat)
    (outcome : Outcome Tag) (frame : List UInt8) : State Tag :=
  let (result,core) := core.write session frame
  { g.put k core with settled := g.settled ++ [⟨corrId,k,session,outcome,result⟩] }

/-- From the end of the pipeline on; `routed` is the result of the router, which fails without
a topic for the message or when Kafka refuses it. -/
def handleRequest (cfg : Config) (g : State Tag) (k session : Nat) (msgId : UInt32) (now : Int)
    (routed : Bool) : State Tag :=
  let (corrId,core) := (g.cores k).generateCorrId
  let g := { g with requests := g.requests ++ [Request.mk k session msgId corrId now] }
  match core.insert cfg corrId session msgId now with
  | .error _ => g.settle k core corrId session .pendingMapFull
      (buildErrorFrame cfg msgId .serviceError "" GatewayError.pendingMapFull.code)
  | .ok core =>
    if routed then g.put k core
    else g.settle k (core.extract corrId).2 corrId session .routeNotFound
      (buildErrorFrame cfg msgId .serviceError "" GatewayError.routeNotFound.code)

def expire (cfg : Config) (k : Nat) (g : State Tag) (entry : UInt64 × PendingEntry) : State Tag :=
  g.settle k ((g.cores k).erase entry.1) entry.1 entry.2.sessionId .timeout
    (buildErrorFrame cfg entry.2.originalMsgId .serviceError "" GatewayError.serviceTimeout.code)

def sweepExpired (cfg : Config) (g : State Tag) (k : Nat) (now : Int) : State Tag :=
  ((g.cores k).pending.filter fun entry => entry.2.deadline ≤ now).foldl (expire cfg k) g

/-- What is posted for a message of the response topic, and to which cores. -/
def onResponse (cfg : Config) (raw : List UInt8) (tag : Tag) : Except ErrorCode (List Nat × Posted Tag) :=
  if short : raw.length < envelopeHeaderSize then .error .parseFailed
  else
    let copy : Envelope := ⟨raw,Nat.not_lt.mp short⟩
    match RoutingHeader.parse (raw.take RoutingHeader.size) with
    | .error _ => .error .parseFailed
    | .ok routing =>
      match MetadataPrefix.parse ((raw.drop RoutingHeader.size).take MetadataPrefix.size) with
      | .error _ => .error .parseFailed
      | .ok metadata =>
        let targetCore := metadata.coreId.toNat
        if metadata.corrId = 0 then
          -- an unknown core: the push goes to all of them
          if targetCore < cfg.numCores then .ok ([targetCore],.push routing metadata.sessionId copy tag)
          else .ok (List.range cfg.numCores,.push routing metadata.sessionId copy tag)
        else if targetCore ≥ cfg.numCores then .error .parseFailed
        else .ok ([targetCore],.response metadata.corrId routing copy tag)

def State.post (g : State Tag) (work : Posted Tag) (k : Nat) : State Tag :=
  g.put k { g.cores k with posted := (g.cores k).posted ++ [work] }

def receive (cfg : Config) (g : State Tag) (raw : List UInt8) (tag : Tag) : State Tag :=
  match onResponse cfg raw tag with
  | .error _ => g
  | .ok (targets,work) => targets.foldl (State.post · work ·) g

def deliverPush (g : State Tag) (k : Nat) (core : Core Tag) (routing : RoutingHeader)
    (sessionId : UInt64) (raw : Envelope) (tag : Tag) : State Tag :=
  if !core.isOpen sessionId.toNat then g.put k core
  else
    let payloadOffset := envelopePayloadOffset routing.flags raw.bytes
    if payloadOffset > raw.bytes.length then g.put k core
    else
      let (result,core) := core.write sessionId.toNat
        (buildWireResponse routing (raw.bytes.drop payloadOffset) routing.msgId)
      { g.put k core with pushed := g.pushed ++ [⟨k,sessionId.toNat,tag,result⟩] }

/-- The handler of a response: whoever extracts the entry ends the request. -/
def deliverResponse (g : State Tag) (k : Nat) (core : Core Tag) (corrId : UInt64)
    (routing : RoutingHeader) (raw : Envelope) (tag : Tag) : State Tag :=
  match core.extract corrId with
  | (none,core) => g.put k core
  | (some entry,core) =>
    let payloadOffset := envelopePayloadOffset routing.flags raw.bytes
    if payloadOffset > raw.bytes.length then g.put k core
    else g.settle k core corrId entry.sessionId (.response tag)
      (buildWireResponse routing (raw.bytes.drop payloadOffset) routing.msgId)

def handlePosted (g : State Tag) (k : Nat) (core : Core Tag) : Posted Tag → State Tag
  | .push routing sessionId raw tag => deliverPush g k core routing sessionId raw tag
  | .response corrId routing raw tag => deliverResponse g k core corrId routing raw tag

/-- `onSession` is everything else that a session does: its pump, other writers, its end. -/
inductive Action (Tag : Type) where
  | createSession (core : Nat)
  | removeSession (core id : Nat)
  | onSession (core id : Nat) (action : Session.Action)
  | request (core id : Nat) (msgId : UInt32) (now : Int) (routed : Bool)
  | sweep (core : Nat) (now : Int)
  | receive (raw : List UInt8) (tag : Tag)
  | handle (core place : Nat)

def Action.isReceive : Action Tag → Bool
  | .receive .. => true
  | _ => false

def step (cfg : Config) (g : State Tag) : Action Tag → Option (State Tag)
  | .createSession k =>
    let core := g.cores k
    if k < cfg.numCores then some (g.put k { core with
      nextId := core.nextId + 1
      sessions := Function.update core.sessions core.nextId (some (Session.create cfg.maxQueueDepth)) })
    else none
  | .removeSession k id =>
    let core := g.cores k
    if k < cfg.numCores then
      some (g.put k { core with sessions := Function.update core.sessions id none })
    else none
  | .onSession k id action =>
    let core := g.cores k
    if k < cfg.numCores then
      (core.sessions id).bind fun session => (session.step action).map fun session =>
        g.put k { core with sessions := Function.update core.sessions id (some session) }
    else none
  | .request k id msgId now routed =>
    if k < cfg.numCores ∧ id < (g.cores k).nextId then some (handleRequest cfg g k id msgId now routed)
    else none
  | .sweep k now => if k < cfg.numCores then some (sweepExpired cfg g k now) else none
  | .receive raw tag => some (receive cfg g raw tag)
  | .handle k place =>
    let core := g.cores k
    if k < cfg.numCores then
      core.posted[place]?.map fun work =>
        handlePosted g k { core with posted := core.posted.eraseIdx place } work
    else none

/-- The routers truncate the number of their core to sixteen bits. -/
def start : State Tag where
  cores k := { coreId := .ofNat k }

/-- The handler of posted work, with a payload that is given to it. -/
def deliver (g : State Tag) (k : Nat) (core : Core Tag) (payload : List UInt8) : Posted Tag → State Tag
  | .push routing sessionId _ tag =>
    if !core.isOpen sessionId.toNat then g.put k core
    else
      let (result,core) := core.write sessionId.toNat (buildWireResponse routing payload routing.msgId)
      { g.put k core with pushed := g.pushed ++ [⟨k,sessionId.toNat,tag,result⟩] }
  | .response corrId routing _ tag =>
    match core.extract corrId with
    | (none,core) => g.put k core
    | (some entry,core) => g.settle k core corrId entry.sessionId (.response tag)
        (buildWireResponse routing payload routing.msgId)

theorem onResponse_delivers (accepted : onResponse cfg raw tag = .ok (targets,work)) :
    envelopeHeaderSize ≤ raw.length ∧ ∀ g k core, handlePosted g k core work = deliver g k core
      (raw.drop (envelopePayloadOffset (ntoh16 (load raw RoutingHeader.offFlags 2)) raw)) work := by
  simp only [onResponse] at accepted
  split at accepted
  · cases accepted
  rename_i long
  have headers := Nat.not_lt.mp long
  split at accepted
  · cases accepted
  rename_i routing parsed
  have flags : routing.flags = ntoh16 (load raw RoutingHeader.offFlags 2) := by
    rw [RoutingHeader.parse_flags parsed]
    simp [load,List.drop_take,List.take_take,RoutingHeader.size,RoutingHeader.offFlags]
  have offset := Nat.not_lt.mpr (envelopePayloadOffset_le routing.flags headers)
  refine ⟨headers,fun g k core => ?_⟩
  rw [← flags]
  split at accepted
  · cases accepted
  split at accepted
  · split at accepted <;> cases accepted <;> simp only [handlePosted,deliverPush,deliver,gt_iff_lt,offset,if_false]
  · split at accepted <;> cases accepted
    simp only [handlePosted,deliverResponse,deliver,gt_iff_lt,offset,if_false]

/-- What an accepted message hands on is its payload if and only if the reply topic that it
announces is complete. -/
theorem payload_exact_iff (raw : List UInt8) : (∀ handlers invocation, dispatch handlers raw = .ok invocation →
      (payload? raw = some invocation.payload ↔ Complete raw)) ∧
    ∀ (cfg : Config) (tag : Tag) targets work, onResponse cfg raw tag = .ok (targets,work) →
      ((∃ payload, payload? raw = some payload ∧
        ∀ g k core, handlePosted g k core work = deliver g k core payload work) ↔ Complete raw) := by
  constructor
  · intro handlers invocation dispatched
    obtain ⟨headers,payload⟩ := dispatch_payload dispatched
    rw [payload,payload?_iff headers]
  · intro cfg tag targets work accepted
    obtain ⟨headers,handled⟩ := onResponse_delivers accepted
    refine ⟨fun ⟨payload,same,_⟩ _ => same ▸ nofun,fun whole => ?_⟩
    exact ⟨_,(payload?_iff headers).mpr whole,handled⟩

def pushed : List UInt8 := buildFullEnvelope { msgId := 7 } { sessionId := 1 } [97,98,99] [42]

theorem payload_exact_iff_topic : Complete pushed ∧
    ∃ invocation, dispatch [7] pushed = .ok invocation ∧ payload? pushed = some invocation.payload := by
  have whole : Complete pushed := by
    intro _
    decide +kernel
  refine ⟨whole,⟨{ sessionId := 1 },7,[42]⟩,by decide +kernel,?_⟩
  exact ((@payload_exact_iff Unit pushed).1 [7] ⟨{ sessionId := 1 },7,[42]⟩ (by decide +kernel)).mpr whole

/-- Cut off inside its reply topic, it is handed on with the rest of the topic as payload. -/
theorem truncated_topic_delivered : payload? (pushed.take 52) = none ∧
    dispatch [7] (pushed.take 52) = .ok ⟨{ sessionId := 1 },7,[0,3,97,98]⟩ ∧
    ∃ final : State Unit, run (step ⟨1,8,5,4,fun _ _ _ => []⟩) start
        [.createSession 0,.receive (pushed.take 52) (),.handle 0 0] = some final ∧
      ((final.cores 0).sessions 1).map (fun session => session.writeQueue.map WriteRequest.data) =
        some [buildWireResponse { flags := hasReplyTopic, msgId := 7 } [0,3,97,98] 7] := by
  decide +kernel

end ApexPipeline.Gateway
