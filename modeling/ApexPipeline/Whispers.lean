import ApexPipeline.AuthService
import ApexPipeline.ChatService
import ApexPipeline.Gateway

/-! Whispers, from the login that stores the address of a user to the session that is written to. The handlers of the
services run next to each other, one command at a time. Both services use one Redis server; a command that is lost
may be executed later. The topics keep their messages, which a gateway may read at any time and more than once. The
addressee of a message and the three histories are no part of the program. -/
namespace ApexPipeline.Whispers
open Service KafkaEnvelope
open ChatService (SessionCore)

/-- The configurations. No setting changes the key prefixes of the session store. -/
structure Setup where
  auth : AuthService.Config
  chat : ChatService.Config
  gateway : Gateway.Config
  topic : Bytes
  sessionPrefix : auth.redisSessionPrefix = ascii "auth:session:"
  blacklistPrefix : auth.redisBlacklistPrefix = ascii "jwt:blacklist:"

structure Produced where
  topic : Bytes
  bytes : Bytes
  addressee : Option UInt64
  deriving DecidableEq, Repr

/-- Redis, with the commands that are still under way to it, and the Kafka topics. -/
structure World where
  store : Bytes → Option Bytes := fun _ => none
  late : List (List Bytes) := []
  topics : List Produced := []

/-- What becomes of a Redis command: an error of the server and of the adapter, and a time-out. -/
inductive Fate where
  | executed
  | rejected
  | refused
  | lost
  deriving DecidableEq, Repr

def errorReply : RedisReply := ⟨.error,ascii "ERR",0⟩

def execute (store : Bytes → Option Bytes) (arguments : List Bytes) : (Bytes → Option Bytes) × RedisReply :=
  match arguments with
  | [verb,key] =>
    if verb = ascii "GET" then
      match store key with
      | none => (store,⟨.nil,[],0⟩)
      | some value => (store,⟨.string,value,0⟩)
    else if verb = ascii "DEL" then
      (Function.update store key none,⟨.integer,[],if (store key).isSome then 1 else 0⟩)
    else (store,errorReply)
  | [verb,key,_,value] =>
    if verb = ascii "SETEX" then (Function.update store key (some value),⟨.status,ascii "OK",0⟩)
    else (store,errorReply)
  | _ => (store,errorReply)

def World.redis (w : World) (fate : Fate) (arguments : List Bytes) : Except ErrorCode RedisReply × World :=
  match fate with
  | .executed => (.ok (execute w.store arguments).2,{ w with store := (execute w.store arguments).1 })
  | .rejected => (.ok errorReply,w)
  | .refused => (.error .adapterError,w)
  | .lost => (.error .timeout,{ w with late := w.late ++ [arguments] })

def addresseeOf (addressee : T → Option UInt64) : Message T → Option UInt64
  | .envelope _ table => addressee table
  | .record _ => none

def World.produce (w : World) (reply : Except ErrorCode Unit) (m : Produced) : World :=
  match reply with
  | .error _ => w
  | .ok _ => { w with topics := w.topics ++ [m] }

/-- A command of a handler; `answer` stands for everything but Redis. -/
def World.perform (encode : T → Bytes) (addressee : T → Option UInt64) (w : World) (fate : Fate)
    (answer : (command : Command T) → Reply command) : (command : Command T) → Reply command × World
  | .redis _ arguments => w.redis fate arguments
  | .produce topic key message =>
    (answer (.produce topic key message),w.produce (answer (.produce topic key message))
      ⟨topic,message.bytes encode (answer .now),addresseeOf addressee message⟩)
  | command => (answer command,w)

section Perform
variable (encode : T → Bytes) (addressee : T → Option UInt64) (w : World) (fate : Fate)
  (answer : (command : Command T) → Reply command)

theorem perform_redis (adapter : RedisAdapter) (arguments : List Bytes) :
    w.perform encode addressee fate answer (.redis adapter arguments) = w.redis fate arguments := rfl

end Perform

/-- The answers of the auth service that matter: a user has come in through a session with a login
or a refresh, or has logged out. -/
inductive Event where
  | entered (user : UInt64) (coreId : UInt16) (sessionId : UInt64)
  | left (user : UInt64)
  deriving DecidableEq, Repr

def userOf (key : Bytes) : Option UInt64 :=
  if (ascii "session:user:").isPrefixOf key then fromChars (key.drop (ascii "session:user:").length)
  else none

def touchedUser : Command T → Option UInt64
  | .redis _ (_ :: key :: _) => userOf key
  | _ => none

def storedUser : Command T → Option UInt64
  | .redis _ [verb,key,_,_] => if verb = ascii "SETEX" then userOf key else none
  | _ => none

structure AuthJob where
  coreId : UInt16
  sessionId : UInt64
  user : Option UInt64 := none
  rest : Task AuthService.Table Outcome

def AuthJob.address (job : AuthJob) : SessionCore := ⟨job.sessionId,job.coreId⟩

def AuthJob.answered (job : AuthJob) : Command AuthService.Table → Option Event
  | .produce _ _ (.envelope _ (.loginResponse .none ..))
  | .produce _ _ (.envelope _ (.refreshTokenResponse .none ..)) =>
    job.user.map fun user => .entered user job.coreId job.sessionId
  | .produce _ _ (.envelope _ (.logoutResponse .none)) => job.user.map .left
  | _ => none

structure ChatJob where
  target : UInt64
  rest : Task ChatService.Table Outcome

def ChatJob.addressee (job : ChatJob) : ChatService.Table → Option UInt64
  | .whisperMessage .. => some job.target
  | _ => none

structure Delivered where
  user : UInt64
  core : Nat
  session : Nat
  history : List Event
  deriving DecidableEq, Repr

/-- The newest event comes first. `stored` has every address that was sent to Redis for a user. -/
structure System where
  gateway : Gateway.State (Option UInt64)
  world : World := {}
  authJobs : List AuthJob := []
  chatJobs : List ChatJob := []
  events : List Event := []
  stored : List (UInt64 × SessionCore) := []
  delivered : List Delivered := []

inductive AuthRequest where
  | login (request : AuthService.LoginRequest)
  | logout (request : AuthService.LogoutRequest)
  | refresh (request : AuthService.RefreshTokenRequest)

def AuthRequest.handler (cfg : AuthService.Config) (metadata : MetadataPrefix) :
    AuthRequest → Task AuthService.Table Outcome
  | .login request => AuthService.onLogin cfg metadata request
  | .logout request => AuthService.onLogout cfg metadata request
  | .refresh request => AuthService.onRefreshToken cfg metadata request

inductive Action where
  | gateway (action : Gateway.Action (Option UInt64))
  | request (metadata : MetadataPrefix) (request : AuthRequest)
  | whisper (metadata : MetadataPrefix) (request : ChatService.WhisperRequest)
  | auth (job : Nat) (fate : Fate) (answer : (command : Command AuthService.Table) → Reply command)
  | chat (job : Nat) (fate : Fate) (answer : (command : Command ChatService.Table) → Reply command)
  | late (place : Nat)
  | expire (key : Bytes)
  | consume (place : Nat)

def written (before after : Gateway.State (Option UInt64)) (events : List Event) : List Delivered :=
  (after.pushed.drop before.pushed.length).filterMap fun p =>
    if p.result = .written then p.tag.map fun user => ⟨user,p.core,p.session,events⟩ else none

/-- The gateway names the core and the session in the envelope of a request. -/
def step (setup : Setup) (s : System) : Action → Option System
  | .gateway action =>
    if action.isReceive then none
    else (Gateway.step setup.gateway s.gateway action).map fun gateway =>
      { s with gateway, delivered := s.delivered ++ written s.gateway gateway s.events }
  | .request metadata request =>
    let core := s.gateway.cores metadata.coreId.toNat
    if metadata.coreId.toNat < setup.gateway.numCores ∧ metadata.sessionId.toNat < core.nextId then
      let job : AuthJob := {
        coreId := metadata.coreId, sessionId := metadata.sessionId
        rest := request.handler setup.auth metadata }
      some { s with authJobs := s.authJobs ++ [job] }
    else none
  | .whisper metadata request =>
    let job : ChatJob := ⟨request.targetUserId,ChatService.onWhisper setup.chat metadata request⟩
    some { s with chatJobs := s.chatJobs ++ [job] }
  | .auth i fate answer =>
    s.authJobs[i]?.bind fun job =>
      match job.rest with
      | .done _ => none
      | .await command resume =>
        let (reply,world) := s.world.perform setup.auth.encode (fun _ => none) fate answer command
        let next := { job with rest := resume reply, user := (touchedUser command).or job.user }
        some { s with
          world, authJobs := s.authJobs.set i next
          events := (job.answered command).toList ++ s.events
          stored := s.stored ++ (storedUser command).toList.map fun user => (user,job.address) }
  | .chat i fate answer =>
    s.chatJobs[i]?.bind fun job =>
      match job.rest with
      | .done _ => none
      | .await command resume =>
        let (reply,world) := s.world.perform setup.chat.encode job.addressee fate answer command
        some { s with world, chatJobs := s.chatJobs.set i { job with rest := resume reply } }
  | .late place =>
    s.world.late[place]?.map fun arguments =>
      let world := { s.world with
        store := (execute s.world.store arguments).1, late := s.world.late.eraseIdx place }
      { s with world }
  | .expire key => some { s with world := { s.world with store := Function.update s.world.store key none } }
  | .consume place =>
    s.world.topics[place]?.bind fun message =>
      if message.topic = setup.topic then some { s with
        gateway := Gateway.receive setup.gateway s.gateway message.bytes message.addressee }
      else none

def start : System := { gateway := Gateway.start }

/-- The user of the last login or refresh through the session, who has not logged out since. -/
def Current (user : UInt64) (core session : Nat) : List Event → Prop
  | [] => False
  | .entered other coreId sessionId :: earlier =>
    if coreId.toNat = core ∧ sessionId.toNat = session then other = user else Current user core session earlier
  | .left other :: earlier => other ≠ user ∧ Current user core session earlier

/-- Whispers are written to the sessions of their addressees only. -/
def Private (s : System) : Prop :=
  ∀ d ∈ s.delivered, Current d.user d.core d.session d.history

def Event.enters (user : UInt64) (core session : Nat) : Event → Bool
  | .entered other coreId sessionId => other = user ∧ coreId.toNat = core ∧ sessionId.toNat = session
  | .left _ => false

/-- Another user comes in through the session, or the user logs out. -/
def Event.displaces (user : UInt64) (core session : Nat) : Event → Bool
  | .entered other coreId sessionId => other ≠ user ∧ coreId.toNat = core ∧ sessionId.toNat = session
  | .left other => other = user

/-- The user has come in through the session, and nothing has displaced the user since. -/
def undisturbed (user : UInt64) (core session : Nat) (events : List Event) : Bool :=
  let since := events.takeWhile fun e => !e.enters user core session
  decide (since.length < events.length) && since.all fun e => !e.displaces user core session

/-- The whisper can be written, to a session that is no longer or not yet that of the addressee. -/
def exposes (events : List Event) (k : Nat) (core : Gateway.Core (Option UInt64)) :
    Gateway.Posted (Option UInt64) → Bool
  | .push _ sessionId _ (some user) =>
    core.accepts sessionId.toNat && !undisturbed user k sessionId.toNat events
  | _ => false

def Undisturbed (s : System) : Action → Prop
  | .gateway (.handle k place) =>
    ((s.gateway.cores k).posted[place]?.any (exposes s.events k (s.gateway.cores k))) = false
  | _ => True

instance (s : System) (action : Action) : Decidable (Undisturbed s action) :=
  match action with
  | .gateway (.handle ..) => inferInstanceAs (Decidable (_ = false))
  | .gateway (.createSession _) | .gateway (.removeSession ..) | .gateway (.onSession ..)
  | .gateway (.request ..) | .gateway (.sweep ..) | .gateway (.receive ..)
  | .request .. | .whisper .. | .auth .. | .chat .. | .late _ | .expire _ | .consume _ =>
    inferInstanceAs (Decidable True)

/-- No login is between its store and its answer, no session has had a second user, and no user with a
stored address has logged out. -/
def Settled (s : System) : Action → Prop
  | .gateway (.handle ..) => ∀ entry ∈ s.stored,.entered entry.1 entry.2.coreId entry.2.sessionId ∈ s.events ∧
      ∀ e ∈ s.events, e.displaces entry.1 entry.2.coreId.toNat entry.2.sessionId.toNat = false
  | _ => True

instance (s : System) (action : Action) : Decidable (Settled s action) :=
  match action with
  | .gateway (.handle ..) => inferInstanceAs (Decidable (∀ entry ∈ s.stored, _ ∧ _))
  | .gateway (.createSession _) | .gateway (.removeSession ..) | .gateway (.onSession ..)
  | .gateway (.request ..) | .gateway (.sweep ..) | .gateway (.receive ..)
  | .request .. | .whisper .. | .auth .. | .chat .. | .late _ | .expire _ | .consume _ =>
    inferInstanceAs (Decidable True)

end ApexPipeline.Whispers
