import ApexPipeline.Coroutine
import ApexPipeline.DecimalText
import ApexPipeline.EnvelopeBuilder

/-! What the handlers of a Kafka service ask of their surroundings: PostgreSQL, Redis, the token and password
libraries, the clock and the Kafka producer. A handler is a coroutine over these commands. FlatBuffers tables stay
values until they are bytes in a message. -/
namespace ApexPipeline.Service
open KafkaEnvelope

/-- Text cells; the null value is no text. -/
structure PgResult where
  rows : List (List (Option Bytes))
  deriving DecidableEq, Repr

namespace PgResult

def rowCount (result : PgResult) : Nat := result.rows.length

def cell (result : PgResult) (row column : Nat) : Option Bytes :=
  ((result.rows[row]?.getD [])[column]?).getD none

def value (result : PgResult) (row column : Nat) : Bytes := (result.cell row column).getD []

def isNull (result : PgResult) (row column : Nat) : Bool := (result.cell row column).isNone

end PgResult

inductive RedisType where
  | string
  | array
  | integer
  | nil
  | status
  | error
  deriving DecidableEq, Repr

structure RedisReply where
  type : RedisType
  str : Bytes := []
  integer : Int := 0
  deriving DecidableEq, Repr

structure Claims where
  userId : UInt64
  email : Bytes
  jti : Bytes
  deriving DecidableEq, Repr

/-- The Redis adapters: the one of the auth service and the two of the chat service. -/
inductive RedisAdapter where
  | auth
  | data
  | pubsub
  deriving DecidableEq, Repr

/-- What is produced to a topic: an envelope of the builder around a table, or the table alone. -/
inductive Message (T : Type) where
  | envelope (builder : EnvelopeBuilder) (table : T)
  | record (table : T)
  deriving DecidableEq, Repr

def Message.bytes (encode : T → Bytes) (timestamp : UInt64) : Message T → Bytes
  | .envelope builder table => (builder.payload (encode table)).build timestamp
  | .record table => encode table

/-- The commands on a connection are those of a transaction, which owns one. The clock counts
milliseconds. -/
inductive Command (T : Type) where
  | query (sql : String) (params : List Bytes)
  | execute (sql : String) (params : List Bytes)
  | acquireConnected
  | queryAsync (sql : String)
  | queryParamsAsync (sql : String) (params : List Bytes)
  | markPoisoned
  | release
  | discard
  | redis (adapter : RedisAdapter) (arguments : List Bytes)
  | verifyPassword (password hash : Bytes)
  | createAccessToken (userId : UInt64) (email : Bytes)
  | verifyAccessToken (token : Bytes)
  | remainingTtl (token : Bytes)
  | generateSecureToken
  | now
  | produce (topic key : Bytes) (message : Message T)
  deriving DecidableEq, Repr

def Reply : Command T → Type
  | .query .. | .queryAsync _ | .queryParamsAsync .. => Except ErrorCode PgResult
  | .execute .. => Except ErrorCode Int
  | .acquireConnected | .produce .. => Except ErrorCode Unit
  | .markPoisoned | .release | .discard => Unit
  | .redis .. => Except ErrorCode RedisReply
  | .verifyPassword .. => Bool
  | .createAccessToken .. => Bytes
  | .verifyAccessToken _ => Except ErrorCode Claims
  | .remainingTtl _ => Int
  | .generateSecureToken => Except ErrorCode Bytes
  | .now => UInt64

/-- How a handler ends: it returns a result, or an exception leaves it. -/
inductive Outcome where
  | returned (result : Except ErrorCode Unit)
  | threw
  deriving DecidableEq

abbrev Task (T : Type) := Coroutine (Command T) Reply

/-- What happens to a command whose effect is modelled: it may fail, also though it was carried out. Other commands
are answered as the surroundings like. -/
structure Fate (T : Type) where
  answer : (command : Command T) → Reply command
  error : Option ErrorCode := none
  applied : Bool := false

namespace Fate

def carried (fate : Fate T) : Bool := fate.error.isNone || fate.applied

def result (fate : Fate T) (value : A) : Except ErrorCode A :=
  match fate.error with
  | some code => .error code
  | none => .ok value

end Fate

section Calls
open Coroutine

abbrev query (sql : String) (params : List Bytes) : Task T (Except ErrorCode PgResult) := call (Command.query sql params)
abbrev execute (sql : String) (params : List Bytes) : Task T (Except ErrorCode Int) := call (Command.execute sql params)
abbrev acquireConnected : Task T (Except ErrorCode Unit) := call Command.acquireConnected
abbrev queryAsync (sql : String) : Task T (Except ErrorCode PgResult) := call (Command.queryAsync sql)
abbrev queryParamsAsync (sql : String) (params : List Bytes) : Task T (Except ErrorCode PgResult) :=
  call (Command.queryParamsAsync sql params)
abbrev markPoisoned : Task T Unit := call Command.markPoisoned
abbrev release : Task T Unit := call Command.release
abbrev discard : Task T Unit := call Command.discard
abbrev redis (adapter : RedisAdapter) (arguments : List Bytes) : Task T (Except ErrorCode RedisReply) :=
  call (Command.redis adapter arguments)
abbrev verifyPassword (password hash : Bytes) : Task T Bool := call (Command.verifyPassword password hash)
abbrev createAccessToken (userId : UInt64) (email : Bytes) : Task T Bytes := call (Command.createAccessToken userId email)
abbrev verifyAccessToken (token : Bytes) : Task T (Except ErrorCode Claims) := call (Command.verifyAccessToken token)
abbrev remainingTtl (token : Bytes) : Task T Int := call (Command.remainingTtl token)
abbrev generateSecureToken : Task T (Except ErrorCode Bytes) := call Command.generateSecureToken
abbrev now : Task T UInt64 := call Command.now
abbrev produce (topic key : Bytes) (message : Message T) : Task T (Except ErrorCode Unit) :=
  call (Command.produce topic key message)

end Calls

def ok : Task T Outcome := pure (.returned (.ok ()))

def fail (code : ErrorCode) : Task T Outcome := pure (.returned (.error code))

/-- `kafka_route`: the payload is verified before the handler sees it. -/
def kafkaRoute (decode : Bytes → Option Q) (handler : MetadataPrefix → Q → Task T Outcome)
    (call : Invocation) : Task T Outcome :=
  match decode call.payload with
  | none => fail .flatBuffersVerifyFailed
  | some request => handler call.metadata request

/-- The bridge with the handlers of a service. -/
def dispatch (routes : List (UInt32 × (Invocation → Task T Outcome))) (raw : Bytes) : Task T Outcome :=
  match KafkaEnvelope.dispatch (routes.map Prod.fst) raw with
  | .error code => fail code
  | .ok call =>
    match routes.find? fun route => route.1 = call.msgId with
    | none => fail .handlerNotFound
    | some route => route.2 call

end ApexPipeline.Service
