import ApexPipeline.ChatService
import ApexPipeline.Execution
import ApexPipeline.Interleaving

/-! The rooms of the chat service under any create, join and leave requests: the table `chat_rooms` and the sets of
members in Redis. Each statement, command and script is carried out at once. -/
namespace ApexPipeline.ChatRooms
open ChatService Service Coroutine KafkaEnvelope Execution

structure Room where
  roomId : UInt64
  roomName : Bytes
  maxMembers : Nat
  deriving DecidableEq, Repr

/-- A script has added a user, and the set had this size right after it. -/
structure Insertion where
  request : Nat
  key : Bytes
  member : Bytes
  size : Nat
  deriving DecidableEq, Repr

structure Answer where
  request : Nat
  roomId : UInt64
  userId : UInt64
  memberCount : UInt32
  deriving DecidableEq, Repr

/-- `lastRoom` is the sequence of the room ids. The last two are no part of the program. -/
structure Store where
  lastRoom : UInt64 := 0
  rooms : List Room := []
  members : Bytes → Finset Bytes := fun _ => ∅
  insertions : List Insertion := []
  answers : List Answer := []

/-- A request: its number, which is no part of the program, and the user of its metadata. -/
structure Caller where
  request : Nat
  userId : UInt64
  deriving DecidableEq, Repr

def createSql : String :=
  "INSERT INTO chat_svc.chat_rooms (room_name, max_members, owner_id) VALUES ($1, $2::int, $3::bigint) RETURNING room_id"

def findSql : String :=
  "SELECT room_name, max_members FROM chat_svc.chat_rooms WHERE room_id = $1::bigint AND is_active = true"

def Room.cells (room : Room) : List (Option Bytes) := [some room.roomName,some (decimal room.maxMembers)]

/-- `JOIN_ROOM_LUA` on the set of its key. -/
def joinRoom (set : Finset Bytes) (member maxMembers : Bytes) : Int × Finset Bytes :=
  if member ∈ set then (-1,set)
  else if set.card ≥ digitsValue maxMembers then (0,set)
  else ((insert member set).card,insert member set)

/-- `LEAVE_ROOM_LUA` on the set of its key. -/
def leaveRoom (set : Finset Bytes) (member : Bytes) : Int × Finset Bytes :=
  if member ∉ set then (0,set) else (1,set.erase member)

def Store.update (s : Store) (key : Bytes) (set : Finset Bytes) : Store :=
  { s with members := Function.update s.members key set }

def integer (value : Int) : RedisReply := { type := .integer, integer := value }

/-- The Redis commands that change a set. -/
def Store.redis (s : Store) (caller : Caller) : List Bytes → Option (RedisReply × Store)
  | [verb,key,member] =>
    if verb = ascii "SADD" then
      some (integer (if member ∈ s.members key then 0 else 1),s.update key (insert member (s.members key)))
    else none
  | [verb,script,_,key,member] =>
    if verb = ascii "EVAL" ∧ script = ascii leaveRoomLua then
      let outcome := leaveRoom (s.members key) member
      some (integer outcome.1,s.update key outcome.2)
    else none
  | [verb,script,_,key,member,maxMembers] =>
    if verb = ascii "EVAL" ∧ script = ascii joinRoomLua then
      let outcome := joinRoom (s.members key) member maxMembers
      let inserted := if 0 < outcome.1 then [⟨caller.request,key,member,outcome.2.card⟩] else []
      some (integer outcome.1,{ s.update key outcome.2 with insertions := s.insertions ++ inserted })
    else none
  | _ => none

/-- The statements on the table. `max_members` is an `int`, and the sequence ends at the largest `bigint`;
a row that cannot be stored is a failure of the statement. -/
def Store.query (s : Store) (sql : String) : List Bytes → Option (Option (PgResult × Store))
  | [roomName,maxMembers,_] =>
    if sql = createSql then
      if digitsValue maxMembers < 2^31 ∧ s.lastRoom.toNat + 1 < 2^63 then
        let roomId := s.lastRoom + 1
        some (some (⟨[[some (decimal roomId.toNat)]]⟩,
          { s with lastRoom := roomId, rooms := s.rooms ++ [⟨roomId,roomName,digitsValue maxMembers⟩] }))
      else some none
    else none
  | [roomId] =>
    if sql = findSql then
      some (some (⟨(s.rooms.filter fun room => decimal room.roomId.toNat = roomId).map Room.cells⟩,s))
    else none
  | _ => none

def Store.answered (s : Store) (caller : Caller) : Message Table → Store
  | .envelope _ (.joinRoomResponse .none roomId _ memberCount) =>
    { s with answers := s.answers ++ [⟨caller.request,roomId,caller.userId,memberCount⟩] }
  | _ => s

def perform (fate : Fate Table) (s : Store) (_ : List Caller) (caller : Caller) :
    (command : Command Table) → Option (Reply command × Store × Caller)
  | .query sql params =>
    match s.query sql params with
    | none => some (fate.answer (.query sql params),s,caller)
    | some outcome =>
      if fate.carried then outcome.map fun (found,next) => (fate.result found,next,caller)
      else some (fate.result ⟨[]⟩,s,caller)
  | .redis adapter arguments =>
    match s.redis caller arguments with
    | none => some (fate.answer (.redis adapter arguments),s,caller)
    | some (reply,next) => some (fate.result reply,if fate.carried then next else s,caller)
  | .produce topic key message => some (fate.answer (.produce topic key message),s.answered caller message,caller)
  | command => some (fate.answer command,s,caller)

abbrev System := Crew Store Caller (Command Table) Reply Outcome

inductive Action where
  | create (metadata : MetadataPrefix) (request : CreateRoomRequest)
  | join (metadata : MetadataPrefix) (request : JoinRoomRequest)
  | leave (metadata : MetadataPrefix) (request : LeaveRoomRequest)
  | resume (job : Nat) (fate : Fate Table)

def step (cfg : Config) (s : System) : Action → Option System
  | .create metadata request => some (s.start ⟨s.jobs.length,metadata.userId⟩ (onCreateRoom cfg metadata request))
  | .join metadata request => some (s.start ⟨s.jobs.length,metadata.userId⟩ (onJoinRoom cfg metadata request))
  | .leave metadata request => some (s.start ⟨s.jobs.length,metadata.userId⟩ (onLeaveRoom cfg metadata request))
  | .resume index fate => s.resume (perform fate) index

def addOwner (roomId userId : UInt64) : List Bytes := [ascii "SADD",membersKey roomId,decimal userId.toNat]

def joinScript (roomId userId : UInt64) (maxMembers : UInt32) : List Bytes :=
  [ascii "EVAL",ascii joinRoomLua,ascii "1",membersKey roomId,decimal userId.toNat,decimal maxMembers.toNat]

def leaveScript (roomId userId : UInt64) : List Bytes :=
  [ascii "EVAL",ascii leaveRoomLua,ascii "1",membersKey roomId,decimal userId.toNat]

inductive Stage where
  | start
  | found (roomId : UInt64) (maxMembers : UInt32)
  | created (roomId : UInt64)
  | joined (roomId : UInt64) (memberCount : UInt32)
  | ended
  deriving DecidableEq, Repr

abbrev Known := UInt64 × Stage

def permit (cfg : Config) (known : Known) : Command Table → Prop
  | .query sql params => known.2 = .start ∧
    ((sql = createSql ∧ ∃ roomName owner, ∃ maxMembers : UInt32, (cfg.maxRoomMembers ≠ 0 → maxMembers ≠ 0) ∧
      params = [roomName,decimal maxMembers.toNat,owner]) ∨
    (sql = findSql ∧ ∃ roomId : UInt64, params = [decimal roomId.toNat]))
  | .redis _ arguments =>
    (∃ roomId, known.2 = .created roomId ∧ arguments = addOwner roomId known.1) ∨
    (∃ roomId maxMembers, known.2 = .found roomId maxMembers ∧ arguments = joinScript roomId known.1 maxMembers) ∨
    (∃ roomId, known.2 = .start ∧ arguments = leaveScript roomId known.1)
  | .produce _ _ message => (∀ roomId, known.2 ≠ .created roomId) ∧ ∀ builder roomId roomName memberCount,
      message = .envelope builder (.joinRoomResponse .none roomId roomName memberCount) → known.2 = .joined roomId memberCount
  | _ => False

def roomOf (params : List Bytes) : UInt64 := (fromChars (params.headD [])).getD 0

def afterCreate : Except ErrorCode PgResult → Stage
  | .error _ => .ended
  | .ok result =>
    if result.rowCount = 0 then .ended
    else
      match safeParseU64 (result.value 0 0) with
      | .error _ => .ended
      | .ok roomId => .created roomId

def afterFind (roomId : UInt64) : Except ErrorCode PgResult → Stage
  | .error _ => .ended
  | .ok room =>
    if room.rowCount = 0 then .ended
    else
      match safeParseU64 (room.value 0 1) with
      | .error _ => .ended
      | .ok maxMembers => .found roomId maxMembers.toUInt32

def afterJoin (roomId : UInt64) (reply : Except ErrorCode RedisReply) : Stage :=
  match evalInteger reply with
  | none => .ended
  | some value => if interpretJoinResult value = .joined then .joined roomId (toUInt32 value) else .ended

def Stage.after (stage : Stage) : (command : Command Table) → Reply command → Stage
  | .query sql params, reply => if sql = createSql then afterCreate reply else afterFind (roomOf params) reply
  | .redis .., reply =>
    match stage with
    | .found roomId _ => afterJoin roomId reply
    | _ => .ended
  | _, _ => stage

def learn (known : Known) (command : Command Table) (reply : Reply command) (next : Known) : Prop :=
  next = (known.1,known.2.after command reply)

abbrev Follows {A : Type} (cfg : Config) : Known → Task Table A → Prop := Tracks (permit cfg) learn fun _ _ => True

section
variable {next : Except ErrorCode PgResult → Task Table A}

theorem Follows.create (maxMembers : UInt32)
    (positive : cfg.maxRoomMembers ≠ 0 → maxMembers ≠ 0)
    (later : ∀ reply, Follows cfg (userId,afterCreate reply) (next reply)) :
    Follows cfg (userId,.start) (query createSql [roomName,decimal maxMembers.toNat,owner] >>= next) := by
  refine .call ⟨rfl,.inl ⟨rfl,_,_,_,positive,rfl⟩⟩ ?_
  rintro reply _ rfl
  exact later reply

theorem roomOf_decimal (roomId : UInt64) (rest : List Bytes) : roomOf (decimal roomId.toNat :: rest) = roomId := by
  have number := fromChars_decimal roomId [] (by simp)
  rw [List.append_nil] at number
  rw [roomOf,List.headD_cons,number]
  rfl

theorem Follows.find (roomId : UInt64)
    (later : ∀ reply, Follows cfg (userId,afterFind roomId reply) (next reply)) :
    Follows cfg (userId,.start) (query findSql [decimal roomId.toNat] >>= next) := by
  have other : findSql ≠ createSql := by decide
  refine .call ⟨rfl,.inr ⟨rfl,roomId,rfl⟩⟩ ?_
  rintro reply _ rfl
  have stage : Stage.after .start (.query findSql [decimal roomId.toNat]) reply = afterFind roomId reply := by
    simp only [Stage.after,if_neg other,roomOf_decimal]
  exact stage.symm ▸ later reply

end

section Handlers
variable (cfg : Config) (metadata : MetadataPrefix)

theorem respond_follows (msgId : UInt32) {known : Known} (complete : ∀ roomId, known.2 ≠ .created roomId)
    (success : ∀ roomId roomName memberCount, table = .joinRoomResponse .none roomId roomName memberCount →
      known.2 = .joined roomId memberCount) : Follows cfg known (respond cfg metadata msgId table) := by
  refine ⟨⟨complete,?_⟩,fun _ _ _ => trivial⟩
  rintro builder roomId roomName memberCount ⟨⟩
  exact success roomId roomName memberCount rfl

theorem onCreateRoom_follows (request : CreateRoomRequest) :
    Follows cfg (metadata.userId,.start) (onCreateRoom cfg metadata request) := by
  have refused : ∀ error, ∀ stage : Stage, (∀ roomId, stage ≠ .created roomId) →
      Follows cfg (metadata.userId,stage) (sendCreateRoomError cfg metadata error) :=
    fun error stage complete => respond_follows cfg _ _ complete (by rintro _ _ _ ⟨⟩)
  rw [onCreateRoom]
  split
  · exact refused _ _ (by rintro _ ⟨⟩)
  · exact refused _ _ (by rintro _ ⟨⟩)
  refine .create _ ?_ fun reply => ?_
  · intro positive
    split
    · next large => exact (UInt32.pos_iff_ne_zero.mp large)
    · exact positive
  · cases reply with
    | error code => exact refused _ .ended (by rintro _ ⟨⟩)
    | ok result =>
      simp only [afterCreate]
      by_cases missing : result.rowCount = 0
      · simp only [if_pos missing]
        exact refused _ .ended (by rintro _ ⟨⟩)
      simp only [if_neg missing]
      cases safeParseU64 (result.value 0 0) with
      | error code => exact refused _ .ended (by rintro _ ⟨⟩)
      | ok roomId =>
        refine .call (.inl ⟨roomId,rfl,rfl⟩) ?_
        rintro added _ rfl
        exact respond_follows cfg _ _ (by rintro _ ⟨⟩) (by rintro _ _ _ ⟨⟩)

theorem onJoinRoom_follows (request : JoinRoomRequest) :
    Follows cfg (metadata.userId,.start) (onJoinRoom cfg metadata request) := by
  have refused : ∀ error, error ≠ .none →
      Follows cfg (metadata.userId,.ended) (sendJoinRoomError cfg metadata error request.roomId) := by
    intro error failure
    refine respond_follows cfg _ _ (by rintro _ ⟨⟩) ?_
    rintro _ _ _ ⟨⟩
    exact absurd rfl failure
  refine .find request.roomId fun reply => ?_
  cases reply with
  | error code => exact refused .roomNotFound (by rintro ⟨⟩)
  | ok room =>
    simp only [afterFind]
    by_cases missing : room.rowCount = 0
    · simp only [if_pos missing]
      exact refused .roomNotFound (by rintro ⟨⟩)
    simp only [if_neg missing]
    cases safeParseU64 (room.value 0 1) with
    | error code => trivial
    | ok maxMembers =>
      refine .call (.inr (.inl ⟨_,_,rfl,rfl⟩)) ?_
      rintro reply _ rfl
      simp only [Stage.after,afterJoin]
      cases evalInteger reply with
      | none => trivial
      | some value =>
        simp only
        cases interpretJoinResult value with
        | alreadyIn => exact refused .alreadyInRoom (by rintro ⟨⟩)
        | roomFull => exact refused .roomFull (by rintro ⟨⟩)
        | joined =>
          refine respond_follows cfg _ _ (by rintro _ ⟨⟩) ?_
          rintro _ _ _ ⟨⟩
          rfl

theorem onLeaveRoom_follows (request : LeaveRoomRequest) :
    Follows cfg (metadata.userId,.start) (onLeaveRoom cfg metadata request) := by
  refine .call (.inr (.inr ⟨_,rfl,rfl⟩)) ?_
  rintro reply _ rfl
  simp only [Stage.after]
  split
  · trivial
  · split
    all_goals exact respond_follows cfg _ _ nofun nofun

end Handlers

end ApexPipeline.ChatRooms
