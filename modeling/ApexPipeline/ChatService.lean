import ApexPipeline.ServiceAdapters

/-! `chat_service.cpp` and `chat_logic.hpp`. The decoders and the encoder of the FlatBuffers tables
are parameters. -/
namespace ApexPipeline.ChatService
open Service KafkaEnvelope

inductive ChatRoomError where
  | none
  | roomNotFound
  | roomFull
  | alreadyInRoom
  | notInRoom
  | roomNameTooLong
  | roomNameEmpty
  | internalError
  deriving DecidableEq, Repr

inductive ChatMessageError where
  | none
  | notInRoom
  | messageTooLong
  | emptyMessage
  | targetOffline
  | permissionDenied
  | internalError
  deriving DecidableEq, Repr

structure CreateRoomRequest where
  roomName : Option Bytes
  maxMembers : UInt32 := 100
  deriving DecidableEq, Repr

structure JoinRoomRequest where
  roomId : UInt64
  deriving DecidableEq, Repr

structure LeaveRoomRequest where
  roomId : UInt64
  deriving DecidableEq, Repr

structure ListRoomsRequest where
  offset : UInt32 := 0
  limit : UInt32 := 20
  deriving DecidableEq, Repr

structure SendMessageRequest where
  roomId : UInt64
  content : Option Bytes
  deriving DecidableEq, Repr

structure WhisperRequest where
  targetUserId : UInt64
  content : Option Bytes
  deriving DecidableEq, Repr

structure ChatHistoryRequest where
  roomId : UInt64
  beforeMessageId : UInt64 := 0
  limit : UInt32 := 50
  deriving DecidableEq, Repr

structure GlobalBroadcastRequest where
  content : Option Bytes
  deriving DecidableEq, Repr

structure RoomInfo where
  roomId : UInt64
  roomName : Bytes
  memberCount : UInt32
  maxMembers : UInt32
  ownerId : UInt64
  deriving DecidableEq, Repr

structure HistoryMessage where
  messageId : UInt64
  senderId : UInt64
  senderName : Bytes
  content : Bytes
  timestamp : UInt64
  deriving DecidableEq, Repr

/-- The tables of the responses and of the messages to other users. -/
inductive Table where
  | createRoomResponse (error : ChatRoomError) (roomId : UInt64 := 0) (roomName : Option Bytes := .none)
  | joinRoomResponse (error : ChatRoomError) (roomId : UInt64 := 0) (roomName : Option Bytes := .none)
      (memberCount : UInt32 := 0)
  | leaveRoomResponse (error : ChatRoomError) (roomId : UInt64 := 0)
  | listRoomsResponse (error : ChatRoomError) (rooms : Option (List RoomInfo) := .none) (totalCount : UInt32 := 0)
  | sendMessageResponse (error : ChatMessageError) (messageId timestamp : UInt64 := 0)
  | chatMessage (roomId senderId : UInt64) (senderName content : Bytes) (messageId timestamp : UInt64)
      (channel : Option Bytes)
  | whisperResponse (error : ChatMessageError) (timestamp : UInt64 := 0)
  | whisperMessage (senderId : UInt64) (senderName content : Bytes) (timestamp : UInt64)
  | chatHistoryResponse (error : ChatMessageError) (messages : Option (List HistoryMessage) := .none)
      (hasMore : Bool := false)
  | globalBroadcastResponse (error : ChatMessageError) (timestamp : UInt64 := 0)
  | globalChatMessage (senderId : UInt64) (senderName content : Bytes) (timestamp : UInt64) (channel : Bytes)
  deriving DecidableEq, Repr

structure Config where
  responseTopic : Bytes := ascii "chat.responses"
  persistTopic : Bytes := ascii "chat.messages.persist"
  maxRoomMembers : UInt32 := 100
  maxMessageLength : UInt32 := 2000
  historyPageSize : UInt32 := 50
  maxRoomNameLength : Nat := 100
  maxListRoomsLimit : UInt32 := 100
  decodeCreateRoom : Bytes → Option CreateRoomRequest
  decodeJoinRoom : Bytes → Option JoinRoomRequest
  decodeLeaveRoom : Bytes → Option LeaveRoomRequest
  decodeListRooms : Bytes → Option ListRoomsRequest
  decodeSendMessage : Bytes → Option SendMessageRequest
  decodeWhisper : Bytes → Option WhisperRequest
  decodeChatHistory : Bytes → Option ChatHistoryRequest
  decodeGlobalBroadcast : Bytes → Option GlobalBroadcastRequest
  encode : Table → Bytes

namespace MsgIds

def createRoomRequest : UInt32 := 2001
def createRoomResponse : UInt32 := 2002
def joinRoomRequest : UInt32 := 2003
def joinRoomResponse : UInt32 := 2004
def leaveRoomRequest : UInt32 := 2005
def leaveRoomResponse : UInt32 := 2006
def listRoomsRequest : UInt32 := 2007
def listRoomsResponse : UInt32 := 2008
def sendMessageRequest : UInt32 := 2011
def sendMessageResponse : UInt32 := 2012
def chatMessage : UInt32 := 2013
def whisperRequest : UInt32 := 2021
def whisperResponse : UInt32 := 2022
def whisperMessage : UInt32 := 2023
def chatHistoryRequest : UInt32 := 2031
def chatHistoryResponse : UInt32 := 2032
def globalBroadcastRequest : UInt32 := 2041
def globalBroadcastResponse : UInt32 := 2042
def globalChatMessage : UInt32 := 2043

end MsgIds

def directionResponse : UInt16 := 0x0001
def deliveryUnicast : UInt16 := 0x0000

def sourceChat : UInt16 := 2

def globalChatChannel : Bytes := ascii "pub:global:chat"

inductive Validation where
  | valid
  | empty
  | tooLong
  deriving DecidableEq, Repr

def validate (size maxLength : Nat) : Validation :=
  if size = 0 then .empty else if size > maxLength then .tooLong else .valid

def validateMessageContent (contentSize maxLength : Nat) : Validation := validate contentSize maxLength

def validateRoomName (nameSize maxLength : Nat) : Validation := validate nameSize maxLength

inductive JoinRoomResult where
  | joined
  | alreadyIn
  | roomFull
  deriving DecidableEq, Repr

def interpretJoinResult (luaResult : Int) : JoinRoomResult :=
  if luaResult = -1 then .alreadyIn else if luaResult = 0 then .roomFull else .joined

def safeParseU64 (text : Bytes) : Except ErrorCode UInt64 :=
  match fromChars text with
  | none => .error .invalidMessage
  | some value => .ok value

structure SessionCore where
  sessionId : UInt64
  coreId : UInt16
  deriving DecidableEq, Repr

/-- Without a colon the text is a session id alone. The core id is cut to sixteen bits. -/
def parseSessionCore (text : Bytes) : Except ErrorCode SessionCore :=
  let colon := text.idxOf 58
  if colon = text.length then
    match safeParseU64 text with
    | .error code => .error code
    | .ok sessionId => .ok ⟨sessionId,0⟩
  else
    match safeParseU64 (text.take colon) with
    | .error code => .error code
    | .ok sessionId =>
      match safeParseU64 (text.drop (colon + 1)) with
      | .error code => .error code
      | .ok coreId => .ok ⟨sessionId,coreId.toUInt16⟩

/-- The casts to `int` and from a Redis integer to `uint32_t`. -/
def toInt32 (value : UInt32) : Int := (value.toNat + 2^31) % 2^32 - 2^31

def toUInt32 (value : Int) : UInt32 := .ofNat (value % 2^32).toNat

def textSize (text : Option Bytes) : Nat := (text.getD []).length

def membersKey (roomId : UInt64) : Bytes :=
  ascii "chat:room:" ++ decimal roomId.toNat ++ ascii ":members"

def userKey (userId : UInt64) : Bytes := ascii "session:user:" ++ decimal userId.toNat

def roomChannel (roomId : UInt64) : Bytes := ascii "pub:chat:room:" ++ decimal roomId.toNat

/-- An empty reply topic stands for the configured one. -/
def sendResponseWithFlags (cfg : Config) (msgId : UInt32) (flags : UInt16) (corrId : UInt64)
    (coreId : UInt16) (sessionId : UInt64) (table : Table) (replyTopic : Bytes) : Task Table Unit := do
  let builder := (({} : EnvelopeBuilder).routing msgId flags).metadata coreId corrId sourceChat sessionId 0
  let targetTopic := if replyTopic.isEmpty then cfg.responseTopic else replyTopic
  let _ ← produce targetTopic (decimal sessionId.toNat) (.envelope builder table)
  pure ()

def sendResponse (cfg : Config) (msgId : UInt32) (corrId : UInt64) (coreId : UInt16) (sessionId : UInt64)
    (table : Table) (replyTopic : Bytes) : Task Table Unit :=
  sendResponseWithFlags cfg msgId directionResponse corrId coreId sessionId table replyTopic

/-- The response to the request of the metadata, with which every path of a handler ends that
answers at all. -/
def respond (cfg : Config) (metadata : MetadataPrefix) (msgId : UInt32) (table : Table) : Task Table Outcome := do
  sendResponse cfg msgId metadata.corrId metadata.coreId metadata.sessionId table []
  ok

def sendCreateRoomError (cfg : Config) (metadata : MetadataPrefix) (error : ChatRoomError) : Task Table Outcome :=
  respond cfg metadata MsgIds.createRoomResponse (.createRoomResponse error)

def sendJoinRoomError (cfg : Config) (metadata : MetadataPrefix) (error : ChatRoomError) (roomId : UInt64) :
    Task Table Outcome :=
  respond cfg metadata MsgIds.joinRoomResponse (.joinRoomResponse error roomId)

def sendLeaveRoomError (cfg : Config) (metadata : MetadataPrefix) (error : ChatRoomError) (roomId : UInt64) :
    Task Table Outcome :=
  respond cfg metadata MsgIds.leaveRoomResponse (.leaveRoomResponse error roomId)

def sendListRoomsError (cfg : Config) (metadata : MetadataPrefix) (error : ChatRoomError) : Task Table Outcome :=
  respond cfg metadata MsgIds.listRoomsResponse (.listRoomsResponse error)

def sendMessageError (cfg : Config) (metadata : MetadataPrefix) (error : ChatMessageError) : Task Table Outcome :=
  respond cfg metadata MsgIds.sendMessageResponse (.sendMessageResponse error)

def sendWhisperError (cfg : Config) (metadata : MetadataPrefix) (error : ChatMessageError) : Task Table Outcome :=
  respond cfg metadata MsgIds.whisperResponse (.whisperResponse error)

def sendHistoryError (cfg : Config) (metadata : MetadataPrefix) (error : ChatMessageError) : Task Table Outcome :=
  respond cfg metadata MsgIds.chatHistoryResponse (.chatHistoryResponse error)

def sendGlobalBroadcastError (cfg : Config) (metadata : MetadataPrefix) (error : ChatMessageError) :
    Task Table Outcome :=
  respond cfg metadata MsgIds.globalBroadcastResponse (.globalBroadcastResponse error)

/-- The message id in network order, then the table. -/
def buildPubsubPayload (cfg : Config) (msgId : UInt32) (table : Table) : Bytes :=
  ByteOrder.bigEndian 4 msgId.toNat ++ cfg.encode table

def onCreateRoom (cfg : Config) (metadata : MetadataPrefix) (request : CreateRoomRequest) : Task Table Outcome :=
  match validateRoomName (textSize request.roomName) cfg.maxRoomNameLength with
  | .empty => sendCreateRoomError cfg metadata .roomNameEmpty
  | .tooLong => sendCreateRoomError cfg metadata .roomNameTooLong
  | .valid => do
    let roomName := request.roomName.getD []
    let maxMembers := if request.maxMembers > 0 then request.maxMembers else cfg.maxRoomMembers
    let userId := metadata.userId
    let pgResult ← query
      "INSERT INTO chat_svc.chat_rooms (room_name, max_members, owner_id) VALUES ($1, $2::int, $3::bigint) RETURNING room_id"
      [roomName,decimal maxMembers.toNat,decimal userId.toNat]
    match pgResult with
    | .error _ => sendCreateRoomError cfg metadata .internalError
    | .ok result =>
      if result.rowCount = 0 then sendCreateRoomError cfg metadata .internalError
      else
        match safeParseU64 (result.value 0 0) with
        | .error _ => sendCreateRoomError cfg metadata .internalError
        | .ok roomId => do
          let _ ← redis .data [ascii "SADD",membersKey roomId,decimal userId.toNat]
          respond cfg metadata MsgIds.createRoomResponse (.createRoomResponse .none roomId roomName)

def joinRoomLua : String :=
  "
if redis.call('SISMEMBER', KEYS[1], ARGV[1]) == 1 then
    return -1
end
if redis.call('SCARD', KEYS[1]) >= tonumber(ARGV[2]) then
    return 0
end
redis.call('SADD', KEYS[1], ARGV[1])
return redis.call('SCARD', KEYS[1])
"

/-- The integer of a script's reply; every other reply counts as a failure. -/
def evalInteger (result : Except ErrorCode RedisReply) : Option Int :=
  match result with
  | .error _ => none
  | .ok reply => if reply.type = .integer then some reply.integer else none

def onJoinRoom (cfg : Config) (metadata : MetadataPrefix) (request : JoinRoomRequest) : Task Table Outcome := do
  let roomId := request.roomId
  let userId := metadata.userId
  let roomResult ← query
    "SELECT room_name, max_members FROM chat_svc.chat_rooms WHERE room_id = $1::bigint AND is_active = true"
    [decimal roomId.toNat]
  match roomResult with
  | .error _ => sendJoinRoomError cfg metadata .roomNotFound roomId
  | .ok room =>
    if room.rowCount = 0 then sendJoinRoomError cfg metadata .roomNotFound roomId
    else
      match safeParseU64 (room.value 0 1) with
      | .error code => fail code
      | .ok maxMembers => do
        let evalResult ← redis .data [ascii "EVAL",ascii joinRoomLua,ascii "1",membersKey roomId,
          decimal userId.toNat,decimal maxMembers.toUInt32.toNat]
        match evalInteger evalResult with
        | none => fail .adapterError
        | some luaResult =>
          match interpretJoinResult luaResult with
          | .alreadyIn => sendJoinRoomError cfg metadata .alreadyInRoom roomId
          | .roomFull => sendJoinRoomError cfg metadata .roomFull roomId
          | .joined =>
            respond cfg metadata MsgIds.joinRoomResponse
              (.joinRoomResponse .none roomId (room.value 0 0) (toUInt32 luaResult))

def leaveRoomLua : String :=
  "
if redis.call('SISMEMBER', KEYS[1], ARGV[1]) == 0 then
    return 0
end
redis.call('SREM', KEYS[1], ARGV[1])
return 1
"

def onLeaveRoom (cfg : Config) (metadata : MetadataPrefix) (request : LeaveRoomRequest) : Task Table Outcome := do
  let roomId := request.roomId
  let evalResult ← redis .data [ascii "EVAL",ascii leaveRoomLua,ascii "1",membersKey roomId,
    decimal metadata.userId.toNat]
  match evalInteger evalResult with
  | none => fail .adapterError
  | some luaResult =>
    if luaResult = 0 then sendLeaveRoomError cfg metadata .notInRoom roomId
    else respond cfg metadata MsgIds.leaveRoomResponse (.leaveRoomResponse .none roomId)

/-- The integer of any reply is read, as long as there is one. -/
def replyInteger (result : Except ErrorCode RedisReply) : Option Int :=
  match result with
  | .error _ => none
  | .ok reply => some reply.integer

/-- The rooms of a page with their current sizes; rows with a number that is not one are skipped. -/
def roomInfos : List (List (Option Bytes)) → Task Table (List RoomInfo)
  | [] => pure []
  | row :: rest =>
    let result : PgResult := ⟨[row]⟩
    match safeParseU64 (result.value 0 0), safeParseU64 (result.value 0 2), safeParseU64 (result.value 0 3) with
    | .ok roomId, .ok maxMembers, .ok ownerId => do
      let scard ← redis .data [ascii "SCARD",membersKey roomId]
      let later ← roomInfos rest
      pure (⟨roomId,result.value 0 1,toUInt32 ((replyInteger scard).getD 0),maxMembers.toUInt32,ownerId⟩ :: later)
    | _, _, _ => roomInfos rest

def listPage (cfg : Config) (metadata : MetadataPrefix) (offset limit totalCount : UInt32) :
    Task Table Outcome := do
  let roomsResult ← query
    "SELECT room_id, room_name, max_members, owner_id FROM chat_svc.chat_rooms WHERE is_active = true ORDER BY room_id ASC LIMIT $1::int OFFSET $2::int"
    [decimal limit.toNat,decimal offset.toNat]
  match roomsResult with
  | .error _ => sendListRoomsError cfg metadata .internalError
  | .ok page => do
    let rooms ← roomInfos page.rows
    respond cfg metadata MsgIds.listRoomsResponse (.listRoomsResponse .none rooms totalCount)

/-- A count that is missing is zero; one that is no number ends the handler. -/
def onListRooms (cfg : Config) (metadata : MetadataPrefix) (request : ListRoomsRequest) : Task Table Outcome := do
  let offset := request.offset
  let limit := min request.limit cfg.maxListRoomsLimit
  let countResult ← query "SELECT COUNT(*) FROM chat_svc.chat_rooms WHERE is_active = true" []
  match countResult with
  | .error _ => listPage cfg metadata offset limit 0
  | .ok count =>
    if count.rowCount > 0 then
      match safeParseU64 (count.value 0 0) with
      | .error code => fail code
      | .ok totalCount => listPage cfg metadata offset limit totalCount.toUInt32
    else listPage cfg metadata offset limit 0

def broadcastMessage (cfg : Config) (metadata : MetadataPrefix) (roomId : UInt64) (content : Bytes)
    (timestamp : UInt64) : Task Table Outcome := do
  let userId := metadata.userId
  let channel := roomChannel roomId
  let published := buildPubsubPayload cfg MsgIds.chatMessage
    (.chatMessage roomId userId (decimal userId.toNat) content 0 timestamp channel)
  let _ ← redis .pubsub [ascii "PUBLISH",channel,published]
  let _ ← produce cfg.persistTopic (decimal roomId.toNat)
    (.record (.chatMessage roomId userId (decimal userId.toNat) content 0 timestamp .none))
  respond cfg metadata MsgIds.sendMessageResponse (.sendMessageResponse .none 0 timestamp)

def onSendMessage (cfg : Config) (metadata : MetadataPrefix) (request : SendMessageRequest) : Task Table Outcome :=
  match validateMessageContent (textSize request.content) cfg.maxMessageLength.toNat with
  | .empty => sendMessageError cfg metadata .emptyMessage
  | .tooLong => sendMessageError cfg metadata .messageTooLong
  | .valid => do
    let timestamp ← now
    let isMember ← redis .data [ascii "SISMEMBER",membersKey request.roomId,decimal metadata.userId.toNat]
    match replyInteger isMember with
    | none => fail .adapterError
    | some member =>
      if member = 0 then sendMessageError cfg metadata .notInRoom
      else broadcastMessage cfg metadata request.roomId (request.content.getD []) timestamp

def deliverWhisper (cfg : Config) (metadata : MetadataPrefix) (target : SessionCore) (content : Bytes)
    (timestamp : UInt64) : Task Table Outcome := do
  let senderId := metadata.userId
  sendResponseWithFlags cfg MsgIds.whisperMessage (directionResponse ||| deliveryUnicast) 0 target.coreId
    target.sessionId (.whisperMessage senderId (decimal senderId.toNat) content timestamp) []
  respond cfg metadata MsgIds.whisperResponse (.whisperResponse .none timestamp)

def onWhisper (cfg : Config) (metadata : MetadataPrefix) (request : WhisperRequest) : Task Table Outcome :=
  match validateMessageContent (textSize request.content) cfg.maxMessageLength.toNat with
  | .empty => sendWhisperError cfg metadata .emptyMessage
  | .tooLong => sendWhisperError cfg metadata .messageTooLong
  | .valid =>
    if request.targetUserId = metadata.userId then sendWhisperError cfg metadata .permissionDenied
    else do
      let timestamp ← now
      let sessionResult ← redis .data [ascii "GET",userKey request.targetUserId]
      match sessionResult with
      | .error _ => sendWhisperError cfg metadata .targetOffline
      | .ok reply =>
        if reply.type = .nil then sendWhisperError cfg metadata .targetOffline
        else
          match parseSessionCore reply.str with
          | .error code => fail code
          | .ok target => deliverWhisper cfg metadata target (request.content.getD []) timestamp

/-- Rows with a number that is not one are skipped. -/
def historyMessages (rows : List (List (Option Bytes))) : List HistoryMessage :=
  rows.filterMap fun row =>
    let result : PgResult := ⟨[row]⟩
    match safeParseU64 (result.value 0 0), safeParseU64 (result.value 0 1), safeParseU64 (result.value 0 4) with
    | .ok messageId, .ok senderId, .ok timestamp =>
      some ⟨messageId,senderId,result.value 0 2,result.value 0 3,timestamp⟩
    | _, _, _ => none

/-- One row more than the page is asked for. -/
def fetchHistory (roomId beforeMessageId : UInt64) (fetchLimit : UInt32) : Task Table (Except ErrorCode PgResult) :=
  if beforeMessageId = 0 then query
    "SELECT message_id, sender_id, sender_name, content, EXTRACT(EPOCH FROM created_at)::bigint * 1000 AS ts FROM chat_svc.chat_messages WHERE room_id = $1::bigint ORDER BY message_id DESC LIMIT $2::int"
    [decimal roomId.toNat,decimal fetchLimit.toNat]
  else query
    "SELECT message_id, sender_id, sender_name, content, EXTRACT(EPOCH FROM created_at)::bigint * 1000 AS ts FROM chat_svc.chat_messages WHERE room_id = $1::bigint AND message_id < $2::bigint ORDER BY message_id DESC LIMIT $3::int"
    [decimal roomId.toNat,decimal beforeMessageId.toNat,decimal fetchLimit.toNat]

/-- The page is a prefix of the rows. A limit that is negative as an `int` cannot be reserved. -/
def onChatHistory (cfg : Config) (metadata : MetadataPrefix) (request : ChatHistoryRequest) :
    Task Table Outcome := do
  let limit := min request.limit cfg.historyPageSize
  let isMember ← redis .data [ascii "SISMEMBER",membersKey request.roomId,decimal metadata.userId.toNat]
  match replyInteger isMember with
  | none => fail .adapterError
  | some member =>
    if member = 0 then sendHistoryError cfg metadata .notInRoom
    else do
      let msgResult ← fetchHistory request.roomId request.beforeMessageId (limit + 1)
      match msgResult with
      | .error _ => sendHistoryError cfg metadata .internalError
      | .ok page =>
        let hasMore := decide ((page.rowCount : Int) > toInt32 limit)
        let actualCount := min (page.rowCount : Int) (toInt32 limit)
        if actualCount < 0 then pure .threw
        else
          respond cfg metadata MsgIds.chatHistoryResponse
            (.chatHistoryResponse .none (historyMessages (page.rows.take actualCount.toNat)) hasMore)

def onGlobalBroadcast (cfg : Config) (metadata : MetadataPrefix) (request : GlobalBroadcastRequest) :
    Task Table Outcome :=
  match validateMessageContent (textSize request.content) cfg.maxMessageLength.toNat with
  | .empty => sendGlobalBroadcastError cfg metadata .emptyMessage
  | .tooLong => sendGlobalBroadcastError cfg metadata .messageTooLong
  | .valid => do
    let timestamp ← now
    let senderId := metadata.userId
    let published := buildPubsubPayload cfg MsgIds.globalChatMessage
      (.globalChatMessage senderId (decimal senderId.toNat) (request.content.getD []) timestamp globalChatChannel)
    let _ ← redis .pubsub [ascii "PUBLISH",globalChatChannel,published]
    respond cfg metadata MsgIds.globalBroadcastResponse (.globalBroadcastResponse .none timestamp)

def routes (cfg : Config) : List (UInt32 × (Invocation → Task Table Outcome)) :=
  [(MsgIds.createRoomRequest,kafkaRoute cfg.decodeCreateRoom (onCreateRoom cfg)),
    (MsgIds.joinRoomRequest,kafkaRoute cfg.decodeJoinRoom (onJoinRoom cfg)),
    (MsgIds.leaveRoomRequest,kafkaRoute cfg.decodeLeaveRoom (onLeaveRoom cfg)),
    (MsgIds.listRoomsRequest,kafkaRoute cfg.decodeListRooms (onListRooms cfg)),
    (MsgIds.sendMessageRequest,kafkaRoute cfg.decodeSendMessage (onSendMessage cfg)),
    (MsgIds.whisperRequest,kafkaRoute cfg.decodeWhisper (onWhisper cfg)),
    (MsgIds.chatHistoryRequest,kafkaRoute cfg.decodeChatHistory (onChatHistory cfg)),
    (MsgIds.globalBroadcastRequest,kafkaRoute cfg.decodeGlobalBroadcast (onGlobalBroadcast cfg))]

end ApexPipeline.ChatService
