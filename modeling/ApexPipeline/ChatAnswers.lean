import ApexPipeline.RoomCapacity

/-! How often a chat request is answered. A handler gives up on some replies of Redis and PostgreSQL, with an error or an
exception; it has produced no response then, and nobody else answers. On every other path it produces one. -/
namespace ApexPipeline.ChatService
open Service Coroutine KafkaEnvelope

/-- A response to the request of the metadata. The flags of a whisper that is delivered are the same. -/
def isResponse (metadata : MetadataPrefix) : Command Table → Bool
  | .produce _ _ (.envelope builder _) => builder.msgId ≠ MsgIds.whisperMessage ∧
      builder.corrId = metadata.corrId ∧ builder.coreId = metadata.coreId ∧ builder.sessionId = metadata.sessionId
  | _ => false

/-! ### The requests -/

inductive Request where
  | createRoom (request : CreateRoomRequest)
  | joinRoom (request : JoinRoomRequest)
  | leaveRoom (request : LeaveRoomRequest)
  | listRooms (request : ListRoomsRequest)
  | sendMessage (request : SendMessageRequest)
  | whisper (request : WhisperRequest)
  | chatHistory (request : ChatHistoryRequest)
  | globalBroadcast (request : GlobalBroadcastRequest)

def Request.handler (cfg : Config) (metadata : MetadataPrefix) : Request → Task Table Outcome
  | .createRoom request => onCreateRoom cfg metadata request
  | .joinRoom request => onJoinRoom cfg metadata request
  | .leaveRoom request => onLeaveRoom cfg metadata request
  | .listRooms request => onListRooms cfg metadata request
  | .sendMessage request => onSendMessage cfg metadata request
  | .whisper request => onWhisper cfg metadata request
  | .chatHistory request => onChatHistory cfg metadata request
  | .globalBroadcast request => onGlobalBroadcast cfg metadata request

/-- A first row whose cell is no number. -/
def unreadable (column : Nat) : Except ErrorCode PgResult → Bool
  | .error _ => false
  | .ok result => result.rowCount ≠ 0 ∧ (safeParseU64 (result.value 0 column)).toOption = none

/-- A session that is not written as one. -/
def misplaced : Except ErrorCode RedisReply → Bool
  | .error _ => false
  | .ok reply => reply.type ≠ .nil ∧ (parseSessionCore reply.str).toOption = none

/-- The replies to its commands that a request is not answered after: an error of Redis where the membership is read
or changed, a reply of a script that is no integer, a number or a session that cannot be read, and a page of the
history whose limit is negative as an `int`. -/
def Request.givesUp (cfg : Config) : Request → (command : Command Table) → Reply command → Bool
  | .joinRoom _,.query .. ,reply => unreadable 1 reply
  | .joinRoom _,.redis .. ,reply | .leaveRoom _,.redis .. ,reply => (evalInteger reply).isNone
  | .listRooms _,.query _ [],reply => unreadable 0 reply
  | .sendMessage _,.redis .data _,reply | .chatHistory _,.redis .. ,reply => (replyInteger reply).isNone
  | .whisper _,.redis .. ,reply => misplaced reply
  | .chatHistory request,.query .. ,reply => Except.isOk reply ∧ toInt32 (min request.limit cfg.historyPageSize) < 0
  | _,_,_ => false

/-! ### What the handlers do -/

/-- The only envelope beside the response is a whisper for its addressee. -/
def Quiet (cfg : Config) : Command Table → Prop
  | .produce topic _ (.envelope builder _) => topic = cfg.responseTopic ∧ builder.msgId = MsgIds.whisperMessage
  | _ => True

/-- A quiet command that no reply to ends the handler. -/
def Calm (cfg : Config) (request : Request) (command : Command Table) : Prop :=
  Quiet cfg command ∧ ∀ reply, request.givesUp cfg command reply = false

/-- What the handler of a request consists of: quiet commands, which end it at once if the reply is one to give up on, and
a response. -/
inductive Handles (cfg : Config) (metadata : MetadataPrefix) (request : Request) : Task Table Outcome → Prop
  | gives (quiet : Quiet cfg command)
      (ends : ∀ reply, request.givesUp cfg command reply = true → ∃ outcome, resume reply = .done outcome)
      (later : ∀ reply, request.givesUp cfg command reply = false → Handles cfg metadata request (resume reply)) :
      Handles cfg metadata request (.await command resume)
  | responds (response : msgId ≠ MsgIds.whisperMessage) : Handles cfg metadata request (respond cfg metadata msgId table)

variable {cfg : Config} {metadata : MetadataPrefix} {request : Request}

namespace Handles

/-- A command whose reply decides. -/
theorem call {command : Command Table} {next : Reply command → Task Table Outcome} (quiet : Quiet cfg command)
    (decided : ∀ reply, request.givesUp cfg command reply = true ∧ (∃ outcome, next reply = .done outcome) ∨
      request.givesUp cfg command reply = false ∧ Handles cfg metadata request (next reply)) :
    Handles cfg metadata request (Coroutine.call command >>= next) := by
  refine .gives quiet (fun reply up => ?_) (fun reply on => ?_)
  · obtain ⟨_,ended⟩ | ⟨on,_⟩ := decided reply
    · exact ended
    · exact absurd (up.symm.trans on) nofun
  · obtain ⟨up,_⟩ | ⟨_,handles⟩ := decided reply
    · exact absurd (up.symm.trans on) nofun
    · exact handles

/-- A command after which the handler always goes on. -/
theorem goesOn {command : Command Table} {next : Reply command → Task Table Outcome} (calm : Calm cfg request command)
    (later : ∀ reply, Handles cfg metadata request (next reply)) :
    Handles cfg metadata request (Coroutine.call command >>= next) :=
  .call calm.1 fun reply => .inr ⟨calm.2 reply,later reply⟩

theorem bind {first : Task Table A} {next : A → Task Table Outcome} (calm : first.Always (Calm cfg request))
    (later : ∀ value, Handles cfg metadata request (next value)) : Handles cfg metadata request (first >>= next) := by
  induction first with
  | done value => exact later value
  | await command resume ih => exact .goesOn calm.1 fun reply => ih reply (calm.2 reply)

end Handles

theorem onCreateRoom_handles (asked : CreateRoomRequest) :
    Handles cfg metadata (.createRoom asked) (onCreateRoom cfg metadata asked) := by
  simp only [onCreateRoom]
  repeat' first
    | exact .responds (by decide)
    | (refine .goesOn ⟨trivial,fun _ => rfl⟩ fun reply => ?_)
    | split

theorem onJoinRoom_handles (asked : JoinRoomRequest) :
    Handles cfg metadata (.joinRoom asked) (onJoinRoom cfg metadata asked) := by
  simp only [onJoinRoom]
  refine .call trivial fun room => ?_
  simp only [Request.givesUp,unreadable]
  cases room with
  | error code => exact .inr ⟨rfl,.responds (by decide)⟩
  | ok room =>
    by_cases none : room.rowCount = 0
    · simp only [none,if_true]
      exact .inr ⟨by simp,.responds (by decide)⟩
    simp only [none,if_false]
    cases read : safeParseU64 (room.value 0 1) with
    | error code => exact .inl ⟨by simp [none,Except.toOption],_,rfl⟩
    | ok maxMembers =>
      refine .inr ⟨by simp [Except.toOption],.call trivial fun reply => ?_⟩
      simp only [Request.givesUp]
      cases evalInteger reply with
      | none => exact .inl ⟨rfl,_,rfl⟩
      | some luaResult =>
        refine .inr ⟨rfl,?_⟩
        simp only
        split <;> exact .responds (by decide)

theorem onLeaveRoom_handles (asked : LeaveRoomRequest) :
    Handles cfg metadata (.leaveRoom asked) (onLeaveRoom cfg metadata asked) := by
  simp only [onLeaveRoom]
  refine .call trivial fun reply => ?_
  simp only [Request.givesUp]
  cases evalInteger reply with
  | none => exact .inl ⟨rfl,_,rfl⟩
  | some luaResult =>
    refine .inr ⟨rfl,?_⟩
    simp only
    split <;> exact .responds (by decide)

theorem roomInfos_calm (asked : ListRoomsRequest) (rows : List (List (Option Bytes))) :
    (roomInfos rows).Always (Calm cfg (.listRooms asked)) := by
  induction rows with
  | nil => trivial
  | cons row rest ih =>
    simp only [roomInfos]
    split
    · exact .call ⟨trivial,fun _ => rfl⟩ fun _ => .bind ih fun _ => trivial
    · exact ih

theorem onListRooms_handles (asked : ListRoomsRequest) :
    Handles cfg metadata (.listRooms asked) (onListRooms cfg metadata asked) := by
  have page (offset limit totalCount : UInt32) :
      Handles cfg metadata (.listRooms asked) (listPage cfg metadata offset limit totalCount) := by
    refine .goesOn ⟨trivial,fun _ => rfl⟩ fun reply => ?_
    split
    · exact .responds (by decide)
    · exact .bind (roomInfos_calm asked _) fun _ => .responds (by decide)
  simp only [onListRooms]
  refine .call trivial fun count => ?_
  simp only [Request.givesUp,unreadable]
  cases count with
  | error code => exact .inr ⟨rfl,page ..⟩
  | ok count =>
    by_cases none : count.rowCount = 0
    · simp only [none,Nat.lt_irrefl,if_false]
      exact .inr ⟨by simp,page ..⟩
    simp only [Nat.pos_of_ne_zero none,if_true]
    cases read : safeParseU64 (count.value 0 0) with
    | error code => exact .inl ⟨by simp [none,Except.toOption],_,rfl⟩
    | ok totalCount => exact .inr ⟨by simp [Except.toOption],page ..⟩

theorem onSendMessage_handles (asked : SendMessageRequest) :
    Handles cfg metadata (.sendMessage asked) (onSendMessage cfg metadata asked) := by
  have broadcast (roomId : UInt64) (content : Bytes) (timestamp : UInt64) :
      Handles cfg metadata (.sendMessage asked) (broadcastMessage cfg metadata roomId content timestamp) :=
    .goesOn ⟨trivial,fun _ => rfl⟩ fun _ => .goesOn ⟨trivial,fun _ => rfl⟩ fun _ => .responds (by decide)
  simp only [onSendMessage]
  split
  · exact .responds (by decide)
  · exact .responds (by decide)
  refine .goesOn ⟨trivial,fun _ => rfl⟩ fun timestamp => .call trivial fun isMember => ?_
  simp only [Request.givesUp]
  cases replyInteger isMember with
  | none => exact .inl ⟨rfl,_,rfl⟩
  | some member =>
    refine .inr ⟨rfl,?_⟩
    simp only
    split
    · exact .responds (by decide)
    · exact broadcast ..

theorem onWhisper_handles (asked : WhisperRequest) :
    Handles cfg metadata (.whisper asked) (onWhisper cfg metadata asked) := by
  have deliver (target : SessionCore) (content : Bytes) (timestamp : UInt64) :
      Handles cfg metadata (.whisper asked) (deliverWhisper cfg metadata target content timestamp) :=
    .goesOn ⟨⟨rfl,rfl⟩,fun _ => rfl⟩ fun _ => .responds (by decide)
  simp only [onWhisper]
  split
  · exact .responds (by decide)
  · exact .responds (by decide)
  split
  · exact .responds (by decide)
  refine .goesOn ⟨trivial,fun _ => rfl⟩ fun timestamp => .call trivial fun session => ?_
  simp only [Request.givesUp,misplaced]
  cases session with
  | error code => exact .inr ⟨rfl,.responds (by decide)⟩
  | ok reply =>
    by_cases none : reply.type = .nil
    · simp only [none,if_true]
      exact .inr ⟨by simp,.responds (by decide)⟩
    simp only [none,if_false]
    cases read : parseSessionCore reply.str with
    | error code => exact .inl ⟨by simp [none,Except.toOption],_,rfl⟩
    | ok target => exact .inr ⟨by simp [Except.toOption],deliver ..⟩

theorem onChatHistory_handles (asked : ChatHistoryRequest) :
    Handles cfg metadata (.chatHistory asked) (onChatHistory cfg metadata asked) := by
  simp only [onChatHistory]
  refine .call trivial fun isMember => ?_
  simp only [Request.givesUp]
  cases replyInteger isMember with
  | none => exact .inl ⟨rfl,_,rfl⟩
  | some member =>
    refine .inr ⟨rfl,?_⟩
    simp only
    split
    · exact .responds (by decide)
    -- the two queries are read in one way
    simp only [fetchHistory]
    split
    all_goals
      refine .call trivial fun msgResult => ?_
      simp only [Request.givesUp]
      cases msgResult with
      | error code => exact .inr ⟨rfl,.responds (by decide)⟩
      | ok page =>
        simp only [Except.isOk,Except.toBool,true_and]
        -- the numbers are too large to compute with
        generalize toInt32 (min asked.limit cfg.historyPageSize) = limit
        by_cases negative : limit < 0
        · rw [if_pos (by omega)]
          exact .inl ⟨decide_eq_true negative,_,rfl⟩
        · rw [if_neg (by omega)]
          exact .inr ⟨decide_eq_false negative,.responds (by decide)⟩

theorem onGlobalBroadcast_handles (asked : GlobalBroadcastRequest) :
    Handles cfg metadata (.globalBroadcast asked) (onGlobalBroadcast cfg metadata asked) := by
  simp only [onGlobalBroadcast]
  repeat' first
    | exact .responds (by decide)
    | (refine .goesOn ⟨trivial,fun _ => rfl⟩ fun reply => ?_)
    | split

theorem Request.handles (request : Request) : Handles cfg metadata request (request.handler cfg metadata) := by
  cases request with
  | createRoom asked => exact onCreateRoom_handles asked
  | joinRoom asked => exact onJoinRoom_handles asked
  | leaveRoom asked => exact onLeaveRoom_handles asked
  | listRooms asked => exact onListRooms_handles asked
  | sendMessage asked => exact onSendMessage_handles asked
  | whisper asked => exact onWhisper_handles asked
  | chatHistory asked => exact onChatHistory_handles asked
  | globalBroadcast asked => exact onGlobalBroadcast_handles asked

theorem Quiet.silent {command : Command Table} (quiet : Quiet cfg command) : isResponse metadata command = false := by
  unfold isResponse
  split
  · simp [show _ = MsgIds.whisperMessage from quiet.2]
  · rfl

theorem givesUp_produce {reply : Reply (.produce topic key message)} :
    request.givesUp cfg (.produce topic key message) reply = false := by
  cases request <;> rfl

/-- What a handler adds to the record has one response, or a reply to give up on and none. -/
theorem Handles.count_run (handles : Handles cfg metadata request program)
    (handle : E → (command : Command Table) → Reply command × E) (s : E × List (Sigma Reply)) :
    ∃ added, (program.run (recording handle) s).2.2 = added ++ s.2 ∧ added.countP (isResponse metadata ·.1) =
      if added.any (fun entry => request.givesUp cfg entry.1 entry.2) then 0 else 1 := by
  induction handles generalizing s with
  | @gives command resume quiet ends later ih =>
    cases up : request.givesUp cfg command (handle s.1 command).1 with
    | true =>
      obtain ⟨outcome,ended⟩ := ends _ up
      refine ⟨[⟨command,(handle s.1 command).1⟩],?_,by simp [quiet.silent,up]⟩
      simp only [run,recording,ended,List.singleton_append]
    | false =>
      obtain ⟨added,record,counted⟩ := ih _ up (recording handle s command).2
      refine ⟨added ++ [⟨command,(handle s.1 command).1⟩],?_,?_⟩
      · rw [List.append_assoc]
        exact record
      · have last : [(⟨command,(handle s.1 command).1⟩ : Sigma Reply)].any
            (fun entry => request.givesUp cfg entry.1 entry.2) = false := by
          rw [List.any_cons,List.any_nil,Bool.or_false]
          exact up
        rw [List.countP_append,counted,List.any_append,last,Bool.or_false]
        simp [quiet.silent]
  | responds response =>
    refine ⟨[⟨_,_⟩],rfl,?_⟩
    rw [List.any_cons,List.any_nil,Bool.or_false,givesUp_produce]
    exact List.countP_cons_of_pos (decide_eq_true ⟨response,rfl,rfl,rfl⟩)

/-- For every decoded request and all replies: it is answered once if no reply is one that its handler gives up on, and not
at all otherwise. -/
theorem answered_once_iff (cfg : Config) (metadata : MetadataPrefix) (request : Request)
    (handle : E → (command : Command Table) → Reply command × E) (s : E) :
    let exchange := ((request.handler cfg metadata).run (recording handle) (s,[])).2.2
    exchange.countP (isResponse metadata ·.1) =
      if exchange.any (fun entry => request.givesUp cfg entry.1 entry.2) then 0 else 1 := by
  have handles : Handles cfg metadata request (request.handler cfg metadata) := request.handles
  obtain ⟨added,record,counted⟩ := handles.count_run handle (s,[])
  rw [List.append_nil] at record
  simpa only [record] using counted

def leaving : Config := { ChatRooms.plainConfig with decodeLeaveRoom := fun _ => some ⟨7⟩ }

/-- Redis answers each time as it is told, everything else succeeds. -/
def answering (reply : Except ErrorCode RedisReply) :
    (command : Command Table) → Reply command × Except ErrorCode RedisReply
  | .redis .. => (reply,reply)
  | command => (ChatRooms.succeeding command,reply)

/-- While Redis fails, nobody who leaves a room gets an answer. -/
theorem leave_unanswered : ∃ route ∈ routes leaving,
    let ended := (route.2 ⟨{},2005,[]⟩).run (recording answering) (.error .adapterError,[])
    ended.1 = .returned (.error .adapterError) ∧ ended.2.2.countP (isResponse {} ·.1) = 0 :=
  ⟨(MsgIds.leaveRoomRequest,kafkaRoute leaving.decodeLeaveRoom (onLeaveRoom leaving)),by simp [routes],rfl,rfl⟩

end ApexPipeline.ChatService
