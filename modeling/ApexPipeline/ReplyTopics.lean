import ApexPipeline.AuthService
import ApexPipeline.ChatAnswers
import ApexPipeline.Gateway

/-! The way of a reply topic, from the envelope of a gateway to the topic of the answer. The bridge hands the
metadata to the handler and not the topic, so both services answer on their configured topic. -/
namespace ApexPipeline.Service
open KafkaEnvelope

def ToTopic (topic : Bytes) : Command T → Prop
  | .produce target _ (.envelope ..) => target = topic
  | _ => True

def answerTopic (corrId : UInt64) : Command T → Option Bytes
  | .produce topic _ (.envelope builder _) => if builder.corrId = corrId then some topic else none
  | _ => none

theorem answerTopic_toTopic {command : Command T} {topic target : Bytes}
    (produced : ToTopic topic command) (answer : answerTopic corrId command = some target) :
    target = topic := by
  cases command with
  | produce name key message =>
    cases message with
    | envelope builder table =>
      obtain ⟨_,rfl⟩ := Execution.of_guard answer
      exact produced
    | record table => cases answer
  | _ => cases answer

variable {property : Command T → Prop}

theorem dispatch_always (all : ∀ route ∈ routes, ∀ call, (route.2 call).Always property) (raw : Bytes) :
    (dispatch routes raw).Always property := by
  simp only [dispatch]
  split
  · trivial
  split
  · trivial
  · rename_i found
    exact all _ (List.mem_of_find?_eq_some found) _

theorem kafkaRoute_always {decode : Bytes → Option Q}
    {handler : MetadataPrefix → Q → Task T Outcome}
    (all : ∀ metadata request, (handler metadata request).Always property) (call : Invocation) :
    (kafkaRoute decode handler call).Always property := by
  simp only [kafkaRoute]
  split
  · trivial
  · exact all _ _

end ApexPipeline.Service

namespace ApexPipeline.AuthService
open Service Coroutine KafkaEnvelope

theorem toTopic_covers (cfg : Config) (metadata : MetadataPrefix) : Covers cfg metadata (ToTopic cfg.responseTopic) where
  plain {command} plain := by cases command <;> trivial
  responds _ _ _ := rfl
  session _ _ _ := trivial
  place _ _ := trivial
  removes _ := trivial
  blacklists _ _ := trivial

theorem routes_toTopic (cfg : Config) (raw : Bytes) : (dispatch (routes cfg) raw).Always (ToTopic cfg.responseTopic) := by
  have covers := toTopic_covers cfg
  apply dispatch_always
  simp only [routes,List.forall_mem_cons,List.not_mem_nil,false_implies,implies_true,and_true]
  exact ⟨kafkaRoute_always fun metadata => (covers metadata).onLogin,
    kafkaRoute_always fun metadata => (covers metadata).onLogout,
    kafkaRoute_always fun metadata => (covers metadata).onRefreshToken⟩

end ApexPipeline.AuthService

namespace ApexPipeline.ChatService
open Service Coroutine

theorem Handles.toTopic (handles : Handles cfg metadata request program) : program.Always (ToTopic cfg.responseTopic) := by
  induction handles with
  | @gives command resume quiet ends later ih =>
    refine ⟨?_,fun reply => ?_⟩
    · unfold ToTopic
      split
      · exact quiet.1
      · trivial
    · cases up : request.givesUp cfg command reply with
      | true =>
        obtain ⟨outcome,ended⟩ := ends reply up
        rw [ended]
        trivial
      | false => exact ih reply up
  | responds response => exact ⟨rfl,fun _ => trivial⟩

theorem routes_toTopic (cfg : Config) (raw : Bytes) : (dispatch (routes cfg) raw).Always (ToTopic cfg.responseTopic) := by
  apply dispatch_always
  simp only [routes,List.forall_mem_cons,List.not_mem_nil,false_implies,implies_true,and_true]
  exact ⟨kafkaRoute_always fun _ asked => (onCreateRoom_handles asked).toTopic,
    kafkaRoute_always fun _ asked => (onJoinRoom_handles asked).toTopic,
    kafkaRoute_always fun _ asked => (onLeaveRoom_handles asked).toTopic,
    kafkaRoute_always fun _ asked => (onListRooms_handles asked).toTopic,
    kafkaRoute_always fun _ asked => (onSendMessage_handles asked).toTopic,
    kafkaRoute_always fun _ asked => (onWhisper_handles asked).toTopic,
    kafkaRoute_always fun _ asked => (onChatHistory_handles asked).toTopic,
    kafkaRoute_always fun _ asked => (onGlobalBroadcast_handles asked).toTopic⟩

end ApexPipeline.ChatService

namespace ApexPipeline.ReplyTopics
open Service KafkaEnvelope

/-- A service that answers requests, with its configuration. -/
inductive Deployment where
  | auth (cfg : AuthService.Config)
  | chat (cfg : ChatService.Config)

namespace Deployment

def Table : Deployment → Type
  | .auth _ => AuthService.Table
  | .chat _ => ChatService.Table

def responseTopic : Deployment → Bytes
  | .auth cfg => cfg.responseTopic
  | .chat cfg => cfg.responseTopic

def dispatch : (service : Deployment) → Bytes → Task service.Table Outcome
  | .auth cfg, raw => Service.dispatch (AuthService.routes cfg) raw
  | .chat cfg, raw => Service.dispatch (ChatService.routes cfg) raw

end Deployment

def replyTopic (raw : Bytes) : Bytes :=
  match RoutingHeader.parse raw with
  | .ok routing => extractReplyTopic routing.flags raw
  | .error _ => []

def requestCorrId (raw : Bytes) : UInt64 :=
  match MetadataPrefix.parse (raw.drop RoutingHeader.size) with
  | .ok metadata => metadata.corrId
  | .error _ => 0

/-- The topics of the response envelopes with the correlation id of the request. -/
def replies (service : Deployment) (raw : Bytes)
    (answers : List ((command : Command service.Table) → Reply command)) : List Bytes :=
  ((service.dispatch raw).commands answers).filterMap (answerTopic (requestCorrId raw))

theorem dispatch_toTopic (service : Deployment) (raw : Bytes) :
    (service.dispatch raw).Always (ToTopic service.responseTopic) := by
  cases service with
  | auth cfg => exact AuthService.routes_toTopic cfg raw
  | chat cfg => exact ChatService.routes_toTopic cfg raw

theorem replies_default (raw : Bytes) (answers : List ((command : Command service.Table) → Reply command)) :
    ∀ topic ∈ replies service raw answers, topic = service.responseTopic := by
  intro topic member
  obtain ⟨command,given,answer⟩ := List.mem_filterMap.mp member
  exact answerTopic_toTopic ((dispatch_toTopic service raw).commands answers command given) answer

/-- For each request, service and course of its handler: the answers go to the reply topic, or to the configured one
where there is none, just when there are no answers or the two are the same. The envelope of a gateway asks for its
own topic. -/
theorem replies_follow_iff (service : Deployment) (raw : Bytes)
    (answers : List ((command : Command service.Table) → Reply command)) :
    ((∀ topic ∈ replies service raw answers,
        topic = if replyTopic raw = [] then service.responseTopic else replyTopic raw) ↔
      replies service raw answers = [] ∨ replyTopic raw = [] ∨ replyTopic raw = service.responseTopic) ∧
    ∀ topic header payload sessionId userId corrId coreId timestamp,
      replyTopic (Gateway.buildEnvelope topic header payload sessionId userId corrId coreId timestamp) =
        if Carried topic then topic else [] := by
  refine ⟨?_,fun topic header payload sessionId userId corrId coreId timestamp => ?_⟩
  rotate_left
  · simp only [replyTopic,Gateway.buildEnvelope]
    rw [parse_routing _ _ _ _ rfl]
    exact extractReplyTopic_envelope _ _ _ _
  have default := replies_default raw answers
  constructor
  · intro follow
    cases sent : replies service raw answers with
    | nil => exact .inl rfl
    | cons topic rest =>
      have here : topic ∈ replies service raw answers := by simp [sent]
      have asked := follow topic here
      rw [default topic here] at asked
      split at asked
      · exact .inr (.inl ‹_›)
      · exact .inr (.inr asked.symm)
  · rintro (none' | empty | same) topic member
    · rw [none'] at member
      cases member
    · rw [if_pos empty]
      exact default topic member
    · rw [default topic member,same]
      split <;> rfl

/-- The chat service as it is shipped; every whisper request it decodes is without content. -/
def shippedChat : ChatService.Config where
  decodeCreateRoom _ := none
  decodeJoinRoom _ := none
  decodeLeaveRoom _ := none
  decodeListRooms _ := none
  decodeSendMessage _ := none
  decodeWhisper _ := some ⟨7,none⟩
  decodeChatHistory _ := none
  decodeGlobalBroadcast _ := none
  encode _ := []

/-- With the topic of the gateway in its configuration the service answers where it is asked to. -/
theorem replies_follow_iff_configured :
    let raw := Gateway.buildEnvelope (ascii "gateway.responses") { msgId := 2021 } [] 1 5 1 0 0
    let service : Deployment := .chat { shippedChat with responseTopic := ascii "gateway.responses" }
    replies service raw [] ≠ [] ∧ ∀ topic ∈ replies service raw [],
      topic = if replyTopic raw = [] then service.responseTopic else replyTopic raw := by
  refine ⟨by decide +kernel,?_⟩
  apply (replies_follow_iff _ _ []).1.mpr
  exact .inr (.inr (by decide +kernel))

/-- A whisper of a gateway with its default topic is answered where no gateway reads. -/
theorem reply_topic_ignored :
    let raw := Gateway.buildEnvelope (ascii "gateway.responses") { msgId := 2021 } [] 1 5 1 0 0
    replyTopic raw = ascii "gateway.responses" ∧ replies (.chat shippedChat) raw [] = [ascii "chat.responses"] ∧
      ¬∀ topic ∈ replies (.chat shippedChat) raw [], topic = replyTopic raw := by
  decide +kernel

end ApexPipeline.ReplyTopics
