import ApexPipeline.GatewayPush
import ApexPipeline.Whispers

/-! Where the address of a whisper comes from, and who is behind it when the whisper is written. Every address that
Redis holds, a handler has read or a message names was stored by a request of its user through the session; who uses
the session later is another matter. -/
namespace ApexPipeline.Whispers
open Execution Service Coroutine KafkaEnvelope Gateway Option List Event Function
open ChatService (SessionCore parseSessionCore safeParseU64)
open AuthService.SessionStore (userKey address)

theorem userOf_userKey (user : UInt64) : userOf (userKey user) = some user := by
  have front : (ascii "session:user:").isPrefixOf (userKey user) = true :=
    isPrefixOf_iff_prefix.mpr (prefix_append _ _)
  have number := fromChars_decimal user [] (by simp)
  rw [append_nil] at number
  rw [userOf,if_pos front,userKey,drop_left,number]

theorem userKey_ne (user : UInt64) (rest : Bytes) (letter : front.head?.any (· ≠ 115) = true) :
    userKey user ≠ front ++ rest := by
  intro same
  have here : (userKey user).head? = some 115 := rfl
  cases front with
  | nil => cases letter
  | cons byte later =>
    rw [same] at here
    cases here
    cases letter

theorem parse_address (a : SessionCore) : parseSessionCore (address a.sessionId a.coreId) = .ok a := by
  have text : address a.sessionId a.coreId = decimal a.sessionId.toNat ++ (58 :: decimal a.coreId.toNat) := by
    simp only [address,append_assoc]
    rfl
  have none' : (58 : UInt8) ∉ decimal a.sessionId.toNat := by
    intro member
    have digit := isDigit_decimal member
    cases digit
  have colon : (decimal a.sessionId.toNat ++ (58 :: decimal a.coreId.toNat)).idxOf 58 =
      (decimal a.sessionId.toNat).length := by
    rw [idxOf_append_of_notMem none',idxOf_cons_self,Nat.add_zero]
  have inside : (decimal a.sessionId.toNat).length ≠
      (decimal a.sessionId.toNat ++ (58 :: decimal a.coreId.toNat)).length := by
    simp
  have session : fromChars (decimal a.sessionId.toNat) = some a.sessionId := by
    have number := fromChars_decimal a.sessionId [] (by simp)
    rw [append_nil] at number
    exact number
  have core : fromChars (decimal a.coreId.toNat) = some a.coreId.toUInt64 := by
    have number := fromChars_decimal a.coreId.toUInt64 [] (by simp)
    rw [append_nil,UInt16.toNat_toUInt64] at number
    exact number
  have rest : (decimal a.sessionId.toNat ++ (58 :: decimal a.coreId.toNat)).drop
      ((decimal a.sessionId.toNat).length + 1) = decimal a.coreId.toNat := by
    rw [drop_append]
    simp
  simp only [parseSessionCore,text,colon,if_neg inside,take_left,rest,safeParseU64,session,core]
  simp

section Redis
variable {stored more : List (UInt64 × SessionCore)} {store : Bytes → Option Bytes}

def Mapped (stored : List (UInt64 × SessionCore)) (store : Bytes → Option Bytes) : Prop :=
  ∀ user value, store (userKey user) = some value → ∃ a, value = address a.sessionId a.coreId ∧ (user,a) ∈ stored

def Backed (stored : List (UInt64 × SessionCore)) (arguments : List Bytes) : Prop :=
  ∀ user ttl value, arguments = [ascii "SETEX",userKey user,ttl,value] →
    ∃ a, value = address a.sessionId a.coreId ∧ (user,a) ∈ stored

theorem Mapped.mono (mapped : Mapped stored store) (grows : stored ⊆ more) : Mapped more store := by
  intro user value there
  obtain ⟨a,same,member⟩ := mapped user value there
  exact ⟨a,same,grows member⟩

theorem Backed.mono (backed : Backed stored arguments) (grows : stored ⊆ more) : Backed more arguments := by
  intro user ttl value stores
  obtain ⟨a,same,member⟩ := backed user ttl value stores
  exact ⟨a,same,grows member⟩

theorem Mapped.erase (mapped : Mapped stored store) (key : Bytes) :
    Mapped stored (update store key none) := by
  intro user value there
  by_cases same : userKey user = key
  · rw [same,update_self] at there
    cases there
  · rw [update_of_ne same] at there
    exact mapped user value there

theorem Mapped.execute (mapped : Mapped stored store)
    (backed : Backed stored arguments) : Mapped stored (execute store arguments).1 := by
  simp only [Whispers.execute]
  split
  · split
    · split <;> exact mapped
    · split
      · exact mapped.erase _
      · exact mapped
  · rename_i verb key ttl new
    split
    · rename_i setex
      intro user value there
      by_cases same : userKey user = key
      · cases same
        simp only [update_self] at there
        cases there
        exact backed user ttl _ (by rw [setex])
      · simp only [update_of_ne same] at there
        exact mapped user value there
    · exact mapped
  · exact mapped

def Known (stored : List (UInt64 × SessionCore)) (user : UInt64) (reply : Except ErrorCode RedisReply) : Prop :=
  ∀ r a, reply = .ok r → r.type ≠ .nil → parseSessionCore r.str = .ok a → (user,a) ∈ stored

def Allows (stored : List (UInt64 × SessionCore)) : (command : Command T) → Reply command → Prop
  | .redis _ arguments, reply => ∀ user, arguments = [ascii "GET",userKey user] → Known stored user reply
  | _, _ => True

theorem known_errorReply (user : UInt64) : Known stored user (.ok errorReply) := by
  intro r a same _ parsed
  cases same
  cases parsed

theorem Mapped.known {w : World} (mapped : Mapped stored w.store) (fate : Fate) (user : UInt64) :
    Known stored user (w.redis fate [ascii "GET",userKey user]).1 := by
  cases fate with
  | executed =>
    intro r a same present parsed
    simp only [World.redis,Whispers.execute,if_true] at same
    cases found : w.store (userKey user) with
    | none =>
      rw [found] at same
      cases same
      exact absurd rfl present
    | some value =>
      rw [found] at same
      cases same
      obtain ⟨b,text,member⟩ := mapped user value found
      simp only [text,parse_address] at parsed
      cases parsed
      exact member
  | rejected => exact known_errorReply user
  | refused | lost => exact nofun

end Redis

/-- A command of the auth service stores no address but that of the request. -/
def Stores (a : SessionCore) : Command AuthService.Table → Prop
  | .redis _ arguments => ∀ user ttl value, arguments = [ascii "SETEX",userKey user,ttl,value] →
      value = address a.sessionId a.coreId
  | _ => True

section Auth
open AuthService

variable (setup : Setup) (metadata : MetadataPrefix)

theorem stores_covers :
    Covers setup.auth metadata (Stores ⟨metadata.sessionId,metadata.coreId⟩) where
  plain {command} plain := by cases command <;> trivial
  responds _ _ _ := trivial
  session _ _ _ other ttl value same := by
    have key := (cons.inj (cons.inj same).2).1
    rw [SessionStore.sessionKey,setup.sessionPrefix] at key
    exact absurd key.symm (userKey_ne other _ (by decide))
  place _ _ other ttl value same :=
    (cons.inj (cons.inj (cons.inj (cons.inj same).2).2).2).1.symm
  removes _ other ttl value same := by cases (cons.inj (cons.inj same).2).2
  blacklists _ _ other ttl value same := by
    have key := (cons.inj (cons.inj same).2).1
    rw [setup.blacklistPrefix] at key
    exact absurd key.symm (userKey_ne other _ (by decide))

end Auth

/-- A command of a whisper stores no address, and pushes to one that was stored for the target. -/
def Sends (stored : List (UInt64 × SessionCore)) (target : UInt64) : Command ChatService.Table → Prop
  | .redis _ arguments => Backed stored arguments
  | .produce _ _ (.envelope builder (.whisperMessage ..)) =>
    (target,⟨builder.sessionId,builder.coreId⟩) ∈ stored
  | _ => True

theorem onWhisper_sends (cfg : ChatService.Config) (metadata : MetadataPrefix)
    (request : ChatService.WhisperRequest) (stored : List (UInt64 × SessionCore)) :
    (ChatService.onWhisper cfg metadata request).AlwaysUnder (Allows stored)
      (Sends stored request.targetUserId) := by
  have respond (msgId : UInt32) (error : ChatService.ChatMessageError) (timestamp : UInt64) :
      (ChatService.respond cfg metadata msgId (.whisperResponse error timestamp)).AlwaysUnder
        (Allows stored) (Sends stored request.targetUserId) := ⟨trivial,fun _ _ => trivial⟩
  simp only [ChatService.onWhisper]
  split
  · exact respond _ _ _
  · exact respond _ _ _
  split
  · exact respond _ _ _
  apply AlwaysUnder.call trivial
  intro timestamp _
  have reads : Sends stored request.targetUserId
      (.redis .data [ascii "GET",ChatService.userKey request.targetUserId]) := by
    intro user ttl value same
    cases (cons.inj (cons.inj same).2).2
  apply AlwaysUnder.call reads
  intro reply allowed
  have known : Known stored request.targetUserId reply := allowed _ rfl
  split
  · exact respond _ _ _
  · rename_i r
    split
    · exact respond _ _ _
    · rename_i present
      split
      · trivial
      · rename_i target parsed
        exact ⟨known r target rfl present parsed,fun _ _ => respond _ _ _⟩

def Whispered (stored : List (UInt64 × SessionCore)) (m : Produced) : Prop :=
  ∀ user, m.addressee = some user → ∃ a, (user,a) ∈ stored ∧
    ∀ metadata, MetadataPrefix.parse ((m.bytes.drop RoutingHeader.size).take MetadataPrefix.size) = .ok metadata →
      metadata.sessionId = a.sessionId ∧ metadata.coreId = a.coreId

theorem parse_built (builder : EnvelopeBuilder) (timestamp : UInt64) :
    MetadataPrefix.parse (((builder.build timestamp).drop RoutingHeader.size).take MetadataPrefix.size) =
      .ok (builder.attributes timestamp) := by
  have front := MetadataPrefix.parse_serialize (builder.attributes timestamp) rfl []
  rw [append_nil] at front
  have size : (builder.attributes timestamp).serialize.length = MetadataPrefix.size :=
    MetadataPrefix.serialize_length _
  rw [EnvelopeBuilder.build_eq,buildFullEnvelope_drop,take_left' size]
  exact front

/-- What Redis holds, what is under way to it and what the topics hold goes back to `stored`. -/
structure Tracked (stored : List (UInt64 × SessionCore)) (w : World) : Prop where
  mapped : Mapped stored w.store
  late : ∀ arguments ∈ w.late, Backed stored arguments
  topics : ∀ m ∈ w.topics, Whispered stored m

section World
variable {stored more : List (UInt64 × SessionCore)} {w : World}

section
variable (tracked : Tracked stored w)
include tracked

theorem Tracked.mono (grows : stored ⊆ more) : Tracked more w where
  mapped := tracked.mapped.mono grows
  late arguments member := (tracked.late arguments member).mono grows
  topics m member user addressed := by
    obtain ⟨a,there,names⟩ := tracked.topics m member user addressed
    exact ⟨a,grows there,names⟩

theorem Tracked.redis (fate : Fate)
    (backed : Backed stored arguments) : Tracked stored (w.redis fate arguments).2 := by
  cases fate with
  | executed => exact ⟨tracked.mapped.execute backed,tracked.late,tracked.topics⟩
  | rejected | refused => exact tracked
  | lost =>
    refine ⟨tracked.mapped,?_,tracked.topics⟩
    exact forall_concat tracked.late backed

theorem Tracked.produce (reply : Except ErrorCode Unit)
    (whispered : Whispered stored m) : Tracked stored (w.produce reply m) := by
  cases reply with
  | error code => exact tracked
  | ok result =>
    refine ⟨tracked.mapped,tracked.late,?_⟩
    exact forall_concat tracked.topics whispered

end

variable (tracked : Tracked stored w) (encode : T → Bytes) (addressee : T → Option UInt64) (fate : Fate)
  (answer : (command : Command T) → Reply command)
include tracked

theorem Tracked.perform (command : Command T)
    (redis : ∀ adapter arguments, command = .redis adapter arguments → Backed stored arguments)
    (produce : ∀ topic key message timestamp, command = .produce topic key message →
      Whispered stored ⟨topic,message.bytes encode timestamp,addresseeOf addressee message⟩) :
    Tracked stored (w.perform encode addressee fate answer command).2 := by
  cases command with
  | redis adapter arguments =>
    rw [perform_redis]
    exact tracked.redis fate (redis adapter arguments rfl)
  | produce topic key message => exact tracked.produce _ (produce topic key message _ rfl)
  | _ => exact tracked

theorem Tracked.allows (command : Command T) :
    Allows stored command (w.perform encode addressee fate answer command).1 := by
  cases command with
  | redis adapter arguments =>
    rintro user rfl
    exact tracked.mapped.known fate user
  | _ => trivial

end World

/-- Everything that may lead a whisper to a session goes back to a request through that session. -/
structure Traced (setup : Setup) (s : System) : Prop where
  world : Tracked s.stored s.world
  inside : ∀ entry ∈ s.stored, entry.2.coreId.toNat < setup.gateway.numCores
  auth : ∀ job ∈ s.authJobs, job.coreId.toNat < setup.gateway.numCores ∧ job.rest.Always (Stores job.address)
  chat : ∀ job ∈ s.chatJobs, ∀ more, s.stored ⊆ more → job.rest.AlwaysUnder (Allows more) (Sends more job.target)
  posted : ∀ k routing sessionId raw user,.push routing sessionId raw (some user) ∈ (s.gateway.cores k).posted →
    ∃ a, (user,a) ∈ s.stored ∧ a.coreId.toNat = k ∧ a.sessionId = sessionId
  delivered : ∀ d ∈ s.delivered, ∃ a, (d.user,a) ∈ s.stored ∧ a.coreId.toNat = d.core ∧
    a.sessionId.toNat = d.session

theorem traced_start (setup : Setup) : Traced setup start where
  world := {
    mapped := fun _ _ there => by cases there
    late := fun _ member => by cases member
    topics := fun _ member => by cases member }
  inside _ member := by cases member
  auth _ member := by cases member
  chat _ member := by cases member
  posted _ _ _ _ _ member := by cases member
  delivered _ member := by cases member

variable {s : System} {setup : Setup} {g : State (Option UInt64)} {action : Action}

section
variable (traced : Traced setup s)
include traced

theorem traced_auth {command : Command AuthService.Table} {resume : Reply command → Task AuthService.Table Outcome}
    (there : s.authJobs[i]? = some job) (waits : job.rest = .await command resume) (fate : Fate)
    (answer : (command : Command AuthService.Table) → Reply command) (user : Option UInt64)
    (events : List Event) :
    Traced setup { s with
      world := (s.world.perform setup.auth.encode (fun _ => none) fate answer command).2
      authJobs := s.authJobs.set i { job with
        rest := resume (s.world.perform setup.auth.encode (fun _ => none) fate answer command).1, user }
      events
      stored := s.stored ++ (storedUser command).toList.map fun user => (user,job.address) } := by
  obtain ⟨core,always⟩ := traced.auth job (mem_of_getElem? there)
  rw [waits] at always
  have grows : s.stored ⊆ s.stored ++ (storedUser command).toList.map fun user => (user,job.address) :=
    subset_append_left _ _
  constructor
  · apply (traced.world.mono grows).perform
    · rintro adapter arguments rfl user ttl value same
      refine ⟨job.address,always.1 user ttl value same,mem_append_right _ ?_⟩
      have recorded : storedUser (.redis adapter arguments : Command AuthService.Table) = some user := by
        rw [same]
        exact userOf_userKey user
      simp [recorded]
    · intro topic key message timestamp _ user addressed
      cases message <;> cases addressed
  · intro entry member
    rcases mem_append.mp member with old | new
    · exact traced.inside entry old
    · obtain ⟨user,_,rfl⟩ := mem_map.mp new
      exact core
  · intro other member
    rcases mem_or_eq_of_mem_set member with old | rfl
    · exact traced.auth other old
    · exact ⟨core,always.2 _⟩
  · intro other member more larger
    exact traced.chat other member more (fun entry member => larger (grows member))
  · intro k routing sessionId raw user member
    obtain ⟨a,stored,rest⟩ := traced.posted k routing sessionId raw user member
    exact ⟨a,grows stored,rest⟩
  · intro d member
    obtain ⟨a,stored,rest⟩ := traced.delivered d member
    exact ⟨a,grows stored,rest⟩

theorem traced_chat {command : Command ChatService.Table} {resume : Reply command → Task ChatService.Table Outcome}
    (there : s.chatJobs[i]? = some job) (waits : job.rest = .await command resume) (fate : Fate)
    (answer : (command : Command ChatService.Table) → Reply command) :
    Traced setup { s with
      world := (s.world.perform setup.chat.encode job.addressee fate answer command).2
      chatJobs := s.chatJobs.set i { job with
        rest := resume (s.world.perform setup.chat.encode job.addressee fate answer command).1 } } := by
  have always := traced.chat job (mem_of_getElem? there)
  rw [waits] at always
  have sends := (always s.stored (List.Subset.refl _)).1
  refine ⟨?_,traced.inside,traced.auth,?_,traced.posted,traced.delivered⟩
  · apply traced.world.perform
    · rintro adapter arguments rfl
      exact sends
    · rintro topic key message timestamp rfl user addressed
      cases message with
      | record table => cases addressed
      | envelope builder table =>
        cases table with
        | whisperMessage senderId senderName content time =>
          cases addressed
          refine ⟨_,sends,?_⟩
          intro metadata parsed
          have built := parse_built (builder.payload (setup.chat.encode
            (.whisperMessage senderId senderName content time))) timestamp
          cases parsed.symm.trans built
          exact ⟨rfl,rfl⟩
        | _ => cases addressed
  · intro other member more larger
    rcases mem_or_eq_of_mem_set member with old | rfl
    · exact traced.chat other old more larger
    · apply (always more larger).2
      exact (traced.world.mono larger).allows _ _ _ _ _

theorem traced_consume {message : Produced} (there : message ∈ s.world.topics) :
    Traced setup { s with
      gateway := receive setup.gateway s.gateway message.bytes message.addressee } := by
  refine ⟨traced.world,traced.inside,traced.auth,traced.chat,?_,traced.delivered⟩
  intro k routing sessionId raw user member
  simp only [receive] at member
  split at member
  · exact traced.posted k routing sessionId raw user member
  rename_i targets work parsed
  rcases ((post_spec targets work s.gateway).2 k).2.2 _ member with old | ⟨new,target⟩
  · exact traced.posted k routing sessionId raw user old
  obtain ⟨tag,metadata,read,_,session,named⟩ := onResponse_push parsed target new.symm
  obtain ⟨a,stored,names⟩ := traced.world.topics message there user tag.symm
  obtain ⟨sameSession,sameCore⟩ := names metadata read
  have inside := traced.inside _ stored
  rw [← sameCore] at inside
  refine ⟨a,stored,?_,?_⟩
  · rw [← sameCore]
    exact (named inside).symm
  · apply UInt64.toNat_inj.mp
    rw [← sameSession]
    exact session

end

theorem written_unpushed {next : State (Option UInt64)} (same : next.pushed = g.pushed)
    (events : List Event) : written g next events = [] := by
  simp [written,same]

theorem written_pushed {next : State (Option UInt64)} (one : next.pushed = g.pushed ++ [p]) (events : List Event) :
    written g next events =
      (if p.result = .written then p.tag.map fun user => ⟨user,p.core,p.session,events⟩ else none).toList := by
  simp only [written,one,drop_left,filterMap_cons,filterMap_nil]
  split
  · rename_i none'
    rw [none']
    rfl
  · rename_i some'
    rw [some']
    rfl

theorem mem_written {p : Pushed (Option UInt64)} {events : List Event} {d : Delivered}
    (member : d ∈ (if p.result = .written then p.tag.map fun user => ⟨user,p.core,p.session,events⟩
      else none : Option Delivered).toList) :
    p.result = .written ∧ ∃ user, p.tag = some user ∧ d = ⟨user,p.core,p.session,events⟩ := by
  split at member
  · rename_i done
    obtain ⟨user,tag,rfl⟩ := map_eq_some_iff.mp (mem_toList.mp member)
    exact ⟨done,user,tag,rfl⟩
  · cases member

theorem traced_gateway (traced : Traced setup s)
    {action : Gateway.Action (Option UInt64)} (reads : ¬action.isReceive = true)
    (moved : Gateway.step setup.gateway s.gateway action = some g) :
    Traced setup { s with gateway := g, delivered := s.delivered ++ written s.gateway g s.events } := by
  have kept (cores : ∀ k, Advance (s.gateway.cores k) (g.cores k))
      (new : ∀ d ∈ written s.gateway g s.events, ∃ a, (d.user,a) ∈ s.stored ∧
        a.coreId.toNat = d.core ∧ a.sessionId.toNat = d.session) :
      Traced setup { s with gateway := g, delivered := s.delivered ++ written s.gateway g s.events } := by
    refine ⟨traced.world,traced.inside,traced.auth,traced.chat,?_,?_⟩
    · intro k routing sessionId raw user member
      exact traced.posted k routing sessionId raw user ((cores k).posted _ member)
    · intro d member
      rcases mem_append.mp member with old | pushed
      · exact traced.delivered d old
      · exact new d pushed
  have unpushed (same : Unpushed s.gateway g) :
      Traced setup { s with gateway := g, delivered := s.delivered ++ written s.gateway g s.events } := by
    apply kept same.cores
    rw [written_unpushed same.pushed]
    intro d member
    cases member
  cases step_pushes moved reads with
  | quiet same | refused _ same => exact unpushed same
  | @recorded k place routing sessionId raw tag result there _ cores one =>
    apply kept cores
    rw [written_pushed one]
    intro d member
    obtain ⟨done,user,rfl,rfl⟩ := mem_written member
    obtain ⟨a,stored,core,session⟩ := traced.posted k routing sessionId raw user (mem_of_getElem? there)
    exact ⟨a,stored,core,by rw [session]⟩

theorem traced_step {next : System} (traced : Traced setup s)
    (steps : step setup s action = some next) : Traced setup next := by
  cases action with
  | gateway action =>
    obtain ⟨reads,g,moved,rfl⟩ := of_unless_map steps
    exact traced_gateway traced reads moved
  | request metadata request =>
    obtain ⟨named,rfl⟩ := of_guard steps
    refine ⟨traced.world,traced.inside,?_,traced.chat,traced.posted,traced.delivered⟩
    have covers := stores_covers setup metadata
    refine forall_concat traced.auth ⟨named.1,?_⟩
    cases request
    exacts [covers.onLogin _,covers.onLogout _,covers.onRefreshToken _]
  | whisper metadata request =>
    cases steps
    refine ⟨traced.world,traced.inside,traced.auth,?_,traced.posted,traced.delivered⟩
    intro job member more larger
    rcases mem_concat member with old | rfl
    · exact traced.chat job old more larger
    · exact onWhisper_sends setup.chat metadata request more
  | auth i fate answer =>
    obtain ⟨job,there,moved⟩ := bind_eq_some_iff.mp steps
    split at moved <;> cases moved
    rename_i command resume waits
    exact traced_auth traced there waits fate answer _ _
  | chat i fate answer =>
    obtain ⟨job,there,moved⟩ := bind_eq_some_iff.mp steps
    split at moved <;> cases moved
    rename_i command resume waits
    exact traced_chat traced there waits fate answer
  | late place =>
    obtain ⟨arguments,there,rfl⟩ := map_eq_some_iff.mp steps
    refine ⟨⟨?_,?_,traced.world.topics⟩,traced.inside,traced.auth,traced.chat,traced.posted,traced.delivered⟩
    · exact traced.world.mapped.execute (traced.world.late arguments (mem_of_getElem? there))
    · intro other member
      exact traced.world.late other (mem_of_mem_eraseIdx member)
  | expire key =>
    cases steps
    exact ⟨⟨traced.world.mapped.erase key,traced.world.late,traced.world.topics⟩,traced.inside,traced.auth,
      traced.chat,traced.posted,traced.delivered⟩
  | consume place =>
    obtain ⟨message,there,read⟩ := bind_eq_some_iff.mp steps
    obtain ⟨-,rfl⟩ := of_guard read
    exact traced_consume traced (mem_of_getElem? there)

section Events
variable (user : UInt64) (core session : Nat)

theorem undisturbed_cons (e : Event) (earlier : List Event) :
    undisturbed user core session (e :: earlier) = (e.enters user core session ||
      (!e.displaces user core session && undisturbed user core session earlier)) := by
  cases enters : e.enters user core session with
  | true => simp [undisturbed,enters]
  | false => cases displaces : e.displaces user core session <;> simp [undisturbed,enters,displaces]

theorem undisturbed_iff (events : List Event) :
    undisturbed user core session events = true ↔ Current user core session events := by
  induction events with
  | nil => simp [undisturbed,Current]
  | cons e earlier ih =>
    rw [undisturbed_cons]
    cases e with
    | entered other coreId sessionId =>
      by_cases here : coreId.toNat = core ∧ sessionId.toNat = session
      · by_cases same : other = user <;> simp [enters,displaces,Current,here,same]
      · simp [enters,displaces,Current,here,ih]
    | left other => simp [enters,displaces,Current,ih]

theorem current_of_settled (came : .entered user coreId sessionId ∈ events)
    (stays : ∀ e ∈ events, e.displaces user coreId.toNat sessionId.toNat = false) :
    Current user coreId.toNat sessionId.toNat events := by
  induction events with
  | nil => cases came
  | cons e earlier ih =>
    have here := stays e mem_cons_self
    have later (came : .entered user coreId sessionId ∈ earlier) :
        Current user coreId.toNat sessionId.toNat earlier :=
      ih came (fun other member => stays other (mem_cons_of_mem _ member))
    cases e with
    | left other =>
      have stayed : other ≠ user := by simpa [displaces] using here
      cases came with
      | tail _ came => exact ⟨stayed,later came⟩
    | entered other core session =>
      by_cases same : core.toNat = coreId.toNat ∧ session.toNat = sessionId.toNat
      · have only : other = user := by simpa [displaces,same] using here
        rw [Current,if_pos same]
        exact only
      rw [Current,if_neg same]
      cases came with
      | head => exact absurd ⟨rfl,rfl⟩ same
      | tail _ came => exact later came

end Events

theorem undisturbed_push {routing : RoutingHeader}
    (there : (s.gateway.cores k).posted[place]? = some (.push routing sessionId raw tag)) :
    Undisturbed s (.gateway (.handle k place)) ↔ ∀ user, tag = some user →
      (s.gateway.cores k).accepts sessionId.toNat = true → Current user k sessionId.toNat s.events := by
  simp only [Undisturbed,there,any_some,← undisturbed_iff]
  cases tag with
  | none => simp [exposes]
  | some user => cases accepts : (s.gateway.cores k).accepts sessionId.toNat <;> simp [exposes,accepts]

theorem undisturbed_quiet {action : Gateway.Action (Option UInt64)}
    (other : ∀ k place routing sessionId raw tag, action = .handle k place →
      (s.gateway.cores k).posted[place]? ≠ some (.push routing sessionId raw tag)) :
    Undisturbed s (.gateway action) := by
  cases action with
  | handle k place =>
    cases posted : (s.gateway.cores k).posted[place]? with
    | none => simp [Undisturbed,posted]
    | some work =>
      cases work with
      | response => simp [Undisturbed,posted,exposes]
      | push routing sessionId raw tag => exact absurd posted (other k place routing sessionId raw tag rfl)
  | _ => trivial

theorem undisturbed_of_settled (traced : Traced setup s) (settled : Settled s action) : Undisturbed s action := by
  cases action with
  | gateway action =>
    by_cases push : ∃ k place routing sessionId raw tag, action = .handle k place ∧
        (s.gateway.cores k).posted[place]? = some (.push routing sessionId raw tag)
    · obtain ⟨k,place,routing,sessionId,raw,tag,rfl,there⟩ := push
      apply (undisturbed_push there).mpr
      rintro user rfl _
      obtain ⟨a,stored,core,session⟩ := traced.posted k routing sessionId raw user (mem_of_getElem? there)
      obtain ⟨came,stays⟩ := settled (user,a) stored
      rw [← core,← session]
      exact current_of_settled user came stays
    · exact undisturbed_quiet fun k place routing sessionId raw tag handles there =>
        push ⟨k,place,routing,sessionId,raw,tag,handles,there⟩
  | _ => trivial

theorem private_step {next : System} (held : Private s)
    (steps : step setup s action = some next) : Private next ↔ Undisturbed s action := by
  have quiet (same : next.delivered = s.delivered) : Private next := by
    intro d member
    rw [same] at member
    exact held d member
  cases action with
  | gateway action =>
    obtain ⟨reads,g,moved,rfl⟩ := of_unless_map steps
    cases step_pushes moved reads with
    | quiet unpushed other =>
      exact iff_of_true (quiet (by simp [written_unpushed unpushed.pushed])) (undisturbed_quiet other)
    | refused there unpushed refused =>
      refine iff_of_true (quiet (by simp [written_unpushed unpushed.pushed])) ((undisturbed_push there).mpr ?_)
      intro user _ accepts
      rw [refused] at accepts
      cases accepts
    | @recorded k place routing sessionId raw tag result there _ _ one delivers =>
      rw [undisturbed_push there]
      constructor
      · intro after user tagged accepts
        apply after ⟨user,k,sessionId.toNat,s.events⟩
        simp [written_pushed one,delivers.mpr accepts,tagged]
      · intro current d member
        rcases mem_append.mp member with old | new
        · exact held d old
        · rw [written_pushed one] at new
          obtain ⟨done,user,tagged,rfl⟩ := mem_written new
          exact current user tagged (delivers.mp done)
  | request metadata request =>
    obtain ⟨_,rfl⟩ := of_guard steps
    exact iff_of_true (quiet rfl) trivial
  | whisper metadata request | expire key =>
    cases steps
    exact iff_of_true (quiet rfl) trivial
  | auth i fate answer | chat i fate answer =>
    obtain ⟨job,_,moved⟩ := bind_eq_some_iff.mp steps
    split at moved <;> cases moved
    exact iff_of_true (quiet rfl) trivial
  | late place =>
    obtain ⟨arguments,_,rfl⟩ := map_eq_some_iff.mp steps
    exact iff_of_true (quiet rfl) trivial
  | consume place =>
    obtain ⟨message,_,read⟩ := bind_eq_some_iff.mp steps
    split at read <;> cases read
    exact iff_of_true (quiet rfl) trivial

/-- Whispers stay private exactly as long as each finds its addressee undisturbed: a login or refresh of that user
through the session has been answered, and since the last one no other user has come in through it and the user has
not logged out. This is so in every run in which the sessions keep their users. In any case a request of the auth
service has stored the session as the address of the addressee. -/
theorem whispers_private_iff (setup : Setup) (schedule : List Action) (final : System)
    (runs : run (step setup) start schedule = some final) :
    (Throughout (step setup) Private start schedule ↔ Along (step setup) Undisturbed start schedule) ∧
      (Along (step setup) Settled start schedule → Throughout (step setup) Private start schedule) ∧
      ∀ d ∈ final.delivered, ∃ a, (d.user,a) ∈ final.stored ∧ a.coreId.toNat = d.core ∧
        a.sessionId.toNat = d.session := by
  have traced : Along (step setup) (fun s _ => Traced setup s) start schedule :=
    along_invariant (step setup) (Traced setup) (fun _ _ _ before steps => traced_step before steps)
      (traced_start setup) schedule
  have last : Traced setup final := run_invariant (Traced setup)
    (fun _ _ _ before steps => traced_step before steps) (traced_start setup) runs
  have exactly : Throughout (step setup) Private start schedule ↔
      Along (step setup) Undisturbed start schedule := by
    apply throughout_iff Undisturbed (fun s _ => Traced setup s) Private _ _ traced runs
    · intro s action next held _ steps
      exact private_step held steps
    · intro d member
      cases member
  refine ⟨exactly,?_,last.delivered⟩
  intro settled
  apply exactly.mpr
  exact (traced.and settled).imp (fun s action both => undisturbed_of_settled both.1 both.2)

def oneGateway : Setup where
  auth := {
    responseTopic := ascii "gateway.responses", sha256Hex := id, decodeLogin := fun _ => none
    decodeLogout := fun _ => none, decodeRefreshToken := fun _ => none, encode := fun _ => [] }
  chat := {
    responseTopic := ascii "gateway.responses", decodeCreateRoom := fun _ => none
    decodeJoinRoom := fun _ => none, decodeLeaveRoom := fun _ => none, decodeListRooms := fun _ => none
    decodeSendMessage := fun _ => none, decodeWhisper := fun _ => none
    decodeChatHistory := fun _ => none, decodeGlobalBroadcast := fun _ => none, encode := fun _ => [42] }
  gateway := ⟨1,8,5,4,fun _ _ _ => []⟩
  topic := ascii "gateway.responses"
  sessionPrefix := rfl
  blacklistPrefix := rfl

def granted (user : UInt64) : (command : Command T) → Reply command
  | .query .. | .queryAsync _ | .queryParamsAsync .. => .ok ⟨[[some (decimal user.toNat),some [],none]]⟩
  | .execute .. => .ok 1
  | .acquireConnected | .produce .. => .ok ()
  | .markPoisoned | .release | .discard => ()
  | .redis .. => .ok errorReply
  | .verifyPassword .. => true
  | .createAccessToken .. => [1]
  | .verifyAccessToken _ => .ok ⟨user,[],[]⟩
  | .remainingTtl _ => (0 : Int)
  | .generateSecureToken => .ok [2]
  | .now => (0 : UInt64)

def loginAs (job : Nat) (user : UInt64) : List Action :=
  .request { sessionId := 1 } (.login ⟨some [],some []⟩) :: List.replicate 9 (.auth job .executed (granted user))

def whisperTo (user : UInt64) : List Action :=
  .whisper { sessionId := 2, userId := 9 } ⟨user,some [104]⟩ :: List.replicate 4 (.chat 0 .executed (granted 0))

theorem whispers_private_iff_delivered :
    ∃ final, run (step oneGateway) start (.gateway (.createSession 0) :: loginAs 0 1 ++ whisperTo 1 ++
        [.consume 1,.gateway (.handle 0 0)]) = some final ∧
      final.delivered = [⟨1,0,1,[.entered 1 0 1]⟩] ∧
      Throughout (step oneGateway) Private start (.gateway (.createSession 0) :: loginAs 0 1 ++
        whisperTo 1 ++ [.consume 1,.gateway (.handle 0 0)]) := by
  refine exists_final (by decide +kernel) fun runs => ⟨by decide +kernel,?_⟩
  exact (whispers_private_iff oneGateway _ _ runs).2.1 (by decide +kernel)

/-- The first user has logged in through a session and a second one after that, without a logout; a
whisper for the first user is shown to the second one. -/
theorem whisper_reaches_next_user :
    ∃ final, run (step oneGateway) start (.gateway (.createSession 0) :: loginAs 0 1 ++ loginAs 1 2 ++
        whisperTo 1 ++ [.consume 2,.gateway (.handle 0 0)]) = some final ∧
      final.delivered = [⟨1,0,1,[.entered 2 0 1,.entered 1 0 1]⟩] ∧ ¬Private final := by
  obtain ⟨final,runs,shown⟩ : ∃ s,
      run (step oneGateway) start (.gateway (.createSession 0) :: loginAs 0 1 ++ loginAs 1 2 ++
      whisperTo 1 ++ [.consume 2,.gateway (.handle 0 0)]) = some s ∧
      s.delivered = [⟨1,0,1,[.entered 2 0 1,.entered 1 0 1]⟩] := by
    decide +kernel
  refine ⟨final,runs,shown,?_⟩
  intro held
  have current := held ⟨1,0,1,[.entered 2 0 1,.entered 1 0 1]⟩ (by simp [shown])
  cases current

end ApexPipeline.Whispers
