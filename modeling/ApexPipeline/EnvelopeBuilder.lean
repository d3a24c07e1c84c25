import ApexPipeline.BumpAllocator
import ApexPipeline.ByteMemory
import ApexPipeline.KafkaEnvelope

/-! `envelope_builder.cpp`: the second encoder of the envelope, in place and without a copy of
the payload. The clock that `serialize_into` reads is a parameter. -/
namespace ApexPipeline
open ByteOrder WireHeader KafkaEnvelope ByteMemory List

structure EnvelopeBuilder where
  msgId : UInt32 := 0
  flags : UInt16 := 0
  coreId : UInt16 := 0
  corrId : UInt64 := 0
  sourceId : UInt16 := 0
  sessionId : UInt64 := 0
  userId : UInt64 := 0
  topic : List UInt8 := []
  body : List UInt8 := []
  deriving DecidableEq, Repr

namespace EnvelopeBuilder

def routing (b : EnvelopeBuilder) (msgId : UInt32) (flags : UInt16) : EnvelopeBuilder :=
  { b with msgId, flags }

def metadata (b : EnvelopeBuilder) (coreId : UInt16) (corrId : UInt64) (sourceId : UInt16)
    (sessionId userId : UInt64) : EnvelopeBuilder :=
  { b with coreId, corrId, sourceId, sessionId, userId }

def replyTopic (b : EnvelopeBuilder) (topic : List UInt8) : EnvelopeBuilder := { b with topic }

def payload (b : EnvelopeBuilder) (data : List UInt8) : EnvelopeBuilder := { b with body := data }

def totalSize (b : EnvelopeBuilder) : Nat :=
  let size := envelopeHeaderSize
  let size := if b.topic ≠ [] ∧ b.topic.length ≤ 65535 then size + (2 + b.topic.length) else size
  size + b.body.length

/-- Writes to the memory at `buf`; the headers are serialized through spans of it. -/
def serializeInto (b : EnvelopeBuilder) (timestamp : UInt64) (memory : ByteMemory) (buf : Nat) : ByteMemory :=
  let rh : RoutingHeader := {
    msgId := b.msgId
    flags := if b.topic ≠ [] ∧ b.topic.length ≤ 65535 then b.flags ||| hasReplyTopic
      else b.flags &&& ~~~hasReplyTopic }
  let mp : MetadataPrefix := {
    coreId := b.coreId, corrId := b.corrId, sourceId := b.sourceId, sessionId := b.sessionId
    userId := b.userId, timestamp }
  let offset := 0
  let memory := memory.write (buf + offset) (rh.serializeInto (memory.read (buf + offset) RoutingHeader.size))
  let offset := offset + RoutingHeader.size
  let memory := memory.write (buf + offset) (mp.serializeInto (memory.read (buf + offset) MetadataPrefix.size))
  let offset := offset + MetadataPrefix.size
  let (memory,offset) : ByteMemory × Nat :=
    if b.topic ≠ [] ∧ b.topic.length ≤ 65535 then
      let len := UInt16.ofNat b.topic.length
      let memory := memory.write (buf + offset) (littleEndian 2 (hton16 len))
      let offset := offset + 2
      (memory.write (buf + offset) (b.topic.take len.toNat),offset + len.toNat)
    else (memory,offset)
  if b.body ≠ [] then memory.write (buf + offset) b.body else memory

def build (b : EnvelopeBuilder) (timestamp : UInt64) : List UInt8 :=
  let size := b.totalSize
  ByteMemory.read (b.serializeInto timestamp .zeroed 0) 0 size

/-- The span of the envelope in the chunk of the allocator; an empty one when it is full. -/
def buildInto (b : EnvelopeBuilder) (timestamp : UInt64) (alloc : BumpAllocator) (memory : ByteMemory) :
    Option (Nat × Nat) × BumpAllocator × ByteMemory :=
  let size := b.totalSize
  match alloc.allocate size 1 with
  | (none,alloc) => (none,alloc,memory)
  | (some buf,alloc) => (some (buf,size),alloc,b.serializeInto timestamp memory buf)

def header (b : EnvelopeBuilder) : RoutingHeader := { msgId := b.msgId, flags := b.flags }

def attributes (b : EnvelopeBuilder) (timestamp : UInt64) : MetadataPrefix where
  coreId := b.coreId
  corrId := b.corrId
  sourceId := b.sourceId
  sessionId := b.sessionId
  userId := b.userId
  timestamp := timestamp

theorem carried_iff (topic : List UInt8) : topic ≠ [] ∧ topic.length ≤ 65535 ↔ Carried topic :=
  and_congr_left fun _ => length_pos_iff.symm

section
variable (b : EnvelopeBuilder) (timestamp : UInt64)

theorem totalSize_eq :
    b.totalSize = (buildFullEnvelope b.header (b.attributes timestamp) b.topic b.body).length := by
  rw [buildFullEnvelope_eq]
  simp only [totalSize,carried_iff,topicSection,length_append,RoutingHeader.serialize_length,
    MetadataPrefix.serialize_length]
  split
  all_goals simp [envelopeHeaderSize,RoutingHeader.size,MetadataPrefix.size]

theorem write_topic (memory : ByteMemory) {address next : Nat} {topic : List UInt8}
    (carried : Carried topic) (adjacent : next = address + 2) :
    (memory.write address (littleEndian 2 (hton16 (UInt16.ofNat topic.length)))).write next
      (topic.take (UInt16.ofNat topic.length).toNat) = memory.write address (topicSection topic) := by
  rw [store_hton16,carried.word,take_length,topicSection,if_pos carried]
  apply write_append
  rw [bigEndian_length]
  exact adjacent

theorem serializeInto_eq (memory : ByteMemory) (buf : Nat) :
    b.serializeInto timestamp memory buf =
      memory.write buf (buildFullEnvelope b.header (b.attributes timestamp) b.topic b.body) := by
  have payload (m : ByteMemory) (address : Nat) :
      (if b.body ≠ [] then m.write address b.body else m) = m.write address b.body := by
    split
    · rfl
    · rename_i empty
      rw [not_not.mp empty,write_nil]
  have headers (m : ByteMemory) (rh : RoutingHeader) (mp : MetadataPrefix) :
      (m.write buf rh.serialize).write (buf + RoutingHeader.size) mp.serialize =
        m.write buf (rh.serialize ++ mp.serialize) := by
    apply write_append
    rw [RoutingHeader.serialize_length]
    rfl
  rw [buildFullEnvelope_eq]
  simp only [serializeInto,payload,carried_iff,Nat.zero_add,Nat.add_zero,headers,
    RoutingHeader.serializeInto_serialize _ (read_length _ _ _),
    MetadataPrefix.serializeInto_serialize _ (read_length _ _ _)]
  by_cases carried : Carried b.topic
  · have last : buf + (RoutingHeader.size + MetadataPrefix.size + 2 + b.topic.length) =
        buf + (RoutingHeader.size + MetadataPrefix.size) + (topicSection b.topic).length := by
      rw [topicSection,if_pos carried,length_append,bigEndian_length]
      omega
    rw [if_pos carried]
    simp only
    rw [write_topic _ carried (Nat.add_assoc buf _ 2).symm,carried.word,last]
    rw [write_append _ b.body rfl,
      write_append _ _ (by simp [RoutingHeader.size,MetadataPrefix.size])]
    simp only [header,attributes,topicFlags,if_pos carried,append_assoc]
  · rw [if_neg carried]
    simp only
    rw [write_append _ _ (by simp [RoutingHeader.size,MetadataPrefix.size])]
    simp only [header,attributes,topicFlags,topicSection,if_neg carried,append_nil]

theorem build_eq :
    b.build timestamp = buildFullEnvelope b.header (b.attributes timestamp) b.topic b.body := by
  simp only [build,serializeInto_eq,totalSize_eq b timestamp]
  exact read_write _ 0 _

end

/-- Both encoders and the parsers agree, for every field, topic and payload: the flag is set just
when the topic is carried, and the other flags, the fields, the topic and the payload come back. -/
theorem envelopes_round_trip (msgId : UInt32) (flags coreId : UInt16) (corrId : UInt64)
    (sourceId : UInt16) (sessionId userId timestamp : UInt64) (topic body : List UInt8) :
    let metadata : MetadataPrefix := { coreId, corrId, sourceId, sessionId, userId, timestamp }
    let raw := buildFullEnvelope { flags, msgId } metadata topic body
    let builder := ((({} : EnvelopeBuilder).routing msgId flags).metadata coreId corrId sourceId
      sessionId userId).replyTopic topic |>.payload body
    (∃ parsed, RoutingHeader.parse raw = .ok parsed ∧ parsed.msgId = msgId ∧
      (parsed.flags &&& hasReplyTopic ≠ 0 ↔ 1 ≤ topic.length ∧ topic.length ≤ 65535) ∧
      parsed.flags &&& ~~~hasReplyTopic = flags &&& ~~~hasReplyTopic ∧
      extractReplyTopic parsed.flags raw = (if 1 ≤ topic.length ∧ topic.length ≤ 65535 then topic else []) ∧
      raw.drop (envelopePayloadOffset parsed.flags raw) = body) ∧
    MetadataPrefix.parse (raw.drop RoutingHeader.size) = .ok metadata ∧
    raw.length = builder.totalSize ∧ builder.build timestamp = raw ∧
    ∀ alloc memory, builder.buildInto timestamp alloc memory =
      match alloc.allocate builder.totalSize 1 with
      | (none,alloc) => (none,alloc,memory)
      | (some buf,alloc) => (some (buf,builder.totalSize),alloc,memory.write buf raw) := by
  intro metadata raw builder
  constructor
  · refine ⟨_,parse_routing { flags, msgId } metadata topic body rfl,rfl,?_,?_,?_,?_⟩
    · exact topicFlags_set flags topic
    · exact topicFlags_others flags topic
    · exact extractReplyTopic_envelope { flags, msgId } metadata topic body
    · exact payload_envelope { flags, msgId } metadata topic body
  · refine ⟨?_,(totalSize_eq builder timestamp).symm,build_eq builder timestamp,fun alloc memory => ?_⟩
    rotate_left
    · simp only [buildInto,serializeInto_eq]
      rfl
    rw [buildFullEnvelope_drop _ metadata topic body]
    exact MetadataPrefix.parse_serialize metadata rfl _

example : ((({} : EnvelopeBuilder).payload [7]).buildInto 0 (.create 64 4096) .zeroed).1 =
    some (4096,49) := by decide

end EnvelopeBuilder
end ApexPipeline
