import ApexPipeline.WireHeader

/-! `kafka_envelope.cpp` and `kafka_dispatch_bridge.cpp`: an envelope is a routing header, a metadata prefix, an
optional reply topic and the payload, with big-endian fields. -/
namespace ApexPipeline.KafkaEnvelope
open ByteOrder WireHeader List

inductive EnvelopeError where
  | insufficientData
  | unsupportedVersion
  | topicTooLong
  deriving DecidableEq, Repr

def ntoh64 (raw : Nat) : UInt64 := .ofNat (byteSwap 8 raw)
def hton64 (value : UInt64) : Nat := byteSwap 8 value.toNat

structure RoutingHeader where
  headerVersion : UInt16 := 1
  flags : UInt16 := 0
  msgId : UInt32 := 0
  deriving DecidableEq, Repr

namespace RoutingHeader

def size : Nat := 8
def currentVersion : UInt16 := 1

def offHeaderVersion : Nat := 0
def offFlags : Nat := 2
def offMsgId : Nat := 4

def parse (data : List UInt8) : Except EnvelopeError RoutingHeader :=
  if data.length < size then .error .insufficientData
  else
    let headerVersion := ntoh16 (load data offHeaderVersion 2)
    if headerVersion ≠ currentVersion then .error .unsupportedVersion
    else .ok {
      headerVersion := headerVersion
      flags := ntoh16 (load data offFlags 2)
      msgId := ntoh32 (load data offMsgId 4) }

def serializeInto (h : RoutingHeader) (out : List UInt8) : List UInt8 :=
  let out := store out offHeaderVersion (littleEndian 2 (hton16 h.headerVersion))
  let out := store out offFlags (littleEndian 2 (hton16 h.flags))
  store out offMsgId (littleEndian 4 (hton32 h.msgId))

def serialize (h : RoutingHeader) : List UInt8 := h.serializeInto (List.replicate size 0)

end RoutingHeader

/-- Also the `KafkaMessageMeta` that a handler is given: it has the same fields. -/
structure MetadataPrefix where
  metaVersion : UInt32 := 2
  coreId : UInt16 := 0
  corrId : UInt64 := 0
  sourceId : UInt16 := 0
  sessionId : UInt64 := 0
  userId : UInt64 := 0
  timestamp : UInt64 := 0
  deriving DecidableEq, Repr

namespace MetadataPrefix

def size : Nat := 40
def currentVersion : UInt32 := 2

def offMetaVersion : Nat := 0
def offCoreId : Nat := 4
def offCorrId : Nat := 6
def offSourceId : Nat := 14
def offSessionId : Nat := 16
def offUserId : Nat := 24
def offTimestamp : Nat := 32

def parse (data : List UInt8) : Except EnvelopeError MetadataPrefix :=
  if data.length < size then .error .insufficientData
  else
    let metaVersion := ntoh32 (load data offMetaVersion 4)
    if metaVersion ≠ currentVersion then .error .unsupportedVersion
    else .ok {
      metaVersion := metaVersion
      coreId := ntoh16 (load data offCoreId 2)
      corrId := ntoh64 (load data offCorrId 8)
      sourceId := ntoh16 (load data offSourceId 2)
      sessionId := ntoh64 (load data offSessionId 8)
      userId := ntoh64 (load data offUserId 8)
      timestamp := ntoh64 (load data offTimestamp 8) }

def serializeInto (m : MetadataPrefix) (out : List UInt8) : List UInt8 :=
  let out := store out offMetaVersion (littleEndian 4 (hton32 m.metaVersion))
  let out := store out offCoreId (littleEndian 2 (hton16 m.coreId))
  let out := store out offCorrId (littleEndian 8 (hton64 m.corrId))
  let out := store out offSourceId (littleEndian 2 (hton16 m.sourceId))
  let out := store out offSessionId (littleEndian 8 (hton64 m.sessionId))
  let out := store out offUserId (littleEndian 8 (hton64 m.userId))
  store out offTimestamp (littleEndian 8 (hton64 m.timestamp))

def serialize (m : MetadataPrefix) : List UInt8 := m.serializeInto (List.replicate size 0)

end MetadataPrefix

def envelopeHeaderSize : Nat := RoutingHeader.size + MetadataPrefix.size

def hasReplyTopic : UInt16 := 0x0800

/-- The topic, and how many bytes its section takes. -/
def ReplyTopicHeader.parse (data : List UInt8) : Except EnvelopeError (List UInt8 × Nat) :=
  if data.length < 2 then .error .insufficientData
  else
    let len := (ntoh16 (load data 0 2)).toNat
    let total := 2 + len
    if data.length < total then .error .insufficientData
    else .ok ((data.drop 2).take len,total)

def ReplyTopicHeader.serialize (replyTopic : List UInt8) : Except EnvelopeError (List UInt8) :=
  if replyTopic = [] then .ok []
  else if replyTopic.length > 65535 then .error .topicTooLong
  else
    let len := UInt16.ofNat replyTopic.length
    let buf := List.replicate (2 + len.toNat) 0
    let buf := store buf 0 (littleEndian 2 (hton16 len))
    .ok (store buf 2 (replyTopic.take len.toNat))

/-- The flag follows the topic, whatever the caller passed; a topic that is too long is left out. -/
def buildFullEnvelope (routing : RoutingHeader) (metadata : MetadataPrefix)
    (replyTopic payload : List UInt8) : List UInt8 :=
  let rh : RoutingHeader :=
    if replyTopic ≠ [] then { routing with flags := routing.flags ||| hasReplyTopic }
    else { routing with flags := routing.flags &&& ~~~hasReplyTopic }
  let (rh,replyBytes) : RoutingHeader × List UInt8 :=
    match ReplyTopicHeader.serialize replyTopic with
    | .ok bytes => (rh,bytes)
    | .error _ => ({ rh with flags := rh.flags &&& ~~~hasReplyTopic },[])
  rh.serialize ++ metadata.serialize ++ replyBytes ++ payload

/-- A reply topic that does not parse is not skipped. -/
def envelopePayloadOffset (flags : UInt16) (data : List UInt8) : Nat :=
  let offset := envelopeHeaderSize
  if flags &&& hasReplyTopic ≠ 0 ∧ data.length ≥ offset + 2 then
    match ReplyTopicHeader.parse (data.drop offset) with
    | .ok (_,taken) => offset + taken
    | .error _ => offset
  else offset

def extractReplyTopic (flags : UInt16) (data : List UInt8) : List UInt8 :=
  if flags &&& hasReplyTopic = 0 then []
  else if data.length < envelopeHeaderSize + 2 then []
  else
    match ReplyTopicHeader.parse (data.drop envelopeHeaderSize) with
    | .ok (topic,_) => topic
    | .error _ => []

structure Invocation where
  metadata : MetadataPrefix
  msgId : UInt32
  payload : List UInt8
  deriving DecidableEq, Repr

/-- `KafkaDispatchBridge::dispatch` up to the call of the handler; `handlers` are the ids of
the handler map. -/
def dispatch (handlers : List UInt32) (raw : List UInt8) : Except ErrorCode Invocation :=
  if raw.length < envelopeHeaderSize then .error .parseFailed
  else
    match RoutingHeader.parse raw with
    | .error _ => .error .parseFailed
    | .ok routing =>
      match MetadataPrefix.parse (raw.drop RoutingHeader.size) with
      | .error _ => .error .parseFailed
      | .ok metadata =>
        let offset := envelopePayloadOffset routing.flags raw
        let payload := if offset < raw.length then raw.drop offset else []
        if routing.msgId ∈ handlers then .ok ⟨metadata,routing.msgId,payload⟩
        else .error .handlerNotFound

variable {data : List UInt8} {offset : Nat}

theorem byteSwap_load {width value : Nat}
    (field : (data.drop offset).take width = bigEndian width value) (bound : value < 256 ^ width) :
    byteSwap width (load data offset width) = value := by
  have swapped := byteSwap_ofLittleEndian (bigEndian width value)
  rw [bigEndian_length] at swapped
  rw [load,field,swapped]
  exact ofBigEndian_bigEndian bound

theorem ntoh16_field {value : UInt16}
    (field : (data.drop offset).take 2 = bigEndian 2 value.toNat) : ntoh16 (load data offset 2) = value := by
  rw [ntoh16,byteSwap_load field value.toNat_lt,UInt16.ofNat_toNat]

theorem ntoh32_field {value : UInt32}
    (field : (data.drop offset).take 4 = bigEndian 4 value.toNat) : ntoh32 (load data offset 4) = value := by
  rw [ntoh32,byteSwap_load field value.toNat_lt,UInt32.ofNat_toNat]

theorem ntoh64_field {value : UInt64}
    (field : (data.drop offset).take 8 = bigEndian 8 value.toNat) : ntoh64 (load data offset 8) = value := by
  rw [ntoh64,byteSwap_load field value.toNat_lt,UInt64.ofNat_toNat]

theorem store_hton64 (value : UInt64) :
    littleEndian 8 (hton64 value) = bigEndian 8 value.toNat := littleEndian_byteSwap 8 _

theorem store_next (fields out bytes : List UInt8) (offset : Nat) (behind : fields.length = offset) :
    store (fields ++ out.drop offset) offset bytes = fields ++ bytes ++ out.drop (offset + bytes.length) := by
  cases behind
  simp [store,drop_append]

theorem RoutingHeader.serializeInto_eq (h : RoutingHeader) (span : out.length = size) : h.serializeInto out =
      bigEndian 2 h.headerVersion.toNat ++ bigEndian 2 h.flags.toNat ++ bigEndian 4 h.msgId.toNat := by
  have rest : out.drop 8 = [] := drop_of_length_le (Nat.le_of_eq span)
  have first := store_next [] out (bigEndian 2 h.headerVersion.toNat) 0 rfl
  simp only [nil_append,drop_zero,bigEndian_length] at first
  simp [serializeInto,offHeaderVersion,offFlags,offMsgId,store_hton32,store_hton16,first,store_next,
    rest,-append_assoc]

section
variable (m : MetadataPrefix)

theorem MetadataPrefix.serializeInto_eq (span : out.length = size) : m.serializeInto out =
      bigEndian 4 m.metaVersion.toNat ++ bigEndian 2 m.coreId.toNat ++ bigEndian 8 m.corrId.toNat ++
        bigEndian 2 m.sourceId.toNat ++ bigEndian 8 m.sessionId.toNat ++ bigEndian 8 m.userId.toNat ++
        bigEndian 8 m.timestamp.toNat := by
  have rest : out.drop 40 = [] := drop_of_length_le (Nat.le_of_eq span)
  have first := store_next [] out (bigEndian 4 m.metaVersion.toNat) 0 rfl
  simp only [nil_append,drop_zero,bigEndian_length] at first
  simp [serializeInto,offMetaVersion,offCoreId,offCorrId,offSourceId,offSessionId,offUserId,
    offTimestamp,store_hton32,store_hton16,store_hton64,first,store_next,rest,-append_assoc]

section
variable (h : RoutingHeader)

theorem RoutingHeader.serializeInto_serialize (span : out.length = size) : h.serializeInto out = h.serialize := by
  rw [serialize,serializeInto_eq h span,serializeInto_eq h length_replicate]

theorem MetadataPrefix.serializeInto_serialize (span : out.length = size) : m.serializeInto out = m.serialize := by
  rw [serialize,serializeInto_eq m span,serializeInto_eq m length_replicate]

@[simp] theorem RoutingHeader.serialize_length : h.serialize.length = 8 := by
  rw [serialize,serializeInto_eq h length_replicate]
  simp

@[simp] theorem MetadataPrefix.serialize_length : m.serialize.length = 40 := by
  rw [serialize,serializeInto_eq m length_replicate]
  simp

theorem RoutingHeader.parse_serialize (current : h.headerVersion = currentVersion)
    (rest : List UInt8) : parse (h.serialize ++ rest) = .ok h := by
  have bytes : h.serialize = _ := serializeInto_eq h length_replicate
  have long : ¬(h.serialize ++ rest).length < size := by simp [size]
  have version : ntoh16 (load (h.serialize ++ rest) offHeaderVersion 2) = h.headerVersion := by
    apply ntoh16_field
    simp [bytes,offHeaderVersion]
  have flags : ntoh16 (load (h.serialize ++ rest) offFlags 2) = h.flags := by
    apply ntoh16_field
    simp [bytes,offFlags]
  have msgId : ntoh32 (load (h.serialize ++ rest) offMsgId 4) = h.msgId := by
    apply ntoh32_field
    simp [bytes,offMsgId,drop_append,drop_of_length_le]
  simp only [parse,if_neg long,version,flags,msgId,current,ne_eq,not_true_eq_false,if_false]
  rw [← current]

end

theorem MetadataPrefix.parse_serialize (current : m.metaVersion = currentVersion)
    (rest : List UInt8) : parse (m.serialize ++ rest) = .ok m := by
  have bytes : m.serialize = _ := serializeInto_eq m length_replicate
  have long : ¬(m.serialize ++ rest).length < size := by simp [size]
  have version : ntoh32 (load (m.serialize ++ rest) offMetaVersion 4) = m.metaVersion := by
    apply ntoh32_field
    simp [bytes,offMetaVersion]
  have halves : ntoh16 (load (m.serialize ++ rest) offCoreId 2) = m.coreId ∧
      ntoh16 (load (m.serialize ++ rest) offSourceId 2) = m.sourceId := by
    constructor <;> apply ntoh16_field <;>
      simp [bytes,offCoreId,offSourceId,drop_append,drop_of_length_le]
  have words : ntoh64 (load (m.serialize ++ rest) offCorrId 8) = m.corrId ∧
      ntoh64 (load (m.serialize ++ rest) offSessionId 8) = m.sessionId ∧
      ntoh64 (load (m.serialize ++ rest) offUserId 8) = m.userId ∧
      ntoh64 (load (m.serialize ++ rest) offTimestamp 8) = m.timestamp := by
    refine ⟨?_,?_,?_,?_⟩ <;> apply ntoh64_field <;>
      simp [bytes,offCorrId,offSessionId,offUserId,offTimestamp,drop_append,drop_of_length_le]
  simp only [parse,if_neg long,version,halves,words,current,ne_eq,not_true_eq_false,if_false]
  rw [← current]

end

/-- A topic that the envelope has room for: the length field has 16 bits. -/
def Carried (topic : List UInt8) : Prop := 1 ≤ topic.length ∧ topic.length ≤ 65535

instance (topic : List UInt8) : Decidable (Carried topic) := inferInstanceAs (Decidable (_ ∧ _))

theorem Carried.word (carried : Carried topic) : (UInt16.ofNat topic.length).toNat = topic.length := by
  rw [UInt16.toNat_ofNat']
  exact Nat.mod_eq_of_lt (Nat.lt_succ_of_le carried.2)

def topicFlags (flags : UInt16) (topic : List UInt8) : UInt16 :=
  if Carried topic then flags ||| hasReplyTopic else flags &&& ~~~hasReplyTopic

def topicSection (topic : List UInt8) : List UInt8 :=
  if Carried topic then bigEndian 2 topic.length ++ topic else []

section
variable (flags flag : UInt16)

theorem or_and_not : (flags ||| flag) &&& ~~~flag = flags &&& ~~~flag := by
  apply UInt16.toBitVec_inj.mp
  ext i
  simp only [UInt16.toBitVec_and,UInt16.toBitVec_or,UInt16.toBitVec_not,BitVec.getElem_and,
    BitVec.getElem_or,BitVec.getElem_not]
  cases flags.toBitVec[i] <;> cases flag.toBitVec[i] <;> rfl

theorem or_and_same : (flags ||| flag) &&& flag = flag := by
  apply UInt16.toBitVec_inj.mp
  ext i
  simp only [UInt16.toBitVec_and,UInt16.toBitVec_or,BitVec.getElem_and,BitVec.getElem_or]
  cases flags.toBitVec[i] <;> cases flag.toBitVec[i] <;> rfl

theorem and_not_and : (flags &&& ~~~flag) &&& flag = 0 := by
  apply UInt16.toBitVec_inj.mp
  ext i
  simp only [UInt16.toBitVec_and,UInt16.toBitVec_not,BitVec.getElem_and,BitVec.getElem_not,
    UInt16.toBitVec_zero,BitVec.getElem_zero]
  cases flags.toBitVec[i] <;> cases flag.toBitVec[i] <;> rfl

end

section
variable (flags : UInt16) (topic : List UInt8)

theorem topicFlags_set :
    topicFlags flags topic &&& hasReplyTopic ≠ 0 ↔ Carried topic := by
  unfold topicFlags
  split
  · rename_i carried
    rw [or_and_same]
    exact iff_of_true (by decide) carried
  · rename_i absent
    rw [and_not_and]
    exact iff_of_false (fun set => set rfl) absent

theorem topicFlags_others :
    topicFlags flags topic &&& ~~~hasReplyTopic = flags &&& ~~~hasReplyTopic := by
  unfold topicFlags
  split
  · exact or_and_not flags hasReplyTopic
  · rw [UInt16.and_assoc,UInt16.and_self]

end

theorem ReplyTopicHeader.serialize_carried (carried : Carried topic) :
    serialize topic = .ok (topicSection topic) := by
  have some' : topic ≠ [] := length_pos_iff.mp carried.1
  have short : ¬topic.length > 65535 := Nat.not_lt.mpr carried.2
  simp only [serialize,if_neg some',if_neg short,store_hton16,carried.word,take_length]
  simp [store,topicSection,carried]

theorem buildFullEnvelope_eq (routing : RoutingHeader) (metadata : MetadataPrefix) (topic payload : List UInt8) :
    buildFullEnvelope routing metadata topic payload =
      { routing with flags := topicFlags routing.flags topic : RoutingHeader }.serialize ++
        metadata.serialize ++ topicSection topic ++ payload := by
  unfold buildFullEnvelope
  by_cases carried : Carried topic
  · have some' : topic ≠ [] := length_pos_iff.mp carried.1
    rw [ReplyTopicHeader.serialize_carried carried]
    simp only [if_pos some',topicFlags,if_pos carried]
  by_cases empty : topic = []
  · simp [empty,ReplyTopicHeader.serialize,topicFlags,topicSection,Carried]
  have positive := length_pos_iff.mpr empty
  have long : topic.length > 65535 := by
    by_contra short
    exact carried ⟨positive,Nat.not_lt.mp short⟩
  simp [ReplyTopicHeader.serialize,empty,long,topicFlags,topicSection,carried,or_and_not]

theorem ReplyTopicHeader.parse_section (rest : List UInt8) (carried : Carried topic) :
    parse (topicSection topic ++ rest) = .ok (topic,2 + topic.length) := by
  have read : ntoh16 (load (topicSection topic ++ rest) 0 2) = UInt16.ofNat topic.length := by
    apply ntoh16_field
    rw [carried.word]
    simp [topicSection,carried]
  have whole : ¬(topicSection topic ++ rest).length < 2 + topic.length := by
    simp [topicSection,carried]
  have long : ¬(topicSection topic ++ rest).length < 2 := fun below => whole (by omega)
  simp only [parse,read,carried.word,if_neg whole,if_neg long]
  simp [topicSection,carried]

/-- Where the payload starts behind a reply topic that is complete. -/
def headerEnd (flags : UInt16) (raw : List UInt8) : Nat :=
  if flags &&& hasReplyTopic = 0 then envelopeHeaderSize
  else envelopeHeaderSize + (2 + (ntoh16 (load (raw.drop envelopeHeaderSize) 0 2)).toNat)

/-- The payload of a message that has both headers and all of the reply topic it announces. -/
def payload? (raw : List UInt8) : Option (List UInt8) :=
  let stop := headerEnd (ntoh16 (load raw RoutingHeader.offFlags 2)) raw
  if raw.length < stop then none else some (raw.drop stop)

section
variable (flags : UInt16) (headers : envelopeHeaderSize ≤ data.length)
include headers

theorem envelopePayloadOffset_eq :
    envelopePayloadOffset flags data =
      if data.length < headerEnd flags data then envelopeHeaderSize else headerEnd flags data := by
  by_cases absent : flags &&& hasReplyTopic = 0
  · simp [envelopePayloadOffset,headerEnd,absent]
  simp only [envelopePayloadOffset,headerEnd,ReplyTopicHeader.parse,length_drop,absent,
    if_false,ne_eq,not_false_eq_true,true_and]
  by_cases short : data.length < envelopeHeaderSize + 2
  · rw [if_neg (by omega),if_pos (by omega)]
  rw [if_pos (by omega),if_neg (by omega)]
  split
  · rename_i parsed
    split at parsed <;> cases parsed
    rw [if_neg (by omega)]
  · rename_i parsed
    split at parsed
    · rw [if_pos (by omega)]
    · cases parsed

theorem envelopePayloadOffset_le : envelopePayloadOffset flags data ≤ data.length := by
  rw [envelopePayloadOffset_eq flags headers]
  split <;> omega

end

theorem RoutingHeader.parse_flags (parsed : parse data = .ok routing) :
    routing.flags = ntoh16 (load data offFlags 2) := by
  simp only [parse] at parsed
  split at parsed
  · cases parsed
  split at parsed <;> cases parsed
  rfl

theorem dispatch_payload (dispatched : dispatch handlers raw = .ok invocation) :
    envelopeHeaderSize ≤ raw.length ∧ invocation.payload =
      raw.drop (envelopePayloadOffset (ntoh16 (load raw RoutingHeader.offFlags 2)) raw) := by
  simp only [dispatch] at dispatched
  split at dispatched
  · cases dispatched
  rename_i long
  split at dispatched
  · cases dispatched
  rename_i routing parsed
  split at dispatched
  · cases dispatched
  split at dispatched <;> cases dispatched
  refine ⟨Nat.not_lt.mp long,?_⟩
  rw [RoutingHeader.parse_flags parsed]
  split
  · rfl
  · exact (drop_eq_nil_of_le (Nat.not_lt.mp ‹_›)).symm

/-- A message that is long enough for the headers has all of the reply topic it announces. -/
def Complete (raw : List UInt8) : Prop := envelopeHeaderSize ≤ raw.length → payload? raw ≠ none

theorem payload?_iff (headers : envelopeHeaderSize ≤ raw.length) : payload? raw =
    some (raw.drop (envelopePayloadOffset (ntoh16 (load raw RoutingHeader.offFlags 2)) raw)) ↔ Complete raw := by
  refine ⟨fun handed _ => handed ▸ nofun,fun whole => ?_⟩
  have some' := whole headers
  rw [envelopePayloadOffset_eq _ headers]
  simp only [payload?] at some' ⊢
  split at some'
  · exact absurd rfl some'
  · rename_i long
    simp only [long,if_false]

section
variable (flags : UInt16) (topic payload : List UInt8)

theorem extractReplyTopic_section (headers : front.length = envelopeHeaderSize) :
    extractReplyTopic (topicFlags flags topic) (front ++ (topicSection topic ++ payload)) =
      if Carried topic then topic else [] := by
  have behind : (front ++ (topicSection topic ++ payload)).drop envelopeHeaderSize =
      topicSection topic ++ payload := drop_left' headers
  have set := topicFlags_set flags topic
  unfold extractReplyTopic
  rw [behind]
  by_cases carried : Carried topic
  · have long : ¬(front ++ (topicSection topic ++ payload)).length < envelopeHeaderSize + 2 := by
      simp only [topicSection,if_pos carried,length_append,bigEndian_length,headers]
      omega
    rw [if_neg (set.mpr carried),if_neg long,ReplyTopicHeader.parse_section payload carried,if_pos carried]
  · rw [if_pos (not_not.mp (fun there => carried (set.mp there))),if_neg carried]

theorem payload_section (headers : front.length = envelopeHeaderSize) :
    (front ++ (topicSection topic ++ payload)).drop
      (envelopePayloadOffset (topicFlags flags topic) (front ++ (topicSection topic ++ payload))) =
      payload := by
  have behind : (front ++ (topicSection topic ++ payload)).drop envelopeHeaderSize =
      topicSection topic ++ payload := drop_left' headers
  have set := topicFlags_set flags topic
  by_cases carried : Carried topic
  · have long : (front ++ (topicSection topic ++ payload)).length ≥ envelopeHeaderSize + 2 := by
      simp [headers,topicSection,carried]
    have offset : envelopePayloadOffset (topicFlags flags topic)
        (front ++ (topicSection topic ++ payload)) = envelopeHeaderSize + (2 + topic.length) := by
      simp only [envelopePayloadOffset,behind,ReplyTopicHeader.parse_section payload carried]
      exact if_pos ⟨set.mpr carried,long⟩
    rw [offset,← drop_drop,behind]
    simp [topicSection,carried,drop_append]
  · have offset : envelopePayloadOffset (topicFlags flags topic)
        (front ++ (topicSection topic ++ payload)) = envelopeHeaderSize := by
      exact if_neg (fun there => carried (set.mp there.1))
    rw [offset,behind]
    simp [topicSection,carried]

end

section Parsed
variable (routing : RoutingHeader) (metadata : MetadataPrefix) (topic payload : List UInt8)

theorem buildFullEnvelope_drop : (buildFullEnvelope routing metadata topic payload).drop RoutingHeader.size =
    metadata.serialize ++ (topicSection topic ++ payload) := by
  have size := RoutingHeader.serialize_length
    { routing with flags := topicFlags routing.flags topic : RoutingHeader }
  rw [buildFullEnvelope_eq,append_assoc,append_assoc]
  exact drop_left' size

theorem parse_routing (current : routing.headerVersion = RoutingHeader.currentVersion) :
    RoutingHeader.parse (buildFullEnvelope routing metadata topic payload) =
      .ok { routing with flags := topicFlags routing.flags topic } := by
  rw [buildFullEnvelope_eq,append_assoc,append_assoc]
  apply RoutingHeader.parse_serialize
  exact current

theorem extractReplyTopic_envelope :
    extractReplyTopic (topicFlags routing.flags topic) (buildFullEnvelope routing metadata topic payload) =
      if Carried topic then topic else [] := by
  rw [buildFullEnvelope_eq,append_assoc]
  apply extractReplyTopic_section
  simp [envelopeHeaderSize,RoutingHeader.size,MetadataPrefix.size]

theorem payload_envelope : (buildFullEnvelope routing metadata topic payload).drop
      (envelopePayloadOffset (topicFlags routing.flags topic)
        (buildFullEnvelope routing metadata topic payload)) = payload := by
  rw [buildFullEnvelope_eq,append_assoc]
  apply payload_section
  simp [envelopeHeaderSize,RoutingHeader.size,MetadataPrefix.size]

end Parsed

end ApexPipeline.KafkaEnvelope
