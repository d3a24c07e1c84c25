import ApexPipeline.ByteOrder

/-! The 12-byte wire header, as `wire_header.cpp` reads and writes it on its
little-endian host: each multi-byte field is copied to or from memory and swapped. -/
namespace ApexPipeline

open List

/-- The error codes of `error_code.hpp` that the functions here or the adapters they call return. -/
inductive ErrorCode where
  | unknown | invalidMessage | handlerNotFound | sessionClosed | bufferFull | timeout | flatBuffersVerifyFailed
  | unsupportedProtocolVersion | sendFailed | insufficientData | parseFailed | bodyTooLarge | serviceError
  | adapterError | poolExhausted | circuitOpen
  deriving DecidableEq, Repr

structure WireHeader where
  version : UInt8 := 2
  flags : UInt8 := 0
  msgId : UInt32 := 0
  bodySize : UInt32 := 0
  reserved : UInt16 := 0
  deriving DecidableEq, Repr

namespace WireHeader
open ByteOrder

def size : Nat := 12
def currentVersion : UInt8 := 2
def maxBodySize : Nat := 16 * 1024 * 1024

def offVersion : Nat := 0
def offFlags : Nat := 1
def offMsgId : Nat := 2
def offBodySize : Nat := 6
def offReserved : Nat := 10

/-- `memcpy` of an integer of `width` bytes out of `data`. -/
def load (data : List UInt8) (offset width : Nat) : Nat :=
  ofLittleEndian ((data.drop offset).take width)

/-- `memcpy` of `bytes` into `out`. -/
def store (out : List UInt8) (offset : Nat) (bytes : List UInt8) : List UInt8 :=
  out.take offset ++ bytes ++ out.drop (offset + bytes.length)

def ntoh16 (raw : Nat) : UInt16 := .ofNat (byteSwap 2 raw)
def ntoh32 (raw : Nat) : UInt32 := .ofNat (byteSwap 4 raw)
def hton16 (value : UInt16) : Nat := byteSwap 2 value.toNat
def hton32 (value : UInt32) : Nat := byteSwap 4 value.toNat

/-- The version is judged before any other field is read, the body size last. -/
def parse (data : List UInt8) : Except ErrorCode WireHeader :=
  if data.length < size then .error .insufficientData
  else
    let version := data[offVersion]!
    if version ≠ currentVersion then .error .unsupportedProtocolVersion
    else
      let h : WireHeader := {
        version := version
        flags := data[offFlags]!
        msgId := ntoh32 (load data offMsgId 4)
        bodySize := ntoh32 (load data offBodySize 4)
        reserved := ntoh16 (load data offReserved 2) }
      if h.bodySize.toNat > maxBodySize then .error .bodyTooLarge else .ok h

def serializeInto (h : WireHeader) (out : List UInt8) : List UInt8 :=
  let out := store out offVersion [h.version]
  let out := store out offFlags [h.flags]
  let out := store out offMsgId (littleEndian 4 (hton32 h.msgId))
  let out := store out offBodySize (littleEndian 4 (hton32 h.bodySize))
  store out offReserved (littleEndian 2 (hton16 h.reserved))

def serialize (h : WireHeader) : List UInt8 := serializeInto h (List.replicate size 0)

def frameSize (h : WireHeader) : Nat := size + h.bodySize.toNat

/-- What a peer may send: the version of this protocol and a bounded body. -/
def Acceptable (h : WireHeader) : Prop :=
  h.version = currentVersion ∧ h.bodySize.toNat ≤ maxBodySize

instance (h : WireHeader) : Decidable h.Acceptable := by
  unfold Acceptable
  infer_instance

theorem ntoh32_load (width : bytes.length = 4) : (ntoh32 (ofLittleEndian bytes)).toNat = ofBigEndian bytes := by
  have bound := ofBigEndian_lt bytes
  have swapped := byteSwap_ofLittleEndian bytes
  rw [width] at bound swapped
  rw [ntoh32,swapped,UInt32.toNat_ofNat']
  exact Nat.mod_eq_of_lt bound

theorem ntoh16_load (width : bytes.length = 2) : (ntoh16 (ofLittleEndian bytes)).toNat = ofBigEndian bytes := by
  have bound := ofBigEndian_lt bytes
  have swapped := byteSwap_ofLittleEndian bytes
  rw [width] at bound swapped
  rw [ntoh16,swapped,UInt16.toNat_ofNat']
  exact Nat.mod_eq_of_lt bound

theorem store_hton32 (value : UInt32) :
    littleEndian 4 (hton32 value) = bigEndian 4 value.toNat := littleEndian_byteSwap 4 _

theorem store_hton16 (value : UInt16) :
    littleEndian 2 (hton16 value) = bigEndian 2 value.toNat := littleEndian_byteSwap 2 _

variable (h : WireHeader)

theorem serialize_eq : serialize h =
    [h.version,h.flags] ++ bigEndian 4 h.msgId.toNat ++ bigEndian 4 h.bodySize.toNat ++
      bigEndian 2 h.reserved.toNat := by
  simp [serialize,serializeInto,store,size,offVersion,offFlags,offMsgId,offBodySize,offReserved,
    store_hton32,store_hton16,take_append,drop_append,take_of_length_le,
    drop_of_length_le]

@[simp] theorem serialize_length : (serialize h).length = 12 := by
  simp [serialize_eq]

/-- The grammar's reading of twelve bytes: every field big-endian at its offset. -/
def ofWire (data : List UInt8) : WireHeader where
  version := data[offVersion]!
  flags := data[offFlags]!
  msgId := .ofNat (ofBigEndian ((data.drop offMsgId).take 4))
  bodySize := .ofNat (ofBigEndian ((data.drop offBodySize).take 4))
  reserved := .ofNat (ofBigEndian ((data.drop offReserved).take 2))

/-- The two checks of `parse`, in its order, on a header that is already decoded. -/
def judge (h : WireHeader) : Except ErrorCode WireHeader :=
  if h.version ≠ currentVersion then .error .unsupportedProtocolVersion
  else if h.bodySize.toNat > maxBodySize then .error .bodyTooLarge
  else .ok h

theorem judge_ok (h g : WireHeader) : judge h = .ok g ↔ h = g ∧ h.Acceptable := by
  unfold judge Acceptable
  split
  · rename_i version
    simp [version]
  rename_i version
  simp only [ne_eq,not_not] at version
  split
  · rename_i large
    simp only [reduceCtorEq,false_iff,not_and]
    omega
  · rename_i small
    simp only [Except.ok.injEq,iff_self_and]
    exact fun _ => ⟨version,by omega⟩

theorem judge_never_waits : judge h ≠ .error .insufficientData := by
  unfold judge
  split
  · simp
  · split <;> simp

theorem parse_eq (long : 12 ≤ data.length) : parse data = judge (ofWire data) := by
  have word (offset : Nat) (inside : offset + 4 ≤ 12) :
      ntoh32 (load data offset 4) = .ofNat (ofBigEndian ((data.drop offset).take 4)) := by
    apply UInt32.toNat_inj.mp
    have width : ((data.drop offset).take 4).length = 4 := by simp; omega
    have bound : ofBigEndian ((data.drop offset).take 4) < 2^32 := by
      have bytes := ofBigEndian_lt ((data.drop offset).take 4)
      rw [width] at bytes
      exact bytes
    rw [load,ntoh32_load width,UInt32.toNat_ofNat',Nat.mod_eq_of_lt bound]
  have half : ntoh16 (load data offReserved 2) = .ofNat (ofBigEndian ((data.drop offReserved).take 2)) := by
    apply UInt16.toNat_inj.mp
    have width : ((data.drop offReserved).take 2).length = 2 := by simp [offReserved]; omega
    have bound : ofBigEndian ((data.drop offReserved).take 2) < 2^16 := by
      have bytes := ofBigEndian_lt ((data.drop offReserved).take 2)
      rw [width] at bytes
      exact bytes
    rw [load,ntoh16_load width,UInt16.toNat_ofNat',Nat.mod_eq_of_lt bound]
  have enough : ¬data.length < size := by simp [size]; omega
  simp only [parse,judge,if_neg enough,word offMsgId (by decide),word offBodySize (by decide),half]
  rfl

theorem ofWire_serialize (rest : List UInt8) : ofWire (serialize h ++ rest) = h := by
  have msg : ((serialize h ++ rest).drop offMsgId).take 4 = bigEndian 4 h.msgId.toNat := by
    simp [serialize_eq,offMsgId]
  have body : ((serialize h ++ rest).drop offBodySize).take 4 = bigEndian 4 h.bodySize.toNat := by
    simp [serialize_eq,offBodySize]
  have reserved : ((serialize h ++ rest).drop offReserved).take 2 = bigEndian 2 h.reserved.toNat := by
    simp [serialize_eq,offReserved,drop_append,drop_of_length_le]
  have word (x : UInt32) : UInt32.ofNat (ofBigEndian (bigEndian 4 x.toNat)) = x := by
    rw [ofBigEndian_bigEndian x.toNat_lt,UInt32.ofNat_toNat]
  have half (x : UInt16) : UInt16.ofNat (ofBigEndian (bigEndian 2 x.toNat)) = x := by
    rw [ofBigEndian_bigEndian x.toNat_lt,UInt16.ofNat_toNat]
  simp only [ofWire,msg,body,reserved,word,half]
  simp [serialize_eq,offVersion,offFlags]

theorem frameSize_pos : 12 ≤ h.frameSize := by simp [frameSize,size]

theorem serialize_ofWire (long : 12 ≤ data.length) : serialize (ofWire data) = data.take 12 := by
  have field (offset width : Nat) (inside : offset + width ≤ 12) :
      bigEndian width (ofBigEndian ((data.drop offset).take width) % 2^(8 * width)) = (data.drop offset).take width := by
    have length : ((data.drop offset).take width).length = width := by simp; omega
    have bound := ofBigEndian_lt ((data.drop offset).take width)
    have order := littleEndian_ofLittleEndian ((data.drop offset).take width).reverse
    rw [length_reverse,length] at order
    rw [length,show 256 = 2^8 from rfl,← Nat.pow_mul] at bound
    rw [Nat.mod_eq_of_lt bound,bigEndian,ofBigEndian,order,reverse_reverse]
  have fields : data.take 12 = data.take 2 ++ (data.drop 2).take 4 ++ (data.drop 6).take 4 ++ (data.drop 10).take 2 := by
    simp only [← take_add]
  have first : data.take 2 = [data[0]!,data[1]!] := by
    rcases data with _ | ⟨_,_ | ⟨_,_⟩⟩
    · simp at long
    · simp at long
    · rfl
  rw [serialize_eq,fields,first]
  simp only [ofWire,offVersion,offFlags,offMsgId,offBodySize,offReserved,UInt32.toNat_ofNat',UInt16.toNat_ofNat']
  rw [field 2 4 (by decide),field 6 4 (by decide),field 10 2 (by decide)]

/-- The parser takes just the acceptable headers, each from the bytes that the serializer writes
for it, with anything behind them. -/
theorem parse_exact (data : List UInt8) (h : WireHeader) :
    parse data = .ok h ↔ h.Acceptable ∧ serialize h <+: data := by
  constructor
  · intro parsed
    by_cases long : 12 ≤ data.length
    · obtain ⟨rfl,acceptable⟩ := (judge_ok _ _).mp (parse_eq long ▸ parsed)
      exact ⟨acceptable,serialize_ofWire long ▸ take_prefix 12 data⟩
    · rw [parse,if_pos (show data.length < size from Nat.not_le.mp long)] at parsed
      cases parsed
  · rintro ⟨acceptable,rest,rfl⟩
    rw [parse_eq (by simp),ofWire_serialize]
    exact (judge_ok h h).mpr ⟨rfl,acceptable⟩

end WireHeader
end ApexPipeline
