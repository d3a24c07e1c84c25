import ApexPipeline.RingBufferFifo
import ApexPipeline.WireHeader

/-! `frame_codec.cpp`: frames out of a ring buffer and into one. -/
namespace ApexPipeline
open MathUtils List

/-- `payloadData` points into the ring or its scratch buffer; it is not a copy. -/
structure Frame where
  header : WireHeader
  payloadData : Span
  deriving DecidableEq, Repr

namespace FrameCodec
open WireHeader RingBuffer

/-- `none` is undefined behaviour: the header copy reads through the null span of a
failed `linearize`, whose result is not checked there. -/
def tryDecode (alloc : Allocator) (rb : RingBuffer) : Option (Except ErrorCode Frame × RingBuffer) :=
  if rb.readableSize < WireHeader.size then some (.error .insufficientData,rb)
  else
    let (hdrSpan,rb) := rb.linearize alloc WireHeader.size
    match rb.load hdrSpan.data WireHeader.size with
    | none => none
    | some hdrBuf =>
      match parse hdrBuf with
      | .error e => some (.error e,rb)
      | .ok header =>
        let total := header.frameSize
        if rb.readableSize < total then some (.error .insufficientData,rb)
        else
          let (frameSpan,rb) := rb.linearize alloc total
          if frameSpan.empty then some (.error .insufficientData,rb)
          else some (.ok ⟨header,frameSpan.subspan WireHeader.size header.bodySize.toNat⟩,rb)

def consumeFrame (rb : RingBuffer) (frame : Frame) : RingBuffer :=
  rb.consume frame.header.frameSize

/-- One of the two copy loops of `encode`: `data` is what is still to be written.
A round that starts writes at least one byte, so `data.length` rounds are enough. -/
def copyIn : Nat → RingBuffer → List UInt8 → Bool × RingBuffer
  | 0, rb, _ => (true,rb)
  | rounds + 1, rb, data =>
    if data = [] then (true,rb)
    else
      let w := rb.writable
      if w.empty then (false,rb)
      else
        let toWrite := min w.size data.length
        copyIn rounds ((rb.fill w (data.take toWrite)).commitWrite toWrite) (data.drop toWrite)

def encode (rb : RingBuffer) (header : WireHeader) (payload : List UInt8) : Bool × RingBuffer :=
  if header.bodySize.toNat ≠ payload.length % 2^32 then (false,rb)
  else
    let total := addSize WireHeader.size payload.length
    if rb.writableSize < total then (false,rb)
    else
      match copyIn WireHeader.size rb header.serialize with
      | (false,rb) => (false,rb)
      | (true,rb) => copyIn payload.length rb payload

def encodeTo (out : List UInt8) (header : WireHeader) (payload : List UInt8) : Nat × List UInt8 :=
  if header.bodySize.toNat ≠ payload.length % 2^32 then (0,out)
  else
    let total := addSize WireHeader.size payload.length
    if out.length < total then (0,out)
    else
      let out := store out 0 header.serialize
      if payload = [] then (total,out) else (total,store out WireHeader.size payload)

theorem copyIn_spec (rounds : Nat) (rb : RingBuffer) (data : List UInt8)
    (enough : data.length ≤ rounds) (room : data.length ≤ rb.capacity - rb.readableSize) :
    ∃ next, copyIn rounds rb data = (true,next) ∧ next.contents = rb.contents ++ data ∧
      next.capacity = rb.capacity := by
  induction rounds generalizing rb data with
  | zero =>
    have empty : data = [] := eq_nil_of_length_eq_zero (by omega)
    subst data
    exact ⟨rb,rfl,by simp,rfl⟩
  | succ rounds ih =>
    by_cases empty : data = []
    · subst data
      exact ⟨rb,by simp [copyIn],by simp,rfl⟩
    have positive : 0 < data.length := length_pos_iff.mpr empty
    have open_ : ¬rb.writable.empty = true := by
      rw [writable_empty_iff]
      omega
    have wide : 0 < rb.writable.size := by
      simp only [Span.empty,beq_iff_eq] at open_
      omega
    have taken : (data.take (min rb.writable.size data.length)).length = min rb.writable.size data.length := by simp
    have appended := receive_contents rb (data.take (min rb.writable.size data.length)) (by omega)
    rw [taken] at appended
    have sized := congrArg List.length appended
    simp only [contents_length,length_append,taken] at sized
    have same := receive_capacity rb rb.writable (data.take (min rb.writable.size data.length))
      (min rb.writable.size data.length)
    obtain ⟨next,copied,contents,capacity⟩ := ih
      ((rb.fill rb.writable (data.take (min rb.writable.size data.length))).commitWrite
        (min rb.writable.size data.length))
      (data.drop (min rb.writable.size data.length)) (by simp; omega)
      (by rw [same,sized,length_drop]; omega)
    refine ⟨next,?_,?_,capacity.trans same⟩
    · simp only [copyIn,if_neg empty,if_neg open_]
      exact copied
    · rw [contents,appended,append_assoc,take_append_drop]

theorem encode_spec (rb : RingBuffer) (header : WireHeader) (small : payload.length < 2^32) :
    (header.bodySize.toNat = payload.length ∧ 12 + payload.length ≤ rb.capacity - rb.readableSize ∧
      ∃ next, encode rb header payload = (true,next) ∧
        next.contents = rb.contents ++ (header.serialize ++ payload) ∧ next.capacity = rb.capacity) ∨
    (¬(header.bodySize.toNat = payload.length ∧ 12 + payload.length ≤ rb.capacity - rb.readableSize) ∧
      encode rb header payload = (false,rb)) := by
  have size : payload.length % 2^32 = payload.length := Nat.mod_eq_of_lt small
  have total : addSize WireHeader.size payload.length = 12 + payload.length := by
    simp only [addSize,WireHeader.size]
    omega
  unfold encode
  rw [size,total,writableSize_eq]
  by_cases body : header.bodySize.toNat = payload.length
  · rw [if_neg (by simp [body])]
    by_cases room : rb.capacity - rb.readableSize < 12 + payload.length
    · exact .inr ⟨by omega,if_pos room⟩
    obtain ⟨middle,first,contents,capacity⟩ := copyIn_spec WireHeader.size rb header.serialize
      (by simp [WireHeader.size]) (by simp; omega)
    have sized := congrArg List.length contents
    simp only [contents_length,length_append,serialize_length] at sized
    obtain ⟨next,second,more,kept⟩ := copyIn_spec payload.length middle payload (Nat.le_refl _) (by omega)
    refine .inl ⟨body,by omega,next,?_,?_,kept.trans capacity⟩
    · simp only [if_neg room,first]
      exact second
    · rw [more,contents,append_assoc]
  · exact .inr ⟨fun h => body h.1,if_pos body⟩

theorem encodeTo_spec (small : payload.length < 2^32) (body : header.bodySize.toNat = payload.length)
    (room : 12 + payload.length ≤ out.length) :
    encodeTo out header payload = (12 + payload.length,
      header.serialize ++ payload ++ out.drop (12 + payload.length)) := by
  have size : payload.length % 2^32 = payload.length := Nat.mod_eq_of_lt small
  have total : addSize WireHeader.size payload.length = 12 + payload.length := by
    simp only [addSize,WireHeader.size]
    omega
  unfold encodeTo
  rw [size,total,if_neg (by simp [body])]
  simp only [if_neg (show ¬out.length < 12 + payload.length by omega)]
  by_cases empty : payload = []
  · simp [empty,store]
  rw [if_neg empty]
  simp only [store,WireHeader.size]
  refine congrArg (Prod.mk _) ?_
  simp [drop_append,Nat.add_comm]

end FrameCodec
end ApexPipeline
