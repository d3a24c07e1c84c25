import ApexPipeline.FrameCodec
import ApexPipeline.StreamParser

/-! The grammar of frame streams, and `try_decode` as one step of its parser. `limit` is the size above which a frame
can never be complete. -/
namespace ApexPipeline
open StreamParser WireHeader

namespace FrameGrammar
open WireHeader

abbrev Message := WireHeader × List UInt8

def Message.Valid (m : Message) : Prop := m.1.Acceptable ∧ m.2.length = m.1.bodySize.toNat

def Message.bytes (m : Message) : List UInt8 := m.1.serialize ++ m.2

inductive Ending where
  | malformed (error : ErrorCode)
  | oversize (header : WireHeader)
  deriving DecidableEq, Repr

/-- Twelve header bytes, judged as soon as they are there, then `body_size` bytes. -/
def head (limit : Nat) (stream : List UInt8) : Head UInt8 Message Ending :=
  if stream.length < 12 then .incomplete
  else
    match judge (ofWire stream) with
    | .error e => .stop (.malformed e)
    | .ok h =>
      if limit < h.frameSize then .stop (.oversize h)
      else if stream.length < h.frameSize then .incomplete
      else .item (h,(stream.drop 12).take h.bodySize.toNat) (stream.drop h.frameSize)

theorem ofWire_append (stream more : List UInt8) (long : 12 ≤ stream.length) :
    ofWire (stream ++ more) = ofWire stream := by
  have field (offset width : Nat) (inside : offset + width ≤ 12) :
      ((stream ++ more).drop offset).take width = (stream.drop offset).take width := by
    rw [List.drop_append_of_le_length (by omega),List.take_append_of_le_length (by simp; omega)]
  have byte (i : Nat) (inside : i < 12) : (stream ++ more)[i]! = stream[i]! := by
    simp only [List.getElem!_eq_getElem?_getD]
    rw [List.getElem?_append_left (by omega)]
  simp only [ofWire,field offMsgId 4 (by decide),field offBodySize 4 (by decide),
    field offReserved 2 (by decide),byte offVersion (by decide),byte offFlags (by decide)]

inductive Reads (limit : Nat) (stream : List UInt8) : Head UInt8 Message Ending → Prop
  | short : stream.length < 12 → Reads limit stream .incomplete
  | malformed : 12 ≤ stream.length → judge (ofWire stream) = .error e → Reads limit stream (.stop (.malformed e))
  | oversize : 12 ≤ stream.length → judge (ofWire stream) = .ok h → limit < h.frameSize →
      Reads limit stream (.stop (.oversize h))
  | cut : 12 ≤ stream.length → judge (ofWire stream) = .ok h → h.frameSize ≤ limit →
      stream.length < h.frameSize → Reads limit stream .incomplete
  | whole : 12 ≤ stream.length → judge (ofWire stream) = .ok h → h.frameSize ≤ limit →
      h.frameSize ≤ stream.length → Reads limit stream
        (.item (h,(stream.drop 12).take h.bodySize.toNat) (stream.drop h.frameSize))

theorem head_reads (limit : Nat) (stream : List UInt8) : Reads limit stream (head limit stream) := by
  unfold head
  split
  · exact .short ‹_›
  rename_i long
  split
  · exact .malformed (by omega) ‹_›
  rename_i h judged
  split
  · exact .oversize (by omega) judged ‹_›
  rename_i fits
  split
  · exact .cut (by omega) judged (by omega) ‹_›
  · exact .whole (by omega) judged (by omega) (by omega)

theorem Reads.head_eq {limit : Nat} {stream : List UInt8}
    (reads : Reads limit stream answer) : head limit stream = answer := by
  unfold head
  cases reads with
  | short short => rw [if_pos short]
  | malformed long judged => rw [if_neg (by omega),judged]
  | oversize long judged large =>
    rw [if_neg (by omega),judged]
    exact if_pos large
  | cut long judged fits cut =>
    rw [if_neg (by omega),judged]
    simp only [if_neg (Nat.not_lt.mpr fits),if_pos cut]
  | whole long judged fits complete =>
    rw [if_neg (by omega),judged]
    simp only [if_neg (Nat.not_lt.mpr fits),if_neg (Nat.not_lt.mpr complete)]

theorem head_itemStable (more : List UInt8) (seen : head limit stream = .item m rest) :
    head limit (stream ++ more) = .item m (rest ++ more) := by
  have reads := head_reads limit stream
  rw [seen] at reads
  cases reads with
  | @whole h long judged fits complete =>
    have body : h.bodySize.toNat ≤ (stream.drop 12).length := by
      simp only [frameSize,size,List.length_drop] at *
      omega
    have later : Reads limit (stream ++ more) _ :=
      .whole (by simp; omega) (by rw [ofWire_append _ _ long,judged]) fits (by simp; omega)
    rw [later.head_eq,List.drop_append_of_le_length long,List.take_append_of_le_length body,
      List.drop_append_of_le_length complete]

theorem head_stopStable (more : List UInt8)
    (seen : head limit stream = .stop reason) : head limit (stream ++ more) = .stop reason := by
  have reads := head_reads limit stream
  rw [seen] at reads
  apply Reads.head_eq
  cases reads with
  | malformed long judged =>
    exact .malformed (by simp; omega) (by rw [ofWire_append _ _ long,judged])
  | oversize long judged large =>
    exact .oversize (by simp; omega) (by rw [ofWire_append _ _ long,judged]) large

theorem head_item (seen : head limit stream = .item m rest) :
    m.Valid ∧ m.1.frameSize ≤ limit ∧ m.1.frameSize ≤ stream.length ∧ rest = stream.drop m.1.frameSize := by
  have reads := head_reads limit stream
  rw [seen] at reads
  cases reads with
  | whole long judged fits complete =>
    obtain ⟨rfl,acceptable⟩ := (judge_ok _ _).mp judged
    refine ⟨⟨acceptable,?_⟩,fits,complete,rfl⟩
    simp only [frameSize,size,List.length_take,List.length_drop] at *
    omega

theorem head_shrinks (limit : Nat) (stream rest : List UInt8) (m : Message)
    (seen : head limit stream = .item m rest) : rest.length < stream.length := by
  obtain ⟨_,_,complete,rfl⟩ := head_item seen
  have := m.1.frameSize_pos
  simp only [List.length_drop]
  omega

def grammar (limit : Nat) : Parser UInt8 Message Ending where
  head := head limit
  shrinks := head_shrinks limit _ _ _
  itemStable := head_itemStable _
  stopStable := head_stopStable _

theorem head_message (rest : List UInt8) (valid : m.Valid)
    (fits : m.1.frameSize ≤ limit) : head limit (m.bytes ++ rest) = .item m rest := by
  obtain ⟨acceptable,body⟩ := valid
  have judged : judge m.1 = .ok m.1 := (judge_ok _ _).mpr ⟨rfl,acceptable⟩
  have whole : m.1.frameSize = m.bytes.length := by
    simp [Message.bytes,frameSize,size,body]
  have wire : ofWire (m.bytes ++ rest) = m.1 := by
    rw [Message.bytes,List.append_assoc]
    exact ofWire_serialize m.1 _
  have payload : ((m.bytes ++ rest).drop 12).take m.1.bodySize.toNat = m.2 := by
    rw [Message.bytes,List.append_assoc,List.drop_left' (by simp),← body,List.take_left' rfl]
  have reads : Reads limit (m.bytes ++ rest) _ :=
    .whole (by simp [Message.bytes]) (by rw [wire,judged]) fits (by simp [whole])
  rw [reads.head_eq,payload,whole,List.drop_left' rfl]

end FrameGrammar

namespace FrameCodec
open RingBuffer WireHeader FrameGrammar

/-- The allocator serves every scratch buffer that a frame can need. -/
def Serves (alloc : Allocator) : Prop :=
  ∀ n, n ≤ WireHeader.size + maxBodySize → alloc.grants n = true

/-- What `try_decode` returns, in terms of the bytes in the ring. An oversize frame
and an incomplete one look alike to it: it asks for more data. -/
inductive Decodes (rb : RingBuffer) : Except ErrorCode Frame → RingBuffer → Prop
  | frame : head rb.capacity rb.contents = .item m rest → f.header = m.1 →
      next.bytes f.payloadData = some m.2 → Decodes rb (.ok f) next
  | incomplete : head rb.capacity rb.contents = .incomplete → Decodes rb (.error .insufficientData) next
  | oversize : head rb.capacity rb.contents = .stop (.oversize h) → Decodes rb (.error .insufficientData) next
  | malformed : head rb.capacity rb.contents = .stop (.malformed e) → e ≠ .insufficientData →
      Decodes rb (.error e) next

theorem tryDecode_long (long : ¬rb.readableSize < size) (linear : rb.linearize alloc size = (span,first))
    (bytes : first.load span.data size = some received) : tryDecode alloc rb =
      match parse received with
      | .error e => some (.error e,first)
      | .ok header =>
        if first.readableSize < header.frameSize then some (.error .insufficientData,first)
        else
          let (frameSpan,rb) := first.linearize alloc header.frameSize
          if frameSpan.empty then some (.error .insufficientData,rb)
          else some (.ok ⟨header,frameSpan.subspan size header.bodySize.toNat⟩,rb) := by
  unfold tryDecode
  rw [if_neg long,linear]
  -- the two matches agree in every case
  cases parsed : parse received with
  | error e => simp only [bytes,parsed]
  | ok header => simp only [bytes,parsed]

theorem tryDecode_spec (rb : RingBuffer) (serves : Serves alloc) :
    ∃ result next, tryDecode alloc rb = some (result,next) ∧ Decodes rb result next ∧
      next.contents = rb.contents ∧ next.capacity = rb.capacity := by
  have length := rb.contents_length
  have within := rb.readableSize_le
  by_cases short : rb.readableSize < 12
  · refine ⟨_,rb,by simp [tryDecode,size,short],.incomplete ?_,rfl,rfl⟩
    simp [head,length,short]
  obtain ⟨span,first,linear,width,shown,memory,cursor⟩ := linearize_spec alloc rb size
    (by simp only [size]; omega) (serves _ (by omega))
  have bytes : first.load span.data size = some (rb.contents.take 12) := by
    rw [← width]
    exact shown
  have same := contents_congr first rb memory cursor
  have capacity : first.capacity = rb.capacity := by unfold RingBuffer.capacity; rw [cursor]
  have readable : first.readableSize = rb.readableSize := by
    unfold RingBuffer.readableSize
    rw [cursor]
  have wire : ofWire (rb.contents.take 12) = ofWire rb.contents := by
    have h := ofWire_append (rb.contents.take 12) (rb.contents.drop 12) (by simp; omega)
    rw [List.take_append_drop] at h
    exact h.symm
  have parsed : parse (rb.contents.take 12) = judge (ofWire rb.contents) := by
    rw [parse_eq (by simp; omega),wire]
  have long : ¬rb.contents.length < 12 := by omega
  rw [tryDecode_long (by simp only [size]; omega) linear bytes,parsed]
  cases judged : judge (ofWire rb.contents) with
  | error e =>
    refine ⟨_,first,rfl,.malformed ((Reads.malformed (by omega) judged).head_eq) ?_,same,capacity⟩
    intro waits
    exact judge_never_waits _ (waits ▸ judged)
  | ok h =>
    obtain ⟨rfl,acceptable⟩ := (judge_ok _ _).mp judged
    simp only
    by_cases partial_ : first.readableSize < (ofWire rb.contents).frameSize
    · rw [if_pos partial_]
      by_cases large : rb.capacity < (ofWire rb.contents).frameSize
      · refine ⟨_,first,rfl,.oversize (h := ofWire rb.contents) ?_,same,capacity⟩
        simp only [head,if_neg long,judged,if_pos large]
      · refine ⟨_,first,rfl,.incomplete ?_,same,capacity⟩
        simp only [head,if_neg long,judged,if_neg large]
        rw [if_pos (by omega)]
    · rw [if_neg partial_]
      obtain ⟨whole,next,linear,width,shown,memory,cursor⟩ := linearize_spec alloc first
        (ofWire rb.contents).frameSize (by omega)
        (serves _ (by have := acceptable.2; simp only [frameSize]; omega))
      have filled : whole.empty = false := by
        have := (ofWire rb.contents).frameSize_pos
        simp only [Span.empty,width,beq_eq_false_iff_ne]
        omega
      have seen : head rb.capacity rb.contents = .item (ofWire rb.contents,
          (rb.contents.drop 12).take (ofWire rb.contents).bodySize.toNat)
          (rb.contents.drop (ofWire rb.contents).frameSize) := by
        simp only [head,if_neg long,judged]
        rw [if_neg (by omega),if_neg (by omega)]
      simp only [linear,filled]
      refine ⟨_,next,rfl,.frame seen rfl ?_,(contents_congr next first memory cursor).trans same,?_⟩
      · have inside : size + (ofWire rb.contents).bodySize.toNat ≤ whole.size := by
          rw [width]
          exact Nat.le_refl _
        rw [bytes_subspan next shown inside,same]
        simp only [frameSize,size,List.drop_take,List.take_take]
        rw [Nat.add_sub_cancel_left,Nat.min_self]
      · unfold RingBuffer.capacity at *
        rw [cursor,capacity]

end FrameCodec
end ApexPipeline
