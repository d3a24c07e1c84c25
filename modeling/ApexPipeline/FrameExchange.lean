import ApexPipeline.Execution
import ApexPipeline.FrameGrammar

/-! One ring buffer between `encode` and `try_decode` with `consume_frame`, in any
interleaving. The ring may start at any position and hold earlier messages. -/
namespace ApexPipeline.FrameExchange
open RingBuffer FrameCodec FrameGrammar WireHeader FrameCodec Execution

inductive Action where
  | encode (header : WireHeader) (payload : List UInt8)
  | decode
  deriving DecidableEq, Repr

/-- `encoded` lists the messages whose `encode` returned true, `decoded` those that
`try_decode` returned and `consume_frame` then removed. -/
structure State where
  ring : RingBuffer
  encoded : List Message
  decoded : List Message

/-- A decoded payload is read through its span, before the frame is consumed. -/
def step (alloc : Allocator) (s : State) : Action → Option State
  | .encode header payload =>
    match FrameCodec.encode s.ring header payload with
    | (true,ring) => some { s with ring := ring, encoded := s.encoded ++ [(header,payload)] }
    | (false,ring) => some { s with ring := ring }
  | .decode =>
    match tryDecode alloc s.ring with
    | none => none
    | some (.error _,ring) => some { s with ring := ring }
    | some (.ok frame,ring) =>
      match ring.bytes frame.payloadData with
      | none => none
      | some payload => some { s with
          ring := consumeFrame ring frame
          decoded := s.decoded ++ [(frame.header,payload)] }

def Action.Admissible : Action → Prop
  | .encode header payload => header.Acceptable ∧ payload.length < 2^32
  | .decode => True

instance (a : Action) : Decidable a.Admissible := by
  cases a <;> unfold Action.Admissible <;> infer_instance

def wire (messages : List Message) : List UInt8 := messages.flatMap Message.bytes

structure Holds (s : State) (buffered : List Message) : Prop where
  order : s.encoded = s.decoded ++ buffered
  bytes : s.ring.contents = wire buffered
  valid : ∀ m ∈ buffered, m.Valid ∧ m.1.frameSize ≤ s.ring.capacity

theorem frameSize_bytes {m : Message} (valid : m.Valid) : m.1.frameSize = m.bytes.length := by
  simp [Message.bytes,frameSize,size,valid.2]

theorem encode_accepted (alloc : Allocator) (acceptable : header.Acceptable) (small : payload.length < 2^32)
    (holds : Holds s buffered) :
    ∃ next, step alloc s (.encode header payload) = some next ∧ next.decoded = s.decoded ∧
      (Holds next buffered ∨ Holds next (buffered ++ [(header,payload)])) := by
  rcases encode_spec s.ring header small with
    ⟨body,room,ring,result,contents,capacity⟩ | ⟨_,result⟩
  · have taken : step alloc s (.encode header payload) =
        some { s with ring := ring, encoded := s.encoded ++ [(header,payload)] } := by
      simp only [step,result]
    refine ⟨_,taken,rfl,.inr ⟨?_,?_,?_⟩⟩
    · simp only [holds.order,List.append_assoc]
    · simp [contents,holds.bytes,wire,Message.bytes]
    · intro m member
      simp only [capacity]
      rcases List.mem_append.mp member with old | new
      · exact holds.valid m old
      rw [List.mem_singleton.mp new]
      refine ⟨⟨acceptable,body.symm⟩,?_⟩
      simp only [frameSize,size,body]
      omega
  · have taken : step alloc s (.encode header payload) = some s := by simp only [step,result]
    exact ⟨s,taken,rfl,.inl holds⟩

theorem decode_oldest (alloc : Allocator) (serves : Serves alloc) (s : State) (m : Message)
    (rest : List Message) (holds : Holds s (m :: rest)) :
    ∃ next, step alloc s .decode = some next ∧ next.encoded = s.encoded ∧
      next.decoded = s.decoded ++ [m] ∧ Holds next rest := by
  obtain ⟨valid,fits⟩ := holds.valid m (List.mem_cons_self ..)
  have seen : head s.ring.capacity s.ring.contents = .item m (wire rest) := by
    rw [holds.bytes]
    exact head_message (wire rest) valid fits
  obtain ⟨result,ring,decodes,outcome,contents,capacity⟩ := tryDecode_spec s.ring serves
  cases outcome with
  | @frame n after f _ found header payload =>
    obtain ⟨rfl,rfl⟩ : n = m ∧ after = wire rest := by
      rw [seen] at found
      cases found
      exact ⟨rfl,rfl⟩
    have consumed : (consumeFrame ring f).contents = wire rest := by
      have inside : f.header.frameSize ≤ ring.readableSize := by
        rw [← contents_length,contents,holds.bytes,header,frameSize_bytes valid]
        simp [wire]
      rw [consumeFrame,consume_contents ring inside,contents,holds.bytes,header,frameSize_bytes valid]
      simp [wire]
    have taken : step alloc s .decode = some { s with
        ring := consumeFrame ring f
        decoded := s.decoded ++ [n] } := by
      simp only [step,decodes,payload,header]
    refine ⟨_,taken,rfl,rfl,?_,consumed,?_⟩
    · simp only [List.append_assoc]
      exact holds.order
    · intro other member
      have old := holds.valid other (List.mem_cons_of_mem _ member)
      exact ⟨old.1,Nat.le_trans old.2 (Nat.le_of_eq capacity.symm)⟩
  | incomplete found | oversize found | malformed found =>
    rw [seen] at found
    contradiction

theorem decode_empty (serves : Serves alloc) (holds : Holds s []) :
    ∃ next, step alloc s .decode = some next ∧ Holds next [] := by
  have empty : s.ring.contents = [] := holds.bytes
  obtain ⟨result,ring,decodes,outcome,contents,capacity⟩ := tryDecode_spec s.ring serves
  have seen : head s.ring.capacity s.ring.contents = .incomplete := by simp [empty,head]
  cases outcome with
  | incomplete =>
    have taken : step alloc s .decode = some { s with ring := ring } := by simp only [step,decodes]
    exact ⟨_,taken,holds.order,contents.trans holds.bytes,by simp⟩
  | frame found | oversize found | malformed found =>
    rw [seen] at found
    contradiction

section
variable (alloc : Allocator) (serves : Serves alloc)
include serves

theorem step_holds (s : State) (a : Action)
    (admissible : a.Admissible) (holds : Holds s buffered) :
    ∃ next later, step alloc s a = some next ∧ Holds next later := by
  cases a with
  | encode header payload =>
    obtain ⟨next,taken,_,kept | grown⟩ :=
      encode_accepted alloc admissible.1 admissible.2 holds
    · exact ⟨next,_,taken,kept⟩
    · exact ⟨next,_,taken,grown⟩
  | decode =>
    cases buffered with
    | nil =>
      obtain ⟨next,taken,after⟩ := decode_empty serves holds
      exact ⟨next,_,taken,after⟩
    | cons m rest =>
      obtain ⟨next,taken,_,_,after⟩ := decode_oldest alloc serves s m rest holds
      exact ⟨next,_,taken,after⟩

theorem run_holds (schedule : List Action)
    (admissible : ∀ a ∈ schedule, a.Admissible) (s : State) (holds : Holds s buffered) :
    ∃ final later, run (step alloc) s schedule = some final ∧ Holds final later := by
  induction schedule generalizing s buffered with
  | nil => exact ⟨s,buffered,rfl,holds⟩
  | cons a rest ih =>
    obtain ⟨next,after,taken,holds⟩ := step_holds alloc serves s a (admissible a (List.mem_cons_self ..)) holds
    obtain ⟨final,later,runs,holds⟩ := ih (fun b member =>
      admissible b (List.mem_cons_of_mem _ member)) next holds
    exact ⟨final,later,run_cons.mpr ⟨next,taken,runs⟩,holds⟩

theorem run_drains (s : State) (holds : Holds s buffered) :
    ∃ final, run (step alloc) s (List.replicate buffered.length .decode) = some final ∧
      final.decoded = s.encoded ∧ final.ring.contents = [] := by
  induction buffered generalizing s with
  | nil => exact ⟨s,rfl,by simp [holds.order],holds.bytes⟩
  | cons m rest ih =>
    obtain ⟨next,taken,same,_,after⟩ := decode_oldest alloc serves s m rest holds
    obtain ⟨final,runs,all,empty⟩ := ih next after
    exact ⟨final,run_cons.mpr ⟨next,taken,runs⟩,all.trans same,empty⟩

end

theorem wire_member (member : m ∈ messages) : m.bytes.length ≤ (wire messages).length := by
  induction messages with
  | nil => simp at member
  | cons first rest ih =>
    simp only [wire,List.flatMap_cons,List.length_append] at *
    rcases List.mem_cons.mp member with rfl | later
    · omega
    · have := ih later
      omega

theorem holds_start (ring : RingBuffer) (earlier : List Message)
    (stored : ring.contents = wire earlier) (valid : ∀ m ∈ earlier, m.Valid) :
    Holds ⟨ring,earlier,[]⟩ earlier where
  order := rfl
  bytes := stored
  valid := by
    intro m member
    refine ⟨valid m member,?_⟩
    have inside := wire_member member
    have length := congrArg List.length stored
    have bound := ring.readableSize_le
    rw [contents_length] at length
    rw [frameSize_bytes (valid m member)]
    simp only
    omega

/-- Whatever the interleaving, the wrap position and the fill level: the messages decoded are those encoded, in
order; those missing are still in the ring and come out when it is drained. -/
theorem exchange_lossless (alloc : Allocator) (serves : Serves alloc) (ring : RingBuffer)
    (earlier : List Message) (stored : ring.contents = wire earlier)
    (valid : ∀ m ∈ earlier, m.Valid) (schedule : List Action)
    (admissible : ∀ a ∈ schedule, a.Admissible) :
    ∃ s, Execution.run (step alloc) ⟨ring,earlier,[]⟩ schedule = some s ∧
      (∃ buffered, s.encoded = s.decoded ++ buffered ∧ s.ring.contents = wire buffered ∧
        ∃ final, Execution.run (step alloc) s (List.replicate buffered.length .decode) = some final ∧
          final.decoded = s.encoded ∧ final.ring.contents = []) ∧
      ∀ header payload, payload.length < 2^32 → ((FrameCodec.encode s.ring header payload).1 = false →
          (FrameCodec.encode s.ring header payload).2.contents = s.ring.contents) ∧
        ((FrameCodec.encode s.ring header payload).1 = true → ∃ appended,
          (FrameCodec.encode s.ring header payload).2.contents = s.ring.contents ++ appended ∧
          ∀ out : List UInt8, 12 + payload.length ≤ out.length → encodeTo out header payload =
              (appended.length,appended ++ out.drop appended.length)) := by
  obtain ⟨s,buffered,runs,holds⟩ := run_holds alloc serves schedule admissible ⟨ring,earlier,[]⟩
    (holds_start ring earlier stored valid)
  refine ⟨s,runs,⟨buffered,holds.order,holds.bytes,run_drains alloc serves s holds⟩,?_⟩
  intro header payload small
  rcases encode_spec s.ring header small with ⟨body,room,next,result,contents,capacity⟩ | ⟨_,result⟩
  · rw [result]
    refine ⟨by simp,fun _ => ⟨header.serialize ++ payload,contents,fun out fits => ?_⟩⟩
    rw [encodeTo_spec small body fits]
    simp
  · simp [result]

def almostWrapped : RingBuffer where
  buffer := fun _ => 0
  linear := none
  allocations := 0
  cursor := {
    capacity := 16
    readPos := 2^64 - 3
    writePos := 2^64 - 3
    power := ⟨4,by decide,rfl⟩
    readWord := by decide
    writeWord := by decide
    bounded := by decide }

theorem exchange_lossless_wrapped : ∃ s, Execution.run (step ⟨fun _ => true⟩) ⟨almostWrapped,[],[]⟩
        [.encode { msgId := 7, bodySize := 2 } [10,11],.encode { bodySize := 4 } [1,2,3,4],.decode] = some s ∧
      ∃ buffered, s.encoded = s.decoded ++ buffered ∧ s.ring.contents = wire buffered := by
  obtain ⟨s,runs,⟨buffered,order,bytes,_⟩,_⟩ := exchange_lossless ⟨fun _ => true⟩ (fun _ _ => rfl)
    almostWrapped [] rfl (by simp)
    [.encode { msgId := 7, bodySize := 2 } [10,11],.encode { bodySize := 4 } [1,2,3,4],.decode]
    (by decide)
  exact ⟨s,runs,buffered,order,bytes⟩

end ApexPipeline.FrameExchange
