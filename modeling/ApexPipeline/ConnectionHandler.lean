import ApexPipeline.Execution
import ApexPipeline.FrameGrammar

/-! The receiving side of a connection: `read_loop` and `process_frames` of `connection_handler.hpp`, for the TCP
frame codec. Reads complete one at a time, with any number of bytes that fits the given span. -/
namespace ApexPipeline.ConnectionHandler
open StreamParser RingBuffer FrameCodec FrameGrammar List Execution

/-- What an awaited `dispatch` comes back with: its result, and whether the session
is still open by then. -/
structure Answer where
  result : Except ErrorCode Unit
  isOpen : Bool

/-- A dispatcher may depend on everything it has been handed before. -/
abbrev Dispatcher := List Message → Message → Answer

inductive Phase where
  | reading | ended
  deriving DecidableEq, Repr

/-- `dispatched` lists the messages handed to the dispatcher, `errorFrames` the error
frames given to `enqueue_write_raw`, both oldest first. -/
structure Connection where
  ring : RingBuffer
  isOpen : Bool
  phase : Phase
  dispatched : List Message
  errorFrames : List (UInt32 × ErrorCode)

/-- The error frame for a failed dispatch; the handler of a `ServiceError` has
already sent its own. -/
def errorFrame (header : WireHeader) : Except ErrorCode Unit → List (UInt32 × ErrorCode)
  | .ok _ => []
  | .error .serviceError => []
  | .error e => [(header.msgId,e)]

/-- `none` stands for undefined behaviour in `try_decode` and for running out of
rounds; neither happens from any state of `Connection`. -/
def processFrames (alloc : Allocator) (dispatch : Dispatcher) : Nat → Connection → Option Connection
  | 0, _ => none
  | rounds + 1, c =>
    match tryDecode alloc c.ring with
    | none => none
    | some (.error .insufficientData,ring) => some { c with ring := ring }
    | some (.error _,ring) => some { c with ring := ring, isOpen := false }
    | some (.ok frame,ring) =>
      match ring.bytes frame.payloadData with
      | none => none
      | some payload =>
        let answer := dispatch c.dispatched (frame.header,payload)
        let c := { c with
          ring := consumeFrame ring frame
          isOpen := answer.isOpen
          dispatched := c.dispatched ++ [(frame.header,payload)]
          errorFrames := c.errorFrames ++ errorFrame frame.header answer.result }
        if c.isOpen then processFrames alloc dispatch rounds c else some c

/-- The head of the `while`: stop when closed, close when the buffer is full. -/
def loopHead (c : Connection) : Connection :=
  if c.isOpen then
    if c.ring.writable.empty then { c with isOpen := false, phase := .ended }
    else { c with phase := .reading }
  else { c with phase := .ended }

/-- A completion of `async_read_some`: some bytes, or an error or end of file. -/
inductive Completion where
  | data (bytes : List UInt8)
  | failed
  deriving DecidableEq, Repr

/-- Only a suspended read completes, with no more bytes than its span has room for. -/
def step (alloc : Allocator) (dispatch : Dispatcher) (c : Connection) : Completion → Option Connection
  | .failed => if c.phase = .reading then some { c with phase := .ended } else none
  | .data bytes =>
    if c.phase = .reading ∧ bytes ≠ [] ∧ bytes.length ≤ c.ring.writable.size then
      let ring := (c.ring.fill c.ring.writable bytes).commitWrite bytes.length
      (processFrames alloc dispatch (ring.readableSize + 1) { c with ring := ring }).map loopHead
    else none

def start (ring : RingBuffer) : Connection := loopHead ⟨ring,true,.reading,[],[]⟩

/-- The messages a dispatcher gets to see: up to the first one it leaves closed. -/
def served (dispatch : Dispatcher) : List Message → List Message → List Message
  | _, [] => []
  | history, m :: rest =>
    if (dispatch history m).isOpen then m :: served dispatch (history ++ [m]) rest else [m]

def staysOpen (dispatch : Dispatcher) : List Message → List Message → Bool
  | _, [] => true
  | history, m :: rest =>
    (dispatch history m).isOpen && staysOpen dispatch (history ++ [m]) rest

theorem served_open (dispatch : Dispatcher) (history items : List Message)
    (keeps : staysOpen dispatch history items = true) : served dispatch history items = items := by
  induction items generalizing history with
  | nil => rfl
  | cons m rest ih =>
    simp only [staysOpen,Bool.and_eq_true] at keeps
    simp only [served,keeps.1,if_true,ih _ keeps.2]

section
variable (dispatch : Dispatcher) (history first second : List Message)

theorem served_append (keeps : staysOpen dispatch history first = true) :
    served dispatch history (first ++ second) = first ++ served dispatch (history ++ first) second := by
  induction first generalizing history with
  | nil => simp
  | cons m rest ih =>
    simp only [staysOpen,Bool.and_eq_true] at keeps
    simp only [cons_append,served,keeps.1,if_true,ih _ keeps.2]
    simp

theorem served_closed (closes : staysOpen dispatch history first = false) :
    served dispatch history (first ++ second) = served dispatch history first := by
  induction first generalizing history with
  | nil => simp [staysOpen] at closes
  | cons m rest ih =>
    simp only [cons_append,served]
    split
    · rename_i kept
      simp only [staysOpen,kept,Bool.true_and] at closes
      rw [ih _ closes]
    · rfl

theorem staysOpen_append :
    staysOpen dispatch history (first ++ second) =
      (staysOpen dispatch history first && staysOpen dispatch (history ++ first) second) := by
  induction first generalizing history with
  | nil => simp [staysOpen]
  | cons m rest ih =>
    simp only [cons_append,staysOpen,ih,Bool.and_assoc]
    simp

end

theorem staysOpen_patient
    (patient : ∀ history m, (dispatch history m).isOpen = true) (history items : List Message) :
    staysOpen dispatch history items = true := by
  induction items generalizing history with
  | nil => rfl
  | cons m rest ih => simp only [staysOpen,patient,ih,Bool.true_and]

def Malformed : Option Ending → Prop
  | some (.malformed _) => True
  | _ => False

theorem malformed_error (bad : Malformed ending) : ∃ e, ending = some (.malformed e) := by
  unfold Malformed at bad
  split at bad
  · exact ⟨_,rfl⟩
  · cases bad

section
variable (alloc : Allocator)

theorem processFrames_spec (serves : Serves alloc) (dispatch : Dispatcher)
    (rounds : Nat) (c : Connection) (isOpen : c.isOpen = true) (enough : c.ring.readableSize < rounds) :
    ∃ next, processFrames alloc dispatch rounds c = some next ∧ next.ring.capacity = c.ring.capacity ∧
      let parsed := (grammar c.ring.capacity).parse c.ring.contents
      next.dispatched = c.dispatched ++ served dispatch c.dispatched parsed.items ∧
      (next.isOpen = true ↔ staysOpen dispatch c.dispatched parsed.items = true ∧ ¬Malformed parsed.ending) ∧
      (staysOpen dispatch c.dispatched parsed.items = true → next.ring.contents = parsed.pending) := by
  induction rounds generalizing c with
  | zero => omega
  | succ rounds ih =>
    obtain ⟨result,ring,decodes,outcome,contents,capacity⟩ := tryDecode_spec c.ring serves
    cases outcome with
    | incomplete seen =>
      have parsed := (grammar c.ring.capacity).parse_incomplete seen
      refine ⟨{ c with ring := ring },by simp only [processFrames,decodes],capacity,?_⟩
      simp [parsed,served,staysOpen,Malformed,isOpen,contents]
    | oversize seen =>
      have parsed := (grammar c.ring.capacity).parse_stop seen
      refine ⟨{ c with ring := ring },by simp only [processFrames,decodes],capacity,?_⟩
      simp [parsed,served,staysOpen,Malformed,isOpen,contents]
    | @malformed e _ seen notWaiting =>
      have parsed := (grammar c.ring.capacity).parse_stop seen
      refine ⟨{ c with ring := ring, isOpen := false },?_,capacity,?_⟩
      · unfold processFrames
        rw [decodes]
        cases e <;> first | rfl | exact absurd rfl notWaiting
      · simp [parsed,served,staysOpen,Malformed,contents]
    | @frame m rest f _ seen header payload =>
      have parsed := (grammar c.ring.capacity).parse_item seen
      obtain ⟨valid,fits,complete,restEq⟩ := head_item seen
      have inside : f.header.frameSize ≤ ring.readableSize := by
        rw [← contents_length,contents,header]
        exact complete
      have consumed : (consumeFrame ring f).contents = rest := by
        rw [consumeFrame,consume_contents ring inside,contents,header,restEq]
      have size : (consumeFrame ring f).capacity = c.ring.capacity := capacity
      have smaller := congrArg List.length consumed
      rw [contents_length] at smaller
      have shrinks := head_shrinks _ _ _ _ seen
      rw [contents_length] at shrinks
      cases kept : (dispatch c.dispatched m).isOpen with
      | false =>
        refine ⟨_,by simp only [processFrames,decodes,payload,header,kept]; rfl,size,?_⟩
        simp [parsed,Parsed.after,served,staysOpen,kept]
      | true =>
        obtain ⟨next,runs,same,dispatched,opened,left⟩ := ih
          { c with
            ring := consumeFrame ring f
            isOpen := true
            dispatched := c.dispatched ++ [m]
            errorFrames := c.errorFrames ++ errorFrame f.header (dispatch c.dispatched m).result }
          rfl (by simp only; omega)
        simp only [size,consumed] at same dispatched opened left
        refine ⟨next,?_,same,?_⟩
        · simp only [processFrames,decodes,payload]
          rw [header]
          simp only [Prod.mk.eta,kept,if_true]
          rw [header] at runs
          exact runs
        · simp only [parsed,Parsed.after,singleton_append,served,staysOpen,kept,if_true,
            Bool.true_and,dispatched,opened,append_assoc]
          exact ⟨trivial,trivial,left⟩

/-- The state while a read is suspended, after `received` has come in: all of it is
parsed as far as it goes, and the ring holds exactly the rest. -/
structure Suspended (dispatch : Dispatcher) (limit : Nat) (received : List UInt8) (c : Connection) : Prop where
  phase : c.phase = .reading
  isOpen : c.isOpen = true
  capacity : c.ring.capacity = limit
  room : c.ring.readableSize < limit
  dispatched : c.dispatched = ((grammar limit).parse received).items
  contents : c.ring.contents = ((grammar limit).parse received).pending
  wellFormed : ¬Malformed ((grammar limit).parse received).ending
  keeps : staysOpen dispatch [] ((grammar limit).parse received).items = true

/-- The state after the loop closed the connection, and why: a handler did, a header
was malformed, or the unparsed rest fills the ring. -/
structure Closed (dispatch : Dispatcher) (limit : Nat) (received : List UInt8) (c : Connection) : Prop where
  phase : c.phase = .ended
  isOpen : c.isOpen = false
  capacity : c.ring.capacity = limit
  dispatched : c.dispatched = served dispatch [] ((grammar limit).parse received).items
  cause : staysOpen dispatch [] ((grammar limit).parse received).items = false ∨
    Malformed ((grammar limit).parse received).ending ∨
    (staysOpen dispatch [] ((grammar limit).parse received).items = true ∧
      ¬Malformed ((grammar limit).parse received).ending ∧
      c.ring.contents = ((grammar limit).parse received).pending ∧
      c.ring.readableSize = limit)

theorem start_suspended (dispatch : Dispatcher) (empty : ring.contents = []) :
    Suspended dispatch ring.capacity [] (start ring) := by
  have nothing : ring.readableSize = 0 := by rw [← contents_length,empty]; rfl
  have positive := capacity_pos ring
  have parsed : (grammar ring.capacity).parse [] = ⟨[],none,[]⟩ := by
    apply Parser.parse_incomplete
    rfl
  have room : ring.writable.empty = false := by
    rw [Bool.eq_false_iff]
    intro full
    have := (writable_empty_iff ring).mp full
    omega
  have begins : start ring = ⟨ring,true,.reading,[],[]⟩ := by
    simp only [start,loopHead,room,if_true]
    rfl
  rw [begins]
  constructor <;> simp_all [Malformed,staysOpen]

theorem data_step (serves : Serves alloc) (dispatch : Dispatcher)
    (c : Connection) (bytes : List UInt8) (before : Suspended dispatch limit received c)
    (nonempty : bytes ≠ []) (fits : bytes.length ≤ c.ring.writable.size) :
    ∃ next, step alloc dispatch c (.data bytes) = some next ∧ (Suspended dispatch limit (received ++ bytes) next ∨
        Closed dispatch limit (received ++ bytes) next) := by
  have appended := receive_contents c.ring bytes fits
  have size : ((c.ring.fill c.ring.writable bytes).commitWrite bytes.length).capacity = limit :=
    (receive_capacity ..).trans before.capacity
  obtain ⟨after,processed,capacity,dispatched,opened,left⟩ :=
    processFrames_spec alloc serves dispatch _
      { c with ring := (c.ring.fill c.ring.writable bytes).commitWrite bytes.length }
      before.isOpen (Nat.lt_succ_self _)
  have taken : step alloc dispatch c (.data bytes) = some (loopHead after) := by
    have allowed : c.phase = .reading ∧ bytes ≠ [] ∧ bytes.length ≤ c.ring.writable.size :=
      ⟨before.phase,nonempty,fits⟩
    simp only [step,if_pos allowed]
    exact congrArg (Option.map loopHead) processed
  simp only [size,appended,before.contents,before.dispatched] at capacity dispatched opened left
  -- the bytes seen so far parse as before, followed by the parse of what was left over
  have parsed := (grammar limit).parse_append received bytes
  generalize (grammar limit).parse (((grammar limit).parse received).pending ++ bytes) = rest
    at parsed dispatched opened left
  have total : after.dispatched = served dispatch [] ((grammar limit).parse (received ++ bytes)).items := by
    rw [dispatched,parsed]
    exact (served_append dispatch [] _ _ before.keeps).symm
  have keeps : staysOpen dispatch [] ((grammar limit).parse (received ++ bytes)).items =
      staysOpen dispatch ((grammar limit).parse received).items rest.items := by
    rw [parsed]
    simp only [Parsed.after,staysOpen_append,before.keeps,Bool.true_and,nil_append]
  have ending : ((grammar limit).parse (received ++ bytes)).ending = rest.ending := by
    rw [parsed]
    rfl
  have pending : ((grammar limit).parse (received ++ bytes)).pending = rest.pending := by
    rw [parsed]
    rfl
  rw [← keeps,← ending] at opened
  rw [← keeps,← pending] at left
  refine ⟨loopHead after,taken,?_⟩
  by_cases stillOpen : after.isOpen = true
  · obtain ⟨kept,wellFormed⟩ := opened.mp stillOpen
    by_cases full : after.ring.writable.empty = true
    · right
      simp only [loopHead,stillOpen,full,if_true]
      have filled := (writable_empty_iff _).mp full
      exact ⟨rfl,rfl,capacity,total,.inr (.inr ⟨kept,wellFormed,left kept,filled.trans capacity⟩)⟩
    · left
      simp only [loopHead,stillOpen,full,if_true,Bool.false_eq_true,if_false]
      have bounded := readableSize_le after.ring
      have notFull : after.ring.readableSize ≠ after.ring.capacity :=
        fun h => full ((writable_empty_iff _).mpr h)
      have room : after.ring.readableSize < limit := by omega
      exact ⟨rfl,rfl,capacity,room,total.trans (served_open _ _ _ kept),left kept,wellFormed,kept⟩
  · right
    simp only [loopHead,stillOpen]
    refine ⟨rfl,by simp,capacity,total,?_⟩
    rw [opened,not_and_or] at stillOpen
    rcases stillOpen with closes | bad
    · exact .inl (by simpa using closes)
    · exact .inr (.inl (by simpa using bad))

theorem reads_run (serves : Serves alloc) (dispatch : Dispatcher)
    (c next : Connection) (before : Suspended dispatch limit received c) (chunks : List (List UInt8))
    (runs : run (step alloc dispatch) c (chunks.map .data) = some next) :
    Suspended dispatch limit (received ++ chunks.flatten) next ∨
      Closed dispatch limit (received ++ chunks.flatten) next := by
  induction chunks generalizing c received with
  | nil =>
    cases runs
    simpa using Or.inl before
  | cons chunk rest ih =>
    obtain ⟨middle,taken,remaining⟩ := (run_cons ..).mp runs
    have admissible : chunk ≠ [] ∧ chunk.length ≤ c.ring.writable.size := by
      simp only [step] at taken
      split at taken
      · rename_i allowed
        exact allowed.2
      · cases taken
    obtain ⟨reached,taken',outcome⟩ :=
      data_step alloc serves dispatch c chunk before admissible.1 admissible.2
    rw [taken] at taken'
    cases taken'
    rcases outcome with suspended | closed
    · simpa using ih middle suspended remaining
    cases rest with
    | nil =>
      cases remaining
      simpa using Or.inr closed
    | cons second rest =>
      obtain ⟨_,impossible,_⟩ := (run_cons ..).mp remaining
      cases second <;> simp [step,closed.phase] at impossible

end

theorem full_oversize (wellFormed : ¬Malformed ((grammar limit).parse received).ending)
    (full : ((grammar limit).parse received).pending.length = limit) :
    limit < 12 ∨ ∃ header, limit < header.frameSize ∧
      ((grammar limit).parse received).ending = some (.oversize header) := by
  have seen := (grammar limit).head_pending received
  cases ending : ((grammar limit).parse received).ending with
  | none =>
    rw [ending] at seen
    have reads := FrameGrammar.head_reads limit ((grammar limit).parse received).pending
    rw [show head limit _ = _ from seen] at reads
    cases reads <;> omega
  | some reason =>
    cases reason with
    | malformed e => simp [ending,Malformed] at wellFormed
    | oversize header =>
      have reads := FrameGrammar.head_reads limit ((grammar limit).parse received).pending
      rw [show head limit _ = _ from seen,ending] at reads
      cases reads with
      | oversize _ _ large => exact .inr ⟨header,large,rfl⟩

theorem items_tiny (tiny : limit < 12) (stream : List UInt8) : ((grammar limit).parse stream).items = [] := by
  cases seen : (grammar limit).head stream with
  | item m rest =>
    obtain ⟨_,fits,_⟩ := head_item seen
    simp only [WireHeader.frameSize,WireHeader.size] at fits
    omega
  | incomplete => rw [(grammar limit).parse_incomplete seen]
  | stop reason => rw [(grammar limit).parse_stop seen]

theorem closed_served (closed : Closed dispatch limit received c) (more : List UInt8) :
    served dispatch [] ((grammar limit).parse (received ++ more)).items = c.dispatched := by
  rw [closed.dispatched]
  rcases closed.cause with closes | bad | ⟨kept,wellFormed,contents,full⟩
  · rw [Parser.parse_append]
    exact served_closed dispatch [] _ _ closes
  · cases ending : ((grammar limit).parse received).ending with
    | none => simp [ending,Malformed] at bad
    | some reason => rw [(grammar limit).items_stopped _ _ ending]
  rw [← contents_length,contents] at full
  rcases full_oversize wellFormed full with tiny | ⟨header,large,ending⟩
  · rw [items_tiny tiny,items_tiny tiny]
  · rw [(grammar limit).items_stopped _ _ ending]

/-- For every capacity, stream and segmentation: the dispatcher sees what parsing the whole stream yields, cut only
where a handler closes the session. The loop waits for data only with room for it and without a complete frame, and
ends only for a handler, a malformed header or a frame larger than the ring. -/
theorem segmentation_irrelevant (alloc : Allocator) (serves : Serves alloc) (requested : Nat)
    (word : requested < 2^64) (memory : Nat → UInt8) (ring : RingBuffer)
    (created : create alloc requested word memory = .ok ring) (dispatch : Dispatcher)
    (chunks : List (List UInt8)) (c : Connection)
    (runs : Execution.run (step alloc dispatch) (start ring) (chunks.map .data) = some c) :
    let received := chunks.flatten
    let parsed := (grammar ring.capacity).parse received
    (∀ stream, received <+: stream → received = stream ∨ c.phase = .ended →
      c.dispatched = served dispatch [] ((grammar ring.capacity).parse stream).items ∧
      ((∀ history m, (dispatch history m).isOpen = true) →
        c.dispatched = ((grammar ring.capacity).parse stream).items)) ∧
    (c.phase = .reading → c.isOpen = true ∧ c.ring.writable.empty = false ∧
      (∀ m rest, head ring.capacity c.ring.contents ≠ .item m rest) ∧
      (∀ e, parsed.ending ≠ some (.malformed e)) ∧
      ∀ bytes, bytes ≠ [] → bytes.length ≤ c.ring.writable.size →
        ∃ next, step alloc dispatch c (.data bytes) = some next) ∧
    (c.phase = .ended → c.isOpen = false ∧ (staysOpen dispatch [] parsed.items = false ∨
        (∃ e, parsed.ending = some (.malformed e)) ∨
        (c.ring.writable.empty = true ∧ (ring.capacity < 12 ∨ ∃ header, ring.capacity < header.frameSize ∧
            parsed.ending = some (.oversize header))))) := by
  intro received parsed
  have empty := (create_spec alloc requested word memory ring created).1
  have outcome := reads_run alloc serves dispatch _ c (start_suspended dispatch empty) chunks runs
  simp only [nil_append] at outcome
  refine ⟨?_,?_,?_⟩
  · intro stream arrives settled
    have cut : c.dispatched = served dispatch [] ((grammar ring.capacity).parse stream).items := by
      obtain ⟨more,rfl⟩ := arrives
      rcases outcome with suspended | closed
      · rcases settled with whole | ended
        · rw [← whole,suspended.dispatched]
          exact (served_open _ _ _ suspended.keeps).symm
        · rw [suspended.phase] at ended
          cases ended
      · exact (closed_served closed more).symm
    refine ⟨cut,fun patient => ?_⟩
    rw [cut]
    exact served_open _ _ _ (staysOpen_patient patient _ _)
  · intro reading
    rcases outcome with suspended | closed
    · refine ⟨suspended.isOpen,?_,?_,?_,?_⟩
      · have room := suspended.room
        have capacity := suspended.capacity
        rw [Bool.eq_false_iff]
        intro full
        have filled := (writable_empty_iff _).mp full
        omega
      · intro m rest seen
        have pending := (grammar ring.capacity).head_pending received
        rw [← suspended.contents] at pending
        have both := seen.symm.trans pending
        split at both <;> cases both
      · intro e bad
        apply suspended.wellFormed
        simp only [parsed] at bad
        simp [received,bad,Malformed]
      · intro bytes nonempty fits
        obtain ⟨next,taken,_⟩ := data_step alloc serves dispatch c bytes suspended nonempty fits
        exact ⟨next,taken⟩
    · rw [closed.phase] at reading
      cases reading
  · intro ended
    rcases outcome with suspended | closed
    · rw [suspended.phase] at ended
      cases ended
    refine ⟨closed.isOpen,?_⟩
    rcases closed.cause with closes | bad | ⟨kept,wellFormed,contents,full⟩
    · exact .inl closes
    · exact .inr (.inl (malformed_error bad))
    refine .inr (.inr ⟨?_,?_⟩)
    · exact (writable_empty_iff _).mpr (full.trans closed.capacity.symm)
    · rw [← contents_length,contents] at full
      exact full_oversize wellFormed full

def sixteen : RingBuffer :=
  (create ⟨fun _ => true⟩ 16 (by decide) fun _ => 0).toOption.get (by decide)

theorem segmentation_irrelevant_wrapping : ∃ c,create ⟨fun _ => true⟩ 9 (by decide) (fun _ => 0) = .ok sixteen ∧
    Execution.run (step ⟨fun _ => true⟩ fun _ _ => ⟨.ok (),true⟩) (start sixteen)
      ([[2,0,0,0,0],[7,0,0,0,2,0,0,9],[8,2],[1],[0,0,0,3,0,0,0,1,0,0,4]].map .data) = some c ∧
    c.dispatched = ((grammar 16).parse [2,0,0,0,0,7,0,0,0,2,0,0,9,8,2,1,0,0,0,3,0,0,0,1,0,0,4]).items := by
  have enabled : (run (step ⟨fun _ => true⟩ fun _ _ => ⟨.ok (),true⟩) (start sixteen)
      ([[2,0,0,0,0],[7,0,0,0,2,0,0,9],[8,2],[1],[0,0,0,3,0,0,0,1,0,0,4]].map .data)).isSome := by
    decide +kernel
  obtain ⟨c,runs⟩ := Option.isSome_iff_exists.mp enabled
  refine ⟨c,rfl,runs,?_⟩
  exact ((segmentation_irrelevant ⟨fun _ => true⟩ (fun _ _ => rfl) 9 (by decide) (fun _ => 0)
    sixteen rfl (fun _ _ => ⟨.ok (),true⟩) _ c runs).1 _ (prefix_refl _) (.inl rfl)).2 (fun _ _ => rfl)

end ApexPipeline.ConnectionHandler
