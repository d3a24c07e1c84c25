import ApexPipeline.RingBufferFifo

/-! The ring buffer refines a bounded byte queue: every call, with any argument,
answers as the queue would. Positions, masks and the scratch buffer do not show. -/
namespace ApexPipeline
open MathUtils CircularBuffer List

/-- No object is larger than `PTRDIFF_MAX`. -/
def Allocator.Bounded (alloc : Allocator) : Prop := ∀ n, 2^63 ≤ n → alloc.grants n = false

namespace RingBuffer

/-- The public calls. `receive` is `writable()`, a copy of as much of `source` as fits, and `commit_write(n)`. Each
call that allocates meets the heap as it is then. -/
inductive Operation where
  | write (data : List UInt8)
  | receive (source : List UInt8) (n : Nat)
  | consume (n : Nat)
  | linearize (alloc : Allocator) (n : Nat)
  | contiguousRead
  | shrinkToFit (alloc : Allocator)
  | reset

/-- What the caller gets: nothing, the result of `write`, or the bytes that a returned
span shows, when they are all live. -/
inductive Output where
  | done
  | accepted (result : Bool)
  | shown (bytes : Option (List UInt8))
  deriving DecidableEq, Repr

def perform (rb : RingBuffer) : Operation → Option (Output × RingBuffer)
  | .write data =>
    let (result,rb) := rb.write data
    some (.accepted result,rb)
  | .receive source n =>
    let span := rb.writable
    some (.done,(rb.fill span (source.take span.size)).commitWrite n)
  | .consume n => some (.done,rb.consume n)
  | .linearize alloc n =>
    let (span,rb) := linearize alloc rb n
    some (.shown (rb.bytes span),rb)
  | .contiguousRead => some (.shown (rb.bytes rb.contiguousRead),rb)
  | .shrinkToFit alloc => (shrinkToFit alloc rb).map fun rb => (.done,rb)
  | .reset => some (.done,rb.reset)

def performAll : RingBuffer → List Operation → Option (List Output × RingBuffer)
  | rb, [] => some ([],rb)
  | rb, op :: rest =>
    (rb.perform op).bind fun (output,rb) =>
      (performAll rb rest).map fun (outputs,rb) => (output :: outputs,rb)

/-- A bounded byte queue. Committing more than was copied appends bytes nobody chose; how far the writable span
reaches is the ring's own affair, but it is empty only when the queue is full. `linearize` may come back empty when
the heap refuses it. -/
inductive Queue (capacity : Nat) : List UInt8 → Operation → Output → List UInt8 → Prop
  | append : queue.length + data.length ≤ capacity →
      Queue capacity queue (.write data) (.accepted true) (queue ++ data)
  | refuse : capacity < queue.length + data.length → Queue capacity queue (.write data) (.accepted false) queue
  | commit : room ≤ capacity - queue.length → (room = 0 → queue.length = capacity) →
      added.length = min n (capacity - queue.length) → (source.take room).take n <+: added →
      Queue capacity queue (.receive source n) .done (queue ++ added)
  | consume : Queue capacity queue (.consume n) .done (queue.drop n)
  | short : queue.length < n → Queue capacity queue (.linearize alloc n) (.shown (some [])) queue
  | linearize : n ≤ queue.length → Queue capacity queue (.linearize alloc n) (.shown (some (queue.take n))) queue
  | starved : n ≤ queue.length → alloc.grants n = false →
      Queue capacity queue (.linearize alloc n) (.shown (some [])) queue
  | contiguousRead : view <+: queue → (queue ≠ [] → view ≠ []) →
      Queue capacity queue .contiguousRead (.shown (some view)) queue
  | shrinkToFit : Queue capacity queue (.shrinkToFit alloc) .done queue
  | reset : Queue capacity queue .reset .done []

inductive QueueRun (capacity : Nat) : List UInt8 → List Operation → List Output → List UInt8 → Prop
  | nil : QueueRun capacity queue [] [] queue
  | cons : Queue capacity queue op output middle → QueueRun capacity middle rest outputs final →
      QueueRun capacity queue (op :: rest) (output :: outputs) final

section
variable (rb : RingBuffer)

theorem commitWrite_contents (n : Nat) : (rb.commitWrite n).contents = rb.contents ++
      window rb.buffer rb.capacity (rb.cursor.readPos + rb.readableSize) (min n rb.writableSize) := by
  have clamped : rb.cursor.commitWrite n = rb.cursor.commitWrite (min n rb.writableSize) := by
    simp [Cursor.commitWrite,writableSize]
  have grown := rb.cursor.readableSize_commitWrite (min n rb.writableSize) (Nat.min_le_right _ _)
  unfold commitWrite contents capacity readableSize
  rw [clamped]
  simp only [Cursor.commitWrite_capacity,Cursor.commitWrite_readPos]
  rw [grown,window_append]

theorem receive_appends (copied : List UInt8) (n : Nat)
    (fits : copied.length ≤ rb.writable.size) :
    ∃ added, ((rb.fill rb.writable copied).commitWrite n).contents = rb.contents ++ added ∧
      added.length = min n (rb.capacity - rb.readableSize) ∧ copied.take n <+: added := by
  have free := rb.writableSize_eq
  have size := rb.writable_size_le
  have within := rb.readableSize_le
  have cursor : (rb.fill rb.writable copied).cursor = rb.cursor := by
    unfold fill
    split <;> rfl
  generalize filled : rb.fill rb.writable copied = next at cursor
  have sizes : next.readableSize = rb.readableSize ∧ next.writableSize = rb.writableSize := by
    simp only [readableSize,writableSize,cursor,and_self]
  -- committing exactly the copied bytes shows what lies behind the readable ones
  have exactly := receive_contents rb copied fits
  rw [filled,commitWrite_contents,sizes.1,sizes.2,Nat.min_eq_left (by omega)] at exactly
  obtain ⟨same,behind⟩ := append_inj exactly (by simp [sizes.1])
  refine ⟨_,by rw [commitWrite_contents,sizes.1,sizes.2,same],by rw [window_length,free],?_⟩
  rw [← behind]
  rcases Nat.le_total n copied.length with less | more
  · have equal : n = min n rb.writableSize := by omega
    exact ⟨[],by rw [append_nil,← equal]; exact window_take _ _ _ _ _ less⟩
  · rw [take_of_length_le (by simpa using more),
      ← window_take _ _ _ (min n rb.writableSize) copied.length (by omega)]
    exact take_prefix _ _

theorem writable_turned (whole : copied.length = rb.writable.size) (short : rb.writable.size < rb.writableSize) :
    let next := (rb.fill rb.writable copied).commitWrite copied.length
    next.writable.size = rb.writableSize - rb.writable.size := by
  intro next
  have free := rb.writableSize_eq
  have within := rb.readableSize_le
  have capacity : next.capacity = rb.capacity := receive_capacity ..
  have readable : next.readableSize = rb.readableSize + copied.length := by
    rw [← contents_length,receive_contents rb copied (by omega),length_append,contents_length]
  have readPos : next.cursor.readPos = rb.cursor.readPos := by
    simp only [next,commitWrite,fill]
    split <;> rfl
  have spec := writable_spec rb (by omega)
  have toEnd : rb.writable.size = rb.capacity - (rb.cursor.readPos + rb.readableSize) % rb.capacity := by
    rw [spec] at short ⊢
    simp only at short ⊢
    omega
  rw [writable_spec next (by omega),capacity,readable,readPos,whole,← Nat.add_assoc,toEnd,
    turn_origin _ rb.capacity_pos]
  simp only
  omega

theorem write_queue (data : List UInt8) :
    ∃ result next, rb.write data = (result,next) ∧ next.capacity = rb.capacity ∧
      Queue rb.capacity rb.contents (.write data) (.accepted result) next.contents := by
  have free := rb.writableSize_eq
  have within := rb.readableSize_le
  unfold write
  by_cases empty : data = []
  · subst empty
    refine ⟨true,rb,by simp,rfl,?_⟩
    have appended : Queue rb.capacity rb.contents (.write []) (.accepted true)
        (rb.contents ++ []) := .append (by simpa using within)
    rwa [append_nil] at appended
  rw [if_neg empty]
  by_cases large : data.length > rb.writableSize
  · rw [if_pos large]
    exact ⟨false,rb,rfl,rfl,.refuse (by rw [contents_length]; omega)⟩
  rw [if_neg large]
  have appends : rb.contents.length + data.length ≤ rb.capacity := by
    rw [contents_length]
    omega
  by_cases straight : rb.writable.size ≥ data.length
  · refine ⟨true,_,if_pos straight,receive_capacity ..,?_⟩
    rw [receive_contents rb data straight]
    exact .append appends
  -- the first copy ends at the physical end, the second one starts at address zero
  rw [if_neg straight]
  have first : (data.take rb.writable.size).length = rb.writable.size := by
    rw [length_take]
    omega
  have turned := writable_turned rb first (by omega)
  have copied := receive_contents rb _ (Nat.le_of_eq first)
  have kept := receive_capacity rb rb.writable (data.take rb.writable.size) rb.writable.size
  rw [first] at turned copied
  simp only at turned ⊢
  generalize (rb.fill rb.writable (data.take rb.writable.size)).commitWrite rb.writable.size
    = middle at turned copied kept ⊢
  have rest : (data.drop rb.writable.size).length = data.length - rb.writable.size :=
    length_drop
  refine ⟨true,_,rfl,(receive_capacity ..).trans kept,?_⟩
  rw [← rest,receive_contents middle _ (by omega),copied,append_assoc,take_append_drop]
  exact .append appends

theorem consume_queue (n : Nat) :
    Queue rb.capacity rb.contents (.consume n) .done (rb.consume n).contents := by
  have clamped : rb.consume n = rb.consume (min n rb.readableSize) := by
    simp [consume,Cursor.consume,readableSize]
  have dropped : rb.contents.drop (min n rb.readableSize) = rb.contents.drop n := by
    rcases Nat.le_total n rb.readableSize with less | more
    · rw [Nat.min_eq_left less]
    · rw [Nat.min_eq_right more,drop_of_length_le (by simp),drop_of_length_le (by simpa using more)]
  rw [clamped,consume_contents rb (Nat.min_le_right _ _),dropped]
  exact .consume

section
variable (alloc : Allocator) (rb : RingBuffer) (n : Nat)

theorem linearize_served :
    linearize alloc rb n = linearize ⟨fun _ => true⟩ rb n ∨
      alloc.grants n = false ∧ linearize alloc rb n = (.none,rb) := by
  by_cases granted : alloc.grants n = true
  · left
    simp only [linearize,reserveLinear,granted]
  have refused := Bool.eq_false_iff.mpr granted
  unfold linearize reserveLinear
  by_cases small : rb.linearBufSize < n
  · simp only [small,if_true,refused,Bool.false_eq_true,if_false]
    split
    · exact .inl rfl
    · split
      · exact .inl rfl
      · exact .inr ⟨trivial,rfl⟩
  · left
    simp only [small,if_false]

theorem linearize_queue :
    ∃ span next, linearize alloc rb n = (span,next) ∧ next.capacity = rb.capacity ∧ next.contents = rb.contents ∧
      Queue rb.capacity rb.contents (.linearize alloc n) (.shown (next.bytes span)) rb.contents := by
  by_cases short : rb.readableSize < n
  · refine ⟨.none,rb,if_pos short,rfl,rfl,?_⟩
    exact .short (by simpa using short)
  have fits : n ≤ rb.contents.length := by simpa using short
  rcases linearize_served alloc rb n with same | ⟨refused,same⟩
  · obtain ⟨span,next,done,_,shown,buffer,cursor⟩ :=
      linearize_spec ⟨fun _ => true⟩ rb n (Nat.not_lt.mp short) rfl
    refine ⟨span,next,same.trans done,by unfold capacity; rw [cursor],contents_congr next rb buffer cursor,?_⟩
    rw [shown]
    exact .linearize fits
  · exact ⟨.none,rb,same,rfl,rfl,.starved fits refused⟩

end

theorem contiguousRead_queue :
    Queue rb.capacity rb.contents .contiguousRead (.shown (rb.bytes rb.contiguousRead)) rb.contents := by
  have low := Nat.mod_lt rb.cursor.readPos rb.capacity_pos
  have address : rb.cursor.readPos &&& rb.cursor.mask = rb.cursor.readPos % rb.capacity :=
    rb.cursor.masked _
  have length := rb.contents_length
  unfold contiguousRead
  by_cases none' : rb.readableSize = 0
  · rw [if_pos none']
    change Queue _ _ .contiguousRead (.shown (some [])) _
    refine .contiguousRead nil_prefix ?_
    intro some'
    exact absurd (length_eq_zero_iff.mp (by omega)) some'
  · simp only [if_neg none',address]
    generalize shorter : min (rb.capacity - rb.cursor.readPos % rb.capacity) rb.readableSize = n
    have view : rb.bytes ⟨.buffer (rb.cursor.readPos % rb.capacity),n⟩ = some (rb.contents.take n) := by
      simp only [bytes,load]
      rw [if_pos (by omega),contents,window_take _ _ _ _ _ (by omega),
        window_contiguous _ rb.capacity_pos (by omega)]
    rw [view]
    refine .contiguousRead ( take_prefix _ _) ?_
    intro _ empty
    have nothing := congrArg List.length empty
    rw [length_take,length_nil] at nothing
    omega

/-- `realloc` is asked for a positive size as long as the ring is no larger than any
object can be. -/
theorem shrinkToFit_contents (alloc : Allocator) (rb : RingBuffer) (small : rb.capacity ≤ 2^62) :
    ∃ next, shrinkToFit alloc rb = some next ∧ next.capacity = rb.capacity ∧ next.contents = rb.contents := by
  have within := rb.readableSize_le
  unfold shrinkToFit
  split
  · exact ⟨rb,rfl,rfl,rfl⟩
  by_cases unused : rb.readableSize = 0
  · exact ⟨_,if_pos unused,rfl,rfl⟩
  have positive : mulSize rb.readableSize 2 ≠ 0 := by
    unfold mulSize
    omega
  simp only [if_neg unused,if_neg positive]
  split
  · split
    · exact ⟨_,rfl,rfl,rfl⟩
    · exact ⟨rb,rfl,rfl,rfl⟩
  · exact ⟨rb,rfl,rfl,rfl⟩

theorem reset_contents : rb.reset.contents = [] := by
  simp [reset,contents,readableSize,Cursor.readableSize,Cursor.reset,subSize,window]

theorem perform_queue (small : rb.capacity ≤ 2^62) (op : Operation) :
    ∃ output next, rb.perform op = some (output,next) ∧ next.capacity = rb.capacity ∧
      Queue rb.capacity rb.contents op output next.contents := by
  cases op with
  | write data =>
    obtain ⟨result,next,done,capacity,answers⟩ := write_queue rb data
    exact ⟨_,next,by simp only [perform,done],capacity,answers⟩
  | receive source n =>
    have size := rb.writable_size_le
    have full := rb.writable_empty_iff
    obtain ⟨added,contents,length,copied⟩ := receive_appends rb (source.take rb.writable.size) n
      (by rw [length_take]; omega)
    refine ⟨_,_,rfl,receive_capacity ..,?_⟩
    rw [contents]
    have room : rb.writable.size ≤ rb.capacity - rb.contents.length := by simpa using size
    refine .commit room ?_ (by simpa using length) copied
    intro none'
    rw [contents_length]
    exact full.mp (by simp [Span.empty,none'])
  | consume n => exact ⟨_,_,rfl,rfl,consume_queue rb n⟩
  | linearize alloc n =>
    obtain ⟨span,next,done,capacity,contents,answers⟩ := linearize_queue alloc rb n
    refine ⟨.shown (next.bytes span),next,by simp only [perform,done],capacity,?_⟩
    rw [contents]
    exact answers
  | contiguousRead => exact ⟨_,rb,rfl,rfl,contiguousRead_queue rb⟩
  | shrinkToFit alloc =>
    obtain ⟨next,done,capacity,contents⟩ := shrinkToFit_contents alloc rb small
    refine ⟨.done,next,by simp only [perform,done,Option.map_some],capacity,?_⟩
    rw [contents]
    exact .shrinkToFit
  | reset =>
    refine ⟨_,_,rfl,rfl,?_⟩
    rw [reset_contents]
    exact .reset

theorem performAll_queue (small : rb.capacity ≤ 2^62) (ops : List Operation) :
    ∃ outputs final, rb.performAll ops = some (outputs,final) ∧ final.capacity = rb.capacity ∧
      QueueRun rb.capacity rb.contents ops outputs final.contents := by
  induction ops generalizing rb with
  | nil => exact ⟨[],rb,rfl,rfl,.nil⟩
  | cons op rest ih =>
    obtain ⟨output,next,done,capacity,answers⟩ := perform_queue rb small op
    obtain ⟨outputs,final,later,capacity',run⟩ := ih next (capacity ▸ small)
    refine ⟨output :: outputs,final,?_,capacity'.trans capacity,?_⟩
    · simp only [performAll,done,Option.bind_some,later,Option.map_some]
    · rw [capacity] at run
      exact .cons answers run

end

/-- A ring that could be allocated leaves room for twice its size in a word. -/
theorem create_small (bounded : alloc.Bounded) (rb : RingBuffer)
    (created : create alloc requested word memory = .ok rb) : rb.capacity ≤ 2^62 := by
  obtain ⟨k,_,power⟩ := rb.cursor.power
  obtain ⟨_,_,granted⟩ := create_spec alloc requested word memory rb created
  have below : rb.capacity < 2^63 := by
    by_contra large
    have refused := bounded (max rb.capacity 64) (by omega)
    rw [granted] at refused
    contradiction
  change rb.cursor.capacity < 2^63 at below
  change rb.cursor.capacity ≤ 2^62
  rw [power] at below ⊢
  have exponent : k < 63 := (Nat.pow_lt_pow_iff_right (by decide)).mp below
  exact Nat.pow_le_pow_right (by decide) (Nat.le_of_lt_succ exponent)

/-- Every sequence of calls on a new ring runs to its end and answers as a bounded
queue does; the sizes are those of the queue. -/
theorem refines_queue (alloc : Allocator) (bounded : alloc.Bounded) (requested : Nat)
    (word : requested < 2^64) (memory : Nat → UInt8) (rb : RingBuffer)
    (created : create alloc requested word memory = .ok rb) (ops : List Operation) :
    ∃ outputs final queue, rb.performAll ops = some (outputs,final) ∧
      QueueRun rb.capacity [] ops outputs queue ∧ final.contents = queue ∧
      final.capacity = rb.capacity ∧ final.readableSize = queue.length ∧
      queue.length ≤ rb.capacity ∧ final.writableSize = rb.capacity - queue.length := by
  have small := create_small bounded rb created
  have empty := (create_spec alloc requested word memory rb created).1
  obtain ⟨outputs,final,done,capacity,run⟩ := performAll_queue rb small ops
  rw [empty] at run
  have within := final.readableSize_le
  have free := final.writableSize_eq
  rw [capacity] at within free
  exact ⟨outputs,final,final.contents,done,run,rfl,capacity,final.contents_length.symm,
    by rwa [contents_length],by rwa [contents_length]⟩

def eight : RingBuffer :=
  (create ⟨fun _ => true⟩ 8 (by decide) fun _ => 0).toOption.get (by decide)

def wrapping : List Operation :=
  [.write [1,2,3,4,5,6],.consume 5,.write [7,8,9,10,11],.write [12,13,14],
    .linearize ⟨fun n => decide (n < 2^63)⟩ 6,.contiguousRead,.consume 4,
    .shrinkToFit ⟨fun n => decide (n < 2^63)⟩,.receive [15] 99]

theorem refines_queue_wrapping : create ⟨fun n => decide (n < 2^63)⟩ 5 (by decide) (fun _ => 0) = .ok eight ∧
    ∃ outputs final queue, eight.performAll wrapping = some (outputs,final) ∧
      QueueRun 8 [] wrapping outputs queue ∧ final.contents = queue ∧
      final.capacity = 8 ∧ final.readableSize = queue.length ∧ queue.length ≤ 8 ∧
      final.writableSize = 8 - queue.length :=
  ⟨rfl,refines_queue ⟨fun n => decide (n < 2^63)⟩ (fun n large => by simpa using large) 5
    (by decide) (fun _ => 0) eight rfl wrapping⟩

end RingBuffer
end ApexPipeline
