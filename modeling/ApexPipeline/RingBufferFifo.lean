import ApexPipeline.RingBuffer

/-! The ring buffer seen as a byte queue. Each operation has one lemma about
`contents`; nothing later looks at positions, masks or the scratch buffer. -/
namespace ApexPipeline.RingBuffer
open MathUtils CircularBuffer

section
variable (rb : RingBuffer)

@[simp] theorem contents_length : rb.contents.length = rb.readableSize := by
  simp [contents]

theorem readableSize_le : rb.readableSize ≤ rb.capacity := rb.cursor.bounded

theorem capacity_pos : 0 < rb.capacity := rb.cursor.capacity_pos

theorem writableSize_eq : rb.writableSize = rb.capacity - rb.readableSize :=
  rb.cursor.writableSize_eq

theorem create_spec (alloc : Allocator) (requested : Nat) (word : requested < 2^64)
    (memory : Nat → UInt8) (rb : RingBuffer)
    (created : create alloc requested word memory = .ok rb) :
    rb.contents = [] ∧ rb.capacity = nextPowerOf2 (if requested < 1 then 1 else requested) ∧
      alloc.grants (max rb.capacity 64) = true := by
  unfold create at created
  simp only at created
  by_cases zero : nextPowerOf2 (if requested < 1 then 1 else requested) = 0
  · rw [dif_pos zero] at created
    contradiction
  rw [dif_neg zero] at created
  by_cases granted : alloc.grants (max (nextPowerOf2 (if requested < 1 then 1 else requested)) 64)
  · rw [if_pos granted] at created
    cases created
    exact ⟨by simp [contents,window,readableSize,Cursor.readableSize,subSize],rfl,granted⟩
  · rw [if_neg granted] at created
    contradiction

theorem writable_spec (room : rb.readableSize < rb.capacity) :
    rb.writable = ⟨.buffer ((rb.cursor.readPos + rb.readableSize) % rb.capacity),
      min (rb.capacity - (rb.cursor.readPos + rb.readableSize) % rb.capacity) (rb.capacity - rb.readableSize)⟩ := by
  have free := rb.writableSize_eq
  have address := rb.cursor.write_address
  unfold writable
  simp only [free]
  rw [if_neg (by omega),address]
  rfl

theorem writable_empty_iff : rb.writable.empty = true ↔ rb.readableSize = rb.capacity := by
  by_cases room : rb.readableSize < rb.capacity
  · have low := Nat.mod_lt (rb.cursor.readPos + rb.readableSize) rb.capacity_pos
    rw [writable_spec rb room]
    simp only [Span.empty,beq_iff_eq]
    omega
  · have full : rb.readableSize = rb.capacity := by have := rb.readableSize_le; omega
    have free := rb.writableSize_eq
    simp [writable,Span.none,Span.empty,full,free]

theorem writable_size_le : rb.writable.size ≤ rb.capacity - rb.readableSize := by
  by_cases room : rb.readableSize < rb.capacity
  · rw [writable_spec rb room]
    exact Nat.min_le_right _ _
  · have free := rb.writableSize_eq
    simp [writable,Span.none,show rb.writableSize = 0 by omega]

theorem receive_contents (data : List UInt8) (fits : data.length ≤ rb.writable.size) :
    ((rb.fill rb.writable data).commitWrite data.length).contents = rb.contents ++ data := by
  by_cases room : rb.readableSize < rb.capacity
  · have spec := writable_spec rb room
    have size := rb.writable_size_le
    have low := Nat.mod_lt (rb.cursor.readPos + rb.readableSize) rb.capacity_pos
    have straight : (rb.cursor.readPos + rb.readableSize) % rb.capacity + data.length ≤ rb.capacity := by
      rw [spec] at fits
      simp only at fits
      omega
    have grown : (rb.cursor.commitWrite data.length).readableSize = rb.readableSize + data.length := by
      apply rb.cursor.readableSize_commitWrite
      have free := rb.writableSize_eq
      unfold writableSize at free
      omega
    rw [spec]
    simp only [fill,commitWrite,contents,capacity,readableSize,Cursor.commitWrite_capacity,
      Cursor.commitWrite_readPos]
    rw [grown]
    exact window_write rb.buffer rb.capacity rb.cursor.readPos rb.readableSize data
      rb.capacity_pos straight (by have := rb.readableSize_le; omega)
  · -- Nothing fits into a full ring, so nothing was written.
    have size := rb.writable_size_le
    have empty : data = [] := List.eq_nil_of_length_eq_zero (by omega)
    have same : (rb.cursor.commitWrite 0).readableSize = rb.readableSize :=
      rb.cursor.readableSize_commitWrite 0 (Nat.zero_le _)
    subst data
    unfold fill
    split
    · simp [commitWrite,contents,capacity,readableSize,same,window,overwrite]
    · simp [commitWrite,contents,capacity,readableSize,same]

theorem receive_capacity (span : Span) (data : List UInt8) (n : Nat) :
    ((rb.fill span data).commitWrite n).capacity = rb.capacity := by
  unfold fill
  split <;> rfl

theorem consume_contents (fits : n ≤ rb.readableSize) :
    (rb.consume n).contents = rb.contents.drop n := by
  have address := rb.cursor.consume_address fits
  have shorter := rb.cursor.readableSize_consume fits
  have dropped := window_drop rb.buffer rb.cursor.capacity rb.cursor.readPos rb.cursor.readableSize n fits
  unfold contents consume
  simp only [capacity,readableSize,Cursor.consume_capacity]
  rw [dropped,shorter]
  refine List.map_congr_left fun i _ => ?_
  rw [Nat.add_mod,address,← Nat.add_mod]

theorem load_advance (live : rb.load p n = some bs) (inside : offset + count ≤ n) :
    rb.load (p.advance offset) count = some ((bs.drop offset).take count) := by
  cases p with
  | null =>
    simp only [load] at live
    split at live
    · cases live
      simp [load,Pointer.advance,show count = 0 by omega]
    · contradiction
  | buffer start =>
    simp only [load] at live
    split at live
    · cases live
      simp only [load,Pointer.advance]
      rw [if_pos (by omega),slice_take_drop _ _ inside]
    · contradiction
  | linear allocation start =>
    simp only [load] at live
    split at live
    · contradiction
    rename_i scratch found
    split at live
    · rename_i current
      cases live
      simp only [load,Pointer.advance,found]
      rw [if_pos ⟨current.1,by omega⟩,slice_take_drop _ _ inside]
    · contradiction

theorem bytes_subspan (live : rb.bytes s = some bs) (inside : offset + count ≤ s.size) :
    rb.bytes (s.subspan offset count) = some ((bs.drop offset).take count) :=
  load_advance rb live inside

end

theorem linearize_spec (alloc : Allocator) (rb : RingBuffer) (n : Nat)
    (fits : n ≤ rb.readableSize) (granted : alloc.grants n = true) :
    ∃ span next, linearize alloc rb n = (span,next) ∧ span.size = n ∧
      next.bytes span = some (rb.contents.take n) ∧ next.buffer = rb.buffer ∧
      next.cursor = rb.cursor := by
  have within := rb.readableSize_le
  have low := Nat.mod_lt rb.cursor.readPos rb.capacity_pos
  have first : rb.contents.take n = window rb.buffer rb.capacity rb.cursor.readPos n :=
    window_take _ _ _ _ _ fits
  have address : rb.cursor.readPos &&& rb.cursor.mask = rb.cursor.readPos % rb.capacity :=
    rb.cursor.masked _
  unfold linearize
  rw [if_neg (by omega)]
  simp only [address]
  by_cases contiguous : rb.capacity - rb.cursor.readPos % rb.capacity ≥ n
  · refine ⟨_,_,if_pos contiguous,rfl,?_,rfl,rfl⟩
    rw [first,window_contiguous _ rb.capacity_pos (by omega)]
    simp only [bytes,load]
    rw [if_pos (by omega)]
  · rw [if_neg contiguous,first,window_wrapping _ rb.capacity_pos (by omega) (by omega)]
    -- Either the scratch buffer is large enough already or it is reallocated to `n`.
    obtain ⟨room,reserved,large,same,cursor⟩ : ∃ room, reserveLinear alloc rb n = some room ∧
        n ≤ room.linearBufSize ∧ room.buffer = rb.buffer ∧ room.cursor = rb.cursor := by
      unfold reserveLinear
      by_cases small : rb.linearBufSize < n
      · rw [if_pos small,if_pos granted]
        exact ⟨_,rfl,by simp [linearBufSize],rfl,rfl⟩
      · rw [if_neg small]
        exact ⟨rb,rfl,by omega,rfl,rfl⟩
    rw [reserved]
    refine ⟨_,_,rfl,rfl,?_,same,cursor⟩
    simp only [bytes,load,Nat.zero_add]
    rw [if_pos ⟨trivial,large⟩,same]
    congr 1
    -- The two copies lie side by side and cover the whole span.
    have copied := slice_overwrite_twice ((room.linear.map Scratch.bytes).getD fun _ => 0)
      (slice rb.buffer (rb.cursor.readPos % rb.capacity) (rb.capacity - rb.cursor.readPos % rb.capacity))
      (slice rb.buffer 0 (n - (rb.capacity - rb.cursor.readPos % rb.capacity)))
    rw [slice_length,slice_length] at copied
    rwa [Nat.add_sub_cancel' (by omega)] at copied

theorem contents_congr (a b : RingBuffer) (memory : a.buffer = b.buffer)
    (cursor : a.cursor = b.cursor) : a.contents = b.contents := by
  unfold contents readableSize capacity
  rw [memory,cursor]

end ApexPipeline.RingBuffer
