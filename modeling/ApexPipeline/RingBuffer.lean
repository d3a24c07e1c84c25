import ApexPipeline.CircularBuffer
import ApexPipeline.MathUtils

/-! The receive buffer of `ring_buffer.cpp`. A span is a pointer and a length: what it denotes is read from the
buffer at the time of use, and a pointer into the scratch buffer names the allocation it was taken from. -/
namespace ApexPipeline
open MathUtils CircularBuffer

/-- The heap: which requests `aligned_alloc` and `realloc` satisfy. -/
structure Allocator where
  grants : Nat → Bool

/-- The two ways the constructor throws. -/
inductive AllocationFault where
  | overflowError | badAlloc
  deriving DecidableEq, Repr

/-- `capacity_`, `read_pos_` and `write_pos_`. The positions count bytes modulo
`2^64` and are never reduced to addresses; between them lies at most one turn. -/
structure Cursor where
  capacity : Nat
  readPos : Nat
  writePos : Nat
  power : ∃ k, k ≤ 63 ∧ capacity = 2^k
  readWord : readPos < 2^64
  writeWord : writePos < 2^64
  bounded : subSize writePos readPos ≤ capacity

namespace Cursor

variable (c : Cursor)

theorem capacity_pos : 0 < c.capacity := by
  obtain ⟨k,_,equal⟩ := c.power
  rw [equal]
  exact Nat.two_pow_pos k

theorem capacity_le : c.capacity ≤ 2^63 := by
  obtain ⟨k,small,equal⟩ := c.power
  rw [equal]
  exact Nat.pow_le_pow_right (by decide) small

def readableSize (c : Cursor) : Nat := subSize c.writePos c.readPos
def writableSize (c : Cursor) : Nat := subSize c.capacity c.readableSize

theorem writableSize_eq : c.writableSize = c.capacity - c.readableSize := by
  have bounded := c.bounded
  have small := c.capacity_le
  unfold writableSize readableSize subSize at *
  omega

/-- `mask_` is `capacity_ - 1`, fixed at construction. -/
def mask (c : Cursor) : Nat := c.capacity - 1

theorem masked (position : Nat) : position &&& c.mask = position % c.capacity := by
  obtain ⟨k,_,equal⟩ := c.power
  rw [mask,equal,Nat.and_two_pow_sub_one_eq_mod]

/-- `commit_write` clamps, so an oversized count cannot overtake the reader. -/
def commitWrite (c : Cursor) (n : Nat) : Cursor where
  capacity := c.capacity
  readPos := c.readPos
  writePos := addSize c.writePos (min n c.writableSize)
  power := c.power
  readWord := c.readWord
  writeWord := addSize_lt _ _
  bounded := by
    have bounded := c.bounded
    have small := c.capacity_le
    have free := c.writableSize_eq
    unfold readableSize at free
    rw [subSize_addSize_left (by omega)]
    omega

def consume (c : Cursor) (n : Nat) : Cursor where
  capacity := c.capacity
  readPos := addSize c.readPos (min n c.readableSize)
  writePos := c.writePos
  power := c.power
  readWord := addSize_lt _ _
  writeWord := c.writeWord
  bounded := by
    have bounded := c.bounded
    have inside : min n c.readableSize ≤ subSize c.writePos c.readPos := Nat.min_le_right _ _
    rw [subSize_addSize_right c.readWord inside]
    omega

def reset (c : Cursor) : Cursor where
  capacity := c.capacity
  readPos := 0
  writePos := 0
  power := c.power
  readWord := by decide
  writeWord := by decide
  bounded := by simp [subSize]

@[simp] theorem commitWrite_capacity (n : Nat) : (c.commitWrite n).capacity = c.capacity := rfl
@[simp] theorem consume_capacity (n : Nat) : (c.consume n).capacity = c.capacity := rfl
@[simp] theorem commitWrite_readPos (n : Nat) : (c.commitWrite n).readPos = c.readPos := rfl

theorem readableSize_commitWrite (n : Nat) (fits : n ≤ c.writableSize) :
    (c.commitWrite n).readableSize = c.readableSize + n := by
  have small := c.capacity_le
  have free := c.writableSize_eq
  have bounded := c.bounded
  unfold readableSize at *
  simp only [commitWrite,Nat.min_eq_left fits]
  exact subSize_addSize_left (by omega)

theorem readableSize_consume (fits : n ≤ c.readableSize) :
    (c.consume n).readableSize = c.readableSize - n := by
  unfold readableSize at *
  simp only [consume,readableSize,Nat.min_eq_left fits]
  exact subSize_addSize_right c.readWord fits

theorem write_address : c.writePos &&& c.mask = (c.readPos + c.readableSize) % c.capacity := by
  obtain ⟨k,small,equal⟩ := c.power
  have far := addSize_subSize c.writeWord c.readWord
  have address := addSize_mask c.readPos c.readableSize small
  rw [readableSize,far,← equal] at address
  exact address

theorem consume_address (fits : n ≤ c.readableSize) :
    (c.consume n).readPos % c.capacity = (c.readPos + n) % c.capacity := by
  obtain ⟨k,small,equal⟩ := c.power
  have address := addSize_mask c.readPos n small
  rw [Nat.and_two_pow_sub_one_eq_mod,← equal] at address
  simpa [consume,Nat.min_eq_left fits] using address

end Cursor

/-- `linear_buf_` while it is allocated: its bytes and `linear_buf_size_`. -/
structure Scratch where
  bytes : Nat → UInt8
  size : Nat

inductive Pointer where
  | null
  | buffer (offset : Nat)
  | linear (allocation offset : Nat)
  deriving DecidableEq, Repr

def Pointer.advance : Pointer → Nat → Pointer
  | .null, _ => .null
  | .buffer start, n => .buffer (start + n)
  | .linear allocation start, n => .linear allocation (start + n)

structure Span where
  data : Pointer
  size : Nat
  deriving DecidableEq, Repr

namespace Span

def none : Span := ⟨.null,0⟩
def empty (s : Span) : Bool := s.size == 0
def subspan (s : Span) (offset count : Nat) : Span := ⟨s.data.advance offset,count⟩

end Span

/-- `allocations` counts the scratch allocations made so far; it names the current
one, so that a pointer kept over a `realloc` or `free` is recognisably stale. -/
structure RingBuffer where
  buffer : Nat → UInt8
  linear : Option Scratch
  allocations : Nat
  cursor : Cursor

namespace RingBuffer

/-- The fresh memory is whatever `aligned_alloc` returns; it is not cleared. -/
def create (alloc : Allocator) (requested : Nat) (word : requested < 2^64)
    (memory : Nat → UInt8) : Except AllocationFault RingBuffer :=
  let wanted := if requested < 1 then 1 else requested
  let capacity := nextPowerOf2 wanted
  if nonzero : capacity = 0 then .error .overflowError
  else if alloc.grants (max capacity 64) then
    .ok {
      buffer := memory
      linear := none
      allocations := 0
      cursor := {
        capacity := capacity
        readPos := 0
        writePos := 0
        power := nextPowerOf2_power word nonzero
        readWord := by decide
        writeWord := by decide
        bounded := by simp [subSize] } }
  else .error .badAlloc

def capacity (rb : RingBuffer) : Nat := rb.cursor.capacity
def readableSize (rb : RingBuffer) : Nat := rb.cursor.readableSize
def writableSize (rb : RingBuffer) : Nat := rb.cursor.writableSize
def linearBufSize (rb : RingBuffer) : Nat := (rb.linear.map Scratch.size).getD 0

/-- Up to the physical end only; the caller comes back for what lies behind it. -/
def writable (rb : RingBuffer) : Span :=
  let avail := rb.writableSize
  if avail = 0 then .none
  else
    let w := rb.cursor.writePos &&& rb.cursor.mask
    let toEnd := rb.capacity - w
    ⟨.buffer w,min toEnd avail⟩

def commitWrite (rb : RingBuffer) (n : Nat) : RingBuffer :=
  { rb with cursor := rb.cursor.commitWrite n }

def contiguousRead (rb : RingBuffer) : Span :=
  let avail := rb.readableSize
  if avail = 0 then .none
  else
    let r := rb.cursor.readPos &&& rb.cursor.mask
    let toEnd := rb.capacity - r
    ⟨.buffer r,min toEnd avail⟩

def consume (rb : RingBuffer) (n : Nat) : RingBuffer :=
  { rb with cursor := rb.cursor.consume n }

/-- `realloc` of the scratch buffer to `n` bytes, when it is smaller than that.
Bytes the old allocation did not have are arbitrary; they are overwritten next. -/
def reserveLinear (alloc : Allocator) (rb : RingBuffer) (n : Nat) : Option RingBuffer :=
  if rb.linearBufSize < n then
    if alloc.grants n then
      let bytes := (rb.linear.map Scratch.bytes).getD fun _ => 0
      some { rb with linear := some ⟨bytes,n⟩, allocations := rb.allocations + 1 }
    else Option.none
  else some rb

def linearize (alloc : Allocator) (rb : RingBuffer) (n : Nat) : Span × RingBuffer :=
  if rb.readableSize < n then (.none,rb)
  else
    let r := rb.cursor.readPos &&& rb.cursor.mask
    let toEnd := rb.capacity - r
    if toEnd ≥ n then (⟨.buffer r,n⟩,rb)
    else
      match reserveLinear alloc rb n with
      | Option.none => (.none,rb)
      | some rb =>
        let bytes := (rb.linear.map Scratch.bytes).getD fun _ => 0
        let bytes := overwrite bytes 0 (slice rb.buffer r toEnd)
        let bytes := overwrite bytes toEnd (slice rb.buffer 0 (n - toEnd))
        (⟨.linear rb.allocations 0,n⟩,{ rb with linear := some ⟨bytes,rb.linearBufSize⟩ })

/-- `memcpy` through a span of the ring itself. -/
def fill (rb : RingBuffer) (target : Span) (data : List UInt8) : RingBuffer :=
  match target.data with
  | .buffer offset => { rb with buffer := overwrite rb.buffer offset data }
  | _ => rb

def write (rb : RingBuffer) (data : List UInt8) : Bool × RingBuffer :=
  if data = [] then (true,rb)
  else if data.length > rb.writableSize then (false,rb)
  else
    let w := rb.writable
    if w.size ≥ data.length then (true,(rb.fill w data).commitWrite data.length)
    else
      let first := w.size
      let rb := (rb.fill w (data.take first)).commitWrite first
      let w2 := rb.writable
      (true,(rb.fill w2 (data.drop first)).commitWrite (data.length - first))

def reset (rb : RingBuffer) : RingBuffer :=
  { rb with linear := none, cursor := rb.cursor.reset }

/-- `none` stands for a `realloc` to zero bytes, whose effect C leaves open. The
products wrap: a ring of `2^62` bytes or more can be used that far. -/
def shrinkToFit (alloc : Allocator) (rb : RingBuffer) : Option RingBuffer :=
  match rb.linear with
  | Option.none => some rb
  | some scratch =>
    let usage := rb.readableSize
    if usage = 0 then some { rb with linear := none }
    else if scratch.size ≥ mulSize usage 4 then
      let newSize := mulSize usage 2
      if newSize = 0 then Option.none
      else if alloc.grants newSize then
        some { rb with linear := some ⟨scratch.bytes,newSize⟩, allocations := rb.allocations + 1 }
      else some rb
    else some rb

/-- `n` bytes from a pointer on, when they all lie in live memory. -/
def load (rb : RingBuffer) : Pointer → Nat → Option (List UInt8)
  | .null, n => if n = 0 then some [] else Option.none
  | .buffer offset, n =>
    if offset + n ≤ rb.capacity then some (slice rb.buffer offset n) else Option.none
  | .linear allocation offset, n =>
    match rb.linear with
    | Option.none => Option.none
    | some scratch =>
      if allocation = rb.allocations ∧ offset + n ≤ scratch.size
      then some (slice scratch.bytes offset n) else Option.none

def bytes (rb : RingBuffer) (s : Span) : Option (List UInt8) := rb.load s.data s.size

/-- The unread bytes, oldest first: what the ring is for. -/
def contents (rb : RingBuffer) : List UInt8 :=
  window rb.buffer rb.capacity rb.cursor.readPos rb.readableSize

end RingBuffer
end ApexPipeline
