import ApexPipeline.Execution
import ApexPipeline.LinkedStack
import ApexPipeline.MathUtils
import ApexPipeline.Regions

/-! `slab_allocator.cpp`: a pool of slots of one size. The free list and the marker of freed slots are kept in the
slots themselves, in bytes that a user of the slot may also write. Addresses are words; zero is null. -/
namespace ApexPipeline.SlabAllocator
open MathUtils Regions LinkedStack Execution

/-- The first bytes of a slot, read as a `FreeNode`. -/
structure FreeNode where
  next : Nat
  magic : UInt32
  deriving DecidableEq, Repr

def SLAB_MAGIC_ALLOCATED : UInt32 := 0xA110CA7E
def SLAB_MAGIC_FREED : UInt32 := 0xF2EED000

structure Config where
  autoGrow : Bool
  growChunkSize : Nat
  maxTotalCount : Nat
  deriving DecidableEq, Repr

structure ChunkInfo where
  data : Nat
  count : Nat
  deriving DecidableEq, Repr

structure Slab where
  chunks : List ChunkInfo
  freeList : Nat
  slotSize : Nat
  totalCount : Nat
  freeCount : Nat
  config : Config
  initialCount : Nat
  growCount : Nat
  peakAllocated : Nat
  doubleFreeCount : Nat
  deriving DecidableEq, Repr

abbrev Memory := Nat → FreeNode

namespace Slab

def allocatedCount (s : Slab) : Nat := subSize s.totalCount s.freeCount

def slotAt (s : Slab) (chunk i : Nat) : Nat := addSize chunk (mulSize i s.slotSize)

def allocSize (s : Slab) (count : Nat) : Nat := alignUp (mulSize s.slotSize count) 64

/-- The loop of `grow`, from the last slot of the chunk to the first. -/
def thread (s : Slab) (chunk : Nat) : Nat → Nat × Memory → Nat × Memory
  | 0, list => list
  | i + 1, (freeList,memory) =>
    let node := s.slotAt chunk i
    thread s chunk i (node,Function.update memory node ⟨freeList,SLAB_MAGIC_FREED⟩)

/-- `heap` is what `aligned_alloc` returns, `none` the null pointer. The result is
`none` where `bad_alloc` is thrown, before anything has changed. -/
def grow (s : Slab) (memory : Memory) (count : Nat) (heap : Option Nat) : Option (Slab × Memory) :=
  if count > 0 ∧ s.slotSize > sizeMax / count then none
  else
    match heap with
    | none => none
    | some chunk =>
      let (freeList,memory) := s.thread chunk count (s.freeList,memory)
      some ({ s with
        chunks := s.chunks ++ [⟨chunk,count⟩]
        freeList := freeList
        totalCount := addSize s.totalCount count
        freeCount := addSize s.freeCount count },memory)

def growth (s : Slab) : Nat :=
  if !s.config.autoGrow then 0
  else if s.config.maxTotalCount > 0 ∧ s.totalCount ≥ s.config.maxTotalCount then 0
  else
    let chunk := if s.config.growChunkSize > 0 then s.config.growChunkSize else s.initialCount
    if s.config.maxTotalCount > 0 then min chunk (s.config.maxTotalCount - s.totalCount) else chunk

/-- The second half of `allocate`: the head of a free list that is not empty. -/
def take (s : Slab) (memory : Memory) : Nat × Slab × Memory :=
  let node := s.freeList
  let s := { s with freeList := (memory node).next, freeCount := subSize s.freeCount 1 }
  let memory := Function.update memory node { memory node with magic := SLAB_MAGIC_ALLOCATED }
  (node,{ s with peakAllocated := max s.peakAllocated s.allocatedCount },memory)

/-- `none` is an exception; a null result leaves the pool as it was. -/
def allocate (s : Slab) (memory : Memory) (heap : Option Nat) : Option (Nat × Slab × Memory) :=
  if s.freeList = 0 then
    if s.growth = 0 then some (0,s,memory)
    else (s.grow memory s.growth heap).map fun (s,memory) =>
      { s with growCount := addSize s.growCount 1 }.take memory
  else some (s.take memory)

def allocateSized (s : Slab) (memory : Memory) (size _align : Nat) (heap : Option Nat) :
    Option (Nat × Slab × Memory) :=
  if size = 0 ∨ size > s.slotSize then some (0,s,memory) else s.allocate memory heap

def deallocate (s : Slab) (memory : Memory) (node : Nat) : Slab × Memory :=
  if node = 0 then (s,memory)
  else if (memory node).magic = SLAB_MAGIC_FREED then
    ({ s with doubleFreeCount := addSize s.doubleFreeCount 1 },memory)
  else ({ s with freeList := node, freeCount := addSize s.freeCount 1 },
    Function.update memory node ⟨s.freeList,SLAB_MAGIC_FREED⟩)

/-- Whether a pointer is a slot of one of the chunks: the first one that it falls into
decides. -/
def ownsIn (slotSize pointer : Nat) : List ChunkInfo → Bool
  | [] => false
  | chunk :: rest =>
    if chunk.data ≤ pointer ∧ pointer < addSize chunk.data (mulSize slotSize chunk.count) then
      subSize pointer chunk.data % slotSize == 0
    else ownsIn slotSize pointer rest

def owns (s : Slab) (pointer : Nat) : Bool := ownsIn s.slotSize pointer s.chunks

inductive Fault where
  | invalidArgument
  | badAlloc
  deriving DecidableEq, Repr

/-- The members before the first chunk; a slot has room for a `FreeNode` of 16 bytes. -/
def blank (slotSize initialCount : Nat) (config : Config) : Slab :=
  ⟨[],0,alignUp (max slotSize 16) 16,0,0,config,initialCount,0,0,0⟩

def create (slotSize initialCount : Nat) (config : Config) (memory : Memory) (heap : Option Nat) :
    Except Fault (Slab × Memory) :=
  if initialCount = 0 then .error .invalidArgument
  else
    match (blank slotSize initialCount config).grow memory initialCount heap with
    | none => .error .badAlloc
    | some pool => .ok pool

def slots (s : Slab) : List Nat :=
  s.chunks.flatMap fun chunk => (List.range chunk.count).map fun i => chunk.data + i * s.slotSize

def region (s : Slab) (chunk : ChunkInfo) : Region := ⟨chunk.data,s.slotSize * chunk.count⟩

end Slab

/-- A pool and its user. `used` are the slots handed out and not given back since,
`issued` all that were ever handed out, and `highest` the largest `allocated_count()`
so far. -/
structure State where
  slab : Slab
  memory : Memory
  used : List Nat
  issued : List Nat
  highest : Nat

/-- What a user does. A slot in use may be filled with anything; one that was given
back is not written. -/
inductive Action where
  | allocate (heap : Option Nat)
  | allocateSized (size align : Nat) (heap : Option Nat)
  | deallocate (pointer : Nat)
  | write (pointer : Nat) (bytes : FreeNode)
  deriving DecidableEq, Repr

inductive Result where
  | pointer (p : Nat)
  | threw
  | done
  deriving DecidableEq, Repr

namespace State

def receive (s : State) : Option (Nat × Slab × Memory) → Result × State
  | none => (.threw,s)
  | some (p,slab,memory) =>
    (.pointer p,{ s with
      slab := slab
      memory := memory
      used := if p = 0 then s.used else p :: s.used
      issued := if p = 0 then s.issued else p :: s.issued
      highest := max s.highest slab.allocatedCount })

/-- Only pointers that were handed out, and the null pointer, are given back. -/
def perform (s : State) : Action → Option (Result × State)
  | .allocate heap => some (s.receive (s.slab.allocate s.memory heap))
  | .allocateSized size align heap =>
    some (s.receive (s.slab.allocateSized s.memory size align heap))
  | .deallocate pointer =>
    if pointer = 0 ∨ pointer ∈ s.issued then
      let (slab,memory) := s.slab.deallocate s.memory pointer
      some (.done,{ s with
        slab := slab
        memory := memory
        used := s.used.erase pointer
        highest := max s.highest slab.allocatedCount })
    else none
  | .write pointer bytes =>
    if pointer ∈ s.used then
      some (.done,{ s with memory := Function.update s.memory pointer bytes })
    else none

end State

def step (s : State) (action : Action) : Option State := (s.perform action).map Prod.snd

def start (pool : Slab × Memory) : State := ⟨pool.1,pool.2,[],[],pool.1.allocatedCount⟩

/-- What `aligned_alloc` promises: memory of the size asked for, apart from what the
pool holds already. -/
def Granted (s : Slab) (chunk count : Nat) : Prop :=
  0 < chunk ∧ chunk + s.allocSize count < 2^64 ∧ ∀ c ∈ s.chunks, Region.Apart ⟨chunk,s.allocSize count⟩ (s.region c)

instance (s : Slab) (chunk count : Nat) : Decidable (Granted s chunk count) := by
  unfold Granted
  infer_instance

/-- The size of a chunk can be rounded up without a wrap, or `grow` rejects it. -/
def Roundable (s : Slab) (count : Nat) : Prop :=
  s.slotSize * count ≤ 2^64 - 64 ∨ 2^64 ≤ s.slotSize * count

instance (s : Slab) (count : Nat) : Decidable (Roundable s count) :=
  inferInstanceAs (Decidable (_ ∨ _))

def Fair (s : State) : Action → Prop
  | .allocate (some chunk) => s.slab.freeList = 0 → s.slab.growth ≠ 0 → Granted s.slab chunk s.slab.growth
  | .allocateSized _ _ (some chunk) => s.slab.freeList = 0 → s.slab.growth ≠ 0 → Granted s.slab chunk s.slab.growth
  | _ => True

instance (s : State) (action : Action) : Decidable (Fair s action) := by
  unfold Fair
  split <;> infer_instance

/-- A chunk that is added has a size that can be rounded up, and a slot that is given
back does not by chance hold the marker of freed slots. -/
def Regular (s : State) : Action → Prop
  | .allocate _ => s.slab.freeList = 0 → Roundable s.slab s.slab.growth
  | .allocateSized _ _ _ => s.slab.freeList = 0 → Roundable s.slab s.slab.growth
  | .deallocate pointer => pointer ∈ s.used → (s.memory pointer).magic ≠ SLAB_MAGIC_FREED
  | .write _ _ => True

instance (s : State) (action : Action) : Decidable (Regular s action) := by
  unfold Regular
  split <;> infer_instance

structure Accounts (s : State) : Prop where
  free : ∃ free, Links (fun a => (s.memory a).next) s.slab.freeList free ∧
    (free ++ s.used).Perm s.slab.slots ∧ s.slab.freeCount = free.length
  apart : s.slab.slots.Pairwise fun a b =>
    Region.Apart ⟨a,s.slab.slotSize⟩ ⟨b,s.slab.slotSize⟩
  valid : ∀ a ∈ s.slab.slots, a ≠ 0
  total : s.slab.totalCount = s.slab.allocatedCount + s.slab.freeCount
  counted : s.slab.totalCount = (s.slab.chunks.map ChunkInfo.count).sum
  limited : 0 < s.slab.config.maxTotalCount →
    s.slab.totalCount ≤ max s.slab.initialCount s.slab.config.maxTotalCount
  peak : s.slab.peakAllocated = s.highest
  owned : ∀ p, s.slab.owns p = true ↔ p ∈ s.slab.slots

end ApexPipeline.SlabAllocator
