import ApexPipeline.BumpAllocator
import ApexPipeline.Execution
import ApexPipeline.Regions

/-! `arena_allocator.cpp`: a cursor is moved through a block, and a new block is chained when it is exhausted.
Addresses are words; zero is null. Moving an arena is left out, so that it always has a block. -/
namespace ApexPipeline.ArenaAllocator
open MathUtils Regions Execution List

/-- `stop` is the member `end`. -/
structure Block where
  base : Nat
  cursor : Nat
  stop : Nat
  size : Nat
  deriving DecidableEq, Repr

/-- `blocks_` is `earlier` followed by `current`, the block at its back. -/
structure Arena where
  earlier : List Block
  current : Block
  blockSize : Nat
  maxBytes : Nat
  totalAllocated : Nat
  deriving DecidableEq, Repr

/-- `heap` is what `malloc` returns; `none` is `bad_alloc`. -/
def makeBlock (size : Nat) (heap : Option Nat) : Option Block :=
  heap.map fun base => ⟨base,base,addSize base size,size⟩

def create (blockSize maxBytes : Nat) (heap : Option Nat) : Option Arena :=
  (makeBlock blockSize heap).map fun block => ⟨[],block,blockSize,maxBytes,blockSize⟩

namespace Arena

def blocks (a : Arena) : List Block := a.earlier ++ [a.current]

def bump (a : Arena) (result size : Nat) : Arena :=
  { a with current := { a.current with cursor := addSize result size } }

def push (a : Arena) (block : Block) : Arena :=
  { a with
    earlier := a.earlier ++ [a.current]
    current := block
    totalAllocated := addSize a.totalAllocated block.size }

/-- `new_block_size`: room for the request and the worst padding. -/
def blockFor (a : Arena) (size align : Nat) : Nat :=
  let needed := addSize size (if align > 1 then align - 1 else 0)
  max a.blockSize needed

/-- `none` is `bad_alloc`, thrown before anything has changed. -/
def allocate (a : Arena) (size align : Nat) (heap : Option Nat) : Option (Nat × Arena) :=
  if size = 0 then some (0,a)
  else if align = 0 ∨ align &&& (align - 1) ≠ 0 then some (0,a)
  else
    let aligned := alignUp a.current.cursor align
    if addSize aligned size ≤ a.current.stop then some (aligned,a.bump aligned size)
    else if addSize a.totalAllocated (a.blockFor size align) > a.maxBytes then some (0,a)
    else
      (makeBlock (a.blockFor size align) heap).map fun fresh =>
        let aligned := alignUp fresh.cursor align
        (aligned,(a.push fresh).bump aligned size)

def reset (a : Arena) : Arena :=
  let first := a.earlier.headD a.current
  { a with
    earlier := []
    current := { first with cursor := first.base }
    totalAllocated := first.size }

def usedBytes (a : Arena) : Nat :=
  (a.blocks.map fun b => subSize b.cursor b.base).foldl addSize 0

def capacity (a : Arena) : Nat := a.totalAllocated

/-- `none` is `bad_alloc`; the core that called it is then terminated. -/
def rebindMemory (a : Arena) (heap : Option Nat) : Option Arena :=
  (makeBlock a.blockSize heap).map fun block =>
    { a with earlier := [], current := block, totalAllocated := a.blockSize }

end Arena

def Block.region (b : Block) : Region := ⟨b.base,b.size⟩

def Block.filled (b : Block) : Region := ⟨b.base,b.cursor - b.base⟩

structure Grant where
  align : Nat
  region : Region
  deriving DecidableEq, Repr

structure State where
  arena : Arena
  returned : List Grant
  deriving DecidableEq, Repr

inductive Action where
  | allocate (size align : Nat) (heap : Option Nat)
  | reset
  | rebindMemory (heap : Option Nat)
  deriving DecidableEq, Repr

inductive Result where
  | pointer (p : Nat)
  | threw
  | done
  deriving DecidableEq, Repr

/-- `rebind_memory` asserts that nothing is in use. -/
def perform (s : State) : Action → Option (Result × State)
  | .allocate size align heap =>
    match s.arena.allocate size align heap with
    | none => some (.threw,s)
    | some (p,arena) => some (.pointer p,⟨arena,
        if p = 0 then s.returned else s.returned ++ [⟨align,⟨p,size⟩⟩]⟩)
  | .reset => some (.done,⟨s.arena.reset,[]⟩)
  | .rebindMemory heap =>
    if s.arena.usedBytes = 0 then
      (s.arena.rebindMemory heap).map fun arena => (.done,⟨arena,s.returned⟩)
    else none

def step (s : State) (action : Action) : Option State := (perform s action).map Prod.snd

def start (a : Arena) : State := ⟨a,[]⟩

/-- What `malloc` promises: a block of the size asked for, apart from those there are. -/
def Granted (size base : Nat) (blocks : List Block) : Prop :=
  0 < base ∧ base + size < 2^64 ∧ ∀ b ∈ blocks, Region.Apart b.region ⟨base,size⟩

instance (size base : Nat) (blocks : List Block) : Decidable (Granted size base blocks) := by
  unfold Granted
  infer_instance

def Fair (s : State) : Action → Prop
  | .allocate size align (some base) => Granted (s.arena.blockFor size align) base s.arena.blocks
  | .rebindMemory (some base) => Granted s.arena.blockSize base []
  | _ => True

instance (s : State) (action : Action) : Decidable (Fair s action) := by
  unfold Fair
  split <;> infer_instance

/-- The addresses that an allocation computes in the current block are words. -/
def Addressable (s : State) : Action → Prop
  | .allocate size align _ => size ≠ 0 → align ≠ 0 → align &&& (align - 1) = 0 →
      s.arena.current.cursor + (align - 1) < 2^64 ∧
      alignUp s.arena.current.cursor align + size < 2^64
  | _ => True

instance (s : State) (action : Action) : Decidable (Addressable s action) := by
  unfold Addressable
  split <;> infer_instance

def Block.Placed (b : Block) : Prop :=
  0 < b.base ∧ b.base ≤ b.cursor ∧ b.cursor ≤ b.stop ∧ b.stop = b.base + b.size ∧ b.stop < 2^64

structure Sound (s : State) : Prop where
  placed : ∀ b ∈ s.arena.blocks, b.Placed
  separate : (s.arena.blocks.map Block.region).Pairwise Region.Apart
  counted : s.arena.totalAllocated = total (s.arena.blocks.map Block.region)
  limited : s.arena.totalAllocated ≤ max s.arena.maxBytes s.arena.blockSize
  first : (s.arena.earlier.headD s.arena.current).size = s.arena.blockSize
  nonempty : ∀ g ∈ s.returned, 0 < g.region.size
  aligned : ∀ g ∈ s.returned, g.align ∣ g.region.base
  inside : ∀ g ∈ s.returned, ∃ b ∈ s.arena.blocks, g.region.Within b.filled
  apart : (s.returned.map Grant.region).Pairwise Region.Apart

/-- What an allocation does while its addresses are words: it hands out what lies behind the
cursor of the current block or of a block chained for it. -/
inductive Allocated (a : Arena) (size align : Nat) : Option Nat → Option (Nat × Arena) → Prop
  | threw : Allocated a size align none none
  | null : Allocated a size align heap (some (0,a))
  | bumped (positive : 0 < size) (divides : align ∣ p) (above : a.current.cursor ≤ p)
      (fits : p + size ≤ a.current.stop) : Allocated a size align heap (some (p,a.bump p size))
  | chained (positive : 0 < size) (divides : align ∣ p) (above : base ≤ p)
      (fits : p + size ≤ base + a.blockFor size align)
      (room : addSize a.totalAllocated (a.blockFor size align) ≤ a.maxBytes) :
      Allocated a size align (some base) (some (p,(a.push ⟨base,base,
        base + a.blockFor size align,a.blockFor size align⟩).bump p size))

/-- The comparison in the current block is right, and so is the size of a block that is chained. -/
def Arena.Exact (a : Arena) (size align : Nat) (heap : Option Nat) : Prop :=
  Bounded a.current.cursor a.current.stop size align ∧
    (a.current.stop < addSize (alignUp a.current.cursor align) size →
      addSize a.totalAllocated (a.blockFor size align) ≤ a.maxBytes → heap ≠ none → size + (align - 1) < 2^64)

instance (a : Arena) (size align : Nat) (heap : Option Nat) : Decidable (a.Exact size align heap) :=
  inferInstanceAs (Decidable (_ ∧ _))

theorem exact_of_unwrapped {a : Arena} (placed : a.current.Placed) (proper : Proper size align)
    (words : Unwrapped a.current.cursor size align) : a.Exact size align heap := by
  refine ⟨.inl words,fun _ _ _ => ?_⟩
  have positive : 0 < a.current.cursor := Nat.lt_of_lt_of_le placed.1 placed.2.1
  obtain ⟨divides,above,_⟩ := alignUp_address positive proper.2.1 proper.2.2 words.1
  have multiple : align ≤ alignUp a.current.cursor align := Nat.le_of_dvd (by omega) divides
  have reach := words.2
  omega

/-- The padding that the alignment can need is part of the new block. -/
theorem blockFor_room (a : Arena) (word : size + (align - 1) < 2^64) : size + (align - 1) ≤ a.blockFor size align := by
  have needed : addSize size (if align > 1 then align - 1 else 0) = size + (align - 1) := by
    split
    · exact addSize_eq _ _ word
    · rw [addSize_eq _ _ (by omega)]
      omega
  unfold Arena.blockFor
  rw [needed]
  exact Nat.le_max_right _ _

theorem allocate_cases (placed : a.current.Placed)
    (granted : ∀ base ∈ heap, 0 < base ∧ base + a.blockFor size align < 2^64)
    (sums : Proper size align → a.Exact size align heap) :
    Allocated a size align heap (a.allocate size align heap) := by
  unfold Arena.allocate
  split
  · exact .null
  rename_i some'
  split
  · exact .null
  rename_i valid
  simp only [not_or,not_not] at valid
  obtain ⟨bounded,chains⟩ := sums ⟨some',valid⟩
  have positive : 0 < a.current.cursor := Nat.lt_of_lt_of_le placed.1 placed.2.1
  have word := placed.2.2.2.2
  simp only
  split
  · rename_i fits
    obtain ⟨null,same⟩ | ⟨above,ends⟩ := (bounded_iff ⟨some',valid⟩ positive placed.2.2.1 word fits).mp bounded
    · rw [Arena.bump,same,null]
      exact .null
    · have divides := (alignUp_address positive valid.1 valid.2 (alignUp_unwrapped positive (by omega) above)).1
      exact .bumped (Nat.pos_of_ne_zero some') divides above ends
  rename_i behind
  split
  · exact .null
  rename_i room
  cases heap with
  | none => exact .threw
  | some base =>
    have needed := blockFor_room a (chains (Nat.not_le.mp behind) (Nat.not_lt.mp room) (Option.some_ne_none base))
    obtain ⟨nonzero,bound⟩ := granted base rfl
    simp only [makeBlock,Option.map_some,addSize_eq _ _ bound]
    obtain ⟨divides,above,near⟩ := alignUp_address nonzero valid.1 valid.2 (by omega)
    exact .chained (Nat.pos_of_ne_zero some') divides above (by omega) (Nat.not_lt.mp room)

/-- Null, and nothing has changed, or a region behind the cursor of the current block or of a block chained for it,
which ends inside that block. It throws only if there is no memory for one. -/
def Arena.InBounds (a : Arena) (size align : Nat) (heap : Option Nat) (result : Option (Nat × Arena)) : Prop :=
  result = none ∧ heap = none ∨ ∃ p next, result = some (p,next) ∧ (p = 0 ∧ next = a ∨
    p ≠ 0 ∧ p + size ≤ next.current.stop ∧ next.current.cursor = p + size ∧
      (a.current.cursor ≤ p ∧ next.earlier = a.earlier ∧ next.current.base = a.current.base ∧
        next.current.stop = a.current.stop ∨
      next.current.base ≤ p ∧ next.earlier = a.blocks ∧ heap = some next.current.base ∧
        next.current.stop = next.current.base + a.blockFor size align))

theorem Allocated.inBounds (cases' : Allocated a size align heap result) (placed : a.current.Placed)
    (granted : ∀ base ∈ heap, 0 < base ∧ base + a.blockFor size align < 2^64) : a.InBounds size align heap result := by
  cases cases' with
  | threw => exact .inl ⟨rfl,rfl⟩
  | null => exact .inr ⟨0,a,rfl,.inl ⟨rfl,rfl⟩⟩
  | @bumped p _ positive divides above fits =>
    obtain ⟨base,cursor,_,_,word⟩ := placed
    exact .inr ⟨p,_,rfl,.inr ⟨by omega,fits,addSize_eq _ _ (by omega),.inl ⟨above,rfl,rfl,rfl⟩⟩⟩
  | @chained p base positive divides above fits room =>
    obtain ⟨nonzero,bound⟩ := granted base rfl
    exact .inr ⟨p,_,rfl,.inr ⟨by omega,fits,addSize_eq _ _ (by omega),.inr ⟨above,rfl,rfl,rfl⟩⟩⟩

theorem exact_of_inBounds {a : Arena} {heap : Option Nat} (placed : a.current.Placed)
    (granted : ∀ base ∈ heap, 0 < base ∧ base + a.blockFor size align < 2^64) (proper : Proper size align)
    (bounds : a.InBounds size align heap (a.allocate size align heap)) : a.Exact size align heap := by
  have positive : 0 < a.current.cursor := Nat.lt_of_lt_of_le placed.1 placed.2.1
  have longer : a.blocks ≠ a.earlier := fun same => by simpa [Arena.blocks] using congrArg length same
  rw [Arena.allocate,if_neg proper.1,if_neg (by simp [proper.2])] at bounds
  by_cases fits : addSize (alignUp a.current.cursor align) size ≤ a.current.stop
  · refine ⟨(bounded_iff proper positive placed.2.2.1 placed.2.2.2.2 fits).mpr ?_,
      fun behind => absurd fits (Nat.not_le.mpr behind)⟩
    rw [if_pos fits] at bounds
    obtain ⟨no,_⟩ | ⟨p,next,done,null | ⟨_,ends,_,⟨above,_⟩ | ⟨_,chained,_⟩⟩⟩ := bounds
    · cases no
    all_goals
      cases done
    · exact .inl ⟨null.1,congrArg (·.current.cursor) null.2⟩
    · exact .inr ⟨above,ends⟩
    · exact absurd chained.symm longer
  · refine ⟨.inr (.inl (Nat.not_le.mp fits)),fun _ room memory => ?_⟩
    obtain ⟨base,rfl⟩ := Option.ne_none_iff_exists'.mp memory
    obtain ⟨nonzero,bound⟩ := granted base rfl
    rw [if_neg fits,if_neg (Nat.not_lt.mpr room)] at bounds
    obtain ⟨_,no⟩ | ⟨p,next,done,⟨_,same⟩ | ⟨_,ends,_,⟨_,same,_⟩ | ⟨above,_,_,stop⟩⟩⟩ := bounds
    · cases no
    all_goals
      cases done
    · exact absurd (congrArg Arena.earlier same) longer
    · exact absurd same longer
    · -- the region begins at a multiple of `align`, so that what is left of the word holds `align + size`
      rw [stop] at ends
      simp only [Arena.bump,Arena.push] at above ends
      have divides := (alignUp_address nonzero proper.2.1 proper.2.2
        (alignUp_unwrapped nonzero (by omega) above)).1
      have multiple : align ≤ alignUp base align := Nat.le_of_dvd (by omega) divides
      omega

/-- Both allocators keep to their chunk or block exactly in the calls whose comparison with its end is right: the
request is refused before it, no sum wraps, or the wrapped end still comes out behind. -/
theorem allocation_in_bounds (size align : Nat) :
    (∀ a : BumpAllocator, a.Placed → (a.InBounds size (a.allocate size align) ↔
      (Proper size align → a.base ≠ 0 → Bounded a.cursor a.stop size align))) ∧
    ∀ (a : Arena) (heap : Option Nat), a.current.Placed →
      (∀ base ∈ heap, 0 < base ∧ base + a.blockFor size align < 2^64) →
      (a.InBounds size align heap (a.allocate size align heap) ↔ (Proper size align → a.Exact size align heap)) := by
  refine ⟨fun a placed => BumpAllocator.allocate_inBounds_iff placed,fun a heap placed granted => ?_⟩
  exact ⟨fun bounds proper => exact_of_inBounds placed granted proper bounds,
    fun sums => (allocate_cases placed granted sums).inBounds placed granted⟩

theorem allocation_in_bounds_padded : (∃ p, 4101 ≤ p ∧ p + 16 ≤ 4160 ∧
      BumpAllocator.allocate ⟨4096,4101,4160⟩ 16 8 = (some p,⟨4096,p + 16,4160⟩)) ∧
    BumpAllocator.InBounds ⟨4096,4096,4160⟩ (2^64 - 1) (BumpAllocator.allocate ⟨4096,4096,4160⟩ (2^64 - 1) 8192) ∧
    ∃ p next, Arena.allocate ⟨[],⟨1000,1050,1064,64⟩,64,160,64⟩ 20 16 (some 2003) = some (p,next) ∧
      2003 ≤ p ∧ p + 20 ≤ 2067 := by
  refine ⟨?_,?_,?_⟩
  · exact ((((allocation_in_bounds 16 8).1 ⟨4096,4101,4160⟩ ⟨by decide,by decide,by decide⟩).mpr
      (by decide +kernel)).resolve_left (by decide +kernel))
  · exact ((allocation_in_bounds (2^64 - 1) 8192).1 ⟨4096,4096,4160⟩ ⟨by decide,by decide,by decide⟩).mpr
      (by decide +kernel)
  · obtain ⟨_,no⟩ | ⟨p,next,done,_⟩ := ((allocation_in_bounds 20 16).2
      ⟨[],⟨1000,1050,1064,64⟩,64,160,64⟩ (some 2003) ⟨by decide,by decide,by decide,rfl,by decide⟩
      (by decide +kernel)).mpr (by decide +kernel)
    · cases no
    · exact ⟨p,next,done,by cases done; decide +kernel⟩

/-- A size just below `2^64` wraps past the test: both hand out memory they do not have, and
the cursor then stands before its chunk. -/
theorem allocation_wraps : (BumpAllocator.create 64 4096).allocate (2^64 - 16) 1 = (some 4096,⟨4096,4080,4160⟩) ∧
    (create 64 1024 (some 4096)).bind (fun a => a.allocate (2^64 - 16) 1 none) =
      some (4096,⟨[],⟨4096,4080,4160,64⟩,64,1024,64⟩) := by
  decide +kernel

theorem foldl_addSize (sizes : List Nat) (start : Nat) (word : start < 2^64) :
    sizes.foldl addSize start = (start + sizes.sum) % 2^64 := by
  induction sizes generalizing start with
  | nil => exact (Nat.mod_eq_of_lt word).symm
  | cons size rest ih =>
    rw [foldl_cons,ih _ (addSize_lt _ _),sum_cons]
    unfold addSize
    omega

theorem total_word {blocks : List Block} (placed : ∀ b ∈ blocks, b.Placed)
    (separate : (blocks.map Block.region).Pairwise Region.Apart) :
    total (blocks.map Block.region) < 2^64 := by
  have bound := total_le ⟨1,2^64 - 1⟩ separate (by
    intro r member
    obtain ⟨b,block,rfl⟩ := mem_map.mp member
    have placed := placed b block
    simp only [Region.Within,Block.region,Block.Placed] at placed ⊢
    omega)
  simp only at bound
  omega

namespace Sound
variable {s : State}

section
variable (sound : Sound s)
include sound

theorem used_eq : s.arena.usedBytes = total (s.arena.blocks.map Block.filled) ∧
    total (s.arena.blocks.map Block.filled) ≤ total (s.arena.blocks.map Block.region) := by
  have parts : (s.arena.blocks.map fun b => subSize b.cursor b.base) =
      (s.arena.blocks.map Block.filled).map Region.size := by
    rw [map_map]
    apply map_congr_left
    intro b member
    have placed := sound.placed b member
    exact subSize_eq _ _ placed.2.1 (Nat.lt_of_le_of_lt placed.2.2.1 placed.2.2.2.2)
  have less : total (s.arena.blocks.map Block.filled) ≤ total (s.arena.blocks.map Block.region) := by
    simp only [total,map_map]
    refine List.sum_le_sum fun b member => ?_
    have placed := sound.placed b member
    simp only [Function.comp,Block.filled,Block.region,Block.Placed] at placed ⊢
    omega
  have word := total_word sound.placed sound.separate
  refine ⟨?_,less⟩
  unfold Arena.usedBytes
  rw [parts,foldl_addSize _ 0 (by decide),Nat.zero_add,Nat.mod_eq_of_lt]
  · rfl
  · exact Nat.lt_of_le_of_lt less word

theorem bump (positive : 0 < size) (divides : align ∣ p)
    (above : s.arena.current.cursor ≤ p) (fits : p + size ≤ s.arena.current.stop) :
    Sound ⟨s.arena.bump p size,s.returned ++ [⟨align,⟨p,size⟩⟩]⟩ := by
  have current := sound.placed s.arena.current (by simp [Arena.blocks])
  unfold Block.Placed at current
  have moved : addSize p size = p + size := addSize_eq _ _ (by omega)
  have blocks : (s.arena.bump p size).blocks =
      s.arena.earlier ++ [{ s.arena.current with cursor := p + size }] := by
    simp only [Arena.blocks,Arena.bump,moved]
  have regions : (s.arena.bump p size).blocks.map Block.region = s.arena.blocks.map Block.region := by
    simp [Arena.blocks,Arena.bump,Block.region]
  have old : ∀ g ∈ s.returned, (∃ b ∈ s.arena.earlier, g.region.Within b.filled) ∨
      g.region.Within s.arena.current.filled := by
    intro g member
    obtain ⟨b,block,within⟩ := sound.inside g member
    rcases mem_concat block with earlier | rfl
    · exact .inl ⟨b,earlier,within⟩
    · exact .inr within
  refine ⟨?_,regions ▸ sound.separate,regions ▸ sound.counted,sound.limited,?_,?_,?_,?_,?_⟩
  · intro b member
    rw [blocks] at member
    rcases mem_concat member with earlier | rfl
    · exact sound.placed b (mem_append_left _ earlier)
    · exact ⟨current.1,by simp only; omega,fits,current.2.2.2⟩
  · have first := sound.first
    cases earlier : s.arena.earlier with
    | nil | cons b rest => simpa [Arena.bump,earlier] using first
  · exact forall_concat sound.nonempty positive
  · exact forall_concat sound.aligned divides
  · intro g member
    rw [blocks]
    rcases mem_concat member with earlier | rfl
    · rcases old g earlier with ⟨b,block,within⟩ | within
      · exact ⟨b,mem_append_left _ block,within⟩
      · refine ⟨_,mem_append_right _ (mem_singleton_self _),?_⟩
        simp only [Region.Within,Block.filled] at within ⊢
        omega
    · refine ⟨_,mem_append_right _ (mem_singleton_self _),?_⟩
      simp only [Region.Within,Block.filled]
      omega
  · rw [map_append,pairwise_append]
    refine ⟨sound.apart,pairwise_singleton _ _,?_⟩
    intro r earlier t new
    obtain ⟨g,member,rfl⟩ := mem_map.mp earlier
    cases mem_singleton.mp new
    rcases old g member with ⟨b,block,within⟩ | within
    · -- it lies in another block
      have separate := sound.separate
      simp only [Arena.blocks,map_append,pairwise_append] at separate
      have blocksApart := separate.2.2 b.region (mem_map.mpr ⟨b,block,rfl⟩) s.arena.current.region (by simp)
      have placed := sound.placed b (mem_append_left _ block)
      refine blocksApart.within ?_ ?_
      · simp only [Region.Within,Block.filled,Block.region,Block.Placed] at within placed ⊢
        omega
      · simp only [Region.Within,Block.region]
        omega
    · -- it lies behind the cursor
      simp only [Region.Within,Block.filled,Region.Apart] at within ⊢
      omega

theorem push (granted : Granted size base s.arena.blocks)
    (room : addSize s.arena.totalAllocated size ≤ s.arena.maxBytes) :
    Sound ⟨s.arena.push ⟨base,base,base + size,size⟩,s.returned⟩ := by
  obtain ⟨positive,bound,apart⟩ := granted
  have blocks : (s.arena.push ⟨base,base,base + size,size⟩).blocks =
      s.arena.blocks ++ [⟨base,base,base + size,size⟩] := rfl
  have placed : ∀ b ∈ (s.arena.push ⟨base,base,base + size,size⟩).blocks, b.Placed := by
    intro b member
    rw [blocks] at member
    rcases mem_concat member with earlier | rfl
    · exact sound.placed b earlier
    · exact ⟨positive,Nat.le_refl _,Nat.le_add_right _ _,rfl,bound⟩
  have separate : ((s.arena.push ⟨base,base,base + size,size⟩).blocks.map Block.region).Pairwise Region.Apart := by
    rw [blocks,map_append,pairwise_append]
    refine ⟨sound.separate,pairwise_singleton _ _,?_⟩
    intro r earlier t new
    obtain ⟨b,member,rfl⟩ := mem_map.mp earlier
    cases mem_singleton.mp new
    exact apart b member
  have sizes : total ((s.arena.push ⟨base,base,base + size,size⟩).blocks.map Block.region) =
      s.arena.totalAllocated + size := by
    simp [blocks,sound.counted,Block.region]
  have word := total_word placed separate
  have counted : addSize s.arena.totalAllocated size = s.arena.totalAllocated + size :=
    addSize_eq _ _ (by omega)
  refine ⟨placed,separate,?_,?_,?_,sound.nonempty,sound.aligned,?_,sound.apart⟩
  · rw [sizes]
    exact counted
  · exact Nat.le_trans room (Nat.le_max_left _ _)
  · have first := sound.first
    cases earlier : s.arena.earlier with
    | nil | cons b rest => simpa [Arena.push,earlier] using first
  · intro g member
    obtain ⟨b,block,within⟩ := sound.inside g member
    exact ⟨b,mem_append_left _ block,within⟩

theorem allocate (fair : Fair s (.allocate size align heap))
    (words : Addressable s (.allocate size align heap))
    (done : s.arena.allocate size align heap = some (p,arena)) :
    p = 0 ∧ arena = s.arena ∨
    p ≠ 0 ∧ Sound ⟨arena,s.returned ++ [⟨align,⟨p,size⟩⟩]⟩ ∧
      arena.blockSize = s.arena.blockSize ∧ arena.maxBytes = s.arena.maxBytes := by
  have current := sound.placed s.arena.current (by simp [Arena.blocks])
  have bounds : ∀ base ∈ heap, 0 < base ∧ base + s.arena.blockFor size align < 2^64 := by
    rintro base rfl
    exact ⟨fair.1,fair.2.1⟩
  have cases' := allocate_cases current bounds fun proper =>
    exact_of_unwrapped current proper (words proper.1 proper.2.1 proper.2.2)
  rw [done] at cases'
  cases cases' with
  | null => exact .inl ⟨rfl,rfl⟩
  | bumped positive divides above fits =>
    have base := current.1
    have cursor := current.2.1
    exact .inr ⟨by omega,sound.bump positive divides above fits,rfl,rfl⟩
  | chained positive divides above fits room =>
    have base := fair.1
    have pushed := sound.push fair room
    exact .inr ⟨by omega,pushed.bump positive divides above fits,rfl,rfl⟩

end

theorem fresh (maxBytes : Nat) (positive : 0 < base) (bound : base + blockSize < 2^64) :
    Sound ⟨⟨[],⟨base,base,base + blockSize,blockSize⟩,blockSize,maxBytes,blockSize⟩,[]⟩ where
  placed := by
    intro b member
    cases mem_singleton.mp member
    exact ⟨positive,Nat.le_refl _,Nat.le_add_right _ _,rfl,bound⟩
  separate := pairwise_singleton _ _
  counted := by simp [Arena.blocks,Block.region]
  limited := Nat.le_max_right _ _
  first := rfl
  nonempty := nofun
  aligned := nofun
  inside := nofun
  apart := .nil

theorem first_block (sound : Sound s) :
    let first := s.arena.earlier.headD s.arena.current
    s.arena.blocks.head? = some first ∧ first.Placed ∧ first.size = s.arena.blockSize := by
  intro first
  have head : s.arena.blocks.head? = some first := by
    cases earlier : s.arena.earlier with
    | nil | cons b rest => simp [first,Arena.blocks,earlier]
  exact ⟨head,sound.placed first (mem_of_mem_head? head),sound.first⟩

theorem reset_eq (sound : Sound s) :
    let first := s.arena.earlier.headD s.arena.current
    s.arena.reset = ⟨[],⟨first.base,first.base,first.base + s.arena.blockSize,s.arena.blockSize⟩,
      s.arena.blockSize,s.arena.maxBytes,s.arena.blockSize⟩ := by
  intro first
  obtain ⟨_,placed,size⟩ := sound.first_block
  have stop : first.stop = first.base + s.arena.blockSize := by
    rw [← size]
    exact placed.2.2.2.1
  simp only [Arena.reset]
  change (⟨[],⟨first.base,first.base,first.stop,first.size⟩,_,_,first.size⟩ : Arena) = _
  rw [stop,show first.size = s.arena.blockSize from size]

theorem unused (sound : Sound s) (none' : s.arena.usedBytes = 0) : s.returned = [] := by
  rw [sound.used_eq.1] at none'
  apply eq_nil_iff_forall_not_mem.mpr
  intro g member
  obtain ⟨b,block,within⟩ := sound.inside g member
  have some' := sound.nonempty g member
  have bound := size_le_total _ b.filled (mem_map.mpr ⟨b,block,rfl⟩)
  unfold Region.Within at within
  omega

end Sound

theorem sound_step (s : State) (action : Action) (next : State) (sound : Sound s)
    (guard : Fair s action ∧ Addressable s action) (stepped : step s action = some next) :
    Sound next ∧ next.arena.blockSize = s.arena.blockSize ∧ next.arena.maxBytes = s.arena.maxBytes := by
  obtain ⟨fair,words⟩ := guard
  obtain ⟨⟨result,after⟩,performed,rfl⟩ := Option.map_eq_some_iff.mp stepped
  cases action with
  | allocate size align heap =>
    simp only [perform] at performed
    split at performed
    · cases performed
      exact ⟨sound,rfl,rfl⟩
    rename_i p arena done
    cases performed
    rcases sound.allocate fair words done with ⟨null,same⟩ | ⟨valid,next⟩
    · rw [if_pos null,same]
      exact ⟨sound,rfl,rfl⟩
    · rw [if_neg valid]
      exact next
  | reset =>
    cases performed
    have placed := sound.first_block.2
    have bound : (s.arena.earlier.headD s.arena.current).base + s.arena.blockSize < 2^64 := by
      have ends := placed.1.2.2.2
      rw [← placed.2]
      omega
    refine ⟨?_,rfl,rfl⟩
    simp only [sound.reset_eq]
    exact Sound.fresh _ placed.1.1 bound
  | rebindMemory heap =>
    simp only [perform] at performed
    split at performed
    · rename_i empty
      obtain ⟨arena,rebound,same⟩ := Option.map_eq_some_iff.mp performed
      cases same
      cases heap with
      | none => cases rebound
      | some base =>
        obtain ⟨positive,bound,_⟩ := fair
        simp only [Arena.rebindMemory,makeBlock,Option.map_some,addSize_eq _ _ bound] at rebound
        cases rebound
        rw [sound.unused empty]
        exact ⟨Sound.fresh _ positive bound,rfl,rfl⟩
    · cases performed

theorem sound_run (granted : Granted blockSize base []) (made : create blockSize maxBytes (some base) = some a)
    (fair : Along step Fair (start a) actions) (words : Along step Addressable (start a) actions)
    (runs : run step (start a) actions = some s) :
    Sound s ∧ s.arena.blockSize = blockSize ∧ s.arena.maxBytes = maxBytes := by
  obtain ⟨positive,bound,_⟩ := granted
  simp only [create,makeBlock,Option.map_some,addSize_eq _ _ bound] at made
  cases made
  refine run_guarded step _ (fun s => Sound s ∧ s.arena.blockSize = blockSize ∧ s.arena.maxBytes = maxBytes) ?_
    ⟨Sound.fresh _ positive bound,rfl,rfl⟩ (fair.and words) runs
  intro s action next sized guard stepped
  obtain ⟨sound,sameBlock,sameMax⟩ := sound_step s action next sized.1 guard stepped
  exact ⟨sound,sameBlock.trans sized.2.1,sameMax.trans sized.2.2⟩

/-- What was handed out since the last reset is aligned, lies in the arena's blocks and does not overlap; the
accounts are those of the blocks. A null pointer leaves the arena as it is, and a reset makes it new on its first
block. -/
theorem regions_apart (blockSize maxBytes base : Nat) (a : Arena) (granted : Granted blockSize base [])
    (made : create blockSize maxBytes (some base) = some a) (actions : List Action) (s : State)
    (fair : Along step Fair (start a) actions) (words : Along step Addressable (start a) actions)
    (runs : run step (start a) actions = some s) :
    (∀ g ∈ s.returned, g.align ∣ g.region.base ∧ ∃ b ∈ s.arena.blocks, g.region.Within b.region) ∧
    (s.returned.map Grant.region).Pairwise Region.Apart ∧
    s.arena.usedBytes ≤ s.arena.capacity ∧
    s.arena.capacity = (s.arena.blocks.map Block.size).sum ∧
    s.arena.capacity ≤ max maxBytes blockSize ∧
    (∀ size align heap p next, Fair s (.allocate size align heap) → Addressable s (.allocate size align heap) →
      perform s (.allocate size align heap) = some (.pointer p,next) →
      p = 0 ∧ next = s ∨
      p ≠ 0 ∧ next.returned = s.returned ++ [⟨align,⟨p,size⟩⟩]) ∧
    ∃ fresh, create blockSize maxBytes (s.arena.blocks.head?.map Block.base) = some fresh ∧
      perform s .reset = some (.done,start fresh) := by
  obtain ⟨sound,sizes⟩ := sound_run granted made fair words runs
  refine ⟨?_,sound.apart,?_,?_,?_,?_,?_⟩
  · intro g member
    refine ⟨sound.aligned g member,?_⟩
    obtain ⟨b,block,within⟩ := sound.inside g member
    have placed := sound.placed b block
    refine ⟨b,block,within.1,Nat.le_trans within.2 ?_⟩
    simp only [Block.filled,Block.region,Block.Placed] at placed ⊢
    omega
  · rw [sound.used_eq.1]
    exact Nat.le_trans sound.used_eq.2 (Nat.le_of_eq sound.counted.symm)
  · rw [Arena.capacity,sound.counted,total,map_map]
    rfl
  · rw [← sizes.1,← sizes.2]
    exact sound.limited
  · intro size align heap p next fair words performed
    simp only [perform] at performed
    split at performed <;> cases performed
    rename_i q arena done
    rcases sound.allocate fair words done with ⟨null,same⟩ | ⟨valid,_⟩
    · exact .inl ⟨null,by rw [if_pos null,same]⟩
    · exact .inr ⟨valid,if_neg valid⟩
  · obtain ⟨head,placed,size⟩ := sound.first_block
    have bound : (s.arena.earlier.headD s.arena.current).base + s.arena.blockSize < 2^64 := by
      have ends := placed.2.2.2
      rw [← size]
      omega
    refine ⟨s.arena.reset,?_,rfl⟩
    rw [head,sound.reset_eq,← sizes.1,← sizes.2]
    simp only [create,makeBlock,Option.map_some,addSize_eq _ _ bound]

/-- A second block for what does not fit, a refusal at the limit, and a reset. -/
theorem regions_apart_chained : ∃ s, run step (start ⟨[],⟨1000,1000,1064,64⟩,64,160,64⟩)
        [.allocate 50 8 none,.allocate 20 16 (some 2003),.allocate 64 1 none,.allocate 5 32 none,
          .allocate 80 8 none] = some s ∧
      s.returned = [⟨8,⟨1000,50⟩⟩,⟨16,⟨2016,20⟩⟩,⟨32,⟨2048,5⟩⟩] ∧ s.arena.usedBytes = 100 ∧
      (s.returned.map Grant.region).Pairwise Region.Apart ∧
      s.arena.usedBytes ≤ s.arena.capacity := by
  refine exists_final (by decide +kernel) fun runs => ?_
  have all := regions_apart 64 160 1000 ⟨[],⟨1000,1000,1064,64⟩,64,160,64⟩ (by decide +kernel)
    (by decide +kernel) _ _ (by decide +kernel) (by decide +kernel) runs
  exact ⟨by decide +kernel,by decide +kernel,all.2.1,all.2.2.1⟩

end ApexPipeline.ArenaAllocator
