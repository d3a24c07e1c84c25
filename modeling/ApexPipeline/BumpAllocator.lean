import ApexPipeline.MathUtils

/-! `bump_allocator.cpp`: one chunk and a cursor in it. Pointers are addresses, `0` is null. -/
namespace ApexPipeline
open MathUtils

structure BumpAllocator where
  base : Nat := 0
  cursor : Nat := 0
  stop : Nat := 0
  deriving DecidableEq, Repr

namespace BumpAllocator

/-- `chunk` is what `malloc` returned. -/
def create (capacity chunk : Nat) : BumpAllocator :=
  if capacity = 0 then {} else ⟨chunk,chunk,addSize chunk capacity⟩

/-- Addresses are words: the aligned cursor and the end of the block both wrap. -/
def allocate (a : BumpAllocator) (size align : Nat) : Option Nat × BumpAllocator :=
  if size = 0 then (none,a)
  else if align = 0 ∨ align &&& (align - 1) ≠ 0 then (none,a)
  else if a.base = 0 then (none,a)
  else
    let result := alignUp a.cursor align
    if addSize result size > a.stop then (none,a)
    else (some result,{ a with cursor := addSize result size })

/-- The cursor is in the chunk; all three pointers are null without one. -/
def Placed (a : BumpAllocator) : Prop := a.base ≤ a.cursor ∧ a.cursor ≤ a.stop ∧ a.stop < 2^64

/-- Null, and nothing has changed, or a region behind the cursor that ends in the chunk. -/
def InBounds (a : BumpAllocator) (size : Nat) (result : Option Nat × BumpAllocator) : Prop :=
  result.1.getD 0 = 0 ∧ result.2 = a ∨
    ∃ p, a.cursor ≤ p ∧ p + size ≤ a.stop ∧ result = (some p,{ a with cursor := p + size })

theorem allocate_inBounds_iff {a : BumpAllocator} (placed : a.Placed) : a.InBounds size (a.allocate size align) ↔
    (Proper size align → a.base ≠ 0 → Bounded a.cursor a.stop size align) := by
  unfold allocate
  split
  · exact iff_of_true (.inl ⟨rfl,rfl⟩) fun proper => absurd ‹_› proper.1
  rename_i some'
  split
  · rename_i invalid
    exact iff_of_true (.inl ⟨rfl,rfl⟩) fun proper => by simp [proper.2] at invalid
  rename_i valid
  split
  · exact iff_of_true (.inl ⟨rfl,rfl⟩) fun _ chunk => absurd ‹_› chunk
  rename_i chunk
  simp only [not_or,not_not] at valid
  have proper : Proper size align := ⟨some',valid⟩
  have positive : 0 < a.cursor := Nat.lt_of_lt_of_le (Nat.pos_of_ne_zero chunk) placed.1
  simp only [proper,chunk,ne_eq,not_false_eq_true,true_implies]
  split
  · exact iff_of_true (.inl ⟨rfl,rfl⟩) (.inr (.inl ‹_›))
  rename_i fits
  rw [bounded_iff proper positive placed.2.1 placed.2.2 (Nat.not_lt.mp fits)]
  refine or_congr (and_congr_right fun _ => ?_) ⟨?_,fun ⟨above,ends⟩ => ⟨_,above,ends,?_⟩⟩
  · cases a
    simp
  · rintro ⟨p,above,ends,same⟩
    cases (Prod.mk.inj same).1
    exact ⟨above,ends⟩
  · rw [addSize_eq _ _ (Nat.lt_of_le_of_lt ends placed.2.2)]

end BumpAllocator
end ApexPipeline
