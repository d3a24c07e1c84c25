import Mathlib

/-! Ranges of addresses. Ranges that do not overlap share out the space they lie in,
so that their sizes add up to no more than it has. -/
namespace ApexPipeline.Regions
open List

structure Region where
  base : Nat
  size : Nat
  deriving DecidableEq, Repr

namespace Region

def Apart (a b : Region) : Prop := a.base + a.size ≤ b.base ∨ b.base + b.size ≤ a.base

instance (a b : Region) : Decidable (a.Apart b) := inferInstanceAs (Decidable (_ ∨ _))

def Within (inner outer : Region) : Prop :=
  outer.base ≤ inner.base ∧ inner.base + inner.size ≤ outer.base + outer.size

instance (a b : Region) : Decidable (a.Within b) := inferInstanceAs (Decidable (_ ∧ _))

def Holds (r : Region) (address : Nat) : Prop :=
  r.base ≤ address ∧ address < r.base + r.size

theorem Apart.symm {a b : Region} (apart : a.Apart b) : b.Apart a := Or.symm apart

theorem Apart.within {a b outer other : Region} (apart : outer.Apart other) (inside : a.Within outer)
    (also : b.Within other) : a.Apart b := by
  unfold Apart Within at *
  omega

theorem Apart.not_holds {a b : Region} (apart : a.Apart b) {address : Nat}
    (inside : a.Holds address) : ¬b.Holds address := by
  unfold Apart Holds at *
  omega

def cells (r : Region) : Finset Nat := Finset.Ico r.base (r.base + r.size)

theorem mem_cells (r : Region) (address : Nat) : address ∈ r.cells ↔ r.Holds address := by
  simp [cells,Holds]

end Region

def total (regions : List Region) : Nat := (regions.map Region.size).sum

@[simp] theorem total_append (first second : List Region) :
    total (first ++ second) = total first + total second := by
  simp [total]

@[simp] theorem total_singleton (r : Region) : total [r] = r.size := by
  simp [total]

theorem size_le_total (regions : List Region) (r : Region) (member : r ∈ regions) : r.size ≤ total regions := by
  induction regions with
  | nil => cases member
  | cons first rest ih =>
    simp only [total,map_cons,sum_cons] at ih ⊢
    rcases mem_cons.mp member with rfl | later
    · omega
    · have := ih later
      omega

/-- Ranges that are pairwise apart fit side by side into any space that holds them. -/
theorem total_le (space : Region) (apart : regions.Pairwise Region.Apart)
    (inside : ∀ r ∈ regions, r.Within space) : total regions ≤ space.size := by
  have counted : ∃ cells : Finset Nat, cells.card = total regions ∧
      ∀ address, address ∈ cells ↔ ∃ r ∈ regions, r.Holds address := by
    clear inside
    induction regions with
    | nil => exact ⟨∅,rfl,by simp⟩
    | cons r rest ih =>
      obtain ⟨others,later⟩ := pairwise_cons.mp apart
      obtain ⟨cells,card,member⟩ := ih later
      have disjoint : Disjoint r.cells cells := by
        rw [Finset.disjoint_left]
        intro address mine theirs
        obtain ⟨other,listed,holds⟩ := (member address).mp theirs
        exact (others other listed).not_holds ((r.mem_cells address).mp mine) holds
      refine ⟨r.cells ∪ cells,?_,?_⟩
      · rw [Finset.card_union_of_disjoint disjoint,card]
        simp [Region.cells,total]
      · intro address
        simp [Finset.mem_union,Region.mem_cells,member]
  obtain ⟨cells,card,member⟩ := counted
  have subset : cells ⊆ space.cells := by
    intro address listed
    obtain ⟨r,region,holds⟩ := (member address).mp listed
    have within := inside r region
    rw [Region.mem_cells]
    unfold Region.Holds Region.Within at *
    omega
  have bound := Finset.card_le_card subset
  rw [card] at bound
  simpa [Region.cells] using bound

end ApexPipeline.Regions
