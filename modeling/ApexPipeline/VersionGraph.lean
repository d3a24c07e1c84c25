import Mathlib

/-! A graph of versions in which every version is numbered after its parents. -/
namespace ApexPipeline
open List

structure VersionGraph where
  parents : Nat → List Nat
  ordered : ∀ version parent, parent ∈ parents version → parent < version

namespace VersionGraph

/-- Whether `old` is met within so many levels above the version. -/
def reaches (graph : VersionGraph) (old : Nat) : Nat → Nat → Bool
  | 0,_ => false
  | levels + 1,version => version == old || (graph.parents version).any (graph.reaches old levels)

def isAncestor (graph : VersionGraph) (old new : Nat) : Bool := graph.reaches old (new + 1) new

/-- The common ancestor with the largest number. -/
def mergeBase (graph : VersionGraph) (left right : Nat) : Option Nat :=
  (List.range (left + 1)).reverse.find? fun version => graph.isAncestor version left && graph.isAncestor version right

def Includes (graph : VersionGraph) : Nat → Nat → Prop := Relation.ReflTransGen fun new old => old ∈ graph.parents new

/-- A common ancestor that no other common ancestor includes. -/
structure IsMergeBase (graph : VersionGraph) (left right base : Nat) : Prop where
  onLeft : graph.Includes left base
  onRight : graph.Includes right base
  best : ∀ other, graph.Includes left other → graph.Includes right other → graph.Includes other base → other = base

variable {graph : VersionGraph} {old new levels : Nat}

theorem Includes.le (includes : graph.Includes new old) : old ≤ new := by
  induction includes with
  | refl => exact Nat.le_refl new
  | tail _ parent ih => exact Nat.le_trans (Nat.le_of_lt (graph.ordered _ _ parent)) ih

theorem includes_of_reaches (reached : graph.reaches old levels new = true) : graph.Includes new old := by
  induction levels generalizing new with
  | zero => cases reached
  | succ levels ih =>
    simp only [reaches,Bool.or_eq_true,beq_iff_eq,any_eq_true] at reached
    rcases reached with rfl | ⟨parent,member,reached⟩
    · exact .refl
    · exact .head member (ih reached)

-- Numbers fall along the parents, so as many levels as the version's number are enough.
theorem reaches_of_includes (includes : graph.Includes new old) (enough : new < levels) :
    graph.reaches old levels new = true := by
  induction includes using Relation.ReflTransGen.head_induction_on generalizing levels with
  | refl =>
    obtain ⟨levels,rfl⟩ := Nat.exists_eq_add_of_lt enough
    simp [reaches]
  | head parent _ ih =>
    rename_i version next _
    cases levels with
    | zero => omega
    | succ levels =>
      have below := graph.ordered _ _ parent
      simp only [reaches,Bool.or_eq_true,any_eq_true]
      exact .inr ⟨next,parent,ih (by omega)⟩

theorem isAncestor_iff : graph.isAncestor old new = true ↔ graph.Includes new old :=
  ⟨includes_of_reaches,fun includes => reaches_of_includes includes (Nat.lt_succ_self new)⟩

theorem mergeBase_isMergeBase (found : graph.mergeBase left right = some base) :
    graph.IsMergeBase left right base := by
  obtain ⟨common,before,after,split,earlier⟩ := find?_eq_some_iff_append.mp found
  simp only [Bool.and_eq_true,isAncestor_iff] at common
  refine ⟨common.1,common.2,fun other onLeft onRight newer => ?_⟩
  have listed : other ∈ before ++ base :: after := by
    rw [← split,mem_reverse,mem_range]
    exact Nat.lt_succ_of_le onLeft.le
  have notBefore : other ∉ before := by
    intro member
    have refused := earlier other member
    simp [isAncestor_iff.mpr onLeft,isAncestor_iff.mpr onRight] at refused
  -- What stands after the base in the falling list is smaller than the base.
  have falling : (before ++ base :: after).Pairwise (· > ·) := by
    rw [← split,pairwise_reverse]
    exact pairwise_lt_range
  rcases mem_append.mp listed with member | member
  · exact absurd member notBefore
  rcases mem_cons.mp member with rfl | member
  · rfl
  · have smaller := (pairwise_cons.mp (pairwise_append.mp falling).2.1).1 other member
    have larger := newer.le
    omega

end VersionGraph
end ApexPipeline
