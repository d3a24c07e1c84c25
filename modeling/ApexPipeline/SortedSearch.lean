import Mathlib

/-! Sorting and binary search, as the standard library of C++ specifies them. -/
namespace ApexPipeline.SortedSearch

/-- A sort by a key. Nothing is said about the order of elements with one key. -/
structure Sorter (A : Type) (key : A → K) [LE K] where
  sort : List A → List A
  perm : ∀ l, (sort l).Perm l
  sorted : ∀ l, (sort l).Pairwise fun a b => key a ≤ key b

/-- The loop of `lower_bound` over the `len` elements from `first` on. -/
def halve (before : A → Bool) (l : List A) : Nat → Nat → Nat → Nat
  | 0, first, _ => first
  | fuel + 1, first, len =>
    if len = 0 then first
    else
      let half := len / 2
      match l[first + half]? with
      | none => first
      | some middle =>
        if before middle then halve before l fuel (first + half + 1) (len - half - 1)
        else halve before l fuel first half

def lowerBound (before : A → Bool) (l : List A) : Nat := halve before l l.length 0 l.length

/-- The place of the boundary is kept between what is known to lie before it and what is not. -/
theorem halve_boundary (ordered : l.Pairwise fun a b => before b → before a)
    (fuel first len : Nat) (enough : len ≤ fuel) (within : first + len ≤ l.length)
    (below : ∀ i a, i < first → l[i]? = some a → before a)
    (above : ∀ i a, first + len ≤ i → l[i]? = some a → ¬ before a) :
    halve before l fuel first len ≤ l.length ∧
    (∀ i a, i < halve before l fuel first len → l[i]? = some a → before a) ∧
    ∀ i a, halve before l fuel first len ≤ i → l[i]? = some a → ¬ before a := by
  induction fuel generalizing first len with
  | zero =>
    have none_left : len = 0 := by omega
    subst none_left
    exact ⟨within,below,above⟩
  | succ fuel ih =>
    rw [halve]
    split
    · rename_i none_left
      subst none_left
      exact ⟨within,below,above⟩
    rename_i some_left
    have inside : first + len / 2 < l.length := by omega
    simp only [List.getElem?_eq_getElem inside]
    have later := List.pairwise_iff_getElem.mp ordered
    split
    · rename_i middle
      refine ih (first + len / 2 + 1) (len - len / 2 - 1) (by omega) (by omega) ?_ ?_
      · intro i a low found
        obtain ⟨bound,rfl⟩ := List.getElem?_eq_some_iff.mp found
        rcases Nat.lt_or_eq_of_le (Nat.le_of_lt_succ low) with less | same
        · exact later i (first + len / 2) bound inside less middle
        · subst same
          exact middle
      · intro i a high
        exact above i a (by omega)
    · rename_i middle
      refine ih first (len / 2) (by omega) (by omega) below ?_
      intro i a high found
      obtain ⟨bound,rfl⟩ := List.getElem?_eq_some_iff.mp found
      rcases Nat.lt_or_eq_of_le high with less | same
      · exact fun too => middle (later (first + len / 2) i inside bound less too)
      · subst same
        exact middle

/-- The boundary is where a scan from the front would stop. -/
theorem lowerBound_find (ordered : l.Pairwise fun a b => before b → before a) :
    l[lowerBound before l]? = l.find? fun a => !before a := by
  obtain ⟨within,below,above⟩ := halve_boundary ordered l.length 0 l.length (Nat.le_refl _) (by simp)
    (fun i a low => absurd low (Nat.not_lt_zero i))
    (fun i a high found => by
      have := (List.getElem?_eq_some_iff.mp found).1
      omega)
  rw [← lowerBound] at within below above
  cases found : l[lowerBound before l]? with
  | none =>
    symm
    apply List.find?_eq_none.mpr
    intro a member
    obtain ⟨i,bound,rfl⟩ := List.getElem_of_mem member
    have outside := List.getElem?_eq_none_iff.mp found
    simpa using below i _ (by omega) (List.getElem?_eq_getElem bound)
  | some a =>
    symm
    obtain ⟨bound,same⟩ := List.getElem?_eq_some_iff.mp found
    apply List.find?_eq_some_iff_getElem.mpr
    refine ⟨by simpa using above _ a (Nat.le_refl _) found,_,bound,same,fun j low => ?_⟩
    simpa using below j _ low (List.getElem?_eq_getElem (by omega))

end ApexPipeline.SortedSearch
