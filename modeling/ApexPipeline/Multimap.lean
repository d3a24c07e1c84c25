import Mathlib

/-! Hash maps from keys to lists of values that are kept without repetitions, and whose keys go when
their last value does. -/
namespace ApexPipeline
open List

abbrev Multimap (A B : Type) := AList fun _ : A => List B

namespace Multimap
variable {A B : Type} [DecidableEq A]

def values (m : Multimap A B) (a : A) : List B := (m.lookup a).getD []

/-- `m[a]`, which makes an empty entry for a new key. -/
def touch (m : Multimap A B) (a : A) : Multimap A B :=
  match m.lookup a with
  | none => m.insert a []
  | some _ => m

def total (m : Multimap A B) : Nat := (m.entries.map fun entry => entry.2.length).sum

def Clean (m : Multimap A B) : Prop := ∀ a found, m.lookup a = some found → found ≠ [] ∧ found.Nodup

variable {m : Multimap A B}

theorem values_of_lookup (found : m.lookup a = some l) : m.values a = l := by
  simp [values,found]

theorem Clean.nodup (clean : m.Clean) (a : A) : (m.values a).Nodup := by
  cases found : m.lookup a with
  | none => simp [values,found]
  | some l =>
    rw [values_of_lookup found]
    exact (clean a l found).2

section
variable (m : Multimap A B) (a other : A)

theorem values_insert (l : List B) :
    values (m.insert a l) other = if other = a then l else m.values other := by
  by_cases same : other = a
  · subst same
    simp [values]
  · simp [values,same]

theorem values_erase :
    values (m.erase a) other = if other = a then [] else m.values other := by
  by_cases same : other = a
  · subst same
    simp [values]
  · simp [values,same]

@[simp] theorem values_touch : (m.touch a).values other = m.values other := by
  rw [touch]
  split
  · rename_i missing
    rw [values_insert]
    split
    · subst other
      simp [values,missing]
    · rfl
  · rfl

end

theorem touch_of_mem (member : b ∈ m.values a) : m.touch a = m := by
  cases found : m.lookup a with
  | none =>
    rw [values,found] at member
    cases member
  | some l => simp only [touch,found]

def relation (m : Multimap A B) : Set (A × B) := {pair | pair.2 ∈ m.values pair.1}

theorem empty_clean : Clean (∅ : Multimap A B) := by
  intro a found there
  simp at there

def pairs (m : Multimap A B) : List (A × B) := m.entries.flatMap fun entry => entry.2.map (Prod.mk entry.1)

theorem mem_pairs (m : Multimap A B) (a : A) (b : B) : (a,b) ∈ m.pairs ↔ b ∈ m.values a := by
  have stored : (a,b) ∈ m.pairs ↔ ∃ found, m.lookup a = some found ∧ b ∈ found := by
    simp only [pairs,mem_flatMap,mem_map,Prod.mk.injEq]
    constructor
    · rintro ⟨⟨key,found⟩,entry,value,member,rfl,rfl⟩
      exact ⟨found,AList.mem_lookup_iff.mpr entry,member⟩
    · rintro ⟨found,there,member⟩
      exact ⟨⟨a,found⟩,AList.mem_lookup_iff.mp there,b,member,rfl,rfl⟩
  rw [stored,values]
  cases m.lookup a <;> simp

theorem Clean.erase (clean : m.Clean) (a : A) : Clean (m.erase a) := by
  intro other found there
  by_cases same : other = a
  · subst same
    rw [AList.lookup_erase] at there
    cases there
  · rw [AList.lookup_erase_ne same] at there
    exact clean other found there

theorem Clean.pairs_nodup (clean : m.Clean) : m.pairs.Nodup := by
  refine nodup_flatMap.mpr ⟨?_,?_⟩
  · rintro ⟨key,found⟩ entry
    exact (clean key found (AList.mem_lookup_iff.mpr entry)).2.map (Prod.mk_right_injective key)
  · refine (pairwise_map.mp m.keys_nodup).imp ?_
    intro first second different pair one other
    obtain ⟨_,_,rfl⟩ := mem_map.mp one
    obtain ⟨_,_,same⟩ := mem_map.mp other
    exact different (Prod.mk.inj same).1.symm

theorem Clean.total_eq (clean : m.Clean) : m.total = m.relation.ncard := by
  classical
  have same : m.relation = m.pairs.toFinset := by
    ext ⟨a,b⟩
    simp [relation,mem_pairs]
  rw [same,Set.ncard_coe_finset,toFinset_card_of_nodup clean.pairs_nodup]
  simp [total,pairs,length_flatMap]

variable [DecidableEq B]

def add (m : Multimap A B) (a : A) (b : B) : Multimap A B :=
  m.insert a (if b ∈ m.values a then m.values a else m.values a ++ [b])

def remove (m : Multimap A B) (a : A) (b : B) : Multimap A B :=
  match m.lookup a with
  | none => m
  | some found =>
    let rest := found.filter fun other => other ≠ b
    if rest = [] then m.erase a else m.insert a rest

theorem touch_add (m : Multimap A B) (a : A) (b : B) : (m.touch a).add a b = m.add a b := by
  simp only [add,values_touch]
  cases found : m.lookup a with
  | none => simp only [touch,found,AList.insert_insert]
  | some l => simp only [touch,found]

section
variable (m : Multimap A B) (a other : A)

theorem values_add (b : B) : (m.add a b).values other =
    if other = a then if b ∈ m.values a then m.values a else m.values a ++ [b] else m.values other := by
  rw [add,values_insert]

theorem mem_add (b value : B) :
    value ∈ (m.add a b).values other ↔ (other = a ∧ value = b) ∨ value ∈ m.values other := by
  rw [values_add]
  by_cases same : other = a
  · subst same
    rw [if_pos rfl]
    split
    · rename_i there
      constructor
      · exact .inr
      · rintro (⟨-,rfl⟩ | member)
        · exact there
        · exact member
    · simp [or_comm]
  · simp [same]

theorem values_remove (b : B) :
    (m.remove a b).values other = if other = a then (m.values a).filter (fun value => value ≠ b) else m.values other := by
  rw [remove]
  split
  · rename_i missing
    split
    · subst other
      simp [values,missing]
    · rfl
  · rename_i found there
    rw [values_of_lookup there]
    simp only
    split
    · rename_i empty
      rw [values_erase,empty]
    · rw [values_insert]

theorem mem_remove (b value : B) :
    value ∈ (m.remove a b).values other ↔ value ∈ m.values other ∧ ¬ (other = a ∧ value = b) := by
  rw [values_remove]
  by_cases same : other = a
  · subst same
    simp
  · simp [same]

end

theorem mem_foldl_remove (keys : List A) (m : Multimap A B) (other : A) (b value : B) :
    value ∈ (keys.foldl (fun m a => m.remove a b) m).values other ↔
      value ∈ m.values other ∧ ¬ (other ∈ keys ∧ value = b) := by
  induction keys generalizing m with
  | nil => simp
  | cons a rest ih =>
    rw [foldl_cons,ih,mem_remove]
    grind

theorem Clean.add (clean : m.Clean) (a : A) (b : B) : (m.add a b).Clean := by
  intro other found there
  rw [Multimap.add] at there
  by_cases same : other = a
  · subst same
    rw [AList.lookup_insert] at there
    cases there
    have nodup := clean.nodup other
    split
    · exact ⟨ne_nil_of_mem ‹_›,nodup⟩
    · exact ⟨by simp,nodup_append.mpr ⟨nodup,nodup_singleton b,by aesop⟩⟩
  · rw [AList.lookup_insert_ne same] at there
    exact clean other found there

theorem Clean.remove (clean : m.Clean) (a : A) (b : B) : (m.remove a b).Clean := by
  intro other found there
  rw [Multimap.remove] at there
  split at there
  · exact clean other found there
  rename_i before present
  simp only at there
  split at there
  · exact clean.erase a other found there
  by_cases same : other = a
  · subst same
    rw [AList.lookup_insert] at there
    cases there
    exact ⟨‹_›,(clean other before present).2.filter _⟩
  · rw [AList.lookup_insert_ne same] at there
    exact clean other found there

theorem Clean.foldl_remove (keys : List A) (b : B) (clean : m.Clean) :
    Clean (keys.foldl (fun m a => m.remove a b) m) := by
  induction keys generalizing m with
  | nil => exact clean
  | cons a rest ih => exact ih (clean.remove a b)

end Multimap
end ApexPipeline
