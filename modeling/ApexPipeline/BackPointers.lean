import Mathlib

/-! An array of keys in which every key knows its place. To take a key out, the last one is put
in its place, so one more pointer has to change. -/
namespace ApexPipeline.BackPointers
open List Function Option
variable {K : Type} [DecidableEq K] {order : List K} {index : K → Option Nat} {key last : K} {i j : Nat}

/-- The pointers are those of the array, and there is no other. -/
def Agrees (order : List K) (index : K → Option Nat) : Prop :=
  ∀ key i, index key = some i ↔ order[i]? = some key

def swapAt (order : List K) (i j : Nat) : List K :=
  match order[i]?, order[j]? with
  | some a, some b => (order.set i b).set j a
  | _, _ => order

/-- The element at `i` is swapped with the one at the end, unless it is that. -/
def toEnd (order : List K) (i : Nat) : List K :=
  if i = order.length - 1 then order else swapAt order i (order.length - 1)

theorem toEnd_near (nodup : order.Nodup) (here : order[i]? = some key) (near : order.length ≤ i + 2) :
    toEnd order i = order.erase key ++ [key] := by
  obtain ⟨inside,at'⟩ := List.getElem?_eq_some_iff.mp here
  obtain ⟨front,rest,rfl,place⟩ : ∃ front rest, order = front ++ key :: rest ∧ front.length = i := by
    refine ⟨order.take i,order.drop (i + 1),?_,by simp; omega⟩
    rw [← at',getElem_cons_drop,take_append_drop]
  have absent : key ∉ front := fun member =>
    (nodup_append.mp nodup).2.2 key member key mem_cons_self rfl
  subst place
  rw [erase_append_right _ absent,erase_cons_head]
  simp only [length_append,length_cons] at near
  match rest, near with
  | [], _ => simp [toEnd]
  | [last], _ => simp [toEnd,swapAt]
  | _ :: _ :: _, near =>
    simp only [length_cons] at near
    omega

namespace Agrees

omit [DecidableEq K] in
theorem nodup (agrees : Agrees order index) : order.Nodup := by
  apply nodup_iff_getElem?_ne_getElem?.mpr
  intro i j before bound same
  have first := (agrees order[j] i).mpr (same.trans (getElem?_eq_getElem bound))
  have second := (agrees order[j] j).mpr (getElem?_eq_getElem bound)
  have equal : i = j := some.inj (first.symm.trans second)
  omega

omit [DecidableEq K] in
theorem mem_iff (agrees : Agrees order index) : key ∈ order ↔ (index key).isSome := by
  rw [mem_iff_getElem?,isSome_iff_exists]
  exact exists_congr fun i => (agrees key i).symm

omit [DecidableEq K] in
theorem lt_length (agrees : Agrees order index) (known : index key = some i) : i < order.length := by
  have here := (agrees key i).mp known
  exact (List.getElem?_eq_some_iff.mp here).1

variable (agrees : Agrees order index)
include agrees

theorem push (fresh : index key = none) :
    Agrees (order ++ [key]) (update index key (some order.length)) := by
  intro other i
  rcases Nat.lt_trichotomy i order.length with small | rfl | large
  · rw [getElem?_append_left small,← agrees other i]
    by_cases same : other = key
    · subst same
      simp [fresh]
      omega
    · simp [same]
  · by_cases same : other = key
    · simp [same]
    have outside (known : index other = some order.length) : order.length < order.length :=
      agrees.lt_length known
    simp only [update_of_ne same,getElem?_concat_length,some.injEq,Ne.symm same,iff_false]
    intro known
    exact Nat.lt_irrefl _ (outside known)
  · have outside (known : index other = some i) : i < order.length := agrees.lt_length known
    rw [getElem?_eq_none (by simp; omega)]
    by_cases same : other = key
    · simp [same]
      omega
    simp only [update_of_ne same,reduceCtorEq,iff_false]
    intro known
    have := outside known
    omega

theorem swap (first : order[i]? = some key) (second : order[j]? = some last) :
    Agrees (swapAt order i j) (update (update index last (some i)) key (some j)) := by
  have here := List.getElem?_eq_some_iff.mp first
  have there := List.getElem?_eq_some_iff.mp second
  have known := (agrees key i).mpr first
  have also := (agrees last j).mpr second
  intro other n
  simp only [swapAt,first,second,getElem?_set,length_set]
  by_cases same : other = key
  · subst same
    simp only [update_self]
    grind [Agrees]
  by_cases back : other = last
  · subst back
    simp only [update_of_ne same,update_self]
    grind [Agrees]
  · simp only [update_of_ne same,update_of_ne back]
    rw [agrees other n]
    grind [Agrees]

theorem pop (back : order[order.length - 1]? = some key) :
    Agrees order.dropLast (update index key none) := by
  have known := (agrees key _).mpr back
  intro other n
  rw [getElem?_dropLast]
  by_cases same : other = key
  · subst same
    simp only [update_self,reduceCtorEq,false_iff]
    intro found
    split at found
    · have place : n = order.length - 1 := some.inj (((agrees other n).mpr found).symm.trans known)
      omega
    · cases found
  · rw [update_of_ne same,agrees other n]
    grind [Agrees]

theorem swapRemove (here : order[i]? = some key)
    (back : order[order.length - 1]? = some last) (apart : i ≠ order.length - 1) :
    Agrees (swapAt order i (order.length - 1)).dropLast (update (update index key none) last (some i)) := by
  have swapped := agrees.swap here back
  have size : (swapAt order i (order.length - 1)).length = order.length := by
    simp [swapAt,here,back]
  have end' : (swapAt order i (order.length - 1))[(swapAt order i (order.length - 1)).length - 1]? = some key := by
    rw [size]
    exact (swapped key _).mp (update_self ..)
  have different : key ≠ last := by
    rintro rfl
    have known := (agrees key i).mpr here
    have also := (agrees key _).mpr back
    exact apart (some.inj (known.symm.trans also))
  have popped := swapped.pop end'
  rw [update_idem,update_comm different.symm] at popped
  exact popped

end Agrees
end ApexPipeline.BackPointers
