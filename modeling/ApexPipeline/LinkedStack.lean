import Mathlib

/-! Singly linked lists whose links are stored in their nodes, used from the front only.
The address zero is the null pointer. -/
namespace ApexPipeline.LinkedStack

/-- The nodes reached from `head` on, down to the null pointer. Such a list is finite, so
following the links never runs in a circle. -/
def Links (next : Nat → Nat) : Nat → List Nat → Prop
  | head, [] => head = 0
  | head, a :: rest => head = a ∧ a ≠ 0 ∧ Links next (next a) rest

variable {head : Nat} {next : Nat → Nat} {nodes : List Nat}

theorem Links.congr {other : Nat → Nat} (links : Links next head nodes) (same : ∀ a ∈ nodes, other a = next a) :
    Links other head nodes := by
  induction nodes generalizing head with
  | nil => exact links
  | cons a rest ih =>
    obtain ⟨front,valid,later⟩ := links
    refine ⟨front,valid,?_⟩
    rw [same a List.mem_cons_self]
    exact ih later fun b member => same b (List.mem_cons_of_mem _ member)

theorem Links.push (links : Links next head nodes) (valid : a ≠ 0) (fresh : a ∉ nodes) :
    Links (Function.update next a head) a (a :: nodes) := by
  refine ⟨rfl,valid,?_⟩
  rw [Function.update_self]
  apply links.congr
  intro b member
  have other : b ≠ a := fun same => fresh (same ▸ member)
  exact Function.update_of_ne other _ _

theorem Links.empty_iff (links : Links next head nodes) : head = 0 ↔ nodes = [] := by
  cases nodes with
  | nil => exact ⟨fun _ => rfl,fun _ => links⟩
  | cons a rest =>
    obtain ⟨rfl,valid,_⟩ := links
    exact ⟨fun null => absurd null valid,fun none' => nomatch none'⟩

end ApexPipeline.LinkedStack
