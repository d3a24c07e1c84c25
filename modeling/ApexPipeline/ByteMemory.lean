import Mathlib

/-! Bytes at addresses, with block reads and writes. Writes that follow one another are one
write of the joined bytes. -/
namespace ApexPipeline

def ByteMemory := Nat → UInt8

namespace ByteMemory

def zeroed : ByteMemory := fun _ => 0

def read (m : ByteMemory) (address count : Nat) : List UInt8 :=
  (List.range count).map fun i => m (address + i)

def write (m : ByteMemory) (address : Nat) (bytes : List UInt8) : ByteMemory := fun a =>
  if address ≤ a then (bytes[a - address]?).getD (m a) else m a

variable (m : ByteMemory)

@[simp] theorem read_length (address count : Nat) : (m.read address count).length = count := by
  simp [read]

theorem write_below (bytes : List UInt8) (below : a < address) :
    m.write address bytes a = m a := if_neg (Nat.not_le.mpr below)

theorem write_inside (address : Nat)
    (inside : i < bytes.length) : m.write address bytes (address + i) = bytes[i] := by
  simp [write,inside]

theorem read_write (address : Nat) (bytes : List UInt8) :
    (m.write address bytes).read address bytes.length = bytes := by
  apply List.ext_getElem
  · exact read_length _ _ _
  · intro i _ inside
    simp [read,write_inside m address inside]

@[simp] theorem write_nil (address : Nat) : m.write address [] = m := by
  funext a
  simp [write]

theorem write_append (second : List UInt8) (adjacent : next = address + first.length) :
    (m.write address first).write next second = m.write address (first ++ second) := by
  funext a
  rcases Nat.lt_or_ge a address with below | onward
  · rw [write_below _ _ below,write_below _ _ (by omega),write_below _ _ below]
  obtain ⟨i,rfl⟩ := Nat.exists_eq_add_of_le onward
  rcases Nat.lt_or_ge i first.length with inside | behind
  · rw [write_below _ _ (by omega),write_inside m address inside,
      write_inside m address (by simp; omega),List.getElem_append_left inside]
  simp only [write,adjacent]
  rw [if_pos (by omega),if_pos onward,if_pos onward,Nat.add_sub_cancel_left,
    List.getElem?_eq_none behind,List.getElem?_append_right behind]
  simp [Nat.add_sub_add_left]

end ByteMemory
end ApexPipeline
