import Mathlib

/-! Memory read around a ring. `slice` is a straight copy out of memory, `window` a copy that wraps at the capacity;
positions are unbounded and only their remainder is an address. -/
namespace ApexPipeline.CircularBuffer
open List

def slice (memory : Nat → α) (start n : Nat) : List α :=
  (List.range n).map fun i => memory (start + i)

def window (memory : Nat → α) (capacity start n : Nat) : List α :=
  (List.range n).map fun i => memory ((start + i) % capacity)

/-- A straight copy into memory; everything outside the copied range is kept. -/
def overwrite (memory : Nat → α) (start : Nat) (data : List α) : Nat → α :=
  fun i => if start ≤ i then (data[i - start]?).getD (memory i) else memory i

variable (memory : Nat → α)

@[simp] theorem slice_length (start n : Nat) :
    (slice memory start n).length = n := by simp [slice]

@[simp] theorem window_length (capacity start n : Nat) :
    (window memory capacity start n).length = n := by simp [window]

theorem slice_append (start m n : Nat) :
    slice memory start (m + n) = slice memory start m ++ slice memory (start + m) n := by
  simp [slice,range_add,Nat.add_assoc]

theorem window_append (capacity start m n : Nat) : window memory capacity start (m + n) =
      window memory capacity start m ++ window memory capacity (start + m) n := by
  simp [window,range_add,Nat.add_assoc]

theorem window_take (capacity start n k : Nat) (inside : k ≤ n) :
    (window memory capacity start n).take k = window memory capacity start k := by
  obtain ⟨m,rfl⟩ := Nat.exists_eq_add_of_le inside
  rw [window_append,take_left' (by simp)]

theorem window_drop (capacity start n k : Nat) (inside : k ≤ n) :
    (window memory capacity start n).drop k = window memory capacity (start + k) (n - k) := by
  obtain ⟨m,rfl⟩ := Nat.exists_eq_add_of_le inside
  rw [window_append,drop_left' (by simp)]
  simp

theorem slice_take_drop (start : Nat) (inside : m + k ≤ n) :
    ((slice memory start n).drop m).take k = slice memory (start + m) k := by
  obtain ⟨rest,rfl⟩ := Nat.exists_eq_add_of_le inside
  rw [Nat.add_assoc,slice_append,drop_left' (by simp),slice_append,take_left' (by simp)]

theorem wrapped (start i : Nat) (positive : 0 < capacity) (inside : i < capacity) : (start + i) % capacity =
      if start % capacity + i < capacity then start % capacity + i
      else start % capacity + i - capacity := by
  rw [Nat.add_mod_eq_ite,Nat.mod_eq_of_lt inside]
  have := Nat.mod_lt start positive
  split <;> split <;> omega

theorem addresses_apart (capacity : Nat) (later : first < second)
    (turn : second < first + capacity) : first % capacity ≠ second % capacity := by
  intro same
  have inside : first ∈ (Finset.Ico first (first + capacity) : Set Nat) := by simp; omega
  have also : second ∈ (Finset.Ico first (first + capacity) : Set Nat) := by simp; omega
  have := Nat.mod_injOn_Ico first capacity inside also same
  omega

theorem window_contiguous (positive : 0 < capacity)
    (straight : start % capacity + n ≤ capacity) :
    window memory capacity start n = slice memory (start % capacity) n := by
  apply map_congr_left
  intro i member
  have bound := mem_range.mp member
  have low := Nat.mod_lt start positive
  rw [wrapped start i positive (by omega),if_pos (by omega)]

theorem turn_origin (start : Nat) (positive : 0 < capacity) :
    (start + (capacity - start % capacity)) % capacity = 0 := by
  have low := Nat.mod_lt start positive
  have parts := Nat.div_add_mod start capacity
  have turns : start + (capacity - start % capacity) = capacity * (start / capacity + 1) := by
    rw [Nat.mul_succ]
    omega
  rw [turns,Nat.mul_mod_right]

theorem window_wrapping (positive : 0 < capacity)
    (wraps : capacity - start % capacity ≤ n) (turn : n ≤ capacity) :
    window memory capacity start n = slice memory (start % capacity) (capacity - start % capacity) ++
        slice memory 0 (n - (capacity - start % capacity)) := by
  have low := Nat.mod_lt start positive
  obtain ⟨rest,rfl⟩ := Nat.exists_eq_add_of_le wraps
  rw [window_append,window_contiguous _ positive (by omega),Nat.add_sub_cancel_left]
  congr 1
  have origin := turn_origin start positive
  rw [window_contiguous _ positive (by omega),origin]

theorem overwrite_outside (start i : Nat) (data : List α)
    (outside : i < start ∨ start + data.length ≤ i) : overwrite memory start data i = memory i := by
  unfold overwrite
  split
  · rw [getElem?_eq_none (by omega)]
    rfl
  · rfl

theorem slice_overwrite (start : Nat) (data : List α) :
    slice (overwrite memory start data) start data.length = data := by
  apply ext_getElem (by simp)
  intro i _ bound
  simp [slice,overwrite,bound]

theorem slice_overwrite_disjoint (apart : from_ + n ≤ start ∨ start + data.length ≤ from_) :
    slice (overwrite memory start data) from_ n = slice memory from_ n := by
  apply map_congr_left
  intro i member
  have bound := mem_range.mp member
  exact overwrite_outside memory start (from_ + i) data (by omega)

theorem slice_overwrite_twice (first second : List α) :
    slice (overwrite (overwrite memory 0 first) first.length second) 0
      (first.length + second.length) = first ++ second := by
  rw [slice_append,slice_overwrite_disjoint _ (by omega),slice_overwrite,Nat.zero_add,slice_overwrite]

/-- Writing straight after the occupied window, without crossing the physical end
and without running into its start, appends exactly the written data. -/
theorem window_write (capacity start n : Nat) (data : List α)
    (positive : 0 < capacity) (straight : (start + n) % capacity + data.length ≤ capacity)
    (fits : n + data.length ≤ capacity) :
    window (overwrite memory ((start + n) % capacity) data) capacity start (n + data.length) =
      window memory capacity start n ++ data := by
  rw [window_append,window_contiguous _ positive straight,slice_overwrite]
  congr 1
  by_cases empty : data.length = 0
  · simp [window,overwrite,length_eq_zero_iff.mp empty]
  apply map_congr_left
  intro i member
  have bound := mem_range.mp member
  have low := Nat.mod_lt start positive
  apply overwrite_outside
  -- The written range is the free part of the ring, seen from the occupied start.
  rw [wrapped start i positive (by omega)]
  by_cases full : n < capacity
  · rw [wrapped start n positive full] at straight ⊢
    split at straight <;> split <;> omega
  · omega

end ApexPipeline.CircularBuffer
