import Mathlib

/-! `size_t` arithmetic and the rounding helper of `detail/math_utils.hpp`. A `size_t` is a natural number below
`2^64`. -/
namespace ApexPipeline.MathUtils

def sizeMax : Nat := 2^64 - 1

/-- Unsigned arithmetic of the source, all of it modulo `2^64`. -/
def addSize (a b : Nat) : Nat := (a + b) % 2^64
def subSize (a b : Nat) : Nat := (a + (2^64 - b)) % 2^64
def mulSize (a b : Nat) : Nat := (a * b) % 2^64

/-- `(size + alignment - 1) & ~(alignment - 1)`, for a power of two up to `2^63`. -/
def alignUp (size alignment : Nat) : Nat := addSize size (alignment - 1) &&& (2^64 - alignment)

/-- The shift-or cascade: every bit below the highest set bit becomes set. -/
def smear (v : Nat) : Nat :=
  let v := v ||| v >>> 1
  let v := v ||| v >>> 2
  let v := v ||| v >>> 4
  let v := v ||| v >>> 8
  let v := v ||| v >>> 16
  v ||| v >>> 32

/-- Zero reports overflow; a caller has to reject it. -/
def nextPowerOf2 (v : Nat) : Nat :=
  if v = 0 then 1
  else if v &&& (v - 1) = 0 then v
  else if v > (sizeMax >>> 1) + 1 then 0
  else smear (v - 1) + 1

section
variable (a b : Nat)

theorem addSize_lt : addSize a b < 2^64 := Nat.mod_lt _ (by decide)

theorem addSize_eq (fits : a + b < 2^64) : addSize a b = a + b := Nat.mod_eq_of_lt fits

theorem mulSize_eq (fits : a * b < 2^64) : mulSize a b = a * b := Nat.mod_eq_of_lt fits

theorem subSize_eq (ordered : b ≤ a) (word : a < 2^64) : subSize a b = a - b := by
  unfold subSize
  omega

end

theorem subSize_addSize_left (fits : subSize a b + n < 2^64) : subSize (addSize a n) b = subSize a b + n := by
  unfold subSize addSize at *
  omega

theorem subSize_addSize_right (hb : b < 2^64)
    (fits : n ≤ subSize a b) : subSize a (addSize b n) = subSize a b - n := by
  unfold subSize addSize at *
  omega

/-- The wrapped distance, read back: the far end is the near end advanced by it. -/
theorem addSize_subSize (ha : a < 2^64) (hb : b < 2^64) : addSize b (subSize a b) = a := by
  unfold subSize addSize
  omega

/-- A mask of ones is a remainder, and the wrap at `2^64` does not disturb it. -/
theorem addSize_mask (a n : Nat) (small : k ≤ 63) : addSize a n &&& (2^k - 1) = (a + n) % 2^k := by
  have divides : 2^k ∣ 2^64 := Nat.pow_dvd_pow 2 (by omega)
  rw [Nat.and_two_pow_sub_one_eq_mod,addSize,Nat.mod_mod_of_dvd _ divides]

theorem word_mask (a : Nat) (small : k ≤ 63) : a % 2^64 &&& (2^k - 1) = a % 2^k := by
  have wrapped := addSize_mask 0 a small
  simpa [addSize] using wrapped

theorem two_pow_word (small : k ≤ 63) : 0 < 2^k ∧ 2^k ≤ 2^63 :=
  ⟨Nat.two_pow_pos k,Nat.pow_le_pow_right (by decide) small⟩

theorem clear_low (small : k ≤ 63) (bound : word < 2^64) : word &&& (2^64 - 2^k) = word / 2^k * 2^k := by
  have ones : 2^64 - 2^k = 2^64 - ((2^k - 1) + 1) := by
    have := Nat.two_pow_pos k
    omega
  have low : 2^k - 1 < 2^64 := by
    have := (two_pow_word small).2
    omega
  apply Nat.eq_of_testBit_eq
  intro i
  rw [ones,Nat.testBit_and,Nat.testBit_two_pow_sub_succ low,Nat.testBit_two_pow_sub_one,
    Nat.testBit_mul_two_pow,Nat.testBit_div_two_pow]
  rcases Nat.lt_or_ge i 64 with inside | outside
  · by_cases high : k ≤ i
    · simp [high,inside,Nat.not_lt.mpr high]
    · simp [high,Nat.not_le.mp high]
  have zero : word.testBit i = false :=
    Nat.testBit_lt_two_pow (Nat.lt_of_lt_of_le bound (Nat.pow_le_pow_right (by decide) outside))
  have high : k ≤ i := by omega
  simp [zero,high]

/-- Without a wrap, `alignUp` is the least multiple that is large enough. -/
theorem alignUp_spec (size k : Nat) (small : k ≤ 63) (fits : size + (2^k - 1) < 2^64) :
    2^k ∣ alignUp size (2^k) ∧ size ≤ alignUp size (2^k) ∧ alignUp size (2^k) < size + 2^k := by
  have positive := Nat.two_pow_pos k
  have rounded : alignUp size (2^k) = (size + (2^k - 1)) / 2^k * 2^k := by
    unfold alignUp addSize
    rw [Nat.mod_eq_of_lt fits,clear_low small fits]
  have parts := Nat.div_add_mod (size + (2^k - 1)) (2^k)
  have rest := Nat.mod_lt (size + (2^k - 1)) positive
  rw [rounded]
  refine ⟨Nat.dvd_mul_left _ _,?_,?_⟩
  all_goals
    rw [Nat.mul_comm]
    omega

/-- Neither the aligned cursor nor the end of what is put there wraps. -/
def Unwrapped (cursor size align : Nat) : Prop :=
  cursor + (align - 1) < 2^64 ∧ alignUp cursor align + size < 2^64

instance (cursor size align : Nat) : Decidable (Unwrapped cursor size align) :=
  inferInstanceAs (Decidable (_ ∧ _))

/-- An address that is not null leaves no room for an alignment that is no word. -/
theorem alignUp_address (positive : 0 < address) (nonzero : align ≠ 0)
    (single : align &&& (align - 1) = 0) (fits : address + (align - 1) < 2^64) :
    align ∣ alignUp address align ∧ address ≤ alignUp address align ∧ alignUp address align < address + align := by
  obtain ⟨k,rfl⟩ := (Nat.and_sub_one_eq_zero_iff_isPowerOfTwo nonzero).mp single
  refine alignUp_spec address k ?_ fits
  by_contra large
  have huge : 2^64 ≤ 2^k := Nat.pow_le_pow_right (by decide) (by omega)
  omega

/-- A request that an allocator looks for room for. -/
def Proper (size align : Nat) : Prop := size ≠ 0 ∧ align ≠ 0 ∧ align &&& (align - 1) = 0

instance (size align : Nat) : Decidable (Proper size align) := inferInstanceAs (Decidable (_ ∧ _))

/-- The comparison with `stop` is right although sums may wrap: none does, or the end still comes out behind `stop`,
or what comes out is null and the cursor stays where it is. -/
def Bounded (cursor stop size align : Nat) : Prop :=
  Unwrapped cursor size align ∨ stop < addSize (alignUp cursor align) size ∨
    alignUp cursor align = 0 ∧ addSize (alignUp cursor align) size = cursor

instance (cursor stop size align : Nat) : Decidable (Bounded cursor stop size align) :=
  inferInstanceAs (Decidable (_ ∨ _))

theorem alignUp_wraps (positive : 0 < cursor) (word : cursor < 2^64) (wraps : 2^64 ≤ cursor + (align - 1)) :
    alignUp cursor align < cursor := by
  unfold alignUp addSize
  by_cases huge : 2^64 ≤ align
  · rwa [Nat.sub_eq_zero_of_le huge,Nat.and_zero]
  · have below : (cursor + (align - 1)) % 2^64 &&& (2^64 - align) ≤ _ := Nat.and_le_left
    omega

theorem alignUp_unwrapped (positive : 0 < cursor) (word : cursor < 2^64) (above : cursor ≤ alignUp cursor align) :
    cursor + (align - 1) < 2^64 := by
  by_contra wraps
  exact absurd above (Nat.not_le.mpr (alignUp_wraps positive word (Nat.not_lt.mp wraps)))

/-- What an allocation comes to whose end is not behind `stop`. -/
theorem bounded_iff (proper : Proper size align) (positive : 0 < cursor) (inside : cursor ≤ stop) (word : stop < 2^64)
    (fits : addSize (alignUp cursor align) size ≤ stop) : Bounded cursor stop size align ↔
      alignUp cursor align = 0 ∧ addSize (alignUp cursor align) size = cursor ∨
      cursor ≤ alignUp cursor align ∧ alignUp cursor align + size ≤ stop := by
  constructor
  · rintro (words | behind | null)
    · have above := (alignUp_address positive proper.2.1 proper.2.2 words.1).2.1
      rw [addSize_eq _ _ words.2] at fits
      exact .inr ⟨above,fits⟩
    · exact absurd fits (Nat.not_le.mpr behind)
    · exact .inl null
  · rintro (null | ⟨above,ends⟩)
    · exact .inr (.inr null)
    · exact .inl ⟨alignUp_unwrapped positive (by omega) above,Nat.lt_of_le_of_lt ends word⟩

/-- One round of the cascade doubles the distance over which a bit is copied down. -/
theorem smear_round {x w m : Nat} (copies : ∀ i, x.testBit i = true ↔ ∃ j < m, w.testBit (i + j) = true) (i : Nat) :
    (x ||| x >>> m).testBit i = true ↔ ∃ j < m + m, w.testBit (i + j) = true := by
  rw [Nat.testBit_lor,Nat.testBit_shiftRight,Bool.or_eq_true,copies,copies]
  constructor
  · rintro (⟨j,bound,set⟩ | ⟨j,bound,set⟩)
    · exact ⟨j,by omega,set⟩
    · exact ⟨m + j,by omega,by rwa [show i + (m + j) = m + i + j by omega]⟩
  · rintro ⟨j,bound,set⟩
    by_cases near : j < m
    · exact .inl ⟨j,near,set⟩
    · exact .inr ⟨j - m,by omega,by rwa [show m + i + (j - m) = i + j by omega]⟩

theorem smear_testBit (w i : Nat) : (smear w).testBit i = true ↔ ∃ j < 64, w.testBit (i + j) = true := by
  have start : ∀ i, w.testBit i = true ↔ ∃ j < 1, w.testBit (i + j) = true := by
    intro i
    simp
  exact smear_round (smear_round (smear_round (smear_round (smear_round (smear_round start))))) i

theorem smear_eq (positive : w ≠ 0) (bound : w < 2^64) : smear w = 2^(w.log2 + 1) - 1 := by
  have top : w.log2 < 64 := (Nat.log2_lt positive).mpr bound
  apply Nat.eq_of_testBit_eq
  intro i
  rw [Bool.eq_iff_iff,smear_testBit,Nat.testBit_two_pow_sub_one,decide_eq_true_iff]
  constructor
  · rintro ⟨j,_,set⟩
    by_contra high
    have below : w < 2^(i + j) := by
      calc w < 2^(w.log2 + 1) := Nat.lt_log2_self
        _ ≤ 2^(i + j) := Nat.pow_le_pow_right (by decide) (by omega)
    rw [Nat.testBit_lt_two_pow below] at set
    contradiction
  · intro low
    refine ⟨w.log2 - i,by omega,?_⟩
    rw [show i + (w.log2 - i) = w.log2 by omega]
    exact Nat.testBit_log2 positive

/-- The least power of two at or above `v`, or zero when it needs a 65th bit. -/
theorem nextPowerOf2_spec (v : Nat) (bound : v < 2^64) : (2^63 < v ∧ nextPowerOf2 v = 0) ∨
    (∃ k, k ≤ 63 ∧ nextPowerOf2 v = 2^k ∧ v ≤ 2^k ∧ ∀ m, v ≤ 2^m → 2^k ≤ 2^m) := by
  unfold nextPowerOf2
  by_cases zero : v = 0
  · refine .inr ⟨0,by omega,by simp [zero],by omega,?_⟩
    intro m _
    exact Nat.one_le_two_pow
  rw [if_neg zero]
  by_cases exactPower : v &&& (v - 1) = 0
  · obtain ⟨k,rfl⟩ := (Nat.and_sub_one_eq_zero_iff_isPowerOfTwo zero).mp exactPower
    have small : k < 64 := (Nat.pow_lt_pow_iff_right (by decide)).mp bound
    rw [if_pos exactPower]
    exact .inr ⟨k,by omega,rfl,Nat.le_refl _,fun _ h => h⟩
  rw [if_neg exactPower]
  have half : (sizeMax >>> 1) + 1 = 2^63 := by decide
  rw [half]
  by_cases huge : v > 2^63
  · exact .inl ⟨huge,if_pos huge⟩
  rw [if_neg huge]
  -- `v` is at least three here: one and two are powers of two.
  have large : v ≠ 1 := by rintro rfl; exact exactPower (by decide)
  have low : 2^(v-1).log2 ≤ v - 1 := Nat.log2_self_le (by omega)
  have high : v - 1 < 2^((v-1).log2 + 1) := Nat.lt_log2_self
  have small : (v-1).log2 < 63 := (Nat.log2_lt (by omega)).mpr (by omega)
  have positive : 0 < 2^((v-1).log2 + 1) := Nat.two_pow_pos _
  refine .inr ⟨(v-1).log2 + 1,by omega,?_,by omega,?_⟩
  · rw [smear_eq (by omega) (by omega)]
    omega
  · intro m covers
    apply Nat.pow_le_pow_right (by decide)
    have : 2^(v-1).log2 < 2^m := by omega
    exact (Nat.pow_lt_pow_iff_right (by decide)).mp this

theorem nextPowerOf2_power {requested : Nat} (word : requested < 2^64)
    (nonzero : ¬nextPowerOf2 (if requested < 1 then 1 else requested) = 0) :
    ∃ k, k ≤ 63 ∧ nextPowerOf2 (if requested < 1 then 1 else requested) = 2^k := by
  rcases nextPowerOf2_spec (if requested < 1 then 1 else requested) (by split <;> omega) with
    ⟨_,zero⟩ | ⟨k,small,equal,_⟩
  · exact absurd zero nonzero
  · exact ⟨k,small,equal⟩

/-- The mask of `0` is a whole word, and a remainder by `0` is the number itself. -/
theorem nextPowerOf2_least (v : Nat) (word : v < 2^64) :
    ((∃ k < 64, v ≤ 2^k) → ∃ k < 64, nextPowerOf2 v = 2^k ∧ v ≤ 2^k ∧ ∀ m, v ≤ 2^m → 2^k ≤ 2^m) ∧
      (nextPowerOf2 v = 0 ↔ 2^63 < v) ∧ ∀ x < 2^64, x &&& subSize (nextPowerOf2 v) 1 = x % nextPowerOf2 v := by
  obtain ⟨huge,zero⟩ | ⟨k,small,power,covers,least⟩ := nextPowerOf2_spec v word
  · refine ⟨fun ⟨k,small,covers⟩ => ?_,⟨fun _ => huge,fun _ => zero⟩,fun x bound => ?_⟩
    · have : 2^k ≤ 2^63 := Nat.pow_le_pow_right (by decide) (by omega)
      omega
    · rw [zero,Nat.mod_zero,show subSize 0 1 = 2^64 - 1 from rfl,Nat.and_two_pow_sub_one_eq_mod,Nat.mod_eq_of_lt bound]
  · have positive : 0 < 2^k := Nat.two_pow_pos k
    have bound : 2^k ≤ 2^63 := Nat.pow_le_pow_right (by decide) small
    refine ⟨fun _ => ⟨k,by omega,power,covers,least⟩,by omega,fun x _ => ?_⟩
    rw [power,subSize_eq _ _ positive (by omega),Nat.and_two_pow_sub_one_eq_mod]

theorem nextPowerOf2_least_five : ∃ k < 64, nextPowerOf2 5 = 2^k ∧ 5 ≤ 2^k ∧ ∀ m, 5 ≤ 2^m → 2^k ≤ 2^m :=
  (nextPowerOf2_least 5 (by decide)).1 ⟨3,by decide,by decide⟩

end ApexPipeline.MathUtils
