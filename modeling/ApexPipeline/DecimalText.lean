import Mathlib

/-! Numbers in byte strings, as `std::to_string` writes them and `std::from_chars` reads them. -/
namespace ApexPipeline

abbrev Bytes := List UInt8

def ascii (text : String) : Bytes := text.toList.map fun c => .ofNat c.toNat

def decimal (value : Nat) : Bytes := (Nat.toDigits 10 value).map fun c => .ofNat c.toNat

def decimalInt : Int → Bytes
  | .ofNat value => decimal value
  | .negSucc value => 45 :: decimal (value + 1)

def isDigit (byte : UInt8) : Bool := 48 ≤ byte && byte ≤ 57

def digitsValue (digits : Bytes) : Nat := digits.foldl (fun value byte => 10 * value + (byte.toNat - 48)) 0

/-- The longest run of digits at the front, which must not be empty and must fit the word. -/
def fromChars (text : Bytes) : Option UInt64 :=
  let digits := text.takeWhile isDigit
  let value := digitsValue digits
  if digits = [] ∨ value ≥ 2^64 then none else some (.ofNat value)

theorem digit_byte {c : Char} (digit : c.isDigit = true) :
    isDigit (.ofNat c.toNat) = true ∧ (UInt8.ofNat c.toNat).toNat = c.toNat := by
  have range : 48 ≤ c.toNat ∧ c.toNat ≤ 57 := by
    simp only [Char.isDigit,Bool.and_eq_true,decide_eq_true_eq] at digit
    exact digit
  have byte : (UInt8.ofNat c.toNat).toNat = c.toNat := Nat.mod_eq_of_lt (by omega)
  refine ⟨?_,byte⟩
  simp only [isDigit,Bool.and_eq_true,decide_eq_true_eq,UInt8.le_iff_toNat_le,byte]
  exact range

theorem isDigit_decimal {value : Nat} (member : byte ∈ decimal value) : isDigit byte = true := by
  obtain ⟨c,digit,rfl⟩ := List.mem_map.mp member
  exact (digit_byte (Nat.isDigit_of_mem_toDigits (by decide) (by decide) digit)).1

theorem decimal_ne_nil (value : Nat) : decimal value ≠ [] := by
  simp [decimal,Nat.toDigits_ne_nil]

theorem digitsValue_decimal (value : Nat) : digitsValue (decimal value) = value := by
  have same (digits : List Char) (all : ∀ c ∈ digits, c.isDigit = true) (start : Nat) :
      (digits.map fun c => UInt8.ofNat c.toNat).foldl
        (fun value byte => 10 * value + (byte.toNat - 48)) start = Nat.ofDigitChars 10 digits start := by
    induction digits generalizing start with
    | nil => rfl
    | cons c rest ih =>
      simp only [List.map_cons,List.foldl_cons,(digit_byte (all c List.mem_cons_self)).2]
      exact ih (fun d member => all d (List.mem_cons_of_mem _ member)) _
  exact (same _ (fun c digit => Nat.isDigit_of_mem_toDigits (by decide) (by decide) digit) 0).trans
    (Nat.ofDigitChars_toDigits (by decide) (by decide))

theorem fromChars_decimal (value : UInt64) (rest : Bytes) (ends : ∀ byte ∈ rest.head?, isDigit byte = false) :
    fromChars (decimal value.toNat ++ rest) = some value := by
  have front : (decimal value.toNat ++ rest).takeWhile isDigit = decimal value.toNat := by
    rw [List.takeWhile_append_of_pos (fun byte member => isDigit_decimal member)]
    have none' : rest.takeWhile isDigit = [] := by
      cases rest with
      | nil => rfl
      | cons byte later => simp [ends byte rfl]
    rw [none',List.append_nil]
  have fits : ¬(decimal value.toNat = [] ∨ value.toNat ≥ 2^64) := by
    rintro (empty | large)
    · exact decimal_ne_nil _ empty
    · exact Nat.not_le.mpr value.toNat_lt large
  simp only [fromChars,front,digitsValue_decimal]
  rw [if_neg fits,UInt64.ofNat_toNat]

end ApexPipeline
