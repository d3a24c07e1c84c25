import Mathlib

/-! Unsigned integers of a fixed number of bytes as byte strings, of an arbitrary width; the 16-, 32- and 64-bit
fields of the wire formats are instances. -/
namespace ApexPipeline.ByteOrder

/-- The object representation of `value` on a little-endian host, `width` bytes. -/
def littleEndian : Nat → Nat → List UInt8
  | 0, _ => []
  | width + 1, value => UInt8.ofNat value :: littleEndian width (value / 256)

def ofLittleEndian : List UInt8 → Nat
  | [] => 0
  | byte :: rest => byte.toNat + 256 * ofLittleEndian rest

/-- What `bswap` does to a value of `width` bytes: its bytes in the other order. -/
def byteSwap (width value : Nat) : Nat :=
  ofLittleEndian (littleEndian width value).reverse

/-- Most significant byte first, the order used on the wire. -/
def bigEndian (width value : Nat) : List UInt8 := (littleEndian width value).reverse

def ofBigEndian (bytes : List UInt8) : Nat := ofLittleEndian bytes.reverse

@[simp] theorem littleEndian_length (width value : Nat) : (littleEndian width value).length = width := by
  induction width generalizing value with
  | zero => rfl
  | succ width ih => simp [littleEndian,ih]

@[simp] theorem bigEndian_length (width value : Nat) : (bigEndian width value).length = width := by
  simp [bigEndian]

variable (bytes : List UInt8)

theorem ofLittleEndian_lt : ofLittleEndian bytes < 256 ^ bytes.length := by
  induction bytes with
  | nil => simp [ofLittleEndian]
  | cons byte rest ih =>
    have small := byte.toNat_lt
    simp only [ofLittleEndian,List.length_cons,Nat.pow_succ]
    omega

theorem ofBigEndian_lt : ofBigEndian bytes < 256 ^ bytes.length := by
  simpa [ofBigEndian] using ofLittleEndian_lt bytes.reverse

theorem ofLittleEndian_littleEndian (width value : Nat) (bound : value < 256 ^ width) :
    ofLittleEndian (littleEndian width value) = value := by
  induction width generalizing value with
  | zero => simp only [Nat.pow_zero] at bound; simp [littleEndian,ofLittleEndian]; omega
  | succ width ih =>
    have smaller : value / 256 < 256 ^ width := by
      apply Nat.div_lt_of_lt_mul
      rw [Nat.pow_succ] at bound
      omega
    simp only [littleEndian,ofLittleEndian,ih _ smaller,UInt8.toNat_ofNat']
    omega

theorem littleEndian_ofLittleEndian :
    littleEndian bytes.length (ofLittleEndian bytes) = bytes := by
  induction bytes with
  | nil => rfl
  | cons byte rest ih =>
    have small := byte.toNat_lt
    have quotient : (byte.toNat + 256 * ofLittleEndian rest) / 256 = ofLittleEndian rest := by omega
    have digit : UInt8.ofNat (byte.toNat + 256 * ofLittleEndian rest) = byte := by
      apply UInt8.toNat_inj.mp
      simp only [UInt8.toNat_ofNat']
      omega
    simp only [ofLittleEndian,List.length_cons,littleEndian,quotient,digit,ih]

theorem ofBigEndian_bigEndian (bound : value < 256 ^ width) : ofBigEndian (bigEndian width value) = value := by
  simpa [ofBigEndian,bigEndian] using ofLittleEndian_littleEndian width value bound

/-- Storing a swapped value on a little-endian host puts it big-endian in memory. -/
theorem littleEndian_byteSwap (width value : Nat) :
    littleEndian width (byteSwap width value) = bigEndian width value := by
  have h := littleEndian_ofLittleEndian (littleEndian width value).reverse
  simpa [byteSwap,bigEndian] using h

/-- Loading big-endian memory on a little-endian host and swapping gives the value. -/
theorem byteSwap_ofLittleEndian :
    byteSwap bytes.length (ofLittleEndian bytes) = ofBigEndian bytes := by
  simp [byteSwap,ofBigEndian,littleEndian_ofLittleEndian]

end ApexPipeline.ByteOrder
