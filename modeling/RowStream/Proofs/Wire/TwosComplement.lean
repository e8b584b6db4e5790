import Mathlib.Algebra.Group.Int.Defs
import Mathlib.Algebra.Group.Nat.Defs
import RowStream.Proofs.Wire.Reading

/-!
# Two's complement

Bytes in two's complement hold a number up to a multiple of their capacity. Read with a sign they
give the number that lies nearest to zero, so that a number of the signed range comes back and one
above it comes back less the capacity.
-/

namespace RowStream.Wire

theorem capacity_eq (width : Nat) : capacity width = 2 ^ (8 * width) := by
  change 256 ^ width = _
  rw [Nat.pow_mul]

theorem ofLittleEndian_twosComplement (width : Nat) (n : Int) :
    (ofLittleEndian (twosComplement width n) : Int) = n % 2 ^ (8 * width) := by
  have hpos : (capacity width : Int) ≠ 0 := by have := capacity_pos width; omega
  have hnonneg := Int.emod_nonneg n hpos
  have hlt := Int.emod_lt_of_pos n (show (0 : Int) < capacity width by omega)
  rw [twosComplement, ofLittleEndian_littleEndian (by omega), Int.toNat_of_nonneg hnonneg,
    capacity_eq]
  simp

section Signed

variable {width : Nat} {n : Int}

theorem twoPow_bits (h : 0 < width) : (2 : Int) ^ (8 * width) = 2 * 2 ^ (8 * width - 1) := by
  rw [← Int.pow_succ']
  congr 1
  omega

theorem ofTwosComplement_twosComplement (width : Nat) (n : Int) :
    ofTwosComplement (twosComplement width n) =
      if 2 * (n % 2 ^ (8 * width)) < 2 ^ (8 * width) then n % 2 ^ (8 * width)
      else n % 2 ^ (8 * width) - 2 ^ (8 * width) := by
  have hcapacity : ((2 ^ (8 * width) : Nat) : Int) = 2 ^ (8 * width) := by simp
  rw [← ofLittleEndian_twosComplement, ← hcapacity]
  unfold ofTwosComplement
  simp only [length_twosComplement, capacity_eq]
  split <;> split <;> omega

theorem ofTwosComplement_of_range (hwidth : 0 < width) (hlow : -2 ^ (8 * width - 1) ≤ n)
    (hhigh : n < 2 ^ (8 * width)) :
    ofTwosComplement (twosComplement width n) =
      if n < 2 ^ (8 * width - 1) then n else n - 2 ^ (8 * width) := by
  have hbits := twoPow_bits hwidth
  rw [ofTwosComplement_twosComplement]
  by_cases hneg : n < 0
  · have hmod : n % 2 ^ (8 * width) = n + 2 ^ (8 * width) := by
      rw [← Int.add_emod_right, Int.emod_eq_of_lt (by omega) (by omega)]
    rw [hmod, if_neg (by omega), if_pos (by omega)]
    omega
  · rw [Int.emod_eq_of_lt (by omega) hhigh]
    split <;> split <;> omega

end Signed

namespace IntegerFormat

variable {f : IntegerFormat} {n : Int}

theorem high_lt (f : IntegerFormat) : f.high < 2 ^ (8 * f.width) := by
  have hle : twoPow (8 * f.width - 1) ≤ twoPow (8 * f.width) :=
    Nat.pow_le_pow_right (by decide) (by omega)
  have hcast : (twoPow (8 * f.width) : Int) = 2 ^ (8 * f.width) := by simp [twoPow]
  unfold high
  split <;> omega

theorem consumes_read_of_range (hwidth : 0 < f.width) (hlow : f.low ≤ n) (hhigh : n ≤ f.high) :
    f.read.Consumes (twosComplement f.width n) (.ok (if f.signed then
      (if n < 2 ^ (8 * f.width - 1) then n else n - 2 ^ (8 * f.width)) else n)) := by
  have hread := f.consumes_read (length_twosComplement f.width n)
  have hlt := Int.lt_of_le_of_lt hhigh f.high_lt
  unfold low at hlow
  cases hsigned : f.signed
  · simp only [hsigned, Bool.false_eq_true, ↓reduceIte] at hlow hread ⊢
    rwa [ofLittleEndian_twosComplement, Int.emod_eq_of_lt hlow hlt] at hread
  · simp only [hsigned, ↓reduceIte] at hlow hread ⊢
    have hcast : (twoPow (8 * f.width - 1) : Int) = 2 ^ (8 * f.width - 1) := by simp [twoPow]
    rwa [ofTwosComplement_of_range hwidth (by omega) hlt] at hread

end IntegerFormat

end RowStream.Wire
