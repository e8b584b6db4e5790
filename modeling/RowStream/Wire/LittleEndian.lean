import RowStream.Number.Power

/-!
# Little-endian numbers

Whole numbers as rows of bytes, the lowest byte first, and signed ones in two's complement.
`ofLittleEndian_littleEndian` says that reading undoes writing for every number that fits the width.
-/

namespace RowStream.Wire

/-- The lowest `width` bytes of a number. -/
def littleEndian : Nat → Nat → List UInt8
  | 0, _ => []
  | width + 1, n => UInt8.ofNat (n % 256) :: littleEndian width (n / 256)

def ofLittleEndian : List UInt8 → Nat
  | [] => 0
  | b :: bytes => b.toNat + 256 * ofLittleEndian bytes

def capacity (width : Nat) : Nat := Nat.pow 256 width

def twosComplement (width : Nat) (n : Int) : List UInt8 :=
  littleEndian width (n % capacity width).toNat

def ofTwosComplement (bytes : List UInt8) : Int :=
  let n := ofLittleEndian bytes
  if 2 * n < capacity bytes.length then n else (n : Int) - capacity bytes.length

@[simp] theorem length_littleEndian (width n : Nat) : (littleEndian width n).length = width := by
  induction width generalizing n with
  | zero => rfl
  | succ width ih => simp [littleEndian, ih]

@[simp] theorem length_twosComplement (width : Nat) (n : Int) :
    (twosComplement width n).length = width :=
  length_littleEndian ..

theorem capacity_succ (width : Nat) : capacity (width + 1) = 256 * capacity width := by
  simp [capacity, Nat.pow_succ, Nat.mul_comm]

theorem capacity_pos (width : Nat) : 0 < capacity width := Nat.pow_pos (by decide)

theorem ofLittleEndian_littleEndian {width n : Nat} (h : n < capacity width) :
    ofLittleEndian (littleEndian width n) = n := by
  induction width generalizing n with
  | zero => simp [capacity] at h; simp [littleEndian, ofLittleEndian, h]
  | succ width ih =>
    rw [capacity_succ] at h
    rw [littleEndian, ofLittleEndian, ih (by omega)]
    simp
    omega

end RowStream.Wire
