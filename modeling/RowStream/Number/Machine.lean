/-!
# Machine words

Whole numbers that must fit a signed word of 32 or 64 bits. Conversions that can fail answer `none`;
`saturate64` stops at the ends of the range.
-/

namespace RowStream

def int32? (n : Int) : Option Int32 :=
  if -0x80000000 ≤ n ∧ n ≤ 0x7FFFFFFF then some (Int32.ofInt n) else none

def int64? (n : Int) : Option Int64 :=
  if -0x8000000000000000 ≤ n ∧ n ≤ 0x7FFFFFFFFFFFFFFF then some (Int64.ofInt n) else none

def maxWord32 : Nat := 0xFFFFFFFF

def maxWord64 : Nat := 0xFFFFFFFFFFFFFFFF

/-- The word of 64 bits nearest to `n`. -/
def saturate64 (n : Int) : Int64 :=
  Int64.ofInt (max (-0x8000000000000000) (min n 0x7FFFFFFFFFFFFFFF))

theorem toInt_saturate64 (n : Int) :
    (saturate64 n).toInt = max (-0x8000000000000000) (min n 0x7FFFFFFFFFFFFFFF) :=
  Int64.toInt_ofInt_of_le (by omega) (by omega)

theorem toInt_of_int32? {n : Int} {w : Int32} (h : int32? n = some w) : w.toInt = n := by
  unfold int32? at h
  split at h
  · next hr =>
    cases h
    exact Int32.toInt_ofInt_of_le (by simpa using hr.1) (by omega)
  · cases h

theorem toInt_of_int64? {n : Int} {w : Int64} (h : int64? n = some w) : w.toInt = n := by
  unfold int64? at h
  split at h
  · next hr =>
    cases h
    exact Int64.toInt_ofInt_of_le (by simpa using hr.1) (by omega)
  · cases h

end RowStream
