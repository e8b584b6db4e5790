/-!
# Powers and rounding division

Powers of ten and of two, and the two ways in which a quotient is rounded to the nearest whole
number. `roundUp_within_half` bounds the error of the rounding that decimals use.
-/

namespace RowStream

def tenPow (n : Nat) : Nat := Nat.pow 10 n

def twoPow (n : Nat) : Nat := Nat.pow 2 n

theorem tenPow_pos (n : Nat) : 0 < tenPow n := Nat.pow_pos (by decide)

theorem tenPow_add (m n : Nat) : tenPow (m + n) = tenPow m * tenPow n := by
  simp [tenPow, Nat.pow_add]

theorem tenPow_cast_pos (n : Nat) : (0 : Int) < tenPow n := Int.natCast_pos.2 (tenPow_pos n)

theorem tenPow_cast_ne_zero (n : Nat) : (tenPow n : Int) ≠ 0 := Int.ne_of_gt (tenPow_cast_pos n)

theorem tenPow_mul_sub {m n : Nat} (h : m ≤ n) : (tenPow m : Int) * tenPow (n - m) = tenPow n := by
  rw [← Int.natCast_mul, ← tenPow_add, Nat.add_sub_cancel' h]

/-- The whole number nearest to `num / den`, the even one of two that are equally near. -/
def roundEven (num den : Nat) : Nat :=
  let q := num / den
  let twice := 2 * (num % den)
  if twice < den then q else if den < twice then q + 1 else q + q % 2

/-- The whole number nearest to `num / den`, the greater one of two that are equally near. -/
def roundUp (num den : Nat) : Nat := (2 * num + den) / (2 * den)

/-- The whole number nearest to `num / den`, the one farther from zero of two that are
equally near. -/
def roundAway (num : Int) (den : Nat) : Int :=
  if num < 0 then -(roundUp num.natAbs den : Int) else roundUp num.natAbs den

theorem roundUp_within_half (num : Nat) {den : Nat} (h : 0 < den) :
    2 * num < 2 * den * roundUp num den + den ∧ 2 * den * roundUp num den ≤ 2 * num + den := by
  have hd : 0 < 2 * den := by omega
  have h1 := Nat.div_add_mod (2 * num + den) (2 * den)
  have h2 := Nat.mod_lt (2 * num + den) hd
  unfold roundUp
  omega

theorem roundUp_eq_zero {num den : Nat} (h : 2 * num < den) : roundUp num den = 0 :=
  Nat.div_eq_of_lt (by omega)

@[simp] theorem roundAway_zero (den : Nat) : roundAway 0 den = 0 := by
  cases den with
  | zero => rfl
  | succ n => simp [roundAway, roundUp_eq_zero]

theorem roundAway_of_toDigits_lt {num : Int} {k : Nat}
    (h : (Nat.toDigits 10 num.natAbs).length < k) : roundAway num (tenPow k) = 0 := by
  obtain ⟨j, rfl⟩ : ∃ j, k = j + 1 := ⟨k - 1, by omega⟩
  have hj : 0 < j := Nat.lt_of_lt_of_le Nat.length_toDigits_pos (Nat.le_of_lt_succ h)
  have hlt : num.natAbs < 10 ^ j :=
    (Nat.length_toDigits_le_iff (by decide) hj).1 (Nat.le_of_lt_succ h)
  have hup : roundUp num.natAbs (tenPow (j + 1)) = 0 := by
    apply roundUp_eq_zero
    change 2 * num.natAbs < 10 ^ (j + 1)
    rw [Nat.pow_succ]
    omega
  simp [roundAway, hup]

end RowStream
