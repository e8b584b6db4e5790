import Mathlib.Algebra.Order.Field.Power
import Mathlib.Data.Rat.Cast.Order
import Mathlib.Tactic.Linarith
import RowStream.Number.Decimal

/-!
# Decimals as rational numbers

`Decimal.toRat` is the number that a decimal stands for. A decimal has a whole number exactly when
it stands for one, and at another scale it has the nearest number of units there, of two that are
equally near the one farther from zero.
-/

namespace RowStream

theorem tenPow_eq (k : Nat) : (tenPow k : Rat) = 10 ^ k := by
  change ((10 ^ k : Nat) : Rat) = _
  simp

/-! ## Rounding -/

/-- `u` is the whole number nearest to `q`, the one farther from zero of two equally near. -/
structure IsNearest (q : Rat) (u : Int) : Prop where
  near : |q - u| ≤ 1 / 2
  away : |q - u| = 1 / 2 → |q| < |(u : Rat)|

theorem isNearest_self (u : Int) : IsNearest u u := by
  constructor
  · norm_num
  · intro h
    norm_num at h

theorem IsNearest.neg {q : Rat} {u : Int} (h : IsNearest q u) : IsNearest (-q) (-u) := by
  have hdist : |-q - ((-u : Int) : Rat)| = |q - u| := by
    rw [← abs_neg]
    congr 1
    push_cast
    linarith
  constructor
  · rw [hdist]
    exact h.near
  · rw [hdist]
    push_cast
    rw [abs_neg, abs_neg]
    exact h.away

theorem IsNearest.unique {q : Rat} {u w : Int} (hu : IsNearest q u) (hw : IsNearest q w) :
    u = w := by
  by_contra hne
  wlog hlt : u < w generalizing u w
  · exact this hw hu (Ne.symm hne) (by omega)
  have hstep : (u : Rat) + 1 ≤ w := by exact_mod_cast hlt
  obtain ⟨-, hbelow⟩ := abs_le.1 hu.near
  obtain ⟨habove, -⟩ := abs_le.1 hw.near
  have hqu : q = u + 1 / 2 := by linarith
  have hqw : q = w - 1 / 2 := by linarith
  by_cases hnonneg : 0 ≤ u
  · have hcast : (0 : Rat) ≤ u := by exact_mod_cast hnonneg
    have haway := hu.away (by rw [hqu, add_sub_cancel_left]; norm_num)
    rw [abs_of_nonneg hcast, abs_of_nonneg (by linarith)] at haway
    linarith
  · have hcast : (w : Rat) ≤ 0 := by
      have hle : u + 1 ≤ 0 := by omega
      have hle' : (u : Rat) + 1 ≤ 0 := by exact_mod_cast hle
      linarith
    have haway := hw.away (by rw [hqw, sub_sub_cancel_left]; norm_num)
    rw [abs_of_nonpos hcast, abs_of_nonpos (by linarith)] at haway
    linarith

theorem IsNearest.iff_eq {q : Rat} {u : Int} (h : IsNearest q u) (n : Int) :
    IsNearest q n ↔ n = u := by
  constructor
  · exact fun hn => hn.unique h
  · rintro rfl
    exact h

theorem isNearest_roundUp (num : Nat) {den : Nat} (hden : 0 < den) :
    IsNearest (num / den) (roundUp num den) := by
  obtain ⟨hlt, hle⟩ := roundUp_within_half num hden
  have hpos : (0 : Rat) < den := by exact_mod_cast hden
  have hnonneg : (0 : Rat) ≤ num / den := div_nonneg (Nat.cast_nonneg _) (Nat.cast_nonneg _)
  have hbelow : (num : Rat) / den < roundUp num den + 1 / 2 := by
    rw [div_lt_iff₀ hpos]
    have hcast : (2 * num : Rat) < 2 * den * roundUp num den + den := by exact_mod_cast hlt
    linarith
  have habove : (roundUp num den : Rat) - 1 / 2 ≤ num / den := by
    rw [le_div_iff₀ hpos]
    have hcast : (2 * den * roundUp num den : Rat) ≤ 2 * num + den := by exact_mod_cast hle
    linarith
  constructor
  · rw [abs_le, Int.cast_natCast]
    constructor <;> linarith
  · intro htie
    rw [Int.cast_natCast, abs_eq (by norm_num)] at htie
    have hup : (num : Rat) / den = roundUp num den - 1 / 2 := by
      rcases htie with htie | htie <;> linarith
    rw [Int.cast_natCast, abs_of_nonneg hnonneg]
    exact lt_of_lt_of_le (by linarith) (le_abs_self _)

theorem isNearest_roundAway (num : Int) {den : Nat} (hden : 0 < den) :
    IsNearest (num / den) (roundAway num den) := by
  have hup := isNearest_roundUp num.natAbs hden
  unfold roundAway
  split
  · next hneg =>
    have hnum : (num : Rat) = -(num.natAbs : Rat) := by
      rw [Nat.cast_natAbs, abs_of_neg hneg]
      push_cast
      linarith
    rw [hnum, neg_div]
    exact hup.neg
  · next hnonneg =>
    have hnum : (num : Rat) = num.natAbs := by
      rw [Nat.cast_natAbs, abs_of_nonneg (by omega)]
    rw [hnum]
    exact hup

/-! ## Decimals -/

namespace Decimal

def toRat (d : Decimal) : Rat := d.unscaled * (10 : Rat) ^ (-d.scale)

@[simp] theorem toRat_ofInt (n : Int) : (ofInt n).toRat = n := by
  simp [ofInt, toRat]

theorem toRat_mul_of_le {d : Decimal} {scale : Int} (h : d.scale ≤ scale) :
    d.toRat * 10 ^ scale = d.unscaled * tenPow (scale - d.scale).toNat := by
  have hsub : ((scale - d.scale).toNat : Int) = -d.scale + scale := by omega
  rw [toRat, tenPow_eq, mul_assoc, ← zpow_add₀ (by norm_num), ← hsub, zpow_natCast]

theorem toRat_mul_of_lt {d : Decimal} {scale : Int} (h : scale < d.scale) :
    d.toRat * 10 ^ scale = d.unscaled / tenPow (d.scale - scale).toNat := by
  have hsub : -((d.scale - scale).toNat : Int) = -d.scale + scale := by omega
  rw [toRat, tenPow_eq, mul_assoc, ← zpow_add₀ (by norm_num), ← hsub, zpow_neg, zpow_natCast,
    div_eq_mul_inv]

theorem isNearest_rescale (d : Decimal) (scale : Int) :
    IsNearest (d.toRat * 10 ^ scale) (d.rescale scale) := by
  by_cases h : d.scale ≤ scale
  · have hwhole : d.toRat * 10 ^ scale =
        ((d.unscaled * tenPow (scale - d.scale).toNat : Int) : Rat) := by
      rw [toRat_mul_of_le h]
      push_cast
      rfl
    rw [rescale_of_le h, hwhole]
    exact isNearest_self _
  · rw [not_le] at h
    rw [rescale_of_lt h, toRat_mul_of_lt h]
    exact isNearest_roundAway _ (tenPow_pos _)

theorem unscaled_of_toRat {d : Decimal} {n : Int} (h : d.toRat = n) :
    d.unscaled * tenPow (-d.scale).toNat = n * tenPow d.scale.toNat := by
  have hcast : (d.unscaled * tenPow (-d.scale).toNat : Rat) = n * tenPow d.scale.toNat := by
    rcases le_total d.scale 0 with hle | hle
    · have hmul := toRat_mul_of_le hle
      rw [zpow_zero, mul_one, zero_sub, h] at hmul
      rw [← hmul, Int.toNat_of_nonpos hle]
      simp [tenPow]
    · have hscale : ((d.scale.toNat : Nat) : Int) = d.scale := Int.toNat_of_nonneg hle
      have hmul := toRat_mul_of_le (le_refl d.scale)
      rw [sub_self, h, ← hscale, zpow_natCast, ← tenPow_eq] at hmul
      rw [hmul, Int.toNat_of_nonpos (show -d.scale ≤ 0 by omega)]
      rfl
  exact_mod_cast hcast

theorem toInt?_of_toRat {d : Decimal} {n : Int} (h : d.toRat = n) : d.toInt? = some n := by
  have hunscaled := unscaled_of_toRat h
  have hpos := tenPow_pos d.scale.toNat
  unfold toInt?
  split
  · next hzero =>
    rw [hzero, zero_mul, eq_comm, mul_eq_zero] at hunscaled
    rw [hunscaled.resolve_right (by omega)]
  · next hzero =>
    split
    · next hle =>
      rw [Int.toNat_of_nonpos hle] at hunscaled
      rw [hunscaled]
      simp [tenPow]
    · next hgt =>
      rw [Int.toNat_of_nonpos (show -d.scale ≤ 0 by omega)] at hunscaled
      have hn : d.unscaled = n * tenPow d.scale.toNat := by simpa [tenPow] using hunscaled
      have habs : d.unscaled.natAbs = n.natAbs * tenPow d.scale.toNat := by
        rw [hn, Int.natAbs_mul, Int.natAbs_natCast]
      have hne : n.natAbs ≠ 0 := by
        intro hn0
        rw [hn0, zero_mul] at habs
        omega
      have hdigits : ¬ (Nat.toDigits 10 d.unscaled.natAbs).length < d.scale.toNat := by
        intro hlt
        have hbound := (Nat.length_toDigits_le_iff (by decide) (by omega)).1 (Nat.le_of_lt hlt)
        have hle : tenPow d.scale.toNat ≤ d.unscaled.natAbs := by
          rw [habs]
          exact Nat.le_mul_of_pos_left _ (Nat.pos_of_ne_zero hne)
        exact absurd hbound (Nat.not_lt.2 hle)
      rw [if_neg hdigits]
      simp only [habs, Nat.mul_mod_left, beq_self_eq_true, ↓reduceIte]
      rw [hn, Int.mul_tdiv_cancel _ (by omega)]

end Decimal

end RowStream
