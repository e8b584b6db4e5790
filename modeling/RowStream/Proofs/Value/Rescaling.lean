import Mathlib.Data.Rat.Floor
import RowStream.Proofs.Number.Rational
import RowStream.Proofs.Value.Ticks

/-!
# Ticks from scale to scale

`floorTicks` is the number of whole ticks at another scale as if words had no end, and a word of
ticks is rescaled to the nearest word. Going over a scale in between changes nothing, unless that is
coarser than both ends or its ticks leave their word: what is floored twice is floored once.
-/

namespace RowStream

open ColumnType (maxTickScale)

/-- Whole ticks at another scale, the last before the instant. Scales above 9 count as 9. -/
def floorTicks (n : Int) (source target : Nat) : Int :=
  ⌊(n : Rat) * 10 ^ (((min target maxTickScale : Nat) : Int) - (min source maxTickScale : Nat))⌋

def FitsWord (n : Int) : Prop := -2 ^ 63 ≤ n ∧ n ≤ 2 ^ 63 - 1

theorem floorTicks_eq (n : Int) (source target : Nat) :
    floorTicks n source target =
      n * tenPow (min target maxTickScale) / tenPow (min source maxTickScale) := by
  have hquotient : (n : Rat) *
      10 ^ (((min target maxTickScale : Nat) : Int) - (min source maxTickScale : Nat)) =
        ((n * tenPow (min target maxTickScale) : Int) : Rat) /
          (tenPow (min source maxTickScale) : Nat) := by
    rw [zpow_sub₀ (by norm_num), zpow_natCast, zpow_natCast, Int.cast_mul, Int.cast_natCast,
      tenPow_eq, tenPow_eq, mul_div_assoc]
  unfold floorTicks
  rw [hquotient, Rat.floor_intCast_div_natCast]

theorem floorTicks_mono {m n : Int} (h : m ≤ n) (source target : Nat) :
    floorTicks m source target ≤ floorTicks n source target := by
  rw [floorTicks_eq, floorTicks_eq]
  apply Int.ediv_le_ediv (tenPow_cast_pos _)
  exact Int.mul_le_mul_of_nonneg_right h (Int.le_of_lt (tenPow_cast_pos _))

section Quotients

variable {a b c : Nat}

/-- A scale in between does not matter, unless it is coarser than both others. -/
theorem mul_tenPow_ediv_trans (n : Int) (h : min a c ≤ b) :
    n * tenPow b / tenPow a * tenPow c / tenPow b = n * tenPow c / tenPow a := by
  by_cases hc : c ≤ b
  · calc n * tenPow b / tenPow a * tenPow c / tenPow b
        = n * tenPow b / tenPow a / tenPow (b - c) := mul_tenPow_ediv_of_le _ hc
      _ = n * tenPow b / (tenPow a * tenPow (b - c)) :=
        Int.ediv_ediv_of_nonneg (Int.le_of_lt (tenPow_cast_pos a))
      _ = n * tenPow c * tenPow (b - c) / (tenPow a * tenPow (b - c)) := by
        rw [Int.mul_assoc, tenPow_mul_sub hc]
      _ = n * tenPow c / tenPow a := by
        rw [Int.mul_ediv_mul_of_pos_left _ _ (tenPow_cast_pos _)]
  · have ha : a ≤ b := by omega
    have hb : b ≤ c := by omega
    calc n * tenPow b / tenPow a * tenPow c / tenPow b
        = n * tenPow (b - a) * tenPow (c - b) := by
          rw [mul_tenPow_ediv_of_ge n ha, mul_tenPow_ediv_of_ge _ hb]
      _ = n * tenPow (c - a) := by
          rw [Int.mul_assoc, ← Int.natCast_mul, ← tenPow_add]
          congr 3
          omega
      _ = n * tenPow c / tenPow a := (mul_tenPow_ediv_of_ge n (ha.trans hb)).symm

end Quotients

variable (n : Int64) (source target : Nat)

theorem toInt_rescaleTicks_floor :
    (rescaleTicks n source target).toInt =
      max (-2 ^ 63) (min (floorTicks n.toInt source target) (2 ^ 63 - 1)) := by
  have hscales : rescaleTicks n source target =
      rescaleTicks n (min source maxTickScale) (min target maxTickScale) := by
    unfold rescaleTicks
    simp only [Nat.min_assoc, Nat.min_self]
  rw [hscales, toInt_rescaleTicks n (Nat.min_le_right _ _) (Nat.min_le_right _ _), floorTicks_eq]

theorem fitsWord_toInt : FitsWord n.toInt := by
  have hhigh := n.toInt_lt
  exact ⟨n.le_toInt, by omega⟩

/-- A division needs no clamping. -/
theorem fitsWord_floorTicks (h : target ≤ source) :
    FitsWord (floorTicks n.toInt source target) := by
  obtain ⟨hlow, hhigh⟩ := fitsWord_toInt n
  rw [floorTicks_eq, mul_tenPow_ediv_of_le _ (by omega)]
  obtain ⟨hlow', hhigh'⟩ := ediv_mem_word (tenPow_cast_pos
    (min source maxTickScale - min target maxTickScale)) hlow (by omega)
  exact ⟨hlow', by omega⟩

theorem fitsWord_tenPow (a b : Nat) : FitsWord (tenPow (min a maxTickScale - b)) := by
  have hle : tenPow (min a maxTickScale - b) ≤ 10 ^ 9 :=
    Nat.pow_le_pow_right (by decide) (show min a 9 - b ≤ 9 by omega)
  unfold FitsWord
  omega

theorem toInt_rescaleTicks_of_fits (h : FitsWord (floorTicks n.toInt source target)) :
    (rescaleTicks n source target).toInt = floorTicks n.toInt source target := by
  obtain ⟨hlow, hhigh⟩ := h
  rw [toInt_rescaleTicks_floor]
  omega

theorem rescaleTicks_mono {m : Int64} (h : n ≤ m) :
    rescaleTicks n source target ≤ rescaleTicks m source target := by
  have hfloor := floorTicks_mono (Int64.le_iff_toInt_le.1 h) source target
  rw [Int64.le_iff_toInt_le, toInt_rescaleTicks_floor, toInt_rescaleTicks_floor]
  omega

theorem rescaleTicks_trans {between : Nat} (h : min source target ≤ between)
    (hfits : FitsWord (floorTicks n.toInt source between)) :
    rescaleTicks (rescaleTicks n source between) between target = rescaleTicks n source target := by
  have hfloor : floorTicks (floorTicks n.toInt source between) between target =
      floorTicks n.toInt source target := by
    rw [floorTicks_eq, floorTicks_eq, floorTicks_eq]
    exact mul_tenPow_ediv_trans _ (by omega)
  rw [← Int64.toInt_inj, toInt_rescaleTicks_floor (rescaleTicks n source between),
    toInt_rescaleTicks_of_fits n source between hfits, hfloor, toInt_rescaleTicks_floor]

/-- Rescaled ticks are the floor of their exact number, clamped to a word; the power of ten and,
where ticks become coarser, the quotient fit a word before that. More ticks are not fewer at another
scale, and a scale in between that no tick is lost to is the same as none. -/
theorem rescaleTicks_floors :
    (rescaleTicks n source target).toInt =
      max (-2 ^ 63) (min (floorTicks n.toInt source target) (2 ^ 63 - 1)) ∧
    (FitsWord (tenPow (min target maxTickScale - min source maxTickScale)) ∧
      FitsWord (tenPow (min source maxTickScale - min target maxTickScale)) ∧
      (target ≤ source → FitsWord (floorTicks n.toInt source target))) ∧
    (∀ m : Int64, n ≤ m → rescaleTicks n source target ≤ rescaleTicks m source target) ∧
    ∀ between : Nat, min source target ≤ between →
      FitsWord (floorTicks n.toInt source between) →
      rescaleTicks (rescaleTicks n source between) between target =
        rescaleTicks n source target :=
  ⟨toInt_rescaleTicks_floor n source target,
    ⟨fitsWord_tenPow _ _, fitsWord_tenPow _ _, fitsWord_floorTicks n source target⟩,
    fun _ => rescaleTicks_mono n source target, fun _ => rescaleTicks_trans n source target⟩

theorem rescaleTicks_floors_before :
    (rescaleTicks (-1500) 3 0).toInt = -2 ∧ rescaleTicks (-1500) 3 0 ≤ rescaleTicks (-1499) 3 0 ∧
      rescaleTicks (rescaleTicks (-1500) 3 1) 1 0 = rescaleTicks (-1500) 3 0 := by
  obtain ⟨hfloor, -, hmono, htrans⟩ := rescaleTicks_floors (-1500) 3 0
  have hseconds : floorTicks (Int64.toInt (-1500)) 3 0 = -2 := by
    rw [floorTicks_eq]
    decide
  have htenths : floorTicks (Int64.toInt (-1500)) 3 1 = -15 := by
    rw [floorTicks_eq]
    decide
  refine ⟨?_, hmono (-1499) (by decide), htrans 1 (by decide) ?_⟩
  · rw [hfloor, hseconds]
    decide
  · rw [htenths]
    exact ⟨by decide, by decide⟩

end RowStream
