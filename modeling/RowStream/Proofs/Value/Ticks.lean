import Mathlib.Tactic.Linarith
import Mathlib.Tactic.Ring
import RowStream.Proofs.Value.Write

/-!
# Ticks of an instant

The ticks of an instant are counted in two ways: from ticks of another scale, which are rescaled and
then moved by what the clocks of a zone show, and from its seconds and nanoseconds. Both floor to
the tick before, so that the second in which the zone is looked up is the same, before 1970 too.
-/

namespace RowStream

open ColumnType (maxTickScale)

section Scales

variable {source target : Nat}

theorem ediv_mem_word {n d : Int} (hd : 0 < d) (hlow : -2 ^ 63 ≤ n) (hhigh : n < 2 ^ 63) :
    -2 ^ 63 ≤ n / d ∧ n / d < 2 ^ 63 := by
  constructor
  · rw [Int.le_ediv_iff_mul_le hd]
    nlinarith
  · rw [Int.ediv_lt_iff_lt_mul hd]
    nlinarith

theorem mul_tenPow_ediv_of_le (n : Int) (h : target ≤ source) :
    n * tenPow target / tenPow source = n / tenPow (source - target) := by
  rw [← tenPow_mul_sub h, Int.mul_comm n, Int.mul_ediv_mul_of_pos _ _ (tenPow_cast_pos target)]

theorem mul_tenPow_ediv_of_ge (n : Int) (h : source ≤ target) :
    n * tenPow target / tenPow source = n * tenPow (target - source) := by
  rw [← tenPow_mul_sub h, Int.mul_left_comm,
    Int.mul_ediv_cancel_left _ (tenPow_cast_ne_zero source)]

/-- Rescaled ticks are the floor of their quotient, or the end of the range that it leaves. -/
theorem toInt_rescaleTicks (n : Int64) (hs : source ≤ maxTickScale) (ht : target ≤ maxTickScale) :
    (rescaleTicks n source target).toInt =
      max (-2 ^ 63) (min (n.toInt * tenPow target / tenPow source) (2 ^ 63 - 1)) := by
  unfold rescaleTicks
  rw [Nat.min_eq_left hs, Nat.min_eq_left ht]
  dsimp only
  split
  next hle =>
    rw [toInt_saturate64, mul_tenPow_ediv_of_ge _ hle]
    omega
  next hlt =>
    obtain ⟨hlow, hhigh⟩ :=
      ediv_mem_word (tenPow_cast_pos (source - target)) n.le_toInt n.toInt_lt
    rw [mul_tenPow_ediv_of_le _ (Nat.le_of_not_le hlt),
      Int64.toInt_ofInt_of_le (by omega) (by omega)]
    omega

end Scales

namespace Instant

/-- Whether the day of an instant is one of the calendar. -/
def InCalendar (t : Instant) : Prop :=
  Date.firstDay ≤ t.seconds / secondsPerDay ∧ t.seconds / secondsPerDay ≤ Date.lastDay

instance (t : Instant) : Decidable t.InCalendar := inferInstanceAs (Decidable (_ ∧ _))

theorem ofSeconds?_of_inCalendar {t : Instant} (h : t.InCalendar) (nanos : Nat) :
    ofSeconds? t.seconds nanos = some ⟨t.seconds, nanos⟩ := if_pos h

/-- An instant that lies `n` ticks of `10 ^ (-scale)` seconds after 1970, outside of any leap
second. -/
structure AtTicks (t : Instant) (n : Int) (scale : Nat) : Prop where
  nanos_lt : t.nanos < tenPow maxTickScale
  time : t.seconds * tenPow maxTickScale + t.nanos = n * tenPow (maxTickScale - scale)

section AtTicks

variable {t : Instant} {n : Int} {source target : Nat}

theorem AtTicks.ticks_eq (h : t.AtTicks n source) (hs : source ≤ maxTickScale)
    (ht : target ≤ maxTickScale) :
    n * tenPow target / tenPow source =
      t.seconds * tenPow target + (t.nanos / tenPow (maxTickScale - target) : Nat) := by
  calc n * tenPow target / tenPow source
      = tenPow (maxTickScale - source) * (n * tenPow target) /
          (tenPow (maxTickScale - source) * tenPow source) :=
        (Int.mul_ediv_mul_of_pos _ _ (tenPow_cast_pos _)).symm
    _ = tenPow target * (t.seconds * tenPow maxTickScale + t.nanos) /
          (tenPow target * tenPow (maxTickScale - target)) := by
        rw [h.time, tenPow_mul_sub ht, Int.mul_comm (tenPow (maxTickScale - source) : Int)
          (tenPow source), tenPow_mul_sub hs]
        congr 1
        ring
    _ = (t.nanos + t.seconds * tenPow target * tenPow (maxTickScale - target)) /
          tenPow (maxTickScale - target) := by
        rw [Int.mul_ediv_mul_of_pos _ _ (tenPow_cast_pos _), Int.mul_assoc, tenPow_mul_sub ht,
          Int.add_comm]
    _ = t.seconds * tenPow target + (t.nanos / tenPow (maxTickScale - target) : Nat) := by
        rw [Int.add_mul_ediv_right _ _ (tenPow_cast_ne_zero _), Int.add_comm, Int.natCast_ediv]

theorem AtTicks.wireTicks (h : t.AtTicks n source) (hs : source ≤ maxTickScale)
    (ht : target ≤ maxTickScale) :
    Wire.ticks t.seconds t.nanos target = n * tenPow target / tenPow source := by
  unfold Wire.ticks
  rw [h.ticks_eq hs ht, Nat.min_eq_left ht]

theorem AtTicks.fraction_lt (h : t.AtTicks n source) (ht : target ≤ maxTickScale) :
    t.nanos / tenPow (maxTickScale - target) < tenPow target := by
  rw [Nat.div_lt_iff_lt_mul (tenPow_pos _), ← tenPow_add, Nat.add_sub_cancel' ht]
  exact h.nanos_lt

theorem AtTicks.seconds_eq (h : t.AtTicks n source) (hs : source ≤ maxTickScale)
    (ht : target ≤ maxTickScale) :
    n * tenPow target / tenPow source / tenPow target = t.seconds := by
  have hfraction := Int.ofNat_lt.2 (h.fraction_lt ht)
  rw [h.ticks_eq hs ht, Int.add_comm, Int.add_mul_ediv_right _ _ (tenPow_cast_ne_zero target),
    Int.ediv_eq_zero_of_lt (Int.natCast_nonneg _) hfraction, Int.zero_add]

end AtTicks

end Instant

section Zones

variable [Zone.Catalogue]

theorem Layout.scaleFor_dateTime64 {scale : Nat} (h : scale ≤ maxTickScale) (zone : Option Zone) :
    scaleFor { scale := some scale, zone := zone } .dateTime64 = scale := by
  unfold maxTickScale at h
  change min (min scale 9) 23 = scale
  omega

theorem Layout.scaleFor_dateTime64_le (l : Layout) : l.scaleFor .dateTime64 ≤ maxTickScale := by
  unfold scaleFor
  change min (min _ 9) _ ≤ 9
  omega

end Zones

namespace Value

section Zones

variable [Zone.Catalogue] {l : Layout} {n : Int64} {t : Instant} {source target : Nat} {ticks : Int}

theorem toInt_zonedTicks_rescaleTicks (clocks : Zone.Clocks) {zone : Option Zone}
    (hs : source ≤ maxTickScale) (ht : target ≤ maxTickScale) (hat : t.AtTicks n.toInt source)
    (hday : t.InCalendar) (hticks : n.toInt * tenPow target / tenPow source = ticks)
    (hlow : -2 ^ 63 ≤ ticks) (hhigh : ticks < 2 ^ 63)
    (hlow' : -2 ^ 63 ≤ ticks + Zone.offsetBy clocks zone t.seconds * tenPow target)
    (hhigh' : ticks + Zone.offsetBy clocks zone t.seconds * tenPow target < 2 ^ 63) :
    (zonedTicks clocks (rescaleTicks n source target) target zone).toInt =
      ticks + Zone.offsetBy clocks zone t.seconds * tenPow target := by
  have hrescaled : (rescaleTicks n source target).toInt = ticks := by
    rw [toInt_rescaleTicks n hs ht]
    omega
  have hsecond : ticks / tenPow target = t.seconds := hticks ▸ hat.seconds_eq hs ht
  unfold zonedTicks
  simp only [hrescaled, hsecond, Instant.ofSeconds?_of_inCalendar hday]
  rw [toInt_saturate64]
  omega

theorem localTicksBy_of_atTicks (clocks : Zone.Clocks) (zone : Option Zone)
    (hs : source ≤ maxTickScale) (ht : target ≤ maxTickScale) (hat : t.AtTicks n.toInt source)
    (hticks : n.toInt * tenPow target / tenPow source = ticks) :
    Wire.localTicksBy clocks t target zone =
      ticks + Zone.offsetBy clocks zone t.seconds * tenPow target := by
  have hmoved : Wire.localTicksBy clocks t target zone =
      Wire.ticks t.seconds t.nanos target + Zone.offsetBy clocks zone t.seconds * tenPow target := by
    unfold Wire.localTicksBy Wire.localSecondsBy Wire.ticks
    rw [Nat.min_eq_left ht]
    ring
  rw [hmoved, hat.wireTicks hs ht, hticks]

/-- Ticks at one scale are written at another just as the instant that they name is, by the clocks
of any zone, unless one of the two numbers leaves its word. What lies before the first tick of 1970
becomes that tick. -/
theorem writeBy_dateTime64 (clocks : Zone.Clocks) (hs : source ≤ maxTickScale)
    (ht : l.scaleFor .dateTime64 = target) (hat : t.AtTicks n.toInt source) (hday : t.InCalendar)
    (hticks : n.toInt * tenPow target / tenPow source = ticks)
    (hlow : -2 ^ 63 ≤ ticks) (hhigh : ticks < 2 ^ 63)
    (hlow' : -2 ^ 63 ≤ ticks + Zone.offsetBy clocks l.zone t.seconds * tenPow target)
    (hhigh' : ticks + Zone.offsetBy clocks l.zone t.seconds * tenPow target < 2 ^ 63) :
    (∀ b : Wire.Buffer, ((int64 n).writeBy clocks .dateTime64 l source).run b =
      (.ok (), b.append (Wire.dateTime64By clocks t target l.zone))) ∧
      (Wire.dateTime64By clocks t target l.zone).length = 8 ∧
      (ticks + Zone.offsetBy clocks l.zone t.seconds * tenPow target < 1 →
        Wire.dateTime64By clocks t target l.zone = Wire.littleEndian 8 1) := by
  have hle : target ≤ maxTickScale := ht ▸ l.scaleFor_dateTime64_le
  have hlocal := localTicksBy_of_atTicks clocks l.zone hs hle hat hticks
  have hencode : (int64 n).encodeBy clocks .dateTime64 l source =
      .ok (Wire.dateTime64By clocks t target l.zone) := by
    change Except.ok (Wire.dateTimeTicks (zonedTicks clocks (rescaleTicks n source
      (l.scaleFor .dateTime64)) (l.scaleFor .dateTime64) l.zone).toInt) = _
    rw [ht, toInt_zonedTicks_rescaleTicks clocks hs hle hat hday hticks hlow hhigh hlow' hhigh',
      Wire.dateTime64By, hlocal]
  refine ⟨fun b => ?_, Wire.length_twosComplement _ _, fun hbefore => ?_⟩
  · have hputs := (int64 n).puts_writeBy clocks .dateTime64 l source
    rw [hencode] at hputs
    exact hputs b
  · have hclamp : Wire.clamp 1 maxWord64
        (ticks + Zone.offsetBy clocks l.zone t.seconds * tenPow target) = 1 := by
      unfold Wire.clamp maxWord64
      omega
    rw [Wire.dateTime64By, hlocal, Wire.dateTimeTicks, hclamp]
    rfl

end Zones

example : Wire.dateTime64 ⟨-1, 500000000⟩ 3 none = Wire.littleEndian 8 1 := by decide

/-- The last millisecond before summer time, in tenths of a second: the clocks are looked up in the
second before. -/
theorem writeBy_dateTime64_transition :
    ((int64 1711846799999).writeBy Zone.offset .dateTime64
      { scale := some 1, zone := some .berlin } 3).run .empty =
        (.ok (), ⟨Wire.littleEndian 8 17118503999, 0⟩) := by
  exact (writeBy_dateTime64 (l := { scale := some 1, zone := some .berlin }) Zone.offset
    (by decide) (Layout.scaleFor_dateTime64 (by decide) _)
    (t := ⟨1711846799, 999000000⟩) ⟨by decide, by decide⟩ (by decide) rfl (by decide) (by decide)
    (by decide) (by decide)).1 .empty

end Value

end RowStream
