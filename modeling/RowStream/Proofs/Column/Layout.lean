import RowStream.Proofs.Column.Temporal
import RowStream.Proofs.Value.DecimalNumber

/-!
# One precision and one scale

Building a column clamps its precision and scale, and resolving a layout clamps them again when a
value is written. What a layout resolves to it resolves to a second time, and a column's own
precision and scale are what its layout resolves to; so the writer, which resolves, and the reader,
which does not, count in the same units.
-/

namespace RowStream

open ColumnType (maxTickScale widestPrecision)

theorem ColumnType.defaultPrecision_le (t : ColumnType) : t.defaultPrecision ≤ t.maxPrecision := by
  cases t <;> decide

namespace Layout

variable [Zone.Catalogue]

/-- What a precision and a scale that a layout resolves to keep to. -/
structure Resolved (t : ColumnType) (precision scale : Nat) : Prop where
  scale_le : scale ≤ precision
  again : ∀ l : Layout, l.precision = some precision → l.scale = some scale →
    l.resolve t = (precision, scale)
  ticks : t = .dateTime64 → scale ≤ 9 ∧ tenPow scale < 2 ^ 63
  /-- A decimal is a number of units that its width has room for, sign included. -/
  decimal : t.isDecimal = true → 1 ≤ precision ∧ precision ≤ 76 ∧
    tenPow precision ≤ 2 ^ (8 * decimalWidth precision - 1)

variable (l : Layout) (t : ColumnType)

theorem precisionFor_le_max : l.precisionFor t ≤ max t.maxPrecision 1 := by
  have hdefault := t.defaultPrecision_le
  unfold precisionFor
  split
  · omega
  · split <;> omega

theorem defaultPrecision_of_precisionFor_eq_zero (hsized : ¬t.isSizedDecimal = true)
    (h : l.precisionFor t = 0) : t.defaultPrecision = 0 := by
  unfold precisionFor at h
  rw [if_neg hsized] at h
  cases hgiven : l.precision.filter (0 < ·) with
  | none =>
      rw [hgiven] at h
      exact h
  | some p =>
      have hpos : 0 < p := by simpa using (Option.filter_eq_some_iff.1 hgiven).2
      rw [hgiven] at h
      dsimp only at h
      omega

theorem precisionFor_again {l' : Layout} (h : l'.precision = some (l.precisionFor t)) :
    l'.precisionFor t = l.precisionFor t := by
  by_cases hsized : t.isSizedDecimal = true
  · unfold precisionFor
    rw [if_pos hsized, if_pos hsized]
  · rw [precisionFor, if_neg hsized, h]
    rcases Nat.eq_zero_or_pos (l.precisionFor t) with hzero | hpos
    · rw [hzero]
      exact l.defaultPrecision_of_precisionFor_eq_zero t hsized hzero
    · rw [Option.filter_some, if_pos (decide_eq_true hpos)]
      exact Nat.min_eq_left (l.precisionFor_le_max t)

theorem resolve_again {l' : Layout} (hprecision : l'.precision = some (l.precisionFor t))
    (hscale : l'.scale = some (l.scaleFor t)) : l'.resolve t = l.resolve t := by
  have hagain := l.precisionFor_again t hprecision
  have hscaleFor : l'.scaleFor t = l.scaleFor t := by
    rw [scaleFor, hagain, hscale, Option.getD_some]
    unfold scaleFor
    omega
  rw [resolve, hagain, hscaleFor]
  rfl

theorem precisionFor_pos {t : ColumnType} (ht : t.isDecimal = true) : 0 < l.precisionFor t := by
  have hdefault : 0 < t.defaultPrecision := by
    cases t <;> first | decide | cases ht
  have hmax := t.defaultPrecision_le
  by_cases hsized : t.isSizedDecimal = true
  · rw [precisionFor, if_pos hsized]
    omega
  · rw [Nat.pos_iff_ne_zero]
    intro hzero
    have hnone := l.defaultPrecision_of_precisionFor_eq_zero t hsized hzero
    omega

theorem resolved : Resolved t (l.resolve t).1 (l.resolve t).2 where
  scale_le := Nat.min_le_right _ _
  again _ hprecision hscale := l.resolve_again t hprecision hscale
  ticks := by
    rintro rfl
    have hscale := l.scaleFor_dateTime64_le
    refine ⟨hscale, Nat.lt_of_le_of_lt ?_ (show 10 ^ 9 < 2 ^ 63 by decide)⟩
    exact Nat.pow_le_pow_right (by decide) hscale
  decimal ht :=
    ⟨l.precisionFor_pos ht, ColumnType.precisionFor_le ht l,
      Wire.tenPow_le_twoPow (ColumnType.precisionFor_le ht l)⟩

end Layout

open Wire

namespace Column

section Zones

variable [Zone.Catalogue]

/-- Values of the column are written and read in units of its own precision and scale. -/
structure CountsAlike (c : Column) : Prop where
  resolve : c.layout.resolve c.type = (c.precision, c.scale)
  decimal : c.type.isDecimal = true →
    (∀ v d, v.toDecimal? = some d → c.encode v = Wire.decimal d c.precision c.scale) ∧
    c.readValue = Decimal.text <$> readDecimal c.precision c.scale
  ticks : c.type = .dateTime64 →
    (∀ v n, v.toInt64? = some n →
      c.encode v = .ok (dateTimeTicks (Value.zonedTicks Zone.offset n c.scale c.zone).toInt)) ∧
    c.readValue = Instant.textWithFraction <$> readDateTime64 c.scale

variable {c : Column}

theorem Fits.countsAlike (hc : c.Fits) : c.CountsAlike where
  resolve := Prod.ext hc.precision hc.scale
  decimal hdecimal := by
    refine ⟨fun v d hd => ?_, ?_⟩
    · have hwrite : c.encode v = v.writeAs c.type v.toDecimal? fun d =>
          Wire.decimal d (c.layout.precisionFor c.type) (c.layout.scaleFor c.type) := by
        unfold encode Value.encode Value.encodeBy
        cases ht : c.type <;> rw [ht] at hdecimal <;> first | rfl | cases hdecimal
      rw [hwrite, hd, hc.precision, hc.scale]
      rfl
    · unfold readValue
      cases ht : c.type <;> rw [ht] at hdecimal <;> first | rfl | cases hdecimal
  ticks ht := by
    have hscale : c.layout.scaleFor .dateTime64 = c.scale := ht ▸ hc.scale
    have hle : c.scale ≤ 9 := hscale ▸ c.layout.scaleFor_dateTime64_le
    refine ⟨fun v n hn => ?_, ?_⟩
    · have hself : rescaleTicks n c.scale c.scale = n :=
        Int64.toInt_inj.1 (Value.toInt_rescaleTicks_self n hle)
      unfold encode
      rw [ht]
      change v.writeAs .dateTime64 v.toInt64? _ = _
      rw [hn, hscale]
      change Except.ok (dateTimeTicks (Value.zonedTicks Zone.offset
        (rescaleTicks n c.scale c.scale) c.scale c.zone).toInt) = _
      rw [hself]
    · unfold readValue
      rw [ht]

/-- What a column writes and what it reads is counted in the units of its own precision and scale,
however it came about; and whatever a layout asks for, it resolves to a precision and a scale that
go together, that it would resolve to again, and whose powers of ten fit where they are taken. -/
theorem countsAlike_and_resolved :
    (∀ c : Column, c.Reachable → c.CountsAlike) ∧
    ∀ (l : Layout) (t : ColumnType), Layout.Resolved t (l.resolve t).1 (l.resolve t).2 :=
  ⟨fun _ hc => hc.fits.countsAlike, Layout.resolved⟩

end Zones

def price : Column :=
  { name := "price"
    type := .decimal
    nullable := false
    length := 0
    precision := 76
    scale := 76
    zone := none
    options := []
    cell := ⟨"price", .decimal, .decimal ⟨0, 0⟩, .decimal ⟨0, 0⟩, 9⟩
    declared := false
    index := none }

theorem countsAlike_and_resolved_price :
    ofDeclaration "price Decimal(90, 80)" = .ok price ∧
      price.layout.resolve .decimal = (76, 76) ∧
      price.encode (.int32 0) = Wire.decimal ⟨0, 0⟩ 76 76 := by
  have hread : ofDeclaration "price Decimal(90, 80)" = .ok price :=
    ok_of_toOption (by decide +kernel)
  have hcounts := countsAlike_and_resolved.1 price (reachable_of_ofDeclaration hread)
  exact ⟨hread, hcounts.resolve, (hcounts.decimal rfl).1 _ _ rfl⟩

end Column

end RowStream
