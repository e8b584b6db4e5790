import RowStream.Proofs.Number.Literal
import RowStream.Proofs.Value.Write
import RowStream.Proofs.Wire.TwosComplement

/-!
# Numbers in decimal columns

However a number is held, a column of a decimal type rounds it to the column's scale, takes it if
the precision has room for its digits, and reads the rounded number back. Texts whose scale no
decimal has are refused, even where they stand for zero.
-/

namespace RowStream

theorem ColumnType.precisionFor_le [Zone.Catalogue] {t : ColumnType} (ht : t.isDecimal = true)
    (l : Layout) :
    l.precisionFor t ≤ widestPrecision := by
  have hmax : t.maxPrecision ≤ widestPrecision := by
    cases t <;> first | decide | cases ht
  have hdefault : t.defaultPrecision ≤ widestPrecision := by
    cases t <;> first | decide | cases ht
  have hone : 1 ≤ widestPrecision := by decide
  unfold Layout.precisionFor
  split
  · exact hmax
  · split
    · omega
    · exact hdefault

namespace Wire

theorem tenPow_le_twoPow {precision : Nat} (h : precision ≤ ColumnType.widestPrecision) :
    10 ^ precision ≤ 2 ^ (8 * decimalWidth precision - 1) := by
  have htop : ∀ {most}, precision ≤ most → 10 ^ precision ≤ 10 ^ most :=
    fun hle => Nat.pow_le_pow_right (by decide) hle
  unfold decimalWidth
  split
  · next hle => exact (htop hle).trans (by decide)
  · split
    · next hle => exact (htop hle).trans (by decide)
    · split
      · next hle => exact (htop hle).trans (by decide)
      · exact (htop h).trans (by decide)

theorem natAbs_lt_tenPow_iff {u : Int} {precision : Nat} :
    u.natAbs < tenPow precision ↔ |u| < 10 ^ precision := by
  rw [Int.abs_eq_natAbs]
  change u.natAbs < 10 ^ precision ↔ _
  exact_mod_cast Iff.rfl

section Digits

variable {d : Decimal} {precision scale : Nat}

theorem decimal_of_lt (h : |d.rescale scale| < 10 ^ precision) :
    decimal d precision scale =
      .ok (twosComplement (decimalWidth precision) (d.rescale scale)) :=
  if_pos (natAbs_lt_tenPow_iff.2 h)

theorem decimal_of_le (h : 10 ^ precision ≤ |d.rescale scale|) :
    decimal d precision scale = .error (.encode (.decimalOverflow d precision scale)) :=
  if_neg fun hlt => absurd (natAbs_lt_tenPow_iff.1 hlt) (not_lt.2 h)

end Digits

theorem ofTwosComplement_of_digits {precision : Nat} {u : Int}
    (hprecision : precision ≤ ColumnType.widestPrecision) (h : |u| < 10 ^ precision) :
    ofTwosComplement (twosComplement (decimalWidth precision) u) = u := by
  have hbound : (10 : Int) ^ precision ≤ 2 ^ (8 * decimalWidth precision - 1) := by
    exact_mod_cast tenPow_le_twoPow hprecision
  have hwidth := Column.decimalWidth_pos precision
  have hbits := twoPow_bits hwidth
  obtain ⟨hlow, hhigh⟩ := abs_lt.1 h
  rw [ofTwosComplement_of_range hwidth (by omega) (by omega), if_pos (by omega)]

/-- The bytes hold so many units of a column of the precision and scale, which reads them back. -/
structure HoldsUnits (precision scale : Nat) (u : Int) (bytes : List UInt8) : Prop where
  length : bytes.length = decimalWidth precision
  units : ofTwosComplement bytes = u
  reads : (readDecimal precision scale).Consumes bytes (.ok ⟨u, scale⟩)

theorem holdsUnits_twosComplement {precision : Nat} (scale : Nat) {u : Int}
    (hprecision : precision ≤ ColumnType.widestPrecision) (h : |u| < 10 ^ precision) :
    HoldsUnits precision scale u (twosComplement (decimalWidth precision) u) := by
  have hlength := length_twosComplement (decimalWidth precision) u
  have hunits := ofTwosComplement_of_digits hprecision h
  have hreads := consumes_readDecimal scale hlength
  rw [hunits] at hreads
  exact ⟨hlength, hunits, hreads⟩

end Wire

open Wire

namespace Value

/-- The value holds just this number. -/
inductive Denotes : Value → Rat → Prop
  | bool (b : Bool) : Denotes (bool b) (if b then 1 else 0)
  | int32 (w : Int32) : Denotes (int32 w) w.toInt
  | int64 (w : Int64) : Denotes (int64 w) w.toInt
  | integer (n : Int) : Denotes (integer n) n
  | decimal (d : Decimal) : Denotes (decimal d) d.toRat
  | text {s : String} {x : Decimal.Literal} (h : x.Spells s) : Denotes (text s) x.toRat

/-- The value is a literal with a scale that no decimal has. -/
def BeyondScales : Value → Prop
  | text s => ∃ x : Decimal.Literal, x.Spells s ∧ Decimal.scaleFits x.scale = false
  | _ => False

theorem Denotes.toDecimal? {v : Value} {q : Rat} (hv : v.Denotes q) (hscale : ¬ v.BeyondScales) :
    ∃ d, v.toDecimal? = some d ∧ d.toRat = q := by
  cases hv with
  | bool b =>
    refine ⟨_, rfl, ?_⟩
    rw [Decimal.toRat_ofInt]
    cases b <;> rfl
  | int32 w => exact ⟨_, rfl, Decimal.toRat_ofInt _⟩
  | int64 w => exact ⟨_, rfl, Decimal.toRat_ofInt _⟩
  | integer n => exact ⟨_, rfl, Decimal.toRat_ofInt _⟩
  | decimal d => exact ⟨d, rfl, rfl⟩
  | @text s x h =>
    have hfits : Decimal.scaleFits x.scale = true := by
      rw [← Bool.not_eq_false]
      exact fun hbeyond => hscale ⟨x, h, hbeyond⟩
    refine ⟨x.toDecimal, ?_, x.toRat_toDecimal⟩
    change Decimal.parse? (Text.trim s.toList) = _
    rw [h.trim, x.parse?_chars, if_pos hfits]

theorem BeyondScales.toDecimal? {v : Value} (hv : v.BeyondScales) : v.toDecimal? = none := by
  cases v with
  | text s =>
    obtain ⟨x, hx, hbeyond⟩ := hv
    change Decimal.parse? (Text.trim s.toList) = _
    rw [hx.trim, x.parse?_chars, if_neg (by simp [hbeyond])]
  | _ => exact hv.elim

section Zones

variable [Zone.Catalogue] {v : Value} {q : Rat} {t : ColumnType}

theorem encode_of_isDecimal (ht : t.isDecimal = true) (l : Layout) (source : Nat) :
    v.encode t l source =
      v.writeAs t v.toDecimal? fun d => Wire.decimal d (l.precisionFor t) (l.scaleFor t) := by
  cases t <;> first | rfl | cases ht

omit [Zone.Catalogue] in
theorem toRat_of_isNearest {scale : Nat} {u n : Int} (hu : IsNearest (q * 10 ^ scale) u)
    (hn : q * 10 ^ scale = n) : (⟨u, scale⟩ : Decimal).toRat = q := by
  have hpos : (10 : Rat) ^ scale ≠ 0 := pow_ne_zero _ (by norm_num)
  rw [hn] at hu
  rw [Decimal.toRat, hu.unique (isNearest_self n), ← hn, zpow_neg, zpow_natCast,
    mul_inv_cancel_right₀ hpos]

/-- A column of a decimal type takes a number if its units, rounded to the nearest, have no more
digits than the precision, writes them at the width of the precision, and reads them back. -/
theorem write_decimal (hv : v.Denotes q) (ht : t.isDecimal = true) (l : Layout) (source : Nat) :
    (¬ v.BeyondScales → ∃ u : Int, (∀ n, IsNearest (q * 10 ^ l.scaleFor t) n ↔ n = u) ∧
      (|u| < 10 ^ l.precisionFor t →
        (∃ bytes, HoldsUnits (l.precisionFor t) (l.scaleFor t) u bytes ∧ ∀ b : Buffer,
          (v.write t l source).run b = (.ok (), { b with bytes := b.bytes ++ bytes })) ∧
        ((∃ n : Int, q * 10 ^ l.scaleFor t = n) → (⟨u, l.scaleFor t⟩ : Decimal).toRat = q)) ∧
      (10 ^ l.precisionFor t ≤ |u| →
        ∃ fault, ∀ b : Buffer, (v.write t l source).run b = (.error (.encode fault), b))) ∧
    (v.BeyondScales →
      ∃ fault, ∀ b : Buffer, (v.write t l source).run b = (.error (.encode fault), b)) := by
  have hputs := v.puts_write t l source
  rw [encode_of_isDecimal ht] at hputs
  constructor
  · intro hscale
    obtain ⟨d, hd, rfl⟩ := hv.toDecimal? hscale
    rw [hd, writeAs] at hputs
    have hnearest := d.isNearest_rescale (l.scaleFor t)
    rw [zpow_natCast] at hnearest
    refine ⟨d.rescale (l.scaleFor t), hnearest.iff_eq, ?_, ?_⟩
    · intro hlt
      have hholds := holdsUnits_twosComplement (l.scaleFor t) (ColumnType.precisionFor_le ht l) hlt
      rw [decimal_of_lt hlt] at hputs
      exact ⟨⟨_, hholds, hputs⟩, fun ⟨n, hn⟩ => toRat_of_isNearest hnearest hn⟩
    · intro hle
      rw [decimal_of_le hle] at hputs
      exact ⟨_, hputs⟩
  · intro hscale
    rw [hscale.toDecimal?] at hputs
    exact ⟨_, hputs⟩

end Zones

def halfwayLiteral : Decimal.Literal where
  sign := .minus
  whole := ['1', '2']
  frac := some ['3', '4', '5']
  exponent := none
  isGrouped := Text.Numeral.IsDigits.isGrouped ⟨by decide, List.all_eq_true.1 (by decide)⟩

theorem toRat_halfwayLiteral : halfwayLiteral.toRat = -12345 / 1000 := by
  have hwhole : Text.Numeral.groupedValue ['1', '2'] = 12 := by decide
  have hfrac : Text.Numeral.groupedValue ['3', '4', '5'] = 345 := by decide
  change ((-1 : Int) : Rat) * ((Text.Numeral.groupedValue ['1', '2'] : Nat) +
    (Text.Numeral.groupedValue ['3', '4', '5'] : Nat) / 10 ^ 3) * 10 ^ (0 : Int) = _
  rw [hwhole, hfrac]
  norm_num

theorem write_decimal_halfway :
    (text "-12.345").Denotes (-12345 / 1000) ∧ ∃ bytes, HoldsUnits 18 2 (-1235) bytes ∧
      ∀ b : Buffer, (write (text "-12.345") .decimal64 ⟨none, none, some 2, none⟩ 0).run b =
        (.ok (), { b with bytes := b.bytes ++ bytes }) := by
  have hspells : halfwayLiteral.Spells "-12.345" := Decimal.Literal.spells_of_toList (by decide)
  have hv : (text "-12.345").Denotes (-12345 / 1000) := toRat_halfwayLiteral ▸ .text hspells
  have hscale : ¬ (text "-12.345").BeyondScales :=
    fun h => absurd h.toDecimal? (by decide +kernel)
  have hnear : IsNearest (-12345 / 1000 * 10 ^ 2) (-1235) := by
    have hdistance : (-12345 / 1000 * 10 ^ 2 : Rat) - ((-1235 : Int) : Rat) = 1 / 2 := by norm_num
    refine ⟨by rw [hdistance, abs_of_pos (by norm_num)], fun _ => ?_⟩
    rw [abs_of_neg (by norm_num), abs_of_neg (by norm_num)]
    norm_num
  obtain ⟨u, hnearest, hstored, -⟩ :=
    (write_decimal hv (t := .decimal64) rfl ⟨none, none, some 2, none⟩ 0).1 hscale
  obtain rfl : -1235 = u := (hnearest (-1235)).1 hnear
  exact ⟨hv, (hstored (by decide)).1⟩

def distantZero : Decimal.Literal where
  sign := .none
  whole := ['0']
  frac := none
  exponent := some
    { mark := 'e'
      sign := .none
      digits := "10000000000000000000".toList
      isMark := by decide
      isDigits := ⟨by decide, List.all_eq_true.1 (by decide)⟩ }
  isGrouped := Text.Numeral.IsDigits.isGrouped ⟨by decide, List.all_eq_true.1 (by decide)⟩

theorem toRat_distantZero : distantZero.toRat = 0 := by
  have hwhole : Text.Numeral.groupedValue ['0'] = 0 := by decide
  have hfrac : Text.Numeral.groupedValue [] = 0 := by decide
  change ((1 : Int) : Rat) * ((Text.Numeral.groupedValue ['0'] : Nat) +
    (Text.Numeral.groupedValue [] : Nat) / 10 ^ distantZero.places) * 10 ^ distantZero.power = _
  rw [hwhole, hfrac]
  simp

/-- Room for its digits is not enough for a text to be taken. -/
theorem not_every_literal_written :
    ¬∀ (v : Value) (q : Rat) (t : ColumnType) (l : Layout) (source : Nat) (u : Int),
      v.Denotes q → t.isDecimal = true → IsNearest (q * 10 ^ l.scaleFor t) u →
      |u| < 10 ^ l.precisionFor t →
      ∀ b : Buffer, ∃ bytes,
        (v.write t l source).run b = (.ok (), { b with bytes := b.bytes ++ bytes }) := by
  intro hwritten
  have hspells : distantZero.Spells "0e10000000000000000000" :=
    Decimal.Literal.spells_of_toList (by decide)
  have hv : (text "0e10000000000000000000").Denotes 0 := toRat_distantZero ▸ .text hspells
  have hbeyond : (text "0e10000000000000000000").BeyondScales := ⟨distantZero, hspells, by decide⟩
  have hnear : IsNearest (0 * 10 ^ 2) 0 := by simpa using isNearest_self 0
  obtain ⟨bytes, hrun⟩ := hwritten _ 0 .decimal32 {} 0 0 hv rfl hnear (by decide) ⟨[], 0⟩
  have hputs := (text "0e10000000000000000000").puts_write .decimal32 {} 0 ⟨[], 0⟩
  rw [encode_of_isDecimal rfl, hbeyond.toDecimal?, hrun] at hputs
  cases hputs

end Value

end RowStream
