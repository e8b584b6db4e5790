import RowStream.Proofs.Calendar.Literal
import RowStream.Proofs.Value.Parse
import RowStream.Proofs.Value.Ticks
import RowStream.Proofs.Wire.TwosComplement

/-!
# Days, seconds and ticks there and back

A column of dates or times shows what it has written as a text that is read as the same number. It
does so for every number that it writes as it is, up to the end of the year 9999, when no clocks of
a zone stand in between.
-/

namespace RowStream

open Wire
open ColumnType (maxTickScale)

theorem Wire.ofLittleEndian_clamp {width : Nat} {high : Int} {m : Nat} (hlow : 1 ≤ m)
    (hle : (m : Int) ≤ high) (hhigh : high < 2 ^ (8 * width)) :
    ofLittleEndian (twosComplement width (clamp 1 high m)) = m := by
  have hclamp : clamp 1 high m = m := by
    unfold clamp
    omega
  have hread := ofLittleEndian_twosComplement width m
  rw [Int.emod_eq_of_lt (Int.natCast_nonneg m) (Int.lt_of_le_of_lt hle hhigh)] at hread
  rw [hclamp]
  exact Int.ofNat_inj.1 hread

namespace Instant

theorem eq_of_ofSeconds? {seconds : Int} {nanos : Nat} {t : Instant}
    (h : ofSeconds? seconds nanos = some t) : t = ⟨seconds, nanos⟩ := by
  unfold ofSeconds? at h
  dsimp only at h
  split at h
  · exact (Option.some.inj h).symm
  · cases h

theorem Plain.inCalendar {t : Instant} (h : t.Plain) : t.InCalendar := by
  have hfirst : Date.firstDay ≤ 0 := by decide
  have hlast : Date.toDays ⟨10000, 1, 1⟩ ≤ Date.lastDay := by decide
  have hbefore := Int.ediv_lt_of_lt_mul (show (0 : Int) < secondsPerDay by decide) h.before
  have hnot := Int.ediv_nonneg h.not_before (show (0 : Int) ≤ secondsPerDay by decide)
  exact ⟨by omega, by omega⟩

/-- Ticks before the end of the year 9999 are those of an instant that is read from them. -/
theorem exists_atTicks {m scale : Nat} (hscale : scale ≤ maxTickScale)
    (hm : (m : Int) < Date.toDays ⟨10000, 1, 1⟩ * secondsPerDay * tenPow scale) :
    ∃ t, instantOfTicks? m scale = some t ∧ t.Plain ∧ t.AtTicks m scale := by
  have hunit := tenPow_pos scale
  have hmod := Nat.mod_lt m hunit
  have hnanos : m % tenPow scale * tenPow (maxTickScale - scale) < tenPow maxTickScale := by
    rw [← Nat.add_sub_cancel' hscale, tenPow_add, Nat.add_sub_cancel_left]
    exact Nat.mul_lt_mul_of_pos_right hmod (tenPow_pos _)
  have hplain : Plain ⟨(m / tenPow scale : Nat),
      m % tenPow scale * tenPow (maxTickScale - scale)⟩ := by
    refine ⟨hnanos, Int.natCast_nonneg _, ?_⟩
    rw [Int.natCast_ediv]
    exact Int.ediv_lt_of_lt_mul (tenPow_cast_pos scale) hm
  refine ⟨_, ?_, hplain, hnanos, ?_⟩
  · unfold instantOfTicks?
    rw [Nat.min_eq_left hscale]
    exact ofSeconds?_of_inCalendar hplain.inCalendar _
  · dsimp only
    rw [← tenPow_mul_sub hscale, ← Int.mul_assoc]
    push_cast
    rw [← Int.add_mul, Int.ediv_mul_add_emod]

end Instant

namespace Value

open Text.Numeral (signed?)

theorem toInt_rescaleTicks_self (n : Int64) {scale : Nat} (h : scale ≤ maxTickScale) :
    (rescaleTicks n scale scale).toInt = n.toInt := by
  have hlow := n.le_toInt
  have hhigh := n.toInt_lt
  rw [toInt_rescaleTicks n h h, Int.mul_ediv_cancel _ (tenPow_cast_ne_zero scale)]
  omega

/-- A text that names an instant and is no number is read as what the instant makes in the type. -/
theorem parse_of_instant? {s : String} {type : ColumnType} {scale : Nat} {t : Instant} {n : Int64}
    (htype : type.isTemporal = true) (htrim : Text.trim s.toList = s.toList)
    (hsigned : signed? s.toList = none) (hinstant : Literal.instant? s.toList = some t)
    (hn : ofInstant t type scale = n.toInt) : parse s type scale = .ok (int64 n) := by
  have hkind : type.kind = .int64 := by
    cases type <;> first | rfl | cases htype
  have htemporal : temporal? s.toList type scale = some n := by
    unfold temporal?
    rw [hsigned, hinstant]
    simp only [Option.bind_none, Option.bind_some, hn, int64?_toInt]
  rw [parse_ok_iff]
  unfold parse?
  rw [hkind, htrim]
  dsimp only
  rw [if_pos htype, htemporal, Option.map_some]

variable [Zone.Catalogue]

theorem zonedSeconds_none (clocks : Zone.Clocks) (n : Int64) :
    zonedSeconds clocks n none = n.toInt := by
  unfold zonedSeconds
  cases h : Instant.ofSeconds? n.toInt 0 with
  | none => rfl
  | some t =>
      rw [Instant.eq_of_ofSeconds? h]
      exact Int.add_zero _

theorem toInt_zonedTicks_none (clocks : Zone.Clocks) (n : Int64) (scale : Nat) :
    (zonedTicks clocks n scale none).toInt = n.toInt := by
  have hlow := n.le_toInt
  have hhigh := n.toInt_lt
  unfold zonedTicks
  dsimp only
  cases Instant.ofSeconds? (n.toInt / tenPow scale) 0 with
  | none => rfl
  | some t =>
      change (saturate64 (n.toInt + 0 * tenPow scale)).toInt = _
      rw [toInt_saturate64]
      omega

end Value

namespace Column

section Zones

variable [Zone.Catalogue]

/-- Days, seconds and ticks that a column writes as they are, none before the first and none after
the end of the year 9999. -/
def Unclamped (c : Column) (n : Int) : Prop :=
  match c.type with
  | .date => 1 ≤ n ∧ n ≤ 0xFFFF
  | .dateTime => 1 ≤ n ∧ n ≤ maxWord32
  | .dateTime64 => 1 ≤ n ∧ n < Date.toDays ⟨10000, 1, 1⟩ * secondsPerDay * tenPow c.scale
  | _ => False

/-- The column writes the number and reads a text for it that is read as the number. -/
def ReadsBack (c : Column) (n : Int64) : Prop :=
  ∃ bytes text, c.encode (.int64 n) = .ok bytes ∧ c.readValue.Consumes bytes (.ok text) ∧
    Value.parse text c.type c.scale = .ok (.int64 n)

section Types

variable {c : Column} {n : Int64}

theorem readsBack_of_date (ht : c.type = .date) (hlow : 1 ≤ n.toInt) (hhigh : n.toInt ≤ 0xFFFF) :
    c.ReadsBack n := by
  obtain ⟨m, hm⟩ := Int.eq_ofNat_of_zero_le (show 0 ≤ n.toInt by omega)
  have hbytes : ofLittleEndian (dateDays n.toInt) = m := by
    rw [hm]
    exact ofLittleEndian_clamp (by omega) (by omega) (by decide)
  have hvalid := Date.valid_ofDays m
  have hday := Date.toDays_ofDays m
  have hend : Date.toDays ⟨10000, 1, 1⟩ = 2932897 := by decide
  obtain ⟨hyear, hyear'⟩ := Date.year_of_toDays hvalid (by omega) (by omega)
  have hplain : (Date.ofDays m).Plain := ⟨hvalid, hyear, hyear'⟩
  refine ⟨dateDays n.toInt, (Date.ofDays m).text, ?_, ?_, ?_⟩
  · unfold encode
    rw [ht]
    rfl
  · have hreader : c.readValue = Date.text <$> readDate := by
      unfold readValue
      rw [ht]
    have hlength : (dateDays n.toInt).length = 2 := length_twosComplement 2 _
    have hread := consumes_readDate hlength
    rw [hbytes] at hread
    rw [hreader]
    exact hread.map Date.text
  · rw [ht]
    have hsigned := Date.signed?_text hplain []
    rw [List.append_nil] at hsigned
    refine Value.parse_of_instant? rfl (Date.isNumeral_text hplain).trim hsigned
      (Date.instant?_text hplain) ?_
    change ((Date.ofDays m).toDays * secondsPerDay + ((0 : Nat) : Int)) / secondsPerDay = n.toInt
    rw [hday, hm]
    unfold secondsPerDay
    omega

theorem parse_textWithFraction {t : Instant} (htype : c.type.isTemporal = true) (ht : t.Plain)
    (hn : Value.ofInstant t c.type c.scale = n.toInt) :
    Value.parse t.textWithFraction c.type c.scale = .ok (.int64 n) :=
  Value.parse_of_instant? htype (Instant.trim_textWithFraction ht)
    (Instant.signed?_textWithFraction ht) (Instant.instant?_textWithFraction ht) hn

theorem readsBack_of_dateTime (ht : c.type = .dateTime) (hzone : c.zone = none)
    (hlow : 1 ≤ n.toInt) (hhigh : n.toInt ≤ maxWord32) : c.ReadsBack n := by
  obtain ⟨m, hm⟩ := Int.eq_ofNat_of_zero_le (show 0 ≤ n.toInt by omega)
  have hbytes : ofLittleEndian (dateTimeSeconds n.toInt) = m := by
    rw [hm]
    exact ofLittleEndian_clamp (by omega) (by omega) (by decide)
  have hend : (maxWord32 : Int) < Date.toDays ⟨10000, 1, 1⟩ * secondsPerDay := by decide
  have hplain : Instant.Plain ⟨m, 0⟩ :=
    ⟨Nat.zero_lt_succ _, Int.natCast_nonneg m, by dsimp only; omega⟩
  refine ⟨dateTimeSeconds n.toInt, Instant.text ⟨m, 0⟩, ?_, ?_, ?_⟩
  · have hseconds := Value.zonedSeconds_none Zone.offset n
    unfold encode
    rw [ht]
    change Except.ok (dateTimeSeconds (Value.zonedSeconds Zone.offset n c.zone)) = _
    rw [hzone, hseconds]
  · have hreader : c.readValue = Instant.text <$> readDateTime := by
      unfold readValue
      rw [ht]
    have hlength : (dateTimeSeconds n.toInt).length = 4 := length_twosComplement 4 _
    have hread := consumes_readDateTime hlength
    rw [hbytes] at hread
    rw [hreader]
    exact hread.map Instant.text
  · rw [← Instant.textWithFraction_of_whole]
    apply parse_textWithFraction (by rw [ht]; rfl) hplain
    rw [ht, hm]
    rfl

theorem readsBack_of_dateTime64 (hc : c.Fits) (ht : c.type = .dateTime64) (hzone : c.zone = none)
    (hlow : 1 ≤ n.toInt)
    (hhigh : n.toInt < Date.toDays ⟨10000, 1, 1⟩ * secondsPerDay * tenPow c.scale) :
    c.ReadsBack n := by
  obtain ⟨m, hm⟩ := Int.eq_ofNat_of_zero_le (show 0 ≤ n.toInt by omega)
  have hlayout : c.layout.scaleFor .dateTime64 = c.scale := ht ▸ hc.scale
  have hscale : c.scale ≤ maxTickScale := hlayout ▸ c.layout.scaleFor_dateTime64_le
  have hword := n.toInt_lt
  have hbytes : ofLittleEndian (dateTimeTicks n.toInt) = m := by
    rw [hm]
    exact ofLittleEndian_clamp (by omega) (by unfold maxWord64; omega) (by decide)
  rw [hm] at hhigh
  obtain ⟨t, hinstant, hplain, hticks⟩ := Instant.exists_atTicks hscale hhigh
  refine ⟨dateTimeTicks n.toInt, t.textWithFraction, ?_, ?_, ?_⟩
  · have hzoned := Value.toInt_zonedTicks_none Zone.offset (rescaleTicks n c.scale c.scale) c.scale
    rw [Value.toInt_rescaleTicks_self n hscale] at hzoned
    unfold encode
    rw [ht]
    change Except.ok (dateTimeTicks (Value.zonedTicks Zone.offset
      (rescaleTicks n c.scale (c.layout.scaleFor .dateTime64)) (c.layout.scaleFor .dateTime64)
        c.zone).toInt) = _
    rw [hlayout, hzone, hzoned]
  · have hreader : c.readValue = Instant.textWithFraction <$> readDateTime64 c.scale := by
      unfold readValue
      rw [ht]
    rw [← hbytes] at hinstant
    rw [hreader]
    exact (consumes_readDateTime64_some (length_twosComplement 8 _) hinstant).map _
  · apply parse_textWithFraction (by rw [ht]; rfl) hplain
    rw [ht]
    have hself : (m : Int) * tenPow c.scale / tenPow c.scale = m :=
      Int.mul_ediv_cancel _ (tenPow_cast_ne_zero c.scale)
    rw [← hm] at hticks hself
    exact (hticks.wireTicks hscale hscale).trans hself

end Types

/-- What a column of dates or times without a zone has written as it is, it shows as a text that is
read as the number that was written. -/
theorem parse_readText_of_unclamped {c : Column} (hc : c.Reachable) (hzone : c.zone = none) {n : Int64}
    (hn : c.Unclamped n.toInt) :
    ∃ bytes text, (∀ b : Buffer, ((Value.int64 n).write c.type c.layout c.scale).run b =
        (.ok (), b.append bytes)) ∧
      c.readText.Consumes (notNullFlag c ++ bytes) (.ok text) ∧
      Value.parse text c.type c.scale = .ok (.int64 n) := by
  have hback : c.ReadsBack n := by
    unfold Unclamped at hn
    split at hn
    next ht => exact readsBack_of_date ht hn.1 hn.2
    next ht => exact readsBack_of_dateTime ht hzone hn.1 hn.2
    next ht => exact readsBack_of_dateTime64 hc.fits ht hzone hn.1 hn.2
    next => exact hn.elim
  obtain ⟨bytes, text, hencode, hread, hparse⟩ := hback
  refine ⟨bytes, text, ?_, consumes_readText_value hread, hparse⟩
  have hputs := (Value.int64 n).puts_write c.type c.layout c.scale
  unfold encode at hencode
  rw [hencode] at hputs
  exact hputs

end Zones

def seenColumn : Column :=
  { name := "seen"
    type := .dateTime64
    nullable := false
    length := 0
    precision := 23
    scale := 3
    zone := none
    options := []
    cell := (Cell.new "seen" .dateTime64).withScale 3
    declared := false
    index := none }

def leapDayBytes : List UInt8 := littleEndian 8 1709210096789

theorem parse_readText_of_unclamped_leapDay :
    ofDeclaration "seen DateTime64(3)" = .ok seenColumn ∧
      ((Value.int64 1709210096789).write .dateTime64 seenColumn.layout 3).run .empty =
        (.ok (), ⟨leapDayBytes, 0⟩) ∧
      seenColumn.cellText leapDayBytes = .ok "2024-02-29 12:34:56.789" ∧
      Value.parse "2024-02-29 12:34:56.789" .dateTime64 3 = .ok (.int64 1709210096789) := by
  have hdeclared : ofDeclaration "seen DateTime64(3)" = .ok seenColumn :=
    ok_of_toOption (by decide +kernel)
  have hrun : ((Value.int64 1709210096789).write .dateTime64 seenColumn.layout 3).run .empty =
      (.ok (), ⟨leapDayBytes, 0⟩) := rfl
  have hshown : seenColumn.cellText leapDayBytes = .ok "2024-02-29 12:34:56.789" :=
    ok_of_toOption (by decide +kernel)
  obtain ⟨bytes, text, hput, hread, hparse⟩ := parse_readText_of_unclamped
    (reachable_of_ofDeclaration hdeclared) rfl (n := 1709210096789) (show _ ∧ _ by decide)
  have hbytes : leapDayBytes = bytes :=
    congrArg (fun r => r.2.bytes) (hrun.symm.trans (hput .empty))
  have htext := cellText_of_consumes hread
  rw [← hbytes] at htext
  cases hshown.symm.trans htext
  exact ⟨hdeclared, hrun, hshown, hparse⟩

end Column

end RowStream
