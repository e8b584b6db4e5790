import RowStream.Calendar.Instant
import RowStream.Proofs.Calendar.Date
import RowStream.Proofs.Text.Numeral

/-!
# Dates and times there and back

A literal is read part by part, each part leaving the text behind it. So the text of a date or of an
instant in the years up to 9999 is read back, with the fraction of the second that it shows, and it
is never taken for a number, nor is a number taken for an instant.
-/

namespace RowStream

open Text Text.Numeral

namespace Literal

section Fields

variable {ds rest : List Char} {width : Nat}

theorem not_blank_of_isDigits (h : IsDigits ds) (rest : List Char) :
    (ds ++ rest).head?.any isBlank = false := by
  obtain ⟨c, cs, rfl, hc⟩ := h.exists_cons
  exact isBlank_of_isNumeralChar (isNumeralChar_of_isDigit hc)

theorem trimStart_of_isDigits (h : IsDigits ds) (rest : List Char) :
    trimStart (ds ++ rest) = ds ++ rest :=
  trimStart_of_head?_not_blank (not_blank_of_isDigits h rest)

theorem field_of_isDigits (h : IsDigits ds) (hlength : ds.length = width) (rest : List Char) :
    field width (ds ++ rest) = some (Nat.ofDigitChars 10 ds 0, rest) := by
  have htake : ((ds ++ rest).take width).takeWhile Char.isDigit = ds := by
    rw [List.take_left' hlength]
    exact List.takeWhile_eq_self_iff.2 h.digits
  unfold field
  rw [trimStart_of_isDigits h]
  dsimp only
  rw [htake, List.drop_left, if_neg (by simpa using h.nonempty)]

theorem field_padded {n : Nat} (hwidth : 0 < width) (h : n < 10 ^ width) (rest : List Char) :
    field width ((padded width n).toList ++ rest) = some (n, rest) := by
  rw [field_of_isDigits (isDigits_padded width n) (length_padded hwidth h), ofDigitChars_padded]

theorem year_of_isDigits (h : IsDigits ds) (hlength : ds.length = 4) (rest : List Char) :
    year (ds ++ rest) = some (((Nat.ofDigitChars 10 ds 0 : Nat) : Int), rest) := by
  have hfield := field_of_isDigits h hlength rest
  obtain ⟨c, cs, rfl, hc⟩ := h.exists_cons
  unfold year
  rw [trimStart_of_isDigits h]
  split
  · next heq => exact absurd (List.cons.inj heq).1 (h.ne List.mem_cons_self (by decide))
  · next heq => exact absurd (List.cons.inj heq).1 (h.ne List.mem_cons_self (by decide))
  · rw [hfield]
    rfl

theorem expect_cons (c : Char) (cs : List Char) : expect c (c :: cs) = some cs := if_pos rfl

theorem expect_of_not_mem {c : Char} {cs : List Char} (h : c ∉ cs) : expect c cs = none := by
  cases cs with
  | nil => rfl
  | cons d cs => exact if_neg (List.ne_of_not_mem_cons h)

theorem suffix_of_field {cs : List Char} {n : Nat} (h : field width cs = some (n, rest)) :
    rest <:+ (trimStart cs).tail := by
  unfold field at h
  dsimp only at h
  split at h
  · cases h
  · next hdigits =>
      obtain ⟨-, rfl⟩ := Prod.mk.inj (Option.some.inj h)
      obtain ⟨k, hk⟩ := Nat.exists_eq_add_one.2
        (List.length_pos_iff.2 (mt List.isEmpty_iff.2 hdigits))
      rw [hk, ← List.drop_tail]
      exact List.drop_suffix k _

theorem suffix_of_year {cs : List Char} {y : Int} (h : year cs = some (y, rest)) :
    rest <:+ (trimStart cs).tail := by
  unfold year at h
  dsimp only at h
  split at h
  case h_1 heq | h_2 heq =>
    rw [heq]
    split at h
    · cases h
    · obtain ⟨-, rfl⟩ := Prod.mk.inj (Option.some.inj h)
      exact List.dropWhile_suffix _
  case h_3 =>
    obtain ⟨⟨n, rest'⟩, hfield, heq⟩ := Option.map_eq_some_iff.1 h
    obtain ⟨-, rfl⟩ := Prod.mk.inj heq
    simpa only [trimStart_trimStart] using suffix_of_field hfield

/-- No dash stands behind the digits of a number, so no month is found there. -/
theorem datePart_signed (negative : Bool) (h : IsDigits ds) :
    datePart (signed negative ds) = none := by
  have hstart : trimStart (signed negative ds) = signed negative ds :=
    trimStart_of_head?_not_blank (head?_not_blank fun c hc =>
      isBlank_of_isNumeralChar ((isNumeral_signed negative h).chars c hc))
  have htail : (signed negative ds).tail ⊆ ds := by
    cases negative with
    | true => exact List.Subset.refl ds
    | false => exact (List.tail_sublist ds).subset
  unfold datePart
  cases hyear : year (signed negative ds) with
  | none => rfl
  | some p =>
      obtain ⟨y, rest⟩ := p
      have hsuffix := suffix_of_year hyear
      rw [hstart] at hsuffix
      have hdash : '-' ∉ rest := fun hmem => h.ne (htail (hsuffix.mem hmem)) (by decide) rfl
      simp only [Option.bind_eq_bind, Option.bind_some, expect_of_not_mem hdash, Option.bind_none]

theorem instant?_toString (n : Int) : instant? (toString n).toList = none := by
  unfold instant? dateTime? date?
  rw [toList_toString, datePart_signed _ (isDigits_toDigits _)]
  rfl

end Fields

end Literal

namespace Date

variable {d : Date}

structure Plain (d : Date) : Prop where
  valid : d.Valid
  year_nonneg : 0 ≤ d.year
  year_le : d.year ≤ 9999

theorem toList_text (h : d.Plain) : d.text.toList =
    (padded 4 d.year.toNat).toList ++ '-' :: ((padded 2 d.month).toList ++
      '-' :: (padded 2 d.day).toList) := by
  have hdash : "-".toList = ['-'] := rfl
  have hyear : (decide (0 ≤ d.year) && decide (d.year ≤ 9999)) = true := by
    simp [h.year_nonneg, h.year_le]
  unfold text yearText
  rw [if_pos hyear]
  simp only [String.toList_append, List.append_assoc, hdash, List.cons_append, List.nil_append]

theorem Plain.day_lt (h : d.Plain) : d.day < 10 ^ 2 := by
  have hle := Nat.le_trans h.valid.day_le (monthLength_le _ _)
  omega

theorem datePart_text (h : d.Plain) (rest : List Char) :
    Literal.datePart (d.text.toList ++ rest) = some (d, rest) := by
  have hlt : d.year.toNat < 10 ^ 4 := by have := h.year_le; omega
  have hmonth : d.month < 10 ^ 2 := by have := h.valid.month_le; omega
  have hyear : ((d.year.toNat : Nat) : Int) = d.year := Int.toNat_of_nonneg h.year_nonneg
  have hparts : Date.ofParts? d.year d.month d.day = some d := by
    apply h.valid.ofParts?
    · exact Int.le_trans (by decide) h.year_nonneg
    · exact Int.le_trans h.year_le (by decide)
  rw [toList_text h]
  unfold Literal.datePart
  simp only [List.append_assoc, List.cons_append]
  rw [Literal.year_of_isDigits (isDigits_padded 4 _) (length_padded (by decide) hlt),
    ofDigitChars_padded, hyear]
  simp only [Option.bind_eq_bind, Option.bind_some, Literal.expect_cons,
    Literal.field_padded (by decide) hmonth, Literal.field_padded (by decide) h.day_lt, hparts]
  rfl

theorem signed?_text (h : d.Plain) (rest : List Char) : signed? (d.text.toList ++ rest) = none := by
  rw [toList_text h, List.append_assoc, List.cons_append]
  exact signed?_append_of_not_digit (isDigits_padded 4 _) (by decide) _

theorem isNumeral_text (h : d.Plain) : IsNumeral d.text.toList := by
  rw [toList_text h]
  refine (isDigits_padded 4 _).isNumeral.append ?_
  exact (IsNumeral.cons (by decide) ((isDigits_padded 2 _).isNumeral.append
    (IsNumeral.cons (by decide) (isDigits_padded 2 _).isNumeral.chars).chars).chars).chars

end Date

namespace Literal

theorem fraction_of_isDigits {ds : List Char} (h : IsDigits ds) (hle : ds.length ≤ 9) :
    fraction ('.' :: ds) = some (Nat.ofDigitChars 10 ds 0 * 10 ^ (9 - ds.length), []) := by
  have htake : (ds.take 9).takeWhile Char.isDigit = ds := by
    rw [List.take_of_length_le hle]
    exact List.takeWhile_eq_self_iff.2 h.digits
  simp only [fraction, htake]
  rw [if_neg (by simpa using h.nonempty), Nat.ofDigitChars_append,
    Nat.ofDigitChars_replicate_zero, List.drop_length, List.dropWhile_nil, Nat.mul_comm]

theorem fraction_padded {width n : Nat} (hwidth : 0 < width) (hle : width ≤ 9)
    (h : n < 10 ^ width) :
    fraction ('.' :: (padded width n).toList) = some (n * 10 ^ (9 - width), []) := by
  have hlength := length_padded hwidth h
  rw [fraction_of_isDigits (isDigits_padded width n) (by omega), ofDigitChars_padded, hlength]

end Literal

namespace Instant

theorem fractionText_cases {nanos : Nat} (h : nanos < 1000000000) :
    nanos = 0 ∧ fractionText nanos = "" ∨
      ∃ width n, 0 < width ∧ width ≤ 9 ∧ n < 10 ^ width ∧ n * 10 ^ (9 - width) = nanos ∧
        fractionText nanos = "." ++ padded width n := by
  unfold fractionText
  split
  next hzero => exact .inl ⟨beq_iff_eq.1 hzero, rfl⟩
  split
  next hmillis =>
    have hmod := beq_iff_eq.1 hmillis
    exact .inr ⟨3, nanos / 1000000, by decide, by decide, by omega, by omega, rfl⟩
  split
  next hmicros =>
    have hmod := beq_iff_eq.1 hmicros
    exact .inr ⟨6, nanos / 1000, by decide, by decide, by omega, by omega, rfl⟩
  next => exact .inr ⟨9, nanos, by decide, by decide, by omega, by omega, rfl⟩

theorem toList_point (s : String) : ("." ++ s).toList = '.' :: s.toList := String.toList_append

theorem fraction_fractionText {nanos : Nat} (h : nanos < 1000000000) :
    Literal.fraction (fractionText nanos).toList = some (nanos, []) := by
  rcases fractionText_cases h with ⟨rfl, htext⟩ | ⟨width, n, hwidth, hle, hlt, hnanos, htext⟩
  · rw [htext]
    rfl
  · rw [htext, toList_point, Literal.fraction_padded hwidth hle hlt, hnanos]

theorem isNumeralChar_of_mem_fractionText {nanos : Nat} (h : nanos < 1000000000) :
    ∀ c ∈ (fractionText nanos).toList, isNumeralChar c = true := by
  rcases fractionText_cases h with ⟨-, htext⟩ | ⟨width, n, -, -, -, -, htext⟩
  · rw [htext]
    exact fun c hc => by cases hc
  · rw [htext, toList_point]
    exact (IsNumeral.cons (by decide) (isDigits_padded width n).isNumeral.chars).chars

def clock (second nanos : Nat) : List Char :=
  (padded 2 (second / 3600)).toList ++ ':' :: ((padded 2 (second / 60 % 60)).toList ++
    ':' :: ((padded 2 (second % 60)).toList ++ (fractionText nanos).toList))

theorem toList_textWithFraction (t : Instant) : t.textWithFraction.toList =
    t.date.text.toList ++ ' ' :: clock (t.seconds % secondsPerDay).toNat (t.nanos % 1000000000) := by
  have hcolon : ":".toList = [':'] := rfl
  have hblank : " ".toList = [' '] := rfl
  unfold textWithFraction text clock
  simp only [String.toList_append, List.append_assoc, hcolon, hblank, List.cons_append,
    List.nil_append]

variable {second nanos : Nat}

theorem timePart_clock (h : second < 86400) (hnanos : nanos < 1000000000) :
    Literal.timePart (clock second nanos) = some (second, nanos) := by
  have hhour : second / 3600 < 10 ^ 2 := by omega
  have hminute : second / 60 % 60 < 10 ^ 2 := by omega
  have hsecond : second % 60 < 10 ^ 2 := by omega
  unfold Literal.timePart clock
  simp only [Option.bind_eq_bind, Option.bind_some, Literal.expect_cons,
    Literal.field_padded (by decide) hhour, Literal.field_padded (by decide) hminute,
    Literal.field_padded (by decide) hsecond, fraction_fractionText hnanos]
  have hwithin : (decide (second / 3600 < 24) && decide (second / 60 % 60 < 60) &&
      decide (second % 60 ≤ 60) && ([] : List Char).isEmpty) = true := by
    simp
    omega
  rw [if_pos hwithin, if_neg (by simp; omega)]
  congr 2
  omega

theorem exists_clock_eq (second : Nat) (hnanos : nanos < 1000000000) :
    ∃ front last, clock second nanos = front ++ last ∧ IsNumeral last := by
  refine ⟨(padded 2 (second / 3600)).toList ++ ':' :: ((padded 2 (second / 60 % 60)).toList ++ [':']),
    (padded 2 (second % 60)).toList ++ (fractionText nanos).toList, ?_, ?_⟩
  · unfold clock
    simp only [List.append_assoc, List.cons_append, List.nil_append]
  · exact (isDigits_padded 2 _).isNumeral.append (isNumeralChar_of_mem_fractionText hnanos)

variable {t : Instant}

structure Plain (t : Instant) : Prop where
  nanos_lt : t.nanos < 1000000000
  not_before : 0 ≤ t.seconds
  before : t.seconds < Date.toDays ⟨10000, 1, 1⟩ * secondsPerDay

theorem Plain.date (h : t.Plain) : t.date.Plain := by
  have hday : t.date.toDays = t.seconds / secondsPerDay := Date.toDays_ofDays _
  have hvalid : t.date.Valid := Date.valid_ofDays _
  have hfirst := h.not_before
  have hlast := h.before
  obtain ⟨hyear, hyear'⟩ := Date.year_of_toDays hvalid
    (by rw [hday]; unfold secondsPerDay; omega)
    (by rw [hday]; exact Int.ediv_lt_of_lt_mul (by decide) hlast)
  exact ⟨hvalid, hyear, hyear'⟩

theorem instantOn_date (t : Instant) :
    Literal.instantOn t.date (t.seconds % secondsPerDay).toNat t.nanos = t := by
  have hday : t.date.toDays = t.seconds / secondsPerDay := Date.toDays_ofDays _
  have hseconds : t.seconds / secondsPerDay * secondsPerDay +
      ((t.seconds % secondsPerDay).toNat : Nat) = t.seconds := by
    unfold secondsPerDay
    omega
  unfold Literal.instantOn
  rw [hday, hseconds]

/-- The text of an instant with its fraction is read back as that instant. -/
theorem instant?_textWithFraction (h : t.Plain) :
    Literal.instant? t.textWithFraction.toList = some t := by
  have hsecond : (t.seconds % secondsPerDay).toNat < 86400 := by
    unfold secondsPerDay
    omega
  have htime := timePart_clock hsecond h.nanos_lt
  have hblank (cs : List Char) : trimStart (' ' :: cs) = trimStart cs :=
    trimStart_cons_of_blank (by decide) cs
  have hclock : trimStart (clock (t.seconds % secondsPerDay).toNat t.nanos) =
      clock (t.seconds % secondsPerDay).toNat t.nanos :=
    Literal.trimStart_of_isDigits (isDigits_padded 2 _) _
  have hread : Literal.dateTime? t.textWithFraction.toList = some t := by
    rw [toList_textWithFraction, Nat.mod_eq_of_lt h.nanos_lt]
    unfold Literal.dateTime?
    simp only [Option.bind_eq_bind, Option.bind_some, Date.datePart_text h.date, hblank, hclock,
      htime, instantOn_date]
    rfl
  unfold Literal.instant?
  rw [hread]
  rfl

theorem signed?_textWithFraction (h : t.Plain) : signed? t.textWithFraction.toList = none := by
  rw [toList_textWithFraction]
  exact Date.signed?_text h.date _

theorem trim_textWithFraction (h : t.Plain) :
    trim t.textWithFraction.toList = t.textWithFraction.toList := by
  obtain ⟨front, last, hclock, hlast⟩ :=
    exists_clock_eq (t.seconds % secondsPerDay).toNat (Nat.mod_lt t.nanos (by decide))
  have hdate := Date.isNumeral_text h.date
  rw [toList_textWithFraction, hclock]
  apply trim_of_ends_not_blank
  · rw [List.head?_append_of_ne_nil _ hdate.nonempty]
    exact head?_not_blank fun c hc => isBlank_of_isNumeralChar (hdate.chars c hc)
  · rw [← List.cons_append, ← List.append_assoc]
    apply getLast?_append_not_blank _ hlast.nonempty
    exact getLast?_not_blank fun c hc => isBlank_of_isNumeralChar (hlast.chars c hc)

theorem textWithFraction_of_whole (seconds : Int) :
    textWithFraction ⟨seconds, 0⟩ = text ⟨seconds, 0⟩ := by
  unfold textWithFraction
  exact String.append_empty

end Instant

theorem Date.instant?_text {d : Date} (h : d.Plain) :
    Literal.instant? d.text.toList = some (Literal.instantOn d 0 0) := by
  have hread := datePart_text h []
  rw [List.append_nil] at hread
  have htime : Literal.dateTime? d.text.toList = none := by
    unfold Literal.dateTime?
    rw [hread]
    rfl
  have hdate : Literal.date? d.text.toList = some (Literal.instantOn d 0 0) := by
    unfold Literal.date?
    rw [hread]
    rfl
  unfold Literal.instant?
  rw [htime, hdate]
  rfl

end RowStream
