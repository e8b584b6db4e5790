import Mathlib.Tactic.IntervalCases
import RowStream.Calendar.Date

/-!
# Days to dates and back

A day of an era lies in one of its centuries, there in one of the spans of four years, and there in
one of the years, which begin in March. Only the last year of a span has a leap day, and the last
span of a century only where the century ends the era. `toDays_ofDays` follows from this, and that
`ofDays` names days which there are.
-/

namespace RowStream.Date

structure Valid (d : Date) : Prop where
  month_pos : 1 ≤ d.month
  month_le : d.month ≤ 12
  day_pos : 1 ≤ d.day
  day_le : d.day ≤ monthLength d.year d.month

theorem Valid.ofParts? {d : Date} (h : d.Valid) (hfirst : firstYear ≤ d.year)
    (hlast : d.year ≤ lastYear) : ofParts? d.year d.month d.day = some d :=
  if_pos ⟨hfirst, hlast, h.month_pos, h.month_le, h.day_pos, h.day_le⟩

/-- Days of an era that lie before the March of its year `y`. -/
def daysBeforeYear (y : Int) : Int := 365 * y + y / 4 - y / 100

/-- Days of a year, from March, that lie before its month `m`, March being 0. -/
def daysBeforeMonth (m : Int) : Int := (153 * m + 2) / 5

/-- A day of an era, by its year and the day of the year, both counted from 0. -/
structure InEra (ofEra y ofYear : Int) : Prop where
  eq : ofEra = daysBeforeYear y + ofYear
  year_nonneg : 0 ≤ y
  year_le : y ≤ 399
  day_nonneg : 0 ≤ ofYear
  day_le : ofYear ≤ 364 ∨ ofYear = 365 ∧ isLeap (y + 1) = true
  year_eq : (ofEra - ofEra / 1460 + ofEra / 36524 - ofEra / 146096) / 365 = y

section Parts

variable {n c q k r : Int}

/-- A day of an era by century, span of four years, year of the span and day of the year. -/
structure Parts (n c q k r : Int) : Prop where
  eq : n = 36524 * c + 1461 * q + 365 * k + r
  century : 0 ≤ c ∧ c ≤ 3
  span : 0 ≤ q ∧ q ≤ 24
  year : 0 ≤ k ∧ k ≤ 3
  day_nonneg : 0 ≤ r
  day_le : r ≤ 364 ∨ r = 365 ∧ k = 3 ∧ (q = 24 → c = 3)

/-- The fourth century and the fourth year of a span are a day longer than the others. -/
theorem exists_parts (h : 0 ≤ n) (h' : n < 146097) : ∃ c q k r, Parts n c q k r := by
  let c := min (n / 36524) 3
  let q := (n - 36524 * c) / 1461
  let k := min ((n - 36524 * c) % 1461 / 365) 3
  refine ⟨c, q, k, n - (36524 * c + 1461 * q + 365 * k), ?_, ?_, ?_, ?_, ?_, ?_⟩ <;> omega

theorem Parts.year_eq (h : Parts n c q k r) :
    (n - n / 1460 + n / 36524 - n / 146096) / 365 = 100 * c + 4 * q + k := by
  obtain ⟨hn, hc, hq, hk, hr, hlong⟩ := h
  have hspans : n / 1460 = 25 * c + q + (24 * c + q + 365 * k + r) / 1460 := by omega
  have hcenturies : n / 36524 = c + (1461 * q + 365 * k + r) / 36524 := by omega
  have hera : n / 146096 = (1461 * q + 365 * k + r) / 36524 := by omega
  omega

theorem daysBeforeYear_parts (hq : 0 ≤ q ∧ q ≤ 24) (hk : 0 ≤ k ∧ k ≤ 3) :
    daysBeforeYear (100 * c + 4 * q + k) = 36524 * c + 1461 * q + 365 * k := by
  have hspans : (100 * c + 4 * q + k) / 4 = 25 * c + q := by omega
  have hcenturies : (100 * c + 4 * q + k) / 100 = c := by omega
  unfold daysBeforeYear
  omega

theorem isLeap_parts (hq : 0 ≤ q ∧ q ≤ 24) (hlast : q = 24 → c = 3) :
    isLeap (100 * c + 4 * q + 3 + 1) = true := by
  have hfour : (100 * c + 4 * q + 3 + 1) % 4 = 0 := by omega
  have hcentury : (100 * c + 4 * q + 3 + 1) % 100 ≠ 0 ∨ (100 * c + 4 * q + 3 + 1) % 400 = 0 := by
    omega
  unfold isLeap
  simp only [Bool.and_eq_true, Bool.or_eq_true, beq_iff_eq, bne_iff_ne]
  exact ⟨hfour, hcentury⟩

theorem Parts.inEra (h : Parts n c q k r) : InEra n (100 * c + 4 * q + k) r where
  eq := by rw [daysBeforeYear_parts h.span h.year, h.eq]
  year_nonneg := by have := h.century; have := h.span; have := h.year; omega
  year_le := by have := h.century; have := h.span; have := h.year; omega
  day_nonneg := h.day_nonneg
  day_le := by
    refine h.day_le.imp_right fun ⟨hr, hk, hlast⟩ => ⟨hr, ?_⟩
    rw [hk]
    exact isLeap_parts h.span hlast
  year_eq := h.year_eq

end Parts

theorem exists_inEra {n : Int} (h : 0 ≤ n) (h' : n < 146097) : ∃ y r, InEra n y r := by
  obtain ⟨c, q, k, r, hparts⟩ := exists_parts h h'
  exact ⟨_, r, hparts.inEra⟩

theorem isLeap_add_era (y era : Int) : isLeap (y + era * 400) = isLeap y := by
  have hfour : (y + era * 400) % 4 = y % 4 := by omega
  have hcentury : (y + era * 400) % 100 = y % 100 := by omega
  unfold isLeap
  rw [hfour, hcentury, Int.add_mul_emod_self_right]

section Months

variable {r m : Int}

theorem month_bounds (hr : 0 ≤ r) (hle : r ≤ 365) (hm : (5 * r + 2) / 153 = m) :
    0 ≤ m ∧ m ≤ 11 ∧ daysBeforeMonth m ≤ r := by
  unfold daysBeforeMonth
  omega

theorem day_le_of_lt (hr : 0 ≤ r) (hm : (5 * r + 2) / 153 = m) (hlt : m < 10) (year : Int) :
    (r - daysBeforeMonth m + 1).toNat ≤ monthLength year (m + 3).toNat := by
  have hpos : 0 ≤ m := by omega
  unfold daysBeforeMonth
  interval_cases m <;> simp [monthLength] <;> omega

theorem day_le_of_ge (hm : (5 * r + 2) / 153 = m) (hge : 10 ≤ m) {year : Int}
    (hday : r ≤ 364 ∨ r = 365 ∧ isLeap year = true) :
    (r - daysBeforeMonth m + 1).toNat ≤ monthLength year (m - 9).toNat := by
  have hle : m ≤ 11 := by omega
  unfold daysBeforeMonth
  interval_cases m
  · simp [monthLength]
    omega
  · rcases hday with hday | ⟨hday, hleap⟩
    · simp [monthLength]
      split <;> omega
    · simp [monthLength, hleap]
      omega

end Months

section Days

variable {days era n y r m : Int}

theorem ofDays_of_inEra (hdays : days + 719468 = era * 146097 + n) (hn : 0 ≤ n)
    (hlt : n < 146097) (h : InEra n y r) (hm : (5 * r + 2) / 153 = m) :
    ofDays days =
      if m < 10 then
        ⟨y + era * 400, (m + 3).toNat, (r - daysBeforeMonth m + 1).toNat⟩
      else ⟨y + era * 400 + 1, (m - 9).toNat, (r - daysBeforeMonth m + 1).toNat⟩ := by
  have hera : (days + 719468) / 146097 = era := by omega
  have hofEra : (days + 719468) % 146097 = n := by omega
  have hofYear : n - (365 * y + y / 4 - y / 100) = r := by
    have heq := h.eq
    unfold daysBeforeYear at heq
    omega
  unfold ofDays
  simp only [hera, hofEra, h.year_eq, hofYear, hm]
  rfl

/-- Days before a year that begins in March, over all eras. -/
def daysBefore (year : Int) : Int := 365 * year + year / 4 - year / 100 + year / 400

theorem daysBefore_add_era (era : Int) (hy : 0 ≤ y) (hle : y ≤ 399) :
    daysBefore (y + era * 400) = era * 146097 + daysBeforeYear y := by
  unfold daysBefore daysBeforeYear
  omega

theorem toDays_of_lt {year d : Int} (hm : 0 ≤ m) (hlt : m < 10) (hd : 0 ≤ d) :
    toDays ⟨year, (m + 3).toNat, (d + 1).toNat⟩ =
      daysBefore year + daysBeforeMonth m + d - 719468 := by
  have hmonth : (((m + 3).toNat : Nat) : Int) - 3 = m := by omega
  unfold toDays
  dsimp only
  rw [if_neg (by omega), if_neg (by omega), hmonth]
  unfold daysBefore daysBeforeMonth
  omega

/-- January and February belong to the year before. -/
theorem toDays_of_ge {year d : Int} (hge : 10 ≤ m) (hle : m ≤ 11) (hd : 0 ≤ d) :
    toDays ⟨year + 1, (m - 9).toNat, (d + 1).toNat⟩ =
      daysBefore year + daysBeforeMonth m + d - 719468 := by
  have hmonth : (((m - 9).toNat : Nat) : Int) + 9 = m := by omega
  unfold toDays
  dsimp only
  rw [if_pos (by omega), if_pos (by omega), hmonth, Int.add_sub_cancel]
  unfold daysBefore daysBeforeMonth
  omega

end Days

/-- The date of a day is one of the calendar, and the day is that of its date. -/
theorem ofDays_spec (days : Int) : (ofDays days).Valid ∧ (ofDays days).toDays = days := by
  have hdays : days + 719468 = (days + 719468) / 146097 * 146097 + (days + 719468) % 146097 := by
    omega
  generalize (days + 719468) / 146097 = era at hdays
  have hn := Int.emod_nonneg (days + 719468) (show (146097 : Int) ≠ 0 by decide)
  have hlt := Int.emod_lt_of_pos (days + 719468) (show (0 : Int) < 146097 by decide)
  generalize (days + 719468) % 146097 = n at hdays hn hlt
  obtain ⟨y, r, h⟩ := exists_inEra hn hlt
  obtain ⟨hm, hm', hbefore⟩ := month_bounds h.day_nonneg (by have := h.day_le; omega) rfl
  have hyear := daysBefore_add_era era h.year_nonneg h.year_le
  rw [ofDays_of_inEra hdays hn hlt h rfl]
  have heq := h.eq
  split
  next hlt =>
    refine ⟨⟨by dsimp only; omega, by dsimp only; omega, by dsimp only; omega,
      day_le_of_lt h.day_nonneg rfl hlt _⟩, ?_⟩
    rw [toDays_of_lt hm hlt (by omega), hyear]
    omega
  next hge =>
    have hleap : r ≤ 364 ∨ r = 365 ∧ isLeap (y + era * 400 + 1) = true := by
      rw [Int.add_right_comm, isLeap_add_era]
      exact h.day_le
    refine ⟨⟨by dsimp only; omega, by dsimp only; omega, by dsimp only; omega,
      day_le_of_ge rfl (by omega) hleap⟩, ?_⟩
    rw [toDays_of_ge (by omega) hm' (by omega), hyear]
    omega

theorem toDays_ofDays (days : Int) : (ofDays days).toDays = days := (ofDays_spec days).2

theorem valid_ofDays (days : Int) : (ofDays days).Valid := (ofDays_spec days).1

example : ofDays 11016 = ⟨2000, 2, 29⟩ ∧ ofDays 47541 = ⟨2100, 3, 1⟩ := by decide

theorem monthLength_le (year : Int) (month : Nat) : monthLength year month ≤ 31 := by
  unfold monthLength
  split
  · split <;> omega
  · split <;> omega

theorem year_of_toDays {d : Date} (hd : d.Valid) (hfirst : 0 ≤ d.toDays)
    (hlast : d.toDays < toDays ⟨10000, 1, 1⟩) : 0 ≤ d.year ∧ d.year ≤ 9999 := by
  have hend : toDays ⟨10000, 1, 1⟩ = 2932897 := by decide
  have hday := Nat.le_trans hd.day_le (monthLength_le _ _)
  have hpos := hd.day_pos
  have hmonth := hd.month_le
  rw [hend] at hlast
  unfold toDays at hfirst hlast
  dsimp only at hfirst hlast
  by_cases hm : d.month ≤ 2
  · rw [if_pos hm, if_pos hm] at hfirst hlast
    have hfirstMonth := hd.month_pos
    -- the first of January 10000 is the first day that is too late
    have hlate : d.year ≠ 10000 := by
      intro hyear
      rw [hyear] at hlast
      omega
    omega
  · rw [if_neg hm, if_neg hm] at hfirst hlast
    omega

end RowStream.Date
