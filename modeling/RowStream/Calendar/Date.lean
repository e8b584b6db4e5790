import RowStream.Text.Numeral

/-!
# Calendar days

Dates of the proleptic Gregorian calendar and the days between them and 1970-01-01. A year counts
from March, so that the leap day comes last; four hundred years make one era of 146097 days.
-/

namespace RowStream

def secondsPerDay : Int := 86400

structure Date where
  year : Int
  month : Nat
  day : Nat
deriving DecidableEq, Repr, Inhabited

namespace Date

def firstYear : Int := -262143

def lastYear : Int := 262142

def isLeap (year : Int) : Bool := year % 4 == 0 && (year % 100 != 0 || year % 400 == 0)

def monthLength (year : Int) (month : Nat) : Nat :=
  if month == 2 then (if isLeap year then 29 else 28)
  else if month == 4 || month == 6 || month == 9 || month == 11 then 30
  else 31

def ofParts? (year : Int) (month day : Nat) : Option Date :=
  if firstYear ≤ year ∧ year ≤ lastYear ∧ 1 ≤ month ∧ month ≤ 12 ∧ 1 ≤ day ∧
      day ≤ monthLength year month then
    some ⟨year, month, day⟩
  else none

def toDays (d : Date) : Int :=
  let year := if d.month ≤ 2 then d.year - 1 else d.year
  let month : Int := if d.month ≤ 2 then d.month + 9 else d.month - 3
  let ofYear := (153 * month + 2) / 5 + d.day - 1
  365 * year + year / 4 - year / 100 + year / 400 + ofYear - 719468

def ofDays (days : Int) : Date :=
  let shifted := days + 719468
  let era := shifted / 146097
  let ofEra := shifted % 146097
  let yearOfEra := (ofEra - ofEra / 1460 + ofEra / 36524 - ofEra / 146096) / 365
  let ofYear := ofEra - (365 * yearOfEra + yearOfEra / 4 - yearOfEra / 100)
  let month := (5 * ofYear + 2) / 153
  let day := ofYear - (153 * month + 2) / 5 + 1
  let year := yearOfEra + era * 400
  if month < 10 then ⟨year, (month + 3).toNat, day.toNat⟩
  else ⟨year + 1, (month - 9).toNat, day.toNat⟩

def firstDay : Int := toDays ⟨firstYear, 1, 1⟩

def lastDay : Int := toDays ⟨lastYear, 12, 31⟩

/-- The text of a year: four digits, and a sign when it lies outside of 0 to 9999. -/
def yearText (year : Int) : String :=
  if 0 ≤ year && year ≤ 9999 then Text.Numeral.padded 4 year.toNat
  else (if year < 0 then "-" else "+") ++ Text.Numeral.padded 4 year.natAbs

def text (d : Date) : String :=
  yearText d.year ++ "-" ++ Text.Numeral.padded 2 d.month ++ "-" ++ Text.Numeral.padded 2 d.day

end Date

end RowStream
