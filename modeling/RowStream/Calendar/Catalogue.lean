import RowStream.Calendar.Date
import RowStream.Calendar.Zone

/-!
# A catalogue of zones

Thirteen zones for a program to run with, by the rules that their clocks have followed since 1970.
Summer time begins and ends on a Sunday, the first one from some day of a month on; the year 2099 is
the last one in which the clocks change.
-/

namespace RowStream.Zone

/-- From a year on, the first Sunday of the month that is not before the day. -/
structure SundayRule where
  year : Int
  month : Nat
  day : Nat

/-- 1970-01-04, the third day after the first one, was a Sunday. -/
def SundayRule.inYear (r : SundayRule) (year : Int) : Int :=
  let day := Date.toDays ⟨year, r.month, r.day⟩
  day + (3 - day) % 7

structure SummerTime where
  standard : Int
  summer : Int
  /-- When summer time begins, the latest rule first, and at which second of the day. -/
  begins : List SundayRule
  beginsAt : Int
  ends : List SundayRule
  endsAt : Int

namespace SummerTime

def change? (rules : List SundayRule) (secondOfDay year : Int) : Option Int :=
  (rules.find? fun r => r.year ≤ year).map fun r => r.inYear year * secondsPerDay + secondOfDay

/-- Summer time that begins later in the year than it ends goes on over the new year. -/
def isSummer (z : SummerTime) (seconds : Int) : Bool :=
  let year := min (Date.ofDays (seconds / secondsPerDay)).year 2099
  match change? z.begins z.beginsAt year, change? z.ends z.endsAt year with
  | some first, some last =>
    if first < last then first ≤ seconds && seconds < last else seconds < last || first ≤ seconds
  | some first, none => first ≤ seconds
  | none, _ => false

def offset (z : SummerTime) (seconds : Int) : Int :=
  if z.isSummer seconds then z.summer else z.standard

end SummerTime

def berlinTime : SummerTime where
  standard := 3600
  summer := 7200
  begins := [⟨1981, 3, 25⟩, ⟨1980, 4, 1⟩]
  beginsAt := 3600
  ends := [⟨1996, 10, 25⟩, ⟨1980, 9, 24⟩]
  endsAt := 3600

def centralEuropeanTime : SummerTime :=
  { berlinTime with
    begins := [⟨1981, 3, 25⟩, ⟨1977, 4, 1⟩]
    ends := [⟨1996, 10, 25⟩, ⟨1979, 9, 24⟩, ⟨1978, 10, 1⟩, ⟨1977, 9, 24⟩] }

def easternTime : SummerTime where
  standard := -18000
  summer := -14400
  begins := [⟨2007, 3, 8⟩, ⟨1987, 4, 1⟩, ⟨1976, 4, 24⟩, ⟨1975, 2, 22⟩, ⟨1974, 1, 6⟩, ⟨1967, 4, 24⟩]
  beginsAt := 25200
  ends := [⟨2007, 11, 1⟩, ⟨1967, 10, 25⟩]
  endsAt := 21600

/-- Lord Howe Island until the summer of 1985, an hour forward in summer. -/
def lordHoweHourTime : SummerTime where
  standard := 37800
  summer := 41400
  begins := [⟨1981, 10, 25⟩]
  beginsAt := -30600
  ends := [⟨1982, 3, 1⟩]
  endsAt := -34200

def lordHoweHalfHourTime : SummerTime where
  standard := 37800
  summer := 39600
  begins := [⟨2008, 10, 1⟩, ⟨2001, 10, 25⟩, ⟨2000, 8, 25⟩, ⟨1987, 10, 25⟩, ⟨1986, 10, 19⟩,
    ⟨1985, 10, 25⟩]
  beginsAt := -30600
  ends := [⟨2008, 4, 1⟩, ⟨2007, 3, 25⟩, ⟨2006, 4, 1⟩, ⟨1996, 3, 25⟩, ⟨1990, 3, 1⟩, ⟨1986, 3, 15⟩]
  endsAt := -32400

def lordHoweTime (seconds : Int) : Int :=
  if seconds < 352216800 then 36000
  -- In July 1985, when the rules change, the clocks show standard time by either of them.
  else if seconds < 489024000 then lordHoweHourTime.offset seconds
  else lordHoweHalfHourTime.offset seconds

def clocks : List (String × (Int → Int)) :=
  [("UTC", fun _ => 0),
   ("GMT", fun _ => 0),
   ("Europe/Berlin", berlinTime.offset),
   ("CET", centralEuropeanTime.offset),
   ("America/New_York", easternTime.offset),
   ("US/Eastern", easternTime.offset),
   ("EST5EDT", easternTime.offset),
   ("Etc/GMT+5", fun _ => -18000),
   ("Asia/Tokyo", fun _ => 32400),
   ("Asia/Kolkata", fun _ => 19800),
   ("Asia/Calcutta", fun _ => 19800),
   ("Asia/Kathmandu", fun seconds => if seconds < 504901800 then 19800 else 20700),
   ("Australia/Lord_Howe", lordHoweTime)]

def names : List String := clocks.map Prod.fst

instance Catalogue.builtin : Catalogue where
  known := names.contains
  offset name seconds := ((clocks.lookup name).map fun clock => clock seconds).getD 0
  trimmed_of_known s h := by
    have hall : ∀ s ∈ names, Text.trimmed s = s := by decide
    exact hall s (List.contains_iff_mem.1 h)
  allBlank_of_known s h := by
    have hall : ∀ s ∈ names, Text.allBlank s = false := by decide
    exact hall s (List.contains_iff_mem.1 h)

def berlin : Zone := ⟨"Europe/Berlin", rfl⟩

end RowStream.Zone
