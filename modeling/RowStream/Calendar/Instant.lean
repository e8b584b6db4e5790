import RowStream.Calendar.Date

/-!
# Instants

Points in time as seconds since 1970-01-01 00:00:00 and nanoseconds within the second, with their
text and the literals that are read as instants. A leap second is the second before it with a
nanosecond count of one milliard or more.
-/

namespace RowStream

structure Instant where
  seconds : Int
  /-- Below two milliards; from one milliard on within a leap second. -/
  nanos : Nat
deriving DecidableEq, Repr, Inhabited

namespace Instant

def ofSeconds? (seconds : Int) (nanos : Nat) : Option Instant :=
  let day := seconds / secondsPerDay
  if Date.firstDay ≤ day ∧ day ≤ Date.lastDay then some ⟨seconds, nanos⟩ else none

def date (t : Instant) : Date := Date.ofDays (t.seconds / secondsPerDay)

def text (t : Instant) : String :=
  let second := (t.seconds % secondsPerDay).toNat
  t.date.text ++ " " ++ Text.Numeral.padded 2 (second / 3600) ++ ":" ++
    Text.Numeral.padded 2 (second / 60 % 60) ++ ":" ++ Text.Numeral.padded 2 (second % 60)

/-- The fraction of a second: nothing, or three, six or nine digits behind a point. -/
def fractionText (nanos : Nat) : String :=
  if nanos == 0 then ""
  else if nanos % 1000000 == 0 then "." ++ Text.Numeral.padded 3 (nanos / 1000000)
  else if nanos % 1000 == 0 then "." ++ Text.Numeral.padded 6 (nanos / 1000)
  else "." ++ Text.Numeral.padded 9 nanos

def textWithFraction (t : Instant) : String := t.text ++ fractionText (t.nanos % 1000000000)

end Instant

namespace Literal

/-- A number of at most `width` digits, after blanks. -/
def field (width : Nat) (cs : List Char) : Option (Nat × List Char) :=
  let cs := Text.trimStart cs
  let digits := (cs.take width).takeWhile Char.isDigit
  if digits.isEmpty then none else some (Nat.ofDigitChars 10 digits 0, cs.drop digits.length)

/-- The greatest year that a literal may name, before the calendar is consulted. -/
def maxYear : Nat := 0x7FFFFFFF

/-- A year: up to four digits, or any number of them after a sign. -/
def year (cs : List Char) : Option (Int × List Char) :=
  let long (negative : Bool) (cs : List Char) : Option (Int × List Char) :=
    let digits := cs.takeWhile Char.isDigit
    let n := Nat.ofDigitChars 10 digits 0
    if digits.isEmpty || maxYear < n then none
    else some (if negative then -(n : Int) else n, cs.dropWhile Char.isDigit)
  match Text.trimStart cs with
  | '-' :: cs => long true cs
  | '+' :: cs => long false cs
  | cs => (field 4 cs).map fun (n, cs) => ((n : Int), cs)

def expect (c : Char) : List Char → Option (List Char)
  | d :: cs => if c = d then some cs else none
  | [] => none

def datePart (cs : List Char) : Option (Date × List Char) := do
  let (y, cs) ← year cs
  let cs ← expect '-' cs
  let (m, cs) ← field 2 cs
  let cs ← expect '-' cs
  let (d, cs) ← field 2 cs
  let date ← Date.ofParts? y m d
  return (date, cs)

/-- The nanoseconds of an optional fraction: a point and digits, those after the ninth ignored. -/
def fraction : List Char → Option (Nat × List Char)
  | '.' :: cs =>
    let digits := (cs.take 9).takeWhile Char.isDigit
    if digits.isEmpty then none
    else
      let padded := digits ++ List.replicate (9 - digits.length) '0'
      some (Nat.ofDigitChars 10 padded 0, (cs.drop digits.length).dropWhile Char.isDigit)
  | cs => some (0, cs)

/-- A time of day that ends the text: the second of the day and the nanoseconds within it. Second 60
is a leap second. -/
def timePart (cs : List Char) : Option (Nat × Nat) := do
  let (h, cs) ← field 2 cs
  let cs ← expect ':' cs
  let (m, cs) ← field 2 cs
  let cs ← expect ':' cs
  let (s, cs) ← field 2 cs
  let (nanos, cs) ← fraction cs
  if h < 24 && m < 60 && s ≤ 60 && cs.isEmpty then
    if s == 60 then some (h * 3600 + m * 60 + 59, nanos + 1000000000)
    else some (h * 3600 + m * 60 + s, nanos)
  else none

def instantOn (d : Date) (second nanos : Nat) : Instant :=
  ⟨d.toDays * secondsPerDay + second, nanos⟩

/-- A date and a time of day: blanks, even none, or the letter `T` between them. -/
def dateTime? (cs : List Char) : Option Instant := do
  let (d, rest) ← datePart cs
  let (second, nanos) ←
    match timePart (Text.trimStart rest) with
    | some t => some t
    | none => (expect 'T' rest).bind timePart
  return instantOn d second nanos

def date? (cs : List Char) : Option Instant := do
  let (d, rest) ← datePart cs
  if rest.isEmpty then some (instantOn d 0 0) else none

def instant? (cs : List Char) : Option Instant := (dateTime? cs).or (date? cs)

end Literal

end RowStream
