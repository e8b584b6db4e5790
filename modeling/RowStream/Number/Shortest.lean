import RowStream.Number.Binary
import RowStream.Text.Numeral

/-!
# Shortest decimals

The decimal text of floating-point numbers. `BinaryFormat.shortest` finds the fewest digits that are
read back as the same number and, among those, the nearest; `Binary32.text` and `Binary64.text`
write them out with a decimal point and never with an exponent.
-/

namespace RowStream

/-- The number `digits · 10 ^ exponent`. -/
structure Digits where
  digits : Nat
  exponent : Int
deriving DecidableEq, Repr

namespace BinaryFormat

/-- The nearer neighbour of `m · 2 ^ q` on the grid of multiples of `10 ^ t`, when one of the two is
nearer to it than to the numbers of the format beside it. Of two equally near ones the greater. -/
def neighbour? (f : BinaryFormat) (m : Nat) (q t : Int) : Option Nat :=
  let up := twoPow (q - 2).toNat * tenPow (-t).toNat
  let down := twoPow (2 - q).toNat * tenPow t.toNat
  let value := 4 * m * up
  let high := (4 * m + 2) * up
  let low := (if m == twoPow f.fraction && f.leastExponent < q then 4 * m - 1 else 4 * m - 2) * up
  let d := value / down
  let closed := m % 2 == 0
  let belowFits := if closed then low ≤ d * down else low < d * down
  let aboveFits := if closed then (d + 1) * down ≤ high else (d + 1) * down < high
  if belowFits && aboveFits then
    if value - d * down < (d + 1) * down - value then some d else some (d + 1)
  else if belowFits then some d
  else if aboveFits then some (d + 1)
  else none

/-- The first grid with a fitting neighbour, from `10 ^ t` down. -/
def shortestFrom (f : BinaryFormat) (m : Nat) (q t : Int) : Nat → Digits
  | 0 => ⟨0, 0⟩
  | steps + 1 =>
    match f.neighbour? m q t with
    | some d => ⟨d, t⟩
    | none => f.shortestFrom m q (t - 1) steps

/-- The fewest digits that are read back as `m · 2 ^ q`, where `m` is not zero. The first grid
tried lies above the number; seventeen digits always suffice. -/
def shortest (f : BinaryFormat) (m : Nat) (q : Int) : Digits :=
  f.shortestFrom m q (((Nat.log2 m : Int) + q) * 30103 / 100000 + 1) 24

end BinaryFormat

namespace Digits

def positional (d : Digits) : String :=
  let ds := Nat.toDigits 10 d.digits
  if 0 ≤ d.exponent then String.ofList (ds ++ List.replicate d.exponent.toNat '0')
  else
    let places := (-d.exponent).toNat
    if places < ds.length then
      String.ofList (ds.take (ds.length - places) ++ '.' :: ds.drop (ds.length - places))
    else String.ofList ('0' :: '.' :: List.replicate (places - ds.length) '0' ++ ds)

def leading (d : Digits) : Int := (Nat.toDigits 10 d.digits).length + d.exponent - 1

def scientific (d : Digits) : String :=
  let ds := Nat.toDigits 10 d.digits
  let mantissa := if ds.length = 1 then ds else ds.take 1 ++ '.' :: ds.drop 1
  String.ofList mantissa ++ "e" ++ Text.Numeral.withSign d.leading

end Digits

def BinaryParts.text (f : BinaryFormat) : BinaryParts → String
  | .nan .. => "NaN"
  | .infinite negative => if negative then "-inf" else "inf"
  | .finite negative m q =>
    let magnitude := if m == 0 then "0" else (f.shortest m q).positional
    if negative then "-" ++ magnitude else magnitude

def Binary32.text (x : Binary32) : String := x.parts.text .binary32

def Binary64.text (x : Binary64) : String := x.parts.text .binary64

def Digits.parse? (cs : List Char) : Option Digits :=
  let whole := cs.takeWhile Char.isDigit
  let rest := cs.dropWhile Char.isDigit
  let (frac, rest) :=
    match rest with
    | '.' :: rest => (rest.takeWhile Char.isDigit, rest.dropWhile Char.isDigit)
    | rest => ([], rest)
  if whole.isEmpty && frac.isEmpty then none else
    let digits := Nat.ofDigitChars 10 (whole ++ frac) 0
    match rest with
    | [] => some ⟨digits, -(frac.length : Int)⟩
    | c :: rest =>
      if c = 'e' || c = 'E' then
        (Text.Numeral.signed? rest).map fun e => ⟨digits, e - frac.length⟩
      else none

/-- Bits of the number nearest to a literal: digits, or one of the words `inf`, `infinity` and
`nan` in any case, after an optional sign. -/
def BinaryFormat.parse? (f : BinaryFormat) (cs : List Char) : Option Nat :=
  let (negative, body) :=
    match cs with
    | '-' :: cs => (true, cs)
    | '+' :: cs => (false, cs)
    | cs => (false, cs)
  let magnitude :=
    if Text.sameLetters body "inf".toList || Text.sameLetters body "infinity".toList then
      some f.infinity
    else if Text.sameLetters body "nan".toList then some f.quietNaN
    else (Digits.parse? body).map fun d => f.nearestDecimal d.digits d.exponent
  magnitude.map (f.signed negative)

def Binary32.parse? (cs : List Char) : Option Binary32 :=
  (BinaryFormat.binary32.parse? cs).map fun bits => ⟨UInt32.ofNat bits⟩

def Binary64.parse? (cs : List Char) : Option Binary64 :=
  (BinaryFormat.binary64.parse? cs).map fun bits => ⟨UInt64.ofNat bits⟩

end RowStream
