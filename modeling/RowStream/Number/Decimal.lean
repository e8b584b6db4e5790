import RowStream.Number.Binary
import RowStream.Text.Numeral

/-!
# Decimals

Numbers `unscaled · 10 ^ (-scale)` of any size that keep the scale they were written with. Reading
accepts a point and an exponent; writing is positional unless many zeros would be needed; `rescale`
rounds half away from zero.
-/

namespace RowStream

/-- The number `unscaled · 10 ^ (-scale)`. -/
structure Decimal where
  unscaled : Int
  scale : Int
deriving DecidableEq, Repr, Inhabited

namespace Decimal

def ofInt (n : Int) : Decimal := ⟨n, 0⟩

def zero : Decimal := ofInt 0

def scaleFits (s : Int) : Bool := -0x8000000000000000 ≤ s && s ≤ 0x7FFFFFFFFFFFFFFF

/-- The digits and the scale of a literal before its exponent: the point drops out and the digits
behind it count; a point at the end counts nothing. -/
def mantissa (base : List Char) : List Char × Nat :=
  match base.dropWhile (· != '.') with
  | [] => (base, 0)
  | [_] => (base.takeWhile (· != '.'), 0)
  | _ :: frac => (base.takeWhile (· != '.') ++ frac, (frac.filter (· != '_')).length)

def parse? (cs : List Char) : Option Decimal :=
  let isMark (c : Char) := c == 'e' || c == 'E'
  let base := cs.takeWhile (!isMark ·)
  let exponent :=
    match cs.dropWhile (!isMark ·) with
    | [] => some 0
    | _ :: e => Text.Numeral.signed? e
  match exponent with
  | none => none
  | some e =>
    let (digits, places) := mantissa base
    let scale := (places : Int) - e
    if scaleFits scale then (Text.Numeral.big? digits).map (⟨·, scale⟩) else none

/-- More zeros than this between the point and the first digit call for an exponent. -/
def maxLeadingZeros : Nat := 5

/-- More zeros than this behind the last digit call for an exponent. -/
def maxTrailingZeros : Nat := 15

/-- Digits, without sign, of a number that is not zero. Small numbers get one digit before the point
and `E`; great ones keep their digits and get `e`. -/
def magnitudeText (n : Nat) (scale : Int) : String :=
  let ds := Nat.toDigits 10 n
  if scale ≤ 0 then
    let zeros := (-scale).toNat
    if maxTrailingZeros < zeros then String.ofList ds ++ "e+" ++ toString zeros
    else String.ofList (ds ++ List.replicate zeros '0')
  else
    let places := scale.toNat
    if places < ds.length then
      String.ofList (ds.take (ds.length - places) ++ '.' :: ds.drop (ds.length - places))
    else if maxLeadingZeros < places - ds.length then
      let mantissa := if ds.length = 1 then ds else ds.take 1 ++ '.' :: ds.drop 1
      String.ofList mantissa ++ "E" ++ Text.Numeral.withSign ((ds.length : Int) - places - 1)
    else String.ofList ('0' :: '.' :: List.replicate (places - ds.length) '0' ++ ds)

/-- The text of a decimal; zero is written `0` at every scale. -/
def text (d : Decimal) : String :=
  if d.unscaled = 0 then "0"
  else
    let magnitude := magnitudeText d.unscaled.natAbs d.scale
    if d.unscaled < 0 then "-" ++ magnitude else magnitude

/-- The unscaled number at another scale, rounded half away from zero. A number with fewer digits
than places to drop is less than a tenth of a unit, so no power of ten is needed to round it. -/
def rescale (d : Decimal) (scale : Int) : Int :=
  if d.unscaled = 0 then 0
  else if d.scale ≤ scale then d.unscaled * tenPow (scale - d.scale).toNat
  else if (Nat.toDigits 10 d.unscaled.natAbs).length < (d.scale - scale).toNat then 0
  else roundAway d.unscaled (tenPow (d.scale - scale).toNat)

theorem rescale_of_le {d : Decimal} {scale : Int} (h : d.scale ≤ scale) :
    d.rescale scale = d.unscaled * tenPow (scale - d.scale).toNat := by
  by_cases hz : d.unscaled = 0 <;> simp [rescale, hz, h]

theorem rescale_of_lt {d : Decimal} {scale : Int} (h : scale < d.scale) :
    d.rescale scale = roundAway d.unscaled (tenPow (d.scale - scale).toNat) := by
  unfold rescale
  split
  next hz => simp [hz]
  split
  · omega
  split
  next hlen => rw [roundAway_of_toDigits_lt hlen]
  next => rfl

def equal (a b : Decimal) : Bool :=
  if a.scale = b.scale then a.unscaled == b.unscaled
  else if a.unscaled = 0 || b.unscaled = 0 then a.unscaled == b.unscaled
  else if a.scale ≤ b.scale then a.unscaled * tenPow (b.scale - a.scale).toNat == b.unscaled
  else a.unscaled == b.unscaled * tenPow (a.scale - b.scale).toNat

def toInt? (d : Decimal) : Option Int :=
  if d.unscaled = 0 then some 0
  else if d.scale ≤ 0 then some (d.unscaled * tenPow (-d.scale).toNat)
  else if (Nat.toDigits 10 d.unscaled.natAbs).length < d.scale.toNat then none
  else
    let den := tenPow d.scale.toNat
    if d.unscaled.natAbs % den == 0 then some (d.unscaled.tdiv den) else none

def toBinary64 (d : Decimal) : Binary64 :=
  let f := BinaryFormat.binary64
  ⟨UInt64.ofNat (f.signed (d.unscaled < 0) (f.nearestDecimal d.unscaled.natAbs (-d.scale)))⟩

end Decimal

end RowStream
