import RowStream.Number.Power

/-!
# Binary floating point

The interchange formats of 32 and 64 bits, as bit patterns. A finite number is `m · 2 ^ q` with
whole `m`, so that every conversion is exact arithmetic followed by one rounding to the nearest
number of the format, ties to even (`BinaryFormat.nearest`).
-/

namespace RowStream

/-- A binary interchange format: one sign bit, then the exponent, then the fraction. -/
structure BinaryFormat where
  exponent : Nat
  fraction : Nat
deriving DecidableEq, Repr

inductive BinaryParts where
  /-- Not a number; the fraction field holds `payload`. -/
  | nan (negative : Bool) (payload : Nat)
  | infinite (negative : Bool)
  /-- The number `m · 2 ^ q`, negated when `negative` is set. -/
  | finite (negative : Bool) (m : Nat) (q : Int)
deriving DecidableEq, Repr

namespace BinaryFormat

def binary32 : BinaryFormat := ⟨8, 23⟩

def binary64 : BinaryFormat := ⟨11, 52⟩

def leastExponent (f : BinaryFormat) : Int := 2 - (twoPow (f.exponent - 1) : Int) - f.fraction

def infinity (f : BinaryFormat) : Nat := (twoPow f.exponent - 1) * twoPow f.fraction

def signBit (f : BinaryFormat) : Nat := twoPow (f.exponent + f.fraction)

def quietNaN (f : BinaryFormat) : Nat := f.infinity + twoPow (f.fraction - 1)

def decode (f : BinaryFormat) (bits : Nat) : BinaryParts :=
  let negative := bits / f.signBit % 2 == 1
  let e := bits / twoPow f.fraction % twoPow f.exponent
  let frac := bits % twoPow f.fraction
  if e == twoPow f.exponent - 1 then
    if frac == 0 then .infinite negative else .nan negative frac
  else if e == 0 then .finite negative frac f.leastExponent
  else .finite negative (twoPow f.fraction + frac) (f.leastExponent + (e - 1 : Nat))

/-- The bits of the non-negative number of the format that is nearest to `num / den`, ties to even;
infinity from half a step above the greatest finite number on. -/
def nearest (f : BinaryFormat) (num den : Nat) : Nat :=
  if num == 0 then 0 else
    let p := f.fraction + 1
    let q := (Nat.log2 num : Int) - Nat.log2 den - p
    let scaled (q : Int) : Nat × Nat := (num * twoPow (-q).toNat, den * twoPow q.toNat)
    let q := if twoPow p ≤ (scaled q).1 / (scaled q).2 then q + 1 else q
    let q := max q f.leastExponent
    let m := roundEven (scaled q).1 (scaled q).2
    min ((q - f.leastExponent).toNat * twoPow f.fraction + m) f.infinity

def signed (f : BinaryFormat) (negative : Bool) (magnitude : Nat) : Nat :=
  if negative then f.signBit + magnitude else magnitude

/-- The number nearest to `n · 10 ^ e`, given without its sign. Exponents beyond every number of
the formats are cut short before the power is taken. -/
def nearestDecimal (f : BinaryFormat) (n : Nat) (e : Int) : Nat :=
  if n == 0 then 0 else
    let size := e + (Nat.toDigits 10 n).length
    if 400 < size then f.infinity
    else if size < -400 then 0
    else f.nearest (n * tenPow e.toNat) (tenPow (-e).toNat)

/-- The number of format `g` nearest to the number with these bits of format `f`. A NaN stays a NaN
of the same sign, quiet, with the leading bits of its payload. -/
def convert (f g : BinaryFormat) (bits : Nat) : Nat :=
  match f.decode bits with
  | .nan negative payload =>
    let kept := payload * twoPow (g.fraction - f.fraction) / twoPow (f.fraction - g.fraction)
    let quiet := twoPow (g.fraction - 1)
    g.signed negative (g.infinity + quiet + kept % quiet)
  | .infinite negative => g.signed negative g.infinity
  | .finite negative m q =>
    g.signed negative (g.nearest (m * twoPow q.toNat) (twoPow (-q).toNat))

end BinaryFormat

structure Binary32 where
  bits : UInt32
deriving DecidableEq, Repr, Inhabited

structure Binary64 where
  bits : UInt64
deriving DecidableEq, Repr, Inhabited

namespace BinaryParts

def toInt? : BinaryParts → Option Int
  | .finite negative m q =>
    let num := m * twoPow q.toNat
    let den := twoPow (-q).toNat
    if num % den == 0 then
      some (if negative then -((num / den : Nat) : Int) else ((num / den : Nat) : Int))
    else none
  | _ => none

def isZero : BinaryParts → Bool
  | .finite _ m _ => m == 0
  | _ => false

def isNaN : BinaryParts → Bool
  | .nan .. => true
  | _ => false

end BinaryParts

namespace Binary32

def parts (x : Binary32) : BinaryParts := BinaryFormat.binary32.decode x.bits.toNat

def zero : Binary32 := ⟨0⟩

/-- Equality of numbers: a NaN equals nothing and the two zeros are equal. -/
def equal (x y : Binary32) : Bool :=
  !x.parts.isNaN && !y.parts.isNaN && (x == y || (x.parts.isZero && y.parts.isZero))

def toBinary64 (x : Binary32) : Binary64 :=
  ⟨UInt64.ofNat (BinaryFormat.binary32.convert .binary64 x.bits.toNat)⟩

end Binary32

namespace Binary64

def parts (x : Binary64) : BinaryParts := BinaryFormat.binary64.decode x.bits.toNat

def zero : Binary64 := ⟨0⟩

def equal (x y : Binary64) : Bool :=
  !x.parts.isNaN && !y.parts.isNaN && (x == y || (x.parts.isZero && y.parts.isZero))

def ofRatio (negative : Bool) (num den : Nat) : Binary64 :=
  ⟨UInt64.ofNat (BinaryFormat.binary64.signed negative (BinaryFormat.binary64.nearest num den))⟩

def ofInt (n : Int) : Binary64 := ofRatio (n < 0) n.natAbs 1

def toBinary32 (x : Binary64) : Binary32 :=
  ⟨UInt32.ofNat (BinaryFormat.binary64.convert .binary32 x.bits.toNat)⟩

def neg (x : Binary64) : Binary64 :=
  let top := BinaryFormat.binary64.signBit
  ⟨UInt64.ofNat (if x.bits.toNat < top then x.bits.toNat + top else x.bits.toNat - top)⟩

/-- The product of two non-negative finite numbers. -/
def mulFinite (x y : Binary64) : Binary64 :=
  match x.parts, y.parts with
  | .finite _ m q, .finite _ n r =>
    let e := q + r
    ofRatio false (m * n * twoPow e.toNat) (twoPow (-e).toNat)
  | _, _ => x

/-- The quotient of two non-negative finite numbers, the second not zero. -/
def divFinite (x y : Binary64) : Binary64 :=
  match x.parts, y.parts with
  | .finite _ m q, .finite _ n r =>
    let e := q - r
    ofRatio false (m * twoPow e.toNat) (n * twoPow (-e).toNat)
  | _, _ => x

end Binary64

end RowStream
