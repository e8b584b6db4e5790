import RowStream.Text.Numeral

/-!
# Universally unique identifiers

Identifiers of 128 bits. They are read from 32 hexadecimal digits, or from the form with hyphens,
which may stand in braces or behind `urn:uuid:`; they are written with hyphens and small letters.
-/

namespace RowStream

structure Uuid where
  high : UInt64
  low : UInt64
deriving DecidableEq, Repr, Inhabited

namespace Uuid

def zeroText : String := "00000000-0000-0000-0000-000000000000"

def isHex (c : Char) : Bool := (Text.Numeral.hexValue? c).isSome

def ofDigits? (cs : List Char) : Option Uuid :=
  if cs.length = 32 && cs.all isHex then
    let value (ds : List Char) : UInt64 :=
      UInt64.ofNat (ds.foldl (fun n c => n * 16 + (Text.Numeral.hexValue? c).getD 0) 0)
    some ⟨value (cs.take 16), value (cs.drop 16)⟩
  else none

/-- The identifier of the form with hyphens after 8, 12, 16 and 20 digits. -/
def ofHyphenated? (cs : List Char) : Option Uuid :=
  if cs.length = 36 then
    match cs.drop 8, cs.drop 13, cs.drop 18, cs.drop 23 with
    | '-' :: b, '-' :: c, '-' :: d, '-' :: e =>
      ofDigits? (cs.take 8 ++ b.take 4 ++ c.take 4 ++ d.take 4 ++ e)
    | _, _, _, _ => none
  else none

def parse? (cs : List Char) : Option Uuid :=
  if cs.length = 32 then ofDigits? cs
  else if cs.length = 36 then ofHyphenated? cs
  else if cs.length = 38 then
    match cs with
    | '\x7b' :: rest => if rest.getLast? = some '\x7d' then ofHyphenated? rest.dropLast else none
    | _ => none
  else if cs.length = 45 && cs.take 9 == "urn:uuid:".toList then ofHyphenated? (cs.drop 9)
  else none

def halfDigits (w : UInt64) : List Char :=
  let ds := Nat.toDigits 16 w.toNat
  List.replicate (16 - ds.length) '0' ++ ds

def text (u : Uuid) : String :=
  let high := halfDigits u.high
  let low := halfDigits u.low
  String.ofList
    (high.take 8 ++ '-' :: (high.drop 8).take 4 ++ '-' :: high.drop 12 ++ '-' :: low.take 4 ++
      '-' :: low.drop 4)

end Uuid

end RowStream
