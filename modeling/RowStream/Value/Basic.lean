import RowStream.Address
import RowStream.ColumnType
import RowStream.Json.Basic
import RowStream.Number.Decimal
import RowStream.Number.Shortest
import RowStream.Uuid

/-!
# Values

A value of a column, held as the column's type asks for, and the conversions between the kinds of
values. A conversion answers `none` when it would have to invent something: a fraction has no whole
number, a word no date.
-/

namespace RowStream

inductive Value where
  | bool (b : Bool)
  | int32 (n : Int32)
  | int64 (n : Int64)
  | binary32 (x : Binary32)
  | binary64 (x : Binary64)
  | integer (n : Int)
  | decimal (d : Decimal)
  | text (s : String)
deriving DecidableEq, Repr, Inhabited

def truthOf? (cs : List Char) : Option Bool :=
  let word := String.ofList (cs.map Char.toLower)
  if word == "true" || word == "1" || word == "yes" then some true
  else if word == "false" || word == "0" || word == "no" then some false
  else none

namespace Value

def kind : Value → ValueKind
  | bool _ => .bool
  | int32 _ => .int32
  | int64 _ => .int64
  | binary32 _ => .binary32
  | binary64 _ => .binary64
  | integer _ => .integer
  | decimal _ => .decimal
  | text _ => .text

def zeroText : ColumnType → String
  | .uuid => Uuid.zeroText
  | .ipv4 => "0.0.0.0"
  | .ipv6 => "::"
  | _ => ""

/-- The zero of a type. Days, seconds and ticks begin at 1, the least that is ever written. -/
def zero (t : ColumnType) : Value :=
  match t.kind with
  | .bool => bool false
  | .int32 => int32 0
  | .int64 => int64 (if t.isTemporal then 1 else 0)
  | .binary32 => binary32 Binary32.zero
  | .binary64 => binary64 Binary64.zero
  | .integer => integer 0
  | .decimal => decimal Decimal.zero
  | .text => text (zeroText t)

theorem kind_zero (t : ColumnType) : (zero t).kind = t.kind := by cases t <;> rfl

def toText : Value → String
  | bool b => if b then "true" else "false"
  | int32 n => toString n.toInt
  | int64 n => toString n.toInt
  | binary32 x => x.text
  | binary64 x => x.text
  | integer n => toString n
  | decimal d => d.text
  | text s => s

def toBinary64? : Value → Option Binary64
  | bool b => some (Binary64.ofInt (if b then 1 else 0))
  | int32 n => some (Binary64.ofInt n.toInt)
  | int64 n => some (Binary64.ofInt n.toInt)
  | binary32 x => some x.toBinary64
  | binary64 x => some x
  | integer n => some (Binary64.ofInt n)
  | decimal d => some d.toBinary64
  | text s => Binary64.parse? (Text.trim s.toList)

/-- The truth value of a value: a word for one, or whether a number is not zero. -/
def toBool? : Value → Option Bool
  | bool b => some b
  | text s => truthOf? (Text.trim s.toList)
  | v => v.toBinary64?.map fun x => !x.parts.isZero

def toInt64? : Value → Option Int64
  | bool b => some (if b then 1 else 0)
  | int32 n => some n.toInt64
  | int64 n => some n
  | binary32 x => x.parts.toInt?.bind RowStream.int64?
  | binary64 x => x.parts.toInt?.bind RowStream.int64?
  | integer n => RowStream.int64? n
  | decimal d => d.toInt?.bind RowStream.int64?
  | text s => (Text.Numeral.signed? (Text.trim s.toList)).bind RowStream.int64?

def toInt32? (v : Value) : Option Int32 := v.toInt64?.bind fun n => RowStream.int32? n.toInt

def toInt? : Value → Option Int
  | integer n => some n
  | decimal d => d.toInt?
  | text s => Text.Numeral.big? (Text.trim s.toList)
  | v => v.toInt64?.map Int64.toInt

/-- The decimal that a value stands for; a floating-point number counts with its shortest digits. -/
def toDecimal? : Value → Option Decimal
  | bool b => some (Decimal.ofInt (if b then 1 else 0))
  | int32 n => some (Decimal.ofInt n.toInt)
  | int64 n => some (Decimal.ofInt n.toInt)
  | binary32 x => Decimal.parse? x.text.toList
  | binary64 x => Decimal.parse? x.text.toList
  | integer n => some (Decimal.ofInt n)
  | decimal d => some d
  | text s => Decimal.parse? (Text.trim s.toList)

def text? : Value → Option String
  | text s => some s
  | _ => none

/-- Equality as the kinds have it: decimals whatever their scale, the zeros of floating point equal,
a NaN equal to nothing. Values of different kinds differ. -/
def equal : Value → Value → Bool
  | binary32 x, binary32 y => x.equal y
  | binary64 x, binary64 y => x.equal y
  | decimal d, decimal e => d.equal e
  | v, w => v == w

end Value

end RowStream
