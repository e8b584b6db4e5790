import RowStream.Text.Blank

/-!
# Column types

The closed set of types that a column may have, with the widths, precisions and scales that belong
to each. Names are found without regard to case and to blanks around them; `lookup?_name` says that
every type is found under its own name.
-/

namespace RowStream

/-- How the values of a type are held in memory. -/
inductive ValueKind where
  | bool
  | int32
  | int64
  | binary32
  | binary64
  | integer
  | decimal
  | text
deriving DecidableEq, Repr, Inhabited

/-- Truth values and texts aside, every kind is numeric. -/
def ValueKind.isNumeric : ValueKind → Bool
  | .bool | .text => false
  | _ => true

inductive ColumnType where
  | bool
  | int8
  | int16
  | int32
  | int64
  | int128
  | int256
  | uint8
  | uint16
  | uint32
  | uint64
  | uint128
  | uint256
  | float32
  | float64
  | date
  | dateTime
  | dateTime64
  | decimal
  | decimal32
  | decimal64
  | decimal128
  | decimal256
  | enum
  | enum8
  | enum16
  | ipv4
  | ipv6
  | fixedString
  | string
  | uuid
deriving DecidableEq, Repr, Inhabited

namespace ColumnType

def all : List ColumnType :=
  [bool, int8, int16, int32, int64, int128, int256, uint8, uint16, uint32, uint64, uint128, uint256,
   float32, float64, date, dateTime, dateTime64, decimal, decimal32, decimal64, decimal128,
   decimal256, enum, enum8, enum16, ipv4, ipv6, fixedString, string, uuid]

def name : ColumnType → String
  | bool => "Bool"
  | int8 => "Int8"
  | int16 => "Int16"
  | int32 => "Int32"
  | int64 => "Int64"
  | int128 => "Int128"
  | int256 => "Int256"
  | uint8 => "UInt8"
  | uint16 => "UInt16"
  | uint32 => "UInt32"
  | uint64 => "UInt64"
  | uint128 => "UInt128"
  | uint256 => "UInt256"
  | float32 => "Float32"
  | float64 => "Float64"
  | date => "Date"
  | dateTime => "DateTime"
  | dateTime64 => "DateTime64"
  | decimal => "Decimal"
  | decimal32 => "Decimal32"
  | decimal64 => "Decimal64"
  | decimal128 => "Decimal128"
  | decimal256 => "Decimal256"
  | enum => "Enum"
  | enum8 => "Enum8"
  | enum16 => "Enum16"
  | ipv4 => "IPv4"
  | ipv6 => "IPv6"
  | fixedString => "FixedString"
  | string => "String"
  | uuid => "UUID"

def aliases : List (String × ColumnType) := [("boolean", bool), ("fixed_string", fixedString)]

/-- The type of a name, whatever its case and the blanks around it. -/
def lookup? (s : String) : Option ColumnType :=
  let word := Text.lowerAscii (Text.trimmed s)
  match all.find? fun t => Text.lowerAscii t.name == word with
  | some t => some t
  | none => (aliases.find? fun a => a.1 == word).map (·.2)

/-- The type of a name; a name of no type means `String`. -/
def ofName (s : String) : ColumnType := (lookup? s).getD string

/-- Bytes that every value of the type takes, 0 when that depends on the value or the column. -/
def byteLength : ColumnType → Nat
  | bool | int8 | uint8 | enum | enum8 => 1
  | int16 | uint16 | enum16 | date => 2
  | int32 | uint32 | float32 | dateTime | decimal32 | ipv4 => 4
  | int64 | uint64 | float64 | dateTime64 | decimal64 => 8
  | int128 | uint128 | decimal128 | ipv6 | uuid => 16
  | int256 | uint256 | decimal256 => 32
  | decimal | fixedString | string => 0

def widestPrecision : Nat := 76

def maxPrecision : ColumnType → Nat
  | bool => 1
  | int8 => 4
  | int16 => 6
  | int32 => 11
  | int64 => 20
  | int128 => 40
  | int256 => 78
  | uint8 => 3
  | uint16 => 5
  | uint32 => 10
  | uint64 => 20
  | uint128 => 39
  | uint256 => 78
  | float32 => 8
  | float64 => 17
  | date => 10
  | dateTime => 19
  | dateTime64 => 29
  | decimal | decimal256 => widestPrecision
  | decimal32 => 9
  | decimal64 => 18
  | decimal128 => 38
  | ipv4 => 15
  | ipv6 => 39
  | uuid => 36
  | enum | enum8 | enum16 | fixedString | string => 0

def defaultPrecision : ColumnType → Nat
  | dateTime64 => 23
  | decimal => 10
  | t => t.maxPrecision

def isDecimal : ColumnType → Bool
  | decimal | decimal32 | decimal64 | decimal128 | decimal256 => true
  | _ => false

/-- Whether the type itself fixes the precision of its decimals. -/
def isSizedDecimal : ColumnType → Bool
  | decimal32 | decimal64 | decimal128 | decimal256 => true
  | _ => false

def isEnum : ColumnType → Bool
  | enum | enum8 | enum16 => true
  | _ => false

def isTemporal : ColumnType → Bool
  | date | dateTime | dateTime64 => true
  | _ => false

def acceptsZone : ColumnType → Bool
  | dateTime | dateTime64 => true
  | _ => false

def maxTickScale : Nat := 9

def maxScale : ColumnType → Nat
  | float32 => 8
  | float64 => 17
  | dateTime64 => maxTickScale
  | t => if t.isDecimal then t.maxPrecision else 0

def defaultScale : ColumnType → Nat
  | float32 => 8
  | float64 => 17
  | dateTime64 => 3
  | decimal => 4
  | decimal32 => 2
  | decimal64 => 4
  | decimal128 => 8
  | decimal256 => 16
  | _ => 0

def kind : ColumnType → ValueKind
  | bool => .bool
  | int8 | int16 | int32 | uint8 | uint16 | enum | enum8 | enum16 => .int32
  | int64 | uint32 | date | dateTime | dateTime64 => .int64
  | uint64 | int128 | int256 | uint128 | uint256 => .integer
  | float32 => .binary32
  | float64 => .binary64
  | decimal | decimal32 | decimal64 | decimal128 | decimal256 => .decimal
  | ipv4 | ipv6 | fixedString | string | uuid => .text

def ofKind : ValueKind → ColumnType
  | .bool => bool
  | .int32 => int32
  | .int64 => int64
  | .binary32 => float32
  | .binary64 => float64
  | .integer => int256
  | .decimal => decimal
  | .text => string

theorem mem_all (t : ColumnType) : t ∈ all := by cases t <;> decide

theorem lookup?_name (t : ColumnType) : lookup? t.name = some t := by
  have h : ∀ t ∈ all, lookup? t.name = some t := by decide +kernel
  exact h t (mem_all t)

end ColumnType

def decimalWidth (precision : Nat) : Nat :=
  if precision ≤ 9 then 4 else if precision ≤ 18 then 8 else if precision ≤ 38 then 16 else 32

end RowStream
