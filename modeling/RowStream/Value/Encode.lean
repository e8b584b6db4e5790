import RowStream.Value.Basic
import RowStream.Value.Layout
import RowStream.Wire.Bytes
import RowStream.Wire.Scaled
import RowStream.Wire.Temporal

/-!
# Values as bytes

`Value.encode` writes a value as a column of some type holds it, and `Value.encodeBy` does so by the
clocks of any table of zones. A value of another kind is converted first; where there is no
conversion the value is refused and nothing is written.
-/

namespace RowStream.Value

variable [Zone.Catalogue]

/-- The address of version 4 that a value stands for: a text, or a number of 32 bits. -/
def toIpv4? : Value → Option Ipv4
  | text s => Ipv4.parse? (Text.trim s.toList)
  | v => v.toInt64?.bind fun n =>
    if 0 ≤ n.toInt ∧ n.toInt ≤ maxWord32 then some ⟨UInt32.ofNat n.toInt.toNat⟩ else none

def toIpv6? (v : Value) : Option Ipv6 := v.text?.bind fun s => Ipv6.parse? (Text.trim s.toList)

def toUuid? (v : Value) : Option Uuid := v.text?.bind fun s => Uuid.parse? (Text.trim s.toList)

def zonedSeconds (clocks : Zone.Clocks) (seconds : Int64) (zone : Option Zone) : Int :=
  match Instant.ofSeconds? seconds.toInt 0 with
  | some t => Wire.localSecondsBy clocks t zone
  | none => seconds.toInt

def zonedTicks (clocks : Zone.Clocks) (ticks : Int64) (scale : Nat) (zone : Option Zone) : Int64 :=
  let unit := tenPow scale
  match Instant.ofSeconds? (ticks.toInt / unit) 0 with
  | some t => saturate64 (ticks.toInt + Zone.offsetBy clocks zone t.seconds * unit)
  | none => ticks

def integerFormat? : ColumnType → Option Wire.IntegerFormat
  | .int8 | .enum | .enum8 => some .int8
  | .int16 | .enum16 => some .int16
  | .int32 => some .int32
  | .int64 => some .int64
  | .int128 => some .int128
  | .int256 => some .int256
  | .uint8 => some .uint8
  | .uint16 => some .uint16
  | .uint32 => some .uint32
  | .uint64 => some .uint64
  | .uint128 => some .uint128
  | .uint256 => some .uint256
  | _ => none

/-- The whole number that a value of a column stands for. What does not fit the words of the type's
kind is no such number, before the range of the format is looked at. -/
def toColumnInt? (v : Value) (t : ColumnType) : Option Int :=
  match t with
  | .uint64 | .int128 | .uint128 | .int256 | .uint256 => v.toInt?
  | .int32 | .uint32 | .int64 => v.toInt64?.map Int64.toInt
  | _ => v.toInt32?.map Int32.toInt

/-- Writes what a value was converted to; without a conversion the value is refused. -/
def writeAs {α : Type} (v : Value) (t : ColumnType) (converted : Option α)
    (write : α → Except Error (List UInt8)) : Except Error (List UInt8) :=
  match converted with
  | some a => write a
  | none => .error (.encode (.mismatch v.toText t))

/-- The bytes of a value in a column of the type. Ticks are given at `sourceScale`. -/
def encodeBy (v : Value) (clocks : Zone.Clocks) (t : ColumnType) (layout : Layout)
    (sourceScale : Nat) : Except Error (List UInt8) :=
  match t with
  | .bool => v.writeAs t v.toBool? fun b => .ok (Wire.flag b)
  | .int8 | .int16 | .int32 | .int64 | .int128 | .int256 | .uint8 | .uint16 | .uint32 | .uint64
  | .uint128 | .uint256 | .enum | .enum8 | .enum16 =>
    v.writeAs t (v.toColumnInt? t) fun n => ((integerFormat? t).getD .int64).encode n
  | .float32 => v.writeAs t v.toBinary64? fun x => .ok (Wire.binary32 x.toBinary32.bits)
  | .float64 => v.writeAs t v.toBinary64? fun x => .ok (Wire.binary64 x.bits)
  | .decimal | .decimal32 | .decimal64 | .decimal128 | .decimal256 =>
    v.writeAs t v.toDecimal? fun d => Wire.decimal d (layout.precisionFor t) (layout.scaleFor t)
  | .date => v.writeAs t v.toInt64? fun n => .ok (Wire.dateDays n.toInt)
  | .dateTime =>
    v.writeAs t v.toInt64? fun n =>
      .ok (Wire.dateTimeSeconds (zonedSeconds clocks n layout.zone))
  | .dateTime64 =>
    v.writeAs t v.toInt64? fun n =>
      let scale := layout.scaleFor t
      let ticks := zonedTicks clocks (rescaleTicks n sourceScale scale) scale layout.zone
      .ok (Wire.dateTimeTicks ticks.toInt)
  | .ipv4 => v.writeAs t v.toIpv4? fun a => .ok (Wire.ipv4 a)
  | .ipv6 => v.writeAs t v.toIpv6? fun a => .ok (Wire.ipv6 a)
  | .uuid => v.writeAs t v.toUuid? fun u => .ok (Wire.uuid u)
  | .fixedString =>
    let bytes := Utf8.encodeString v.toText
    Wire.padded bytes (max (layout.length.getD bytes.length) 1)
  | .string => Wire.text v.toText

def encode (v : Value) (t : ColumnType) (layout : Layout) (sourceScale : Nat) :
    Except Error (List UInt8) :=
  v.encodeBy Zone.offset t layout sourceScale

end RowStream.Value
