import RowStream.Column.Basic
import RowStream.Wire.Bytes
import RowStream.Wire.Scaled
import RowStream.Wire.Temporal

/-!
# Cells of columns as bytes

`Column.encode` writes a value as the column lays it out, without the flag that a nullable column
puts in front; `Column.readText` reads a cell, flag included, as text.
-/

namespace RowStream.Column

variable [Zone.Catalogue]

def encode (c : Column) (v : Value) : Except Error (List UInt8) := v.encode c.type c.layout c.scale

def encodeDefault (c : Column) : Except Error (List UInt8) := c.cell.encode c.layout

def nullText : String := "\\N"

/-- The name of the option with a number, or the number itself when no option has it. -/
def optionText (c : Column) (n : Int) : String :=
  (c.optionName? (Int32.ofInt n)).getD (toString n)

def fixedText (bytes : List UInt8) : String :=
  String.ofList ((Utf8.decodeLossy bytes).reverse.dropWhile (· == '\x00')).reverse

def readValue (c : Column) : Wire.Reader String :=
  let number (format : Wire.IntegerFormat) : Wire.Reader String := toString <$> format.read
  match c.type with
  | .bool => (fun b => if b then "true" else "false") <$> Wire.readFlag
  | .int8 => number .int8
  | .int16 => number .int16
  | .int32 => number .int32
  | .int64 => number .int64
  | .int128 => number .int128
  | .int256 => number .int256
  | .uint8 => number .uint8
  | .uint16 => number .uint16
  | .uint32 => number .uint32
  | .uint64 => number .uint64
  | .uint128 => number .uint128
  | .uint256 => number .uint256
  | .float32 => (fun n => Binary32.text ⟨UInt32.ofNat n⟩) <$> Wire.readUnsigned 4
  | .float64 => (fun n => Binary64.text ⟨UInt64.ofNat n⟩) <$> Wire.readUnsigned 8
  | .date => Date.text <$> Wire.readDate
  | .dateTime => Instant.text <$> Wire.readDateTime
  | .dateTime64 => Instant.textWithFraction <$> Wire.readDateTime64 c.scale
  | .decimal | .decimal32 | .decimal64 | .decimal128 | .decimal256 =>
    Decimal.text <$> Wire.readDecimal c.precision c.scale
  | .enum | .enum8 => c.optionText <$> Wire.IntegerFormat.int8.read
  | .enum16 => c.optionText <$> Wire.IntegerFormat.int16.read
  | .ipv4 => Ipv4.text <$> Wire.readIpv4
  | .ipv6 => Ipv6.text <$> Wire.readIpv6
  | .uuid => Uuid.text <$> Wire.readUuid
  | .fixedString => fixedText <$> Wire.take c.length
  | .string => Wire.readText

def readText (c : Column) : Wire.Reader String := do
  if c.nullable then
    if ← Wire.readFlag then return nullText
  c.readValue

end RowStream.Column
