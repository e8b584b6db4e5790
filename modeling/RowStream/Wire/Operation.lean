import RowStream.Wire.Scaled
import RowStream.Wire.Temporal
import RowStream.Wire.Writer

/-!
# Operations on buffers

Everything that is read from a buffer or written to it. A format of a fixed width says how many
bytes its values take before they are read; an operation may fail and then leaves the buffer as far
as it has come.
-/

namespace RowStream.Wire

variable [Zone.Catalogue]

/-- A format whose values take the same number of bytes each. -/
inductive FixedFormat where
  | flag
  | integer (format : IntegerFormat)
  | binary32
  | binary64
  | decimal (precision scale : Nat)
  | days
  | seconds
  | ticks
  | date
  | dateTime
  | dateTime64 (scale : Nat)
  | uuid
  | ipv4
  | ipv6
  | bytes (length : Nat)
deriving DecidableEq, Repr

namespace FixedFormat

def width : FixedFormat → Nat
  | flag => 1
  | integer format => format.width
  | binary32 | seconds | dateTime | ipv4 => 4
  | binary64 | ticks | dateTime64 _ => 8
  | decimal precision _ => decimalWidth precision
  | days | date => 2
  | uuid | ipv6 => 16
  | bytes length => length

def Value : FixedFormat → Type
  | flag => Bool
  | integer _ => Int
  | binary32 => Binary32
  | binary64 => Binary64
  | decimal _ _ => Decimal
  | days | seconds | ticks => Nat
  | date => Date
  | dateTime | dateTime64 _ => Instant
  | uuid => Uuid
  | ipv4 => Ipv4
  | ipv6 => Ipv6
  | bytes _ => List UInt8

def read : (f : FixedFormat) → Reader f.Value
  | flag => readFlag
  | integer format => format.read
  | binary32 => (fun n => (⟨UInt32.ofNat n⟩ : Binary32)) <$> readUnsigned 4
  | binary64 => (fun n => (⟨UInt64.ofNat n⟩ : Binary64)) <$> readUnsigned 8
  | decimal precision scale => readDecimal precision scale
  | days => readUnsigned 2
  | seconds => readUnsigned 4
  | ticks => readUnsigned 8
  | date => readDate
  | dateTime => readDateTime
  | dateTime64 scale => readDateTime64 scale
  | uuid => readUuid
  | ipv4 => readIpv4
  | ipv6 => readIpv6
  | bytes length => take length

end FixedFormat

inductive Writing where
  | flag (b : Bool)
  | integer (format : IntegerFormat) (n : Int)
  | binary32 (x : Binary32)
  | binary64 (x : Binary64)
  | decimal (d : Decimal) (precision scale : Nat)
  | days (n : Int)
  | seconds (n : Int)
  | ticks (n : Int)
  | date (t : Instant) (zone : Option Zone)
  | dateTime (t : Instant) (zone : Option Zone)
  | dateTime64 (t : Instant) (scale : Nat) (zone : Option Zone)
  | varint (n : UInt32)
  | text (s : String)
  /-- A text with blanks in the place of its line breaks. -/
  | line (s : String)
  | sized (bytes : List UInt8)
  | fixed (bytes : List UInt8) (length : Nat)
  | zeros (count : Nat)
  | uuid (u : Uuid)
  | ipv4 (a : Ipv4)
  | ipv6 (a : Ipv6)
deriving DecidableEq, Repr

def Writing.writer : Writing → Writer
  | flag b => put (Wire.flag b)
  | integer format n => offer (format.encode n)
  | binary32 x => put (Wire.binary32 x.bits)
  | binary64 x => put (Wire.binary64 x.bits)
  | decimal d precision scale => offer (Wire.decimal d precision scale)
  | days n => put (dateDays n)
  | seconds n => put (dateTimeSeconds n)
  | ticks n => put (dateTimeTicks n)
  | date t zone => put (Wire.date t zone)
  | dateTime t zone => put (Wire.dateTime t zone)
  | dateTime64 t scale zone => put (Wire.dateTime64 t scale zone)
  | varint n => writeVarint n.toNat
  | text s => writeText s
  | line s => writeText (joinLines s)
  | sized bytes => writeSized bytes
  | fixed bytes length => writeFixed bytes length
  | zeros count => writeZeros count
  | uuid u => writeUuid u
  | ipv4 a => put (Wire.ipv4 a)
  | ipv6 a => put (Wire.ipv6 a)

inductive Operation where
  | write (what : Writing)
  | read (format : FixedFormat)
  | readVarint
  | readSized
  | readText
deriving DecidableEq, Repr

namespace Buffer

/-- The buffer behind an operation, which may have failed. -/
def perform (b : Buffer) : Operation → Buffer
  | .write what => (what.writer.run b).2
  | .read format => (format.read.run b).2
  | .readVarint => (Wire.readVarint.run b).2
  | .readSized => (Wire.readSized.run b).2
  | .readText => (Wire.readText.run b).2

def performAll (b : Buffer) (ops : List Operation) : Buffer := ops.foldl perform b

end Buffer

end RowStream.Wire
