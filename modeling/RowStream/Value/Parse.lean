import RowStream.Calendar.Instant
import RowStream.Error
import RowStream.Json.Printer
import RowStream.Value.Basic
import RowStream.Wire.Temporal

/-!
# Reading values

Values from the texts and the JSON of configuration. Blanks around a text count only where the value
is a text itself.
-/

namespace RowStream.Value

/-- Days, seconds or ticks that an instant makes in a type. -/
def ofInstant (t : Instant) (type : ColumnType) (scale : Nat) : Int :=
  match type with
  | .date => t.seconds / secondsPerDay
  | .dateTime => t.seconds
  | _ => Wire.ticks t.seconds t.nanos scale

/-- Days, seconds or ticks: a number, or a date or time in universal time. -/
def temporal? (cs : List Char) (type : ColumnType) (scale : Nat) : Option Int64 :=
  match (Text.Numeral.signed? cs).bind RowStream.int64? with
  | some n => some n
  | none => (Literal.instant? cs).bind fun t => RowStream.int64? (ofInstant t type scale)

def parse? (s : String) (type : ColumnType) (scale : Nat) : Option Value :=
  let cs := Text.trim s.toList
  match type.kind with
  | .bool => (truthOf? cs).map bool
  | .int32 => ((Text.Numeral.signed? cs).bind RowStream.int32?).map int32
  | .int64 =>
    if type.isTemporal then (temporal? cs type scale).map int64
    else ((Text.Numeral.signed? cs).bind RowStream.int64?).map int64
  | .binary32 => (Binary32.parse? cs).map binary32
  | .binary64 => (Binary64.parse? cs).map binary64
  | .integer => (Text.Numeral.big? cs).map integer
  | .decimal => (Decimal.parse? cs).map decimal
  | .text => some (text s)

def parse (s : String) (type : ColumnType) (scale : Nat) : Except Error Value :=
  match parse? s type scale with
  | some v => .ok v
  | none => .error (.invalidArgument (.unreadable s type))

/-- The value of a JSON number, in the kind of the type, `none` when it has none. Whole numbers of
any size and decimals are taken from the number's text. -/
def ofNumber? (n : JsonNumber) (type : ColumnType) : Option Value :=
  match type.kind with
  | .bool => some (bool (!n.toBinary64.parts.isZero))
  | .int32 => (n.toInt64?.bind fun w => RowStream.int32? w.toInt).map int32
  | .int64 => n.toInt64?.map int64
  | .binary32 => some (binary32 n.toBinary64.toBinary32)
  | .binary64 => some (binary64 n.toBinary64)
  | .text => some (text n.text)
  | .integer | .decimal => none

def readsDigits : ValueKind → Bool
  | .integer | .decimal => true
  | _ => false

def ofJson (json : Json) (type : ColumnType) (scale : Nat) : Except Error (Option Value) :=
  let refused : Except Error (Option Value) :=
    .error (.invalidArgument (.inconvertible json.text type))
  match json with
  | .null => .ok none
  | .str s => (parse s type scale).map some
  | .bool b =>
    match type.kind with
    | .bool => .ok (some (bool b))
    | .text => .ok (some (text json.text))
    | _ => (parse (if b then "1" else "0") type scale).map some
  | .num n =>
    if readsDigits type.kind then (parse n.text type scale).map some
    else
      match ofNumber? n type with
      | some v => .ok (some v)
      | none => refused
  | .arr _ | .obj _ =>
    match type.kind with
    | .text => .ok (some (text json.text))
    | _ => refused

end RowStream.Value
