import RowStream.Value.Encode
import RowStream.Value.Parse

/-!
# Cells

A named value of some type with the value it started from. Merging replaces the value; text that
cannot be read is an error for numbers and has no effect otherwise. `Cell.equal` compares cells as
their values' kinds do.
-/

namespace RowStream

variable [Zone.Catalogue]

structure Cell where
  name : String
  type : ColumnType
  /-- The value that the cell started from. -/
  default : Value
  value : Value
  scale : Nat
deriving DecidableEq, Repr, Inhabited

namespace Cell

def withDefault (name : String) (type : ColumnType) (default : Value) : Cell :=
  ⟨name, type, default, default, type.defaultScale⟩

def new (name : String) (type : ColumnType) : Cell := withDefault name type (Value.zero type)

def ofValue (name : String) (default : Value) : Cell :=
  withDefault name (ColumnType.ofKind default.kind) default

def withScale (c : Cell) (scale : Nat) : Cell :=
  { c with scale := min scale ColumnType.maxTickScale }

def isCustomized (c : Cell) : Bool := !c.value.equal c.default

def equal (c d : Cell) : Bool :=
  c.name == d.name && c.type == d.type && c.default.equal d.default && c.value.equal d.value &&
    c.scale == d.scale

/-- Takes a value over. A failure counts for numbers only, and then the cell stays as it was. -/
def take (c : Cell) : Except Error (Option Value) → Except Error Cell
  | .ok (some v) => .ok { c with value := v }
  | .ok none => .ok c
  | .error e => if c.type.kind.isNumeric then .error e else .ok c

def mergeText (c : Cell) (s : String) : Except Error Cell :=
  if s.isEmpty then .ok c else c.take ((Value.parse s c.type c.scale).map some)

/-- Takes the value of a piece of JSON over, unless it is `null` or an empty text. -/
def mergeJson (c : Cell) : Json → Except Error Cell
  | .str s => c.mergeText s
  | json => c.take (Value.ofJson json c.type c.scale)

def mergeObject (c : Cell) (members : List (String × Json)) : Except Error Cell :=
  match Json.find? c.name members with
  | some json => c.mergeJson json
  | none => .ok c

def merge? (c other : Cell) : Option Cell :=
  if other.name = c.name then some { c with value := other.value } else none

def encode (c : Cell) (layout : Layout) : Except Error (List UInt8) :=
  c.value.encode c.type layout c.scale

end Cell

end RowStream
