import RowStream.Column.Basic

/-!
# Drafts of columns

What is known of a column before it is built. Building fills in what the type provides, keeps
length, precision and scale within the limits of the type and drops what the type has no use for.
`Column.toDraft` takes a column back to a draft from which the same column is built.
-/

namespace RowStream

variable [Zone.Catalogue]

inductive RawDefault where
  | text (s : String)
  | json (json : Json)
deriving Inhabited

structure Draft where
  name : String
  type : ColumnType
  nullable : Bool := true
  length : Option Nat := none
  precision : Option Nat := none
  scale : Option Nat := none
  zone : Option String := none
  options : List (String × Int32) := []
  default : Option RawDefault := none
  /-- The value of the default, when the draft is made of a column. -/
  current : Option Value := none
  /-- Whether the column that the draft is made of declared its default. -/
  declared : Bool := false
deriving Inhabited

namespace Draft

def maxLength : Nat := 0xFFFFFF

/-- The name of the column; a blank one gives way to that of a column without a name. -/
def columnName (d : Draft) : String := if Text.allBlank d.name then Column.unnamed else d.name

def columnLength (d : Draft) : Nat :=
  if d.type = .fixedString then max 1 (min (d.length.getD 1) maxLength) else 0

/-- The precision of the column. A precision of 0 counts as none. -/
def columnPrecision (d : Draft) : Nat :=
  if d.type.isSizedDecimal then d.type.maxPrecision
  else min ((d.precision.filter (0 < ·)).getD d.type.defaultPrecision) d.type.maxPrecision

def columnScale (d : Draft) : Nat :=
  min (min (d.scale.getD d.type.defaultScale) d.type.maxScale) d.columnPrecision

/-- The zone of the column. A blank one counts as none, and so does any that the type
has no use for. -/
def columnZone (d : Draft) : Except Error (Option Zone) :=
  match d.zone with
  | none => .ok none
  | some zone =>
    if !d.type.acceptsZone || Text.allBlank zone then .ok none
    else
      match Zone.ofName? (Text.trimmed zone) with
      | some z => .ok (some z)
      | none => .error (.schema (.unknownZone zone) d.columnName)

def optionRange (t : ColumnType) : Int × Int :=
  if t = .enum16 then (-0x8000, 0x7FFF) else (-0x80, 0x7F)

def columnOptions (d : Draft) : Except Error (List (String × Int32)) :=
  if d.type.isEnum then
    let (low, high) := optionRange d.type
    match d.options.find? fun o => decide (o.2.toInt < low) || decide (high < o.2.toInt) with
    | some (option, value) =>
      .error (.schema (.optionOutOfRange value option d.type) d.columnName)
    | none => .ok d.options
  else .ok []

/-- The default of a column that was given none: its first option, or the zero of its type. -/
def initialValue (t : ColumnType) (options : List (String × Int32)) : Value :=
  match options.head? with
  | some option => .int32 option.2
  | none => Value.zero t

def shape (d : Draft) (zone : Option Zone) (options : List (String × Int32)) : Column :=
  let name := d.columnName
  { name := name
    type := d.type
    nullable := d.nullable
    length := d.columnLength
    precision := d.columnPrecision
    scale := d.columnScale
    zone := zone
    options := options
    cell := (Cell.withDefault name d.type (initialValue d.type options)).withScale d.columnScale
    declared := d.declared || d.default.isSome
    index := none }

def fill (d : Draft) (c : Column) : Except Error Column :=
  let c := match d.current with
    | some v => c.withValue v
    | none => c
  match d.default with
  | some (.text s) => c.mergeText s
  | some (.json json) => c.mergeJson json
  | none => .ok c

def build (d : Draft) : Except Error Column := do
  let zone ← d.columnZone
  let options ← d.columnOptions
  d.fill (d.shape zone options)

end Draft

namespace Column

/-- The draft from which the same column is built, its place in a table aside. -/
def toDraft (c : Column) : Draft :=
  { name := c.name
    type := c.type
    nullable := c.nullable
    length := some c.length
    precision := some c.precision
    scale := some c.scale
    zone := c.zone.map Zone.name
    options := c.options
    current := some c.cell.value
    declared := c.declared }

def renamed (c : Column) (name : String) : Except Error Column :=
  ({ c.toDraft with name := name } : Draft).build

end Column

end RowStream
