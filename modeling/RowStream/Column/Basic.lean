import RowStream.Cell

/-!
# Columns

A column of a table: its type with everything that belongs to it, its options when it is an enum,
and the cell that holds its default. `Column.mergeText`, `mergeJson` and `mergeValue?` change the
default; in an enum only values of its options are taken.
-/

namespace RowStream

variable [Zone.Catalogue]

structure Column where
  name : String
  type : ColumnType
  nullable : Bool
  /-- Bytes of a fixed-length text, 0 for other types. -/
  length : Nat
  precision : Nat
  scale : Nat
  zone : Option Zone
  options : List (String × Int32)
  cell : Cell
  /-- Whether the default was declared, be it the zero of the type. -/
  declared : Bool
  /-- Place of the column in its table, once that is fixed. -/
  index : Option Nat
deriving DecidableEq, Repr, Inhabited

namespace Column

def unnamed : String := "unknown"

def unspecified : Column :=
  { name := unnamed, type := .string, nullable := true, length := 0, precision := 0, scale := 0,
    zone := none, options := [], cell := Cell.new unnamed .string, declared := false,
    index := none }

/-- Whether the column declares a default, which the first option of an enum is not. -/
def declaresDefault (c : Column) : Bool := c.declared || c.cell.isCustomized

def hasDefault (c : Column) : Bool := c.declaresDefault || !c.options.isEmpty

def layout (c : Column) : Layout :=
  { length := if c.type = .fixedString then some c.length else none
    precision := some c.precision
    scale := some c.scale
    zone := c.zone }

def equal (c d : Column) : Bool :=
  c.name == d.name && c.type == d.type && c.nullable == d.nullable && c.length == d.length &&
    c.precision == d.precision && c.scale == d.scale && c.zone == d.zone &&
    c.options == d.options && c.cell.equal d.cell && c.declared == d.declared &&
    c.index == d.index

/-- Fixes the place of the column, which can be done once. -/
def setIndex (c : Column) (index : Nat) : Except Error Column :=
  match c.index with
  | some existing => .error (.internal (.indexTaken c.name existing))
  | none => .ok { c with index := some index }

def optionValue (c : Column) (option : String) : Except Error Int32 :=
  match c.options.find? fun o => o.1 == option with
  | some o => .ok o.2
  | none => .error (.invalidArgument (.unknownOption option c.name))

def optionName? (c : Column) (value : Int32) : Option String :=
  (c.options.find? fun o => o.2 == value).map (·.1)

def requireKnown (c : Column) (value : Int32) : Except Error Int32 :=
  match c.optionName? value with
  | some _ => .ok value
  | none => .error (.invalidArgument (.unknownValue value c.name))

/-- The number that a text stands for in an enum: of the option that it names, or the number of an
option as it is written. -/
def enumValue (c : Column) (s : String) : Except Error Int32 :=
  match c.optionValue s with
  | .ok value => .ok value
  | .error e =>
    match (Text.Numeral.signed? (Text.trim s.toList)).bind int32? with
    | some value => c.requireKnown value
    | none => .error e

def withValue (c : Column) (v : Value) : Column := { c with cell := { c.cell with value := v } }

def mergeText (c : Column) (s : String) : Except Error Column :=
  if c.type.isEnum && !s.isEmpty then (c.enumValue s).map fun n => c.withValue (.int32 n)
  else (c.cell.mergeText s).map fun cell => { c with cell := cell }

def mergeJson (c : Column) (json : Json) : Except Error Column :=
  let toCell := (c.cell.mergeJson json).map fun cell => { c with cell := cell }
  match json with
  | .str s => c.mergeText s
  | .num n =>
    if c.type.isEnum then
      match n.toInt64?.bind fun w => int32? w.toInt with
      | some value => (c.requireKnown value).map fun n => c.withValue (.int32 n)
      | none => .error (.invalidArgument (.invalidEnumNumber n.text))
    else toCell
  | _ => toCell

/-- Takes the default of a column of the same name, type and scale; it counts as declared then. -/
def mergeValue? (c other : Column) : Option Column :=
  if other.type = c.type ∧ other.scale = c.scale then
    (c.cell.merge? other.cell).map fun cell => { c with cell := cell, declared := true }
  else none

end Column

end RowStream
