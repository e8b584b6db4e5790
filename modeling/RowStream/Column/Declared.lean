import RowStream.Column.Draft
import RowStream.Declaration.Basic

/-!
# Declarations of columns

`Column.declaration` writes a column as a declaration, with or without its default, and
`Column.ofDeclaration` reads one. The name always stands between backticks.
-/

namespace RowStream

variable [Zone.Catalogue]

namespace Error

def inFragment (fragment : String) : Error → Error
  | schema fault _ => schema fault fragment
  | invalidArgument fault => schema (.argument fault) fragment
  | e => e

end Error

namespace Draft

def numberArg (type : ColumnType) (args : List (List Char)) (i : Nat) :
    Except SchemaFault (Option Nat) :=
  match args[i]? with
  | none => .ok none
  | some arg =>
    match Text.Numeral.unsignedUpTo? maxWord32 (Text.trim arg) with
    | some n => .ok (some n)
    | none => .error (.invalidArgument (String.ofList arg) type)

def textArg (args : List (List Char)) (i : Nat) : Option String :=
  args[i]?.map fun arg => String.ofList (Quoted.unquote arg)

/-- Numbers options from `next` on where they have no number of their own; each goes on from the one
before it. -/
def numberOptions (next : Int32) : List (String × Option Int32) → List (String × Int32)
  | [] => []
  | (name, value) :: rest =>
    let value := value.getD next
    (name, value) :: numberOptions (if value = Int32.maxValue then value else value + 1) rest

def enumEntry (arg : List Char) : Except SchemaFault (String × Option Int32) := do
  let parts ← Token.splitTopLevel '=' arg
  let name := String.ofList ((parts.head?.map Quoted.unquote).getD [])
  match parts[1]? with
  | none => .ok (name, none)
  | some part =>
    match (Text.Numeral.signed? (Text.trim part)).bind int32? with
    | some n => .ok (name, some n)
    | none => .error (.invalidOptionNumber (String.ofList part))

def enumOptions (args : List (List Char)) : Except SchemaFault (List (String × Int32)) :=
  (args.mapM enumEntry).map (numberOptions 1)

def ofType (name : String) (e : TypeExpression) : Except SchemaFault Draft := do
  let type := ColumnType.ofName e.name
  let draft : Draft := { name := name, type := type, nullable := e.nullable }
  match type with
  | .fixedString => return { draft with length := ← numberArg type e.args 0 }
  | .dateTime => return { draft with zone := textArg e.args 0 }
  | .dateTime64 =>
    let scale ← numberArg type e.args 0
    return { draft with scale := scale, zone := textArg e.args 1 }
  | .decimal =>
    let precision ← numberArg type e.args 0
    let scale ← numberArg type e.args 1
    return { draft with precision := precision, scale := scale.or (precision.map fun _ => 0) }
  | .decimal32 | .decimal64 | .decimal128 | .decimal256 =>
    return { draft with scale := ← numberArg type e.args 0 }
  | .enum | .enum8 | .enum16 => return { draft with options := ← enumOptions e.args }
  | _ => return draft

/-- A draft of the column that a text declares. A bare `NULL` is no default. -/
def ofDeclaration (text : List Char) : Except SchemaFault Draft := do
  let declaration ← Declaration.parse text
  let draft ← ofType declaration.name declaration.type
  match declaration.default with
  | none => return draft
  | some (.bare word) =>
    if Text.sameLetters word "null".toList then return draft
    else return { draft with default := some (.text (String.ofList word)) }
  | some (.quoted s) => return { draft with default := some (.text (String.ofList s)) }

end Draft

namespace Column

def ofDeclaration (text : String) : Except Error Column :=
  match Draft.ofDeclaration text.toList with
  | .error fault => .error (.schema fault text)
  | .ok draft => draft.build.mapError (Error.inFragment text)

def optionsText (options : List (String × Int32)) : String :=
  ", ".intercalate (options.map fun (name, n) =>
    Quoted.literalText name ++ " = " ++ toString n.toInt)

def baseType (c : Column) : String :=
  match c.type with
  | .fixedString => s!"FixedString({c.length})"
  | .dateTime =>
    match c.zone with
    | some z => s!"DateTime({Quoted.literalText z.name})"
    | none => "DateTime"
  | .dateTime64 =>
    match c.zone with
    | some z => s!"DateTime64({c.scale}, {Quoted.literalText z.name})"
    | none => s!"DateTime64({c.scale})"
  | .decimal => s!"Decimal({c.precision}, {c.scale})"
  | t =>
    if t.isSizedDecimal then s!"{t.name}({c.scale})"
    else if t.isEnum then s!"{t.name}({optionsText c.options})"
    else t.name

def typeText (c : Column) : String :=
  if c.nullable then s!"Nullable({c.baseType})" else c.baseType

def defaultOption? (c : Column) : Option String :=
  if c.type.isEnum then c.cell.value.toInt32?.bind c.optionName? else none

/-- The default as a literal: texts and options between quotes, numbers as they are. -/
def defaultLiteral (c : Column) : String :=
  match c.defaultOption?, c.cell.value with
  | some option, _ => Quoted.literalText option
  | none, .text s => Quoted.literalText s
  | none, v => v.toText

def declaration (c : Column) (withDefault : Bool) : String :=
  let head := Quoted.identifierText c.name ++ " " ++ c.typeText
  if withDefault && c.declaresDefault then head ++ " DEFAULT " ++ c.defaultLiteral else head

end Column

end RowStream
