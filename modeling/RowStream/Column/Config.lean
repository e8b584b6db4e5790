import RowStream.Column.Declared

/-!
# Columns as JSON

`Column.toJson` writes a column as an object and `Column.ofJson` reads one. A type may carry
arguments; members of the object go before them.
-/

namespace RowStream

variable [Zone.Catalogue]

namespace Json

def word32? (json : Json) : Option Nat := json.nat?.filter (· ≤ maxWord32)

end Json

namespace Draft

def optionOfJson (member : String × Json) : Except SchemaFault (String × Int32) :=
  match member.2.int32? with
  | some n => .ok (member.1, n)
  | none => .error (.invalidOptionValue member.1)

/-- The options of a column: numbers by name, or names that are numbered from 1 on. Anything else
leaves the options of the type as they are. -/
def withOptions (d : Draft) : Option Json → Except SchemaFault Draft
  | some (.obj members) =>
    (members.mapM optionOfJson).map fun options => { d with options := options }
  | some (.arr names) =>
    let entries := names.map fun json => (json.str?.getD json.text, none)
    .ok { d with options := numberOptions 1 entries }
  | _ => .ok d

/-- The type of a column; without one it is a text. -/
def typeOfJson (json : Json) : Except SchemaFault TypeExpression :=
  match (json.get? "type").bind Json.str? with
  | some type => TypeExpression.parse type.toList
  | none => .ok ⟨ColumnType.name .string, [], true⟩

def ofJson (json : Json) : Except SchemaFault Draft := do
  let name := ((json.get? "name").bind Json.str?).getD ""
  let draft ← ofType name (← typeOfJson json)
  let draft := { draft with
    nullable := ((json.get? "nullable").bind Json.bool?).getD true
    length := ((json.get? "length").bind Json.word32?).or draft.length
    precision := ((json.get? "precision").bind Json.word32?).or draft.precision
    scale := ((json.get? "scale").bind Json.word32?).or draft.scale
    zone := ((json.get? "timezone").bind Json.str?).or draft.zone }
  let draft ← draft.withOptions (json.get? "options")
  match json.get? "value" with
  | none | some .null => return draft
  | some value => return { draft with default := some (.json value) }

end Draft

namespace Column

def ofJson (json : Json) : Except Error Column :=
  match json with
  | .obj _ =>
    match Draft.ofJson json with
    | .error fault => .error (.schema fault json.text)
    | .ok draft => draft.build.mapError (Error.inFragment json.text)
  | _ => .error (.schema .columnNotObject json.text)

/-- The default as JSON: the name of an option, a truth value, a number of up to 64
bits, or text. -/
def defaultJson (c : Column) : Json :=
  match c.defaultOption?, c.cell.value with
  | some option, _ => .str option
  | none, .text s => .str s
  | none, v =>
    if c.type.isEnum then .str v.toText
    else
      match v with
      | .bool b => .bool b
      | .int32 n => Json.ofInt n.toInt
      | .int64 n => Json.ofInt n.toInt
      | .binary32 x => Json.ofBinary64 x.toBinary64
      | .binary64 x => Json.ofBinary64 x
      | v => .str v.toText

def toJson (c : Column) : Json :=
  let when (present : Bool) (key : String) (value : Json) : List (String × Json) :=
    if present then [(key, value)] else []
  .obj
    ([("name", .str c.name), ("type", .str c.type.name), ("nullable", .bool c.nullable)] ++
      when (c.type = .fixedString) "length" (Json.ofInt c.length) ++
      when c.type.isDecimal "precision" (Json.ofInt c.precision) ++
      when (c.type.isDecimal || c.type = .dateTime64) "scale" (Json.ofInt c.scale) ++
      (c.zone.map fun z => ("timezone", Json.str z.name)).toList ++
      when c.type.isEnum "options"
        (Json.ofMembers (c.options.map fun (name, n) => (name, Json.ofInt n.toInt))) ++
      when c.declaresDefault "value" c.defaultJson)

end Column

end RowStream
