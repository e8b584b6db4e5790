import RowStream.Source.Basic

/-!
# Fixed values

A data source whose rows stand in its configuration. The cells are read when the configuration is;
whatever the query, the answer is all of them.
-/

namespace RowStream

variable [Zone.Catalogue]

/-- A cell as it is configured; `none` is null. -/
abbrev StoredCell := Option Value

structure FixedValues where
  id : String
  columns : Table
  rows : List (List StoredCell)
  custom : Table
  defaults : Defaults
  zone : Option Zone
deriving DecidableEq, Repr, Inhabited

namespace FixedValues

def typeName : String := "values"

def within {α : Type} (context : String) : Except Error α → Except Report α
  | .ok a => .ok a
  | .error e => .error (e.report.within context)

/-- The cell that a piece of JSON stands for in a column. In an enum a text names an option. -/
def cellOfJson (c : Column) (json : Json) : Except Error StoredCell :=
  let plain := Value.ofJson json c.type c.scale
  match json with
  | .str s =>
    if c.type.isEnum then (c.optionValue s).map fun n => some (.int32 n) else plain
  | _ => plain

def cellsOfJson : List Column → List Json → Except Report (List StoredCell)
  | c :: columns, json :: items => do
    let cell ← within s!"column '{c.name}'" (cellOfJson c json)
    let rest ← cellsOfJson columns items
    return cell :: rest
  | _, _ => .ok []

def rowOfJson (columns : Table) (json : Json) : Except Report (List StoredCell) :=
  match json with
  | .arr items =>
    if items.length = columns.columns.length then cellsOfJson columns.columns items
    else .error ⟨s!"expected {columns.columns.length} cells, got {items.length}", []⟩
  | _ => .error ⟨s!"expected an array, got {json.text}", []⟩

def rowsOfArray (columns : Table) (number : Nat) :
    List Json → Except Report (List (List StoredCell))
  | [] => .ok []
  | json :: rest => do
    let row ← (rowOfJson columns json).mapError (Report.within s!"invalid row {number}")
    let rows ← rowsOfArray columns (number + 1) rest
    return row :: rows

def rowsOfJson (columns : Table) : Option Json → Except Report (List (List StoredCell))
  | none | some .null => .ok []
  | some (.arr rows) => rowsOfArray columns 1 rows
  | some _ => .error ⟨"'rows' must be an array of arrays", []⟩

def zoneOfJson (json : Option Json) : Except Report (Option Zone) :=
  match json.bind Json.str? with
  | none => .ok none
  | some name =>
    match Zone.ofName? name with
    | some z => .ok (some z)
    | none => .error ⟨s!"unknown timezone '{name}'", []⟩

def ofJson (id : String) (json : Json) : Except Report FixedValues := do
  let part (key : String) : Json := (json.get? key).getD .null
  let columns ← within "invalid 'columns'" (Table.ofJson (part "columns"))
  if columns.columns.isEmpty then .error ⟨"'columns' must name at least one column", []⟩
  else
    let custom ← within "invalid 'customColumns'" (Table.ofJson (part "customColumns"))
    let defaults ← within "invalid 'defaults'" (Defaults.ofJson (part "defaults"))
    let zone ← zoneOfJson (json.get? "timezone")
    let rows ← rowsOfJson columns (json.get? "rows")
    return ⟨id, columns, rows, custom, defaults, zone⟩

end FixedValues

structure Cursor where
  rows : List (List StoredCell)
  /-- Scale with which the cells of each column were read. -/
  scales : List Nat
  zone : Option Zone
  /-- Number of the current row, `none` before the first advance. -/
  current : Option Nat := none
deriving Inhabited

namespace Cursor

def cell (c : Cursor) (column : Nat) : Except Report StoredCell :=
  match c.current.bind fun row => c.rows[row]? with
  | none => .error ⟨"no current row", []⟩
  | some row =>
    match row[column]? with
    | some cell => .ok cell
    | none => .error ⟨s!"column {column} out of range, row has {row.length} cells", []⟩

def advance : Stateful Report Cursor Bool := do
  let c ← get
  let next := min (match c.current with | some row => row + 1 | none => 0) c.rows.length
  set { c with current := some next }
  return next < c.rows.length

def isNull (c : Cursor) (column : Nat) : Except Report Bool :=
  (c.cell column).map Option.isNone

def read (c : Cursor) (column : Nat) (target : Column) : Except Report (List UInt8) :=
  match c.cell column with
  | .error r => .error r
  | .ok none => .error ⟨s!"cell {column} is null", []⟩
  | .ok (some v) =>
    (v.encode target.type (StreamRequest.layoutIn c.zone target)
      (c.scales[column]?.getD 0)).mapError Error.report

def source : RowSource Cursor where
  advance := advance
  isNull _ column _ := do Stateful.ofExcept ((← get).isNull column)
  read _ column target := do Stateful.ofExcept ((← get).read column target)

end Cursor

namespace FixedValues

def cursor (v : FixedValues) : Cursor :=
  { rows := v.rows, scales := v.columns.columns.map Column.scale, zone := v.zone }

def dataSource (v : FixedValues) : DataSource where
  id := v.id
  type := typeName
  custom := v.custom
  defaults := v.defaults
  zone := v.zone
  infer _ _ := .ok v.columns
  openRows _ _ _ := .ok ⟨Cursor, Cursor.source, v.cursor⟩
  mutate := DataSource.refuseMutation typeName

end FixedValues

end RowStream
