import RowStream.Column.Config

/-!
# Tables

Columns in their order, with the version of the format. A table is written in lines behind a
header that gives version and count, or as one line of declarations with commas between them;
`Table.ofText` reads both. `Table.mergeValues` fills in defaults by name and `Table.finalize`
fixes the places of the columns.
-/

namespace RowStream

variable [Zone.Catalogue]

structure Table where
  /-- Version of the format, below `2^32`. -/
  version : Nat
  columns : List Column
deriving DecidableEq, Repr, Inhabited

namespace Table

def currentVersion : Nat := 1

def ofColumns (columns : List Column) : Table := ⟨currentVersion, columns⟩

def empty : Table := ofColumns []

def versionLabel : List Char := "columns format version:".toList

def countLabel : List Char := "columns:".toList

/-- The lines of a text, without their line feeds and a carriage return before those. -/
def linesOf (cs : List Char) : List (List Char) :=
  let strip (line : List Char) : List Char :=
    if line.getLast? = some '\r' then line.dropLast else line
  match (cs.splitOn '\n').reverse with
  | [] => []
  | last :: rest => (rest.map strip).reverse ++ (if last.isEmpty then [] else [last])

def dropLabel? (label cs : List Char) : Option (List Char) :=
  if cs.drop (cs.length - label.length) = label then some (cs.take (cs.length - label.length))
  else none

def countOf? (line : List Char) : Option Nat :=
  (dropLabel? countLabel (Text.trim line)).bind fun n =>
    Text.Numeral.unsignedUpTo? maxWord64 (Text.trim n)

def columnsOf (declarations : List (List Char)) : Except Error (List Column) :=
  declarations.mapM fun cs => Column.ofDeclaration (String.ofList cs)

def refuse {α : Type} (fault : SchemaFault) (fragment : List Char) : Except Error α :=
  .error (.schema fault (String.ofList fragment))

def ofLines (cs : List Char) : Except Error Table :=
  let lines := linesOf cs
  let header := lines.headD []
  match Text.Numeral.unsignedUpTo? maxWord32 (Text.trim (header.drop versionLabel.length)) with
  | none => refuse .invalidVersion header
  | some version =>
    match lines.drop 1 with
    | [] => refuse .missingCount cs
    | countLine :: rest =>
      match countOf? countLine with
      | none => refuse .invalidCount countLine
      | some count =>
        match columnsOf ((rest.map Text.trim).filter fun line => !line.isEmpty) with
        | .error e => .error e
        | .ok columns =>
          if columns.length = count then .ok ⟨version, columns⟩
          else refuse (.countMismatch count columns.length) countLine

def ofInline (cs : List Char) : Except Error Table :=
  match Token.splitTopLevel ',' cs with
  | .error fault => refuse fault cs
  | .ok pieces => (columnsOf pieces).map ofColumns

/-- The table of a text in either form; a blank text is a table without columns. -/
def ofText (s : String) : Except Error Table :=
  let cs := Text.trim s.toList
  if cs.isEmpty then .ok empty
  else if Text.sameLetters (cs.take versionLabel.length) versionLabel then ofLines cs
  else ofInline cs

/-- The table of a list of columns, alone or as a member beside the version. -/
def ofJson (json : Json) : Except Error Table :=
  match json with
  | .null => .ok empty
  | .arr columns => (columns.mapM Column.ofJson).map ofColumns
  | .obj _ =>
    match json.get? "columns" with
    | some (.arr columns) =>
      let version := ((json.get? "version").bind Json.word32?).getD currentVersion
      (columns.mapM Column.ofJson).map fun columns => ⟨version, columns⟩
    | _ => .error (.schema .missingColumns json.text)
  | _ => .error (.schema .tableNotArray json.text)

def declarations (t : Table) (withDefaults : Bool) : List String :=
  t.columns.map fun c => c.declaration withDefaults

def text (t : Table) (withDefaults : Bool) : String :=
  let header := s!"{String.ofList versionLabel} {t.version}\n"
  let count := s!"{t.columns.length} {String.ofList countLabel}\n"
  header ++ count ++ String.join ((t.declarations withDefaults).map fun d => d ++ "\n")

def inline (t : Table) (withDefaults : Bool) : String :=
  ", ".intercalate (t.declarations withDefaults)

def toJson (t : Table) : Json := .arr (t.columns.map Column.toJson)

def equal (t u : Table) : Bool :=
  t.version == u.version && t.columns.length == u.columns.length &&
    (t.columns.zip u.columns).all fun p => p.1.equal p.2

def column? (t : Table) (name : String) : Option Column := t.columns.find? fun c => c.name == name

def position? (t : Table) (name : String) : Option Nat :=
  t.columns.findIdx? fun c => c.name == name

def names (t : Table) : List String := t.columns.map Column.name

/-- Gives a column's default to the first of the same name, unless that declares one itself. Says
whether it was taken. -/
def mergeColumn (value : Column) : List Column → List Column × Bool
  | [] => ([], false)
  | c :: rest =>
    if c.name = value.name then
      if c.declaresDefault then (c :: rest, false)
      else
        match c.mergeValue? value with
        | some merged => (merged :: rest, true)
        | none => (c :: rest, false)
    else
      let (rest, merged) := mergeColumn value rest
      (c :: rest, merged)

def mergeAll (columns : List Column) (merged : Nat) : List Column → List Column × Nat
  | [] => (columns, merged)
  | value :: rest =>
    if value.declaresDefault then
      let (columns, taken) := mergeColumn value columns
      mergeAll columns (if taken then merged + 1 else merged) rest
    else mergeAll columns merged rest

def mergeValues (t : Table) (values : List Column) : Table × Nat :=
  let (columns, merged) := mergeAll t.columns 0 values
  ({ t with columns := columns }, merged)

def placeFrom (start : Nat) : List Column → Except Error (List Column)
  | [] => .ok []
  | c :: rest => do
    let c ← c.setIndex start
    let rest ← placeFrom (start + 1) rest
    return c :: rest

/-- Fixes the places of the columns, of which there must be some. -/
def finalize (t : Table) : Except Error Table :=
  if t.columns.isEmpty then .error (.schema .noColumns "")
  else (placeFrom 0 t.columns).map fun columns => { t with columns := columns }

def orUnspecified (t : Table) : Table :=
  if t.columns.isEmpty then ofColumns [Column.unspecified] else t

end Table

end RowStream
