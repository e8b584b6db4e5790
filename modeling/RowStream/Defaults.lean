import RowStream.Cell

/-!
# Defaults by type

One cell for every type, to stand in for a missing value of a column that has no default of its own.
Configuration changes the cells by the names of their types.
-/

namespace RowStream

/-- The cells, in the order of the types. -/
structure Defaults where
  cells : List Cell
deriving DecidableEq, Repr, Inhabited

namespace Defaults

def initial : Defaults := ⟨ColumnType.all.map fun t => Cell.new t.name t⟩

def cell (d : Defaults) (t : ColumnType) : Cell :=
  (d.cells.find? fun c => c.type == t).getD (Cell.new t.name t)

def put (d : Defaults) (c : Cell) : Defaults :=
  ⟨d.cells.map fun old => if old.type = c.type then c else old⟩

/-- Merges one entry; a key that names no type has no effect. -/
def mergeEntry (d : Defaults) (key : String) (json : Json) : Except Error Defaults :=
  match ColumnType.lookup? key with
  | some t => ((d.cell t).mergeJson json).map d.put
  | none => .ok d

/-- Merges entries one after the other. At one that fails, those before it stay merged. -/
def mergeEntries (d : Defaults) : List (String × Json) → Defaults × Except Error Unit
  | [] => (d, .ok ())
  | (key, json) :: rest =>
    match d.mergeEntry key json with
    | .ok d => d.mergeEntries rest
    | .error e => (d, .error e)

/-- Merges the members of an object; anything else has no effect. -/
def merge (d : Defaults) : Json → Defaults × Except Error Unit
  | .obj members => d.mergeEntries members
  | _ => (d, .ok ())

def ofJson (json : Json) : Except Error Defaults :=
  match initial.merge json with
  | (d, .ok ()) => .ok d
  | (_, .error e) => .error e

end Defaults

end RowStream
