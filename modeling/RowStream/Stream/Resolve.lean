import RowStream.Stream.Parameters
import RowStream.Table
import RowStream.Defaults

/-!
# Origins of columns

Every requested column gets its values from somewhere: the id of the data source, a constant column
of the data source, or a column of the rows, in this order. `resolve` finds the origins by name.
-/

namespace RowStream

variable [Zone.Catalogue]

structure StreamRequest where
  source : String
  requested : Table
  /-- The constant columns of the data source. -/
  custom : Table
  /-- The columns of the rows. -/
  result : Table
  defaults : Defaults
  /-- The zone of columns that name none. -/
  zone : Option Zone
  params : Parameters
deriving Inhabited

inductive Origin where
  | sourceId
  /-- The default of a constant column. -/
  | custom (column : Column)
  /-- The cells at a place of the rows. -/
  | result (index : Nat)
deriving DecidableEq, Repr

structure ResolvedColumn where
  column : Column
  origin : Origin
  /-- The layout of the column, with the zone of the data source where it names none. -/
  layout : Layout
deriving DecidableEq, Repr

namespace StreamRequest

def origin? (r : StreamRequest) (name : String) : Option Origin :=
  if r.params.withSourceColumn && name == r.params.sourceColumn then some .sourceId
  else
    match (r.custom.column? name).filter fun _ => r.params.withCustomColumns with
    | some c => some (.custom c)
    | none => (r.result.position? name).map .result

def layoutIn (zone : Option Zone) (c : Column) : Layout :=
  { c.layout with zone := c.layout.zone.or zone }

def resolveColumn (r : StreamRequest) (c : Column) : Except Error ResolvedColumn :=
  match r.origin? c.name with
  | some origin => .ok ⟨c, origin, layoutIn r.zone c⟩
  | none => .error (.resolution c.name r.result.names)

def resolve (r : StreamRequest) : Except Error (List ResolvedColumn) :=
  r.requested.columns.mapM r.resolveColumn

end StreamRequest

end RowStream
