import RowStream.Column.Bytes
import RowStream.Service.Basic

/-!
# Reading answers back

The bytes of an answer are read with the columns that the answer was written in. `answerColumns`
finds those columns from the request alone, and `Table.readRows` reads rows until the bytes end.
-/

namespace RowStream

variable [Zone.Catalogue]

def Table.readRow (t : Table) : Wire.Reader (List String) := t.columns.mapM Column.readText

/-- Reads rows until the bytes end: the rows read, and the error that ended the reading before. A
row without bytes ends it too, since there would be no end of such rows. -/
def Table.readRows (t : Table) (b : Wire.Buffer) : List (List String) × Option Error :=
  if b.remaining = 0 then ([], none)
  else
    match t.readRow.run b with
    | (.error e, _) => ([], some e)
    | (.ok row, after) =>
      if after.remaining < b.remaining then
        let (rows, fault) := t.readRows after
        (row :: rows, fault)
      else ([row], none)
termination_by b.remaining

def QueryService.answerColumns (s : QueryService) (request : QueryRequest) :
    Except Report Table :=
  match Parameters.ofEntries {} request.params with
  | .error e => .error e.report
  | .ok params =>
    if params.mutation then .ok mutationTable
    else if params.debug then .ok debugTable
    else
      match request.requested? with
      | some text => (Table.ofText text).mapError Error.report
      | none =>
        match s.catalog.require request.source with
        | .error e => .error e.report
        | .ok source => source.infer request.query params

end RowStream
