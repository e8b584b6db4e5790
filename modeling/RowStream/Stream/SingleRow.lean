import RowStream.Column.Draft
import RowStream.Stream.Rows

/-!
# Responses of one row

A mutation answers with the number of rows it changed, a debug request with a description of itself.
Either answer is one row of a fixed shape, handed over as one batch.
-/

namespace RowStream

variable [Zone.Catalogue]

def plainColumn (name : String) (type : ColumnType) : Column :=
  ({ name := name, type := type, nullable := false } : Draft).shape none []

def mutationTable : Table := Table.ofColumns [plainColumn "affected_rows" .uint64]

def debugTable : Table :=
  Table.ofColumns (["datasource", "query", "requested_columns", "result_columns", "custom_columns",
    "parameters"].map fun name => plainColumn name .string)

def sendMutation {τ : Type} (affected : Nat) (timeout : Option Nat) (sink : Sink τ)
    (clock : Clock) : Stateful Error τ Stats := do
  let deadline := deadlineOf sink (clock 0) timeout (← get)
  flush sink deadline (clock 1) (Wire.littleEndian 8 affected) { rows := 1 }

def StreamRequest.description (r : StreamRequest) (query : String) (withDefaults : Bool) :
    List String :=
  [r.source, query, r.requested.inline withDefaults, r.result.inline withDefaults,
   r.custom.inline withDefaults, r.params.text]

/-- Answers a debug request. Only the sink sets a deadline. -/
def sendDescription {τ : Type} (texts : List String) (sink : Sink τ) (clock : Clock) :
    Stateful Error τ Stats := do
  let batch ← Stateful.ofExcept (texts.mapM Wire.text)
  flush sink (sink.deadline (← get)) (clock 1) batch.flatten { rows := 1 }

end RowStream
