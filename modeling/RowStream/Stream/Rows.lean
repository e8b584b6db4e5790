import RowStream.Stream.Ends
import RowStream.Stream.Resolve

/-!
# Streams of rows

`StreamRequest.run` reads rows from a source, writes them as bytes and hands them to a sink in
batches. A nullable column puts a flag before each of its cells. Whether the sink is open and the
time has not run out is looked at before a batch is handed over and at no other time, so that the
sink gets whole rows only.
-/

namespace RowStream

variable [Zone.Catalogue]

structure Stats where
  rows : Nat := 0
  batches : Nat := 0
  bytes : Nat := 0
deriving DecidableEq, Repr, Inhabited

def earlier : Option Nat → Option Nat → Option Nat
  | some a, some b => some (min a b)
  | a, b => a.or b

/-- The deadline of a request: that of the sink, or the end of the time that the
request may take. -/
def deadlineOf {τ : Type} (sink : Sink τ) (start : Nat) (timeout : Option Nat) (t : τ) :
    Option Nat :=
  earlier (sink.deadline t) (timeout.map fun seconds => start + 1000 * seconds)

def flush {τ : Type} (sink : Sink τ) (deadline : Option Nat) (now : Nat) (batch : List UInt8)
    (stats : Stats) : Stateful Error τ Stats := do
  if !sink.isOpen (← get) then throw (.aborted .sinkClosed)
  else if deadline.any (· ≤ now) then throw (.aborted .deadlineExceeded)
  else
    (sink.write batch).mapError fun report => .aborted (.writeFailed report)
    return { stats with batches := stats.batches + 1, bytes := stats.bytes + batch.length }

namespace ResolvedColumn

def nullFlag (c : ResolvedColumn) (isNull : Bool) : List UInt8 :=
  if c.column.nullable then Wire.flag isNull else []

def constant (c : ResolvedColumn) (v : Value) (scale : Nat) : Except Error (List UInt8) :=
  (v.encode c.column.type c.layout scale).map (c.nullFlag false ++ ·)

/-- The value in the place of a null: the default of the column, or else that of its type. -/
def substitute (c : ResolvedColumn) (defaults : Defaults) : Except Error (List UInt8) :=
  let cell := if c.column.hasDefault then c.column.cell else defaults.cell c.column.type
  cell.value.encode c.column.type c.layout cell.scale

end ResolvedColumn

namespace StreamRequest

def blame {σ α : Type} (r : StreamRequest) (x : Stateful Report σ α) : Stateful Error σ α :=
  x.mapError (.dataAccess r.source)

def nullCell (r : StreamRequest) (c : ResolvedColumn) : Except Error (List UInt8) :=
  if c.column.nullable && !r.params.nullAsDefault then .ok (c.nullFlag true)
  else (c.substitute r.defaults).map (c.nullFlag false ++ ·)

def cell {σ : Type} (r : StreamRequest) (source : RowSource σ) (row : Nat) (c : ResolvedColumn) :
    Stateful Error σ (List UInt8) :=
  match c.origin with
  | .sourceId => Stateful.ofExcept (c.constant (.text r.source) 0)
  | .custom custom => Stateful.ofExcept (c.constant custom.cell.value custom.cell.scale)
  | .result index => do
    if ← r.blame (source.isNull row index c.column) then
      Stateful.ofExcept (r.nullCell c)
    else
      let bytes ← r.blame (source.read row index c.column)
      return c.nullFlag false ++ bytes

def row {σ : Type} (r : StreamRequest) (source : RowSource σ) (number : Nat) :
    List ResolvedColumn → Stateful Error σ (List UInt8)
  | [] => return []
  | c :: rest => do
    let bytes ← r.cell source number c
    let more ← r.row source number rest
    return bytes ++ more

/-- Passes over rows, all of which must be there; `skipped` have been passed over before. -/
def skip {σ : Type} (r : StreamRequest) (source : RowSource σ) (total skipped : Nat) :
    Nat → Stateful Error σ Unit
  | 0 => return ()
  | left + 1 => do
    if ← r.blame source.advance then r.skip source total (skipped + 1) left
    else
      throw (.dataAccess r.source
        ⟨s!"cannot skip {total} rows, result ended after {skipped}", []⟩)

/-- The rows that the parameters pass over. With a position the last of them is the first row
of the stream. -/
def skipped (r : StreamRequest) : Nat :=
  if 0 < r.params.position then r.params.position else r.params.offset

def firstRow (r : StreamRequest) : Nat :=
  if 0 < r.params.position then r.params.position - 1 else r.params.offset

def batchSize (r : StreamRequest) : Nat := max 1 r.params.batchSize

structure Progress where
  stats : Stats := {}
  /-- Rows that have not been handed over yet. -/
  pendingRows : Nat := 0
  pending : List UInt8 := []
deriving DecidableEq, Repr, Inhabited

def Progress.push (p : Progress) (bytes : List UInt8) : Progress :=
  { stats := { p.stats with rows := p.stats.rows + 1 }
    pendingRows := p.pendingRows + 1
    pending := p.pending ++ bytes }

def Progress.flush {τ : Type} (p : Progress) (sink : Sink τ) (deadline : Option Nat)
    (clock : Clock) : Stateful Error τ Progress := do
  let stats ← RowStream.flush sink deadline (clock (p.stats.batches + 1)) p.pending p.stats
  return { stats := stats }

def Progress.settle {τ : Type} (p : Progress) (size : Nat) (sink : Sink τ)
    (deadline : Option Nat) (clock : Clock) : Stateful Error τ Progress :=
  if p.pendingRows = size then p.flush sink deadline clock else return p

def Progress.finish {τ : Type} (p : Progress) (sink : Sink τ) (deadline : Option Nat)
    (clock : Clock) : Stateful Error τ Progress :=
  if 0 < p.pendingRows then p.flush sink deadline clock else return p

/-- Moves to the next row, unless the source already stands on it, and says whether
there is one. -/
def nextRow {σ : Type} (r : StreamRequest) (source : RowSource σ) (onRow : Bool) :
    Stateful Error σ Bool :=
  if onRow then return true else r.blame source.advance

/-- Streams at most `limit` rows, and fails with `.internal .rowLimit` when there are more; `onRow`
says that the source already stands on the first. -/
def rows {σ τ : Type} (r : StreamRequest) (source : RowSource σ) (sink : Sink τ)
    (deadline : Option Nat) (clock : Clock) (columns : List ResolvedColumn) (limit : Nat)
    (onRow : Bool) (p : Progress) : Stateful Error (σ × τ) Stats := do
  if ← Stateful.onFirst (r.nextRow source onRow) then
    match limit with
    | 0 => throw (.internal .rowLimit)
    | limit + 1 =>
      let bytes ← Stateful.onFirst (r.row source (r.firstRow + p.stats.rows) columns)
      let p ← Stateful.onSecond ((p.push bytes).settle r.batchSize sink deadline clock)
      r.rows source sink deadline clock columns limit false p
  else
    let p ← Stateful.onSecond (p.finish sink deadline clock)
    return p.stats

/-- Rows are counted in a word of 64 bits. Only the recursion of `rows` needs the bound, and the
error beyond it is its own: a program with an unchecked counter has no such error and overflows
there. -/
def maxRows : Nat := maxWord64

def run {σ τ : Type} (r : StreamRequest) (source : RowSource σ) (sink : Sink τ) (clock : Clock) :
    Stateful Error (σ × τ) Stats := do
  let columns ← Stateful.ofExcept r.resolve
  let deadline := deadlineOf sink (clock 0) r.params.timeout (← get).2
  Stateful.onFirst (r.skip source r.skipped 0 r.skipped)
  r.rows source sink deadline clock columns maxRows (0 < r.params.position) {}

end StreamRequest

end RowStream
