import RowStream.Error
import RowStream.Settings.Basic
import RowStream.Text.Numeral
import RowStream.Value.Basic
import RowStream.Number.Machine

/-!
# Parameters of requests

A request changes its parameters by name. `Parameters.mergeAll` takes entries over one after the
other and ignores names that it does not know; `Parameters.text` writes all parameters but the
name of the source column, in a fixed order.
-/

namespace RowStream

structure Parameters where
  batchSize : Nat
  offset : Nat
  /-- The row to begin with, counted from 1; 0 for none. It goes before the offset. -/
  position : Nat
  /-- Whether a null is written as the default of its column. -/
  nullAsDefault : Bool
  withSourceColumn : Bool
  withCustomColumns : Bool
  /-- Whether a description of the request is asked for in the place of rows. -/
  debug : Bool
  mutation : Bool
  noCache : Bool
  /-- Seconds that the request may take. -/
  timeout : Option Nat
  sourceColumn : String
deriving DecidableEq, Repr, Inhabited

namespace Parameters

def maxBatchSize : Nat := 1000000

def clampBatchSize (rows : Nat) : Nat := max 1 (min rows maxBatchSize)

def ofSettings (s : QuerySettings) : Parameters :=
  { batchSize := clampBatchSize s.batchSize
    offset := 0
    position := 0
    nullAsDefault := false
    withSourceColumn := false
    withCustomColumns := false
    debug := false
    mutation := false
    noCache := false
    timeout := s.timeout
    sourceColumn := s.sourceColumn }

def number (key value : String) : Except Error Nat :=
  match Text.Numeral.unsignedUpTo? maxWord64 (Text.trim value.toList) with
  | some n => .ok n
  | none => .error (.invalidArgument (.expectsNumber key value))

/-- The truth value that the value of an entry stands for; a blank one means that it is set. -/
def flag (key value : String) : Except Error Bool :=
  if Text.allBlank value then .ok true
  else
    match truthOf? (Text.trim value.toList) with
    | some b => .ok b
    | none => .error (.invalidArgument (.expectsBoolean key value))

def merge (p : Parameters) (key value : String) : Except Error Parameters :=
  let withNumber (f : Nat → Parameters) := (number key value).map f
  let withFlag (f : Bool → Parameters) := (flag key value).map f
  match key with
  | "batch_size" => withNumber fun n => { p with batchSize := clampBatchSize n }
  | "offset" => withNumber fun n => { p with offset := n }
  | "position" => withNumber fun n => { p with position := n }
  | "null_as_default" => withFlag fun b => { p with nullAsDefault := b }
  | "datasource_column" => withFlag fun b => { p with withSourceColumn := b }
  | "custom_columns" => withFlag fun b => { p with withCustomColumns := b }
  | "debug" => withFlag fun b => { p with debug := b }
  | "mutation" => withFlag fun b => { p with mutation := b }
  | "no_cache" => withFlag fun b => { p with noCache := b }
  | "timeout" => withNumber fun n => { p with timeout := if 0 < n then some n else none }
  | _ => .ok p

/-- Takes entries over one after the other. At one that fails, those before it stay. -/
def mergeAll (p : Parameters) : List (String × String) → Parameters × Except Error Unit
  | [] => (p, .ok ())
  | (key, value) :: rest =>
    match p.merge key value with
    | .ok p => p.mergeAll rest
    | .error e => (p, .error e)

def ofEntries (s : QuerySettings) (entries : List (String × String)) : Except Error Parameters :=
  match (ofSettings s).mergeAll entries with
  | (p, .ok ()) => .ok p
  | (_, .error e) => .error e

def entries (p : Parameters) : List (String × String) :=
  let truth (b : Bool) : String := if b then "true" else "false"
  [("batch_size", toString p.batchSize), ("offset", toString p.offset),
   ("position", toString p.position), ("null_as_default", truth p.nullAsDefault),
   ("datasource_column", truth p.withSourceColumn), ("custom_columns", truth p.withCustomColumns),
   ("debug", truth p.debug), ("mutation", truth p.mutation), ("no_cache", truth p.noCache),
   ("timeout", toString (p.timeout.getD 0))]

def text (p : Parameters) : String :=
  "&".intercalate (p.entries.map fun (key, value) => key ++ "=" ++ value)

end Parameters

end RowStream
