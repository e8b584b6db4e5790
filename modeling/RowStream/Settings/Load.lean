import RowStream.Error
import RowStream.Json.Parser
import RowStream.Number.Shortest
import RowStream.Settings.Basic
import RowStream.Settings.Layer
import RowStream.Text.Utf8

/-!
# Loading settings

The settings of a process from the layers of its file and its environment. A field is read as its
type asks: a number may be written as text, a truth value as a word or a number. A section may
also be an array of its fields in order. What no layer mentions keeps its default, and names that
stand for nothing are passed over.
-/

namespace RowStream

/-- The whole number nearest to a number that is not negative, halves away from zero; 0 for a
negative one. At most the greatest word of 64 bits. -/
def Binary64.toWord64 (x : Binary64) : Nat :=
  match x.parts with
  | .finite negative m q =>
    if negative then 0
    else min maxWord64 (if 0 ≤ q then m * twoPow q.toNat else roundUp m (twoPow (-q).toNat))
  | _ => 0

namespace SettingValue

/-- A number as settings hold it: whole numbers beyond a signed word of 64 bits are
floating point. -/
def narrow : JsonNumber → JsonNumber
  | .integer n => if (int64? n).isSome then .integer n else .float (Binary64.ofInt n)
  | .float x => .float x

def word? (s : String) : Option Bool :=
  let w := Text.lowerAscii s
  if w ∈ ["true", "on", "yes"] then some true
  else if w ∈ ["false", "off", "no"] then some false
  else none

def nat? : Json → Option Nat
  | .num n =>
    match narrow n with
    | .integer n => if 0 ≤ n then some n.toNat else none
    | .float x => some x.toWord64
  | .bool b => some b.toNat
  | .str s =>
    match word? s with
    | some b => some b.toNat
    | none => Text.Numeral.unsignedUpTo? maxWord64 s.toList
  | _ => none

def bool? : Json → Option Bool
  | .bool b => some b
  | .num (.integer n) => some (n != 0)
  | .num (.float x) => some !x.parts.isZero
  | .str s => if s == "1" then some true else if s == "0" then some false else word? s
  | _ => none

def text? : Json → Option String
  | .str s => some s
  | .bool b => some (if b then "true" else "false")
  | .num n =>
    match narrow n with
    | .integer n => some (toString n)
    | .float x => some x.text
  | _ => none

end SettingValue

namespace Settings

/-- Where a section has the field of a name: under it, or at its place in an array. -/
def field? (fields : Json) (place : Nat) (name : String) : Option Json :=
  match fields with
  | .arr items => items[place]?
  | json => json.get? name

def readField {α : Type} (fields : Json) (place : Nat) (name : String) (read : Json → Option α)
    (default : α) : Except ConfigFault α :=
  match field? fields place name with
  | none => .ok default
  | some json =>
    match read json with
    | some a => .ok a
    | none => .error (.invalidSetting name)

def readSection {α : Type} (settings : Json) (name : String) (read : Json → Except ConfigFault α)
    (default : α) : Except ConfigFault α :=
  match settings.get? name with
  | none => .ok default
  | some (.obj members) => read (.obj members)
  | some (.arr items) => read (.arr items)
  | some _ => .error (.invalidSetting name)

def readQuery (json : Json) : Except ConfigFault QuerySettings := do
  let d : QuerySettings := {}
  let batchSize ← readField json 0 "batch_size" SettingValue.nat? d.batchSize
  let timeoutSeconds ← readField json 1 "timeout_secs" SettingValue.nat? d.timeoutSeconds
  let showDefaults ← readField json 2 "emit_default_values" SettingValue.bool? d.showDefaults
  let sourceColumn ← readField json 3 "datasource_column_name" SettingValue.text? d.sourceColumn
  return ⟨batchSize, timeoutSeconds, showDefaults, sourceColumn⟩

def readCache (json : Json) : Except ConfigFault CacheSettings := do
  let d : CacheSettings := {}
  let enabled ← readField json 0 "enabled" SettingValue.bool? d.enabled
  let maxEntries ← readField json 1 "max_entries" SettingValue.nat? d.maxEntries
  let ttlSeconds ← readField json 2 "ttl_secs" SettingValue.nat? d.ttlSeconds
  return ⟨enabled, maxEntries, ttlSeconds⟩

def readLog (json : Json) : Except ConfigFault LogSettings := do
  let d : LogSettings := {}
  let level ← readField json 0 "log_level" SettingValue.text? d.level
  let asJson ← readField json 1 "json_logs" SettingValue.bool? d.json
  return ⟨level, asJson⟩

def ofJson (json : Json) : Except ConfigFault Settings := do
  let query ← readSection json "query" readQuery {}
  let cache ← readSection json "schema_cache" readCache {}
  let log ← readSection json "telemetry" readLog {}
  return ⟨query, cache, log⟩

def byteOrderMark : List UInt8 := [0xEF, 0xBB, 0xBF]

def layerOfFile (bytes : List UInt8) : Except ConfigFault SettingsLayer :=
  let bytes := if byteOrderMark.isPrefixOf bytes then bytes.drop byteOrderMark.length else bytes
  match Json.parse? (String.ofList (Utf8.decodeLossy bytes)) with
  | some (.obj members) => .ok members
  | _ => .error .malformedSettings

/-- The settings of a file, if there is one, with the variables of the environment over it. -/
def load (scope : String) (file : Option (List UInt8)) (environment : List (String × String)) :
    Except ConfigFault Settings := do
  let layer ← match file with
    | some bytes => layerOfFile bytes
    | none => .ok []
  ofJson ((SettingsLayer.ofEnvironment scope environment).applyTo (layer.applyTo (.obj [])))

/-- What a variable of the environment stands for, or a default when it is not set or
stands for nothing. -/
def variableOr {α : Type} (environment : List (String × String)) (name : String)
    (read : List Char → Option α) (default : α) : α :=
  ((environment.lookup name).bind fun value => read value.toList).getD default

end Settings

end RowStream
