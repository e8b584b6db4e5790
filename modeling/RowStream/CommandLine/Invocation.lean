import RowStream.CommandLine.Option
import RowStream.Service.Basic

/-!
# Invocations

What the program is asked to do: to write a schema in normal form, or to answer a request. Some
options may stand before the command as well as after it, and then the later one counts; some may
come from the environment instead.
-/

namespace RowStream.CommandLine

inductive Command where
  | schema (input : String) (inline : Bool)
  /-- Answers a request to a data source of a configuration; with `verify` the answer is read back
  and its rows are written as text. -/
  | encode (config : String) (request : QueryRequest) (output : Option String) (verify : Bool)
deriving DecidableEq, Repr

structure Invocation where
  logLevel : Option String
  jsonLogs : Bool
  settings : Option String
  command : Command
deriving DecidableEq, Repr

def commonOptions : OptionTable := [("log-level", .text), ("json-logs", .flag), ("settings", .path)]

def schemaOptions : OptionTable := commonOptions ++ [("inline", .flag)]

def encodeOptions : OptionTable :=
  commonOptions ++
    [("config", .path), ("datasource", .text), ("query", .text), ("columns", .text),
     ("param", .list), ("output", .path), ("verify", .flag)]

/-- A parameter: a name and, behind the first `=`, its text. -/
def parameter? (arg : String) : Option (String × String) :=
  let cs := arg.toList
  let name := Text.trimmed (String.ofList (cs.takeWhile (· != '=')))
  let value := String.ofList ((cs.dropWhile (· != '=')).drop 1)
  if name.isEmpty then none else some (name, value)

/-- Parameters by name; of those with one name the last counts. -/
def parameters? : List String → Option (List (String × String))
  | args => (args.mapM parameter?).map fun ps => ps.foldl (fun acc p => putEntry p.1 p.2 acc) []

namespace Command

def ofSchema (g : Given) : Except Refusal Command :=
  match g.words with
  | [input] => .ok (.schema input (g.has "inline"))
  | _ => .error .malformed

def ofEncode (g : Given) : Except Refusal Command :=
  match g.words, g.value? "config", g.value? "datasource", parameters? (g.values "param") with
  | [], some config, some source, some params =>
    let request : QueryRequest :=
      ⟨source, (g.value? "query").getD "", g.value? "columns", params⟩
    .ok (.encode config request (g.value? "output") (g.has "verify"))
  | _, _, _, _ => .error .malformed

def read (name : String) (args : List String) : Except Refusal (Given × Command) :=
  let among (known : OptionTable) (command : Given → Except Refusal Command) :=
    match CommandLine.read known false args with
    | .error refusal => .error refusal
    | .ok g => (command g).map fun c => (g, c)
  match name with
  | "schema" => among schemaOptions ofSchema
  | "encode" => among encodeOptions ofEncode
  | "help" => .error .help
  | _ => .error .malformed

end Command

namespace Invocation

/-- The path of the settings: after the command, before it, or as it is named in the environment,
which must not be empty where the option is missing. -/
def settingsPath (named : Option String) (before after : Given) :
    Except Refusal (Option String) :=
  match after.value? "settings", before.value? "settings" with
  | some path, some _ => .ok (some path)
  | after, before =>
    if named = some "" then .error .malformed else .ok ((after.or before).or named)

/-- The invocation that arguments describe. The variable of the environment that names the file of
settings begins with `scope`. -/
def parse (scope : String) (environment : List (String × String)) (args : List String) :
    Except Refusal Invocation := do
  let before ← CommandLine.read commonOptions true args
  match before.words with
  | [] => .error .malformed
  | name :: rest =>
    let (after, command) ← Command.read name rest
    let settings ← settingsPath (environment.lookup (scope ++ "_SETTINGS")) before after
    return { logLevel := ((after.value? "log-level").or (before.value? "log-level")).or
               (environment.lookup "LOG_LEVEL")
             jsonLogs := before.has "json-logs" || after.has "json-logs"
             settings := settings
             command := command }

end Invocation

end RowStream.CommandLine
