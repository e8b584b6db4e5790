import RowStream.Calendar.Catalogue
import RowStream.CommandLine.Invocation
import RowStream.CommandLine.World
import RowStream.Service.Answer
import RowStream.Settings.Load

/-!
# Running commands

`run` reads the arguments, does what they ask, and gives the exit code: 0 when all went well, 1
after a failure, which is reported on the standard error, and 2 for arguments that are refused. It
runs with any catalogue of zones; `Zone.Catalogue.builtin` is at hand for programs and examples.
-/

namespace RowStream.CommandLine

variable [Zone.Catalogue] {m : Type → Type} [Monad m]

def usage : String :=
  "Usage: [--log-level LEVEL] [--json-logs] [--settings FILE] COMMAND\n\n" ++
  "Commands:\n" ++
  "  schema INPUT [--inline]\n" ++
  "  encode --config FILE --datasource ID [--query TEXT] [--columns TEXT]\n" ++
  "         [--param NAME=TEXT]... [--output FILE] [--verify]\n"

/-- The bytes of the file of settings: the one at the path, or else the one whose name goes on
with `.json`. -/
def settingsFile (w : World m) (path : String) : Action m (List UInt8) := do
  match ← w.contents path with
  | .ok bytes => return bytes
  | .error reason =>
    match ← w.contents (path ++ ".json") with
    | .ok bytes => return bytes
    | .error _ => throw (Error.config (.unreadable path reason)).report

def loadSettings (w : World m) (path : Option String) : Action m Settings := do
  let file ← match path with
    | none => pure none
    | some path => some <$> settingsFile w path
  ofOperation ((Settings.load w.scope file w.environment).mapError Error.config)

/-- The table of a text: of JSON when it begins like an array or an object, or else of
declarations. -/
def tableOfInput (text : String) : Except Error Table :=
  let trimmed := Text.trimStart text.toList
  match trimmed with
  | '[' :: _ | '{' :: _ =>
    match Json.parse? (String.ofList trimmed) with
    | some json => Table.ofJson json
    | none => .error (.serialization "malformed JSON")
  | _ => Table.ofText text

def schemaText (w : World m) (input : String) : Action m String :=
  if input = "-" then ofAccess w.readInputText
  else describing s!"cannot read {input}" (ofAccess (w.readText input))

def runSchema (w : World m) (settings : Settings) (input : String) (inline : Bool) :
    Action m Unit := do
  let text ← schemaText w input
  let table ← ofOperation (tableOfInput text)
  let showDefaults := settings.query.showDefaults
  if inline then w.print (table.inline showDefaults ++ "\n")
  else w.print (table.text showDefaults)

/-- The clock of a command: an answer is made at one moment. -/
def clock : Clock := Clock.still 0

def printRows (w : World m) (columns : Table) (bytes : List UInt8) : Action m Unit := do
  if columns.columns.isEmpty then throw ⟨"cannot decode a stream without columns", []⟩
  let line (cells : List String) : String := "\t".intercalate cells ++ "\n"
  w.print (line columns.names)
  let (rows, fault) := columns.readRows (Wire.Buffer.ofBytes bytes)
  rows.forM fun row => w.print (line row)
  match fault with
  | some e => throw e.report
  | none => return ()

/-- Answers a request, and writes the bytes that were handed over, also when the answer fails. -/
def writeAnswer (w : World m) (service : QueryService) (request : QueryRequest)
    (output : Option String) : Action m Unit := do
  let (result, _, collected) := service.execute request Collector.sink clock {}
  match output with
  | some path => ofAccess (w.store path collected.bytes)
  | none => ExceptT.lift (w.output collected.bytes)
  discard (ofOperation result)

def verifyAnswer (w : World m) (service : QueryService) (request : QueryRequest) :
    Action m Unit := do
  let columns ← ofResult (service.answerColumns request)
  let (result, _, collected) := service.execute request Collector.sink clock {}
  discard (ofOperation result)
  printRows w columns collected.bytes

def newService (settings : Settings) : QueryService :=
  QueryService.new Registry.builtin (SchemaCache.ofSettings settings.cache) settings.query

def runEncode (w : World m) (settings : Settings) (config : String) (request : QueryRequest)
    (output : Option String) (verify : Bool) : Action m Unit := do
  let (loaded, service) := (newService settings).loadFile config (← w.readText config)
  discard (ofOperation loaded)
  if verify then verifyAnswer w service request
  else writeAnswer w service request output

def perform (w : World m) (i : Invocation) : Action m Unit := do
  let settings ← loadSettings w i.settings
  match i.command with
  | .schema input inline => runSchema w settings input inline
  | .encode config request output verify => runEncode w settings config request output verify

def run (w : World m) (args : List String) : m UInt32 := do
  match Invocation.parse w.scope w.environment args with
  | .error .help => do
    w.output (Utf8.encodeString usage)
    return 0
  | .error .malformed => do
    w.report usage
    return 2
  | .ok invocation =>
    match ← (perform w invocation).run with
    | .ok _ => return 0
    | .error report => do
      w.report ("Error: " ++ report.rendered ++ "\n")
      return 1

end RowStream.CommandLine
