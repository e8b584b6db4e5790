import RowStream.Error
import RowStream.Text.Utf8

/-!
# The world around a command

All that a command reads and writes goes through a `World`, over any monad: files, standard input,
the two standard outputs, and the environment. An action fails with a report, whose text
`Report.rendered` lays out for a reader.
-/

namespace RowStream

namespace Report

/-- Lines behind a margin: `first` before the first line and blanks before the others. -/
def indented (first : String) (rest : Nat) (text : String) : String :=
  let margin := String.ofList ('\n' :: List.replicate rest ' ')
  first ++ margin.intercalate (text.splitOn "\n")

def numbered (causes : List String) : List String :=
  causes.zipIdx.map fun (cause, i) =>
    let number := toString i
    indented (String.ofList (List.replicate (5 - number.length) ' ') ++ number ++ ": ") 7 cause

def rendered (r : Report) : String :=
  match r.causes with
  | [] => r.message
  | [cause] => r.message ++ "\n\nCaused by:\n" ++ indented "    " 4 cause
  | causes => r.message ++ "\n\nCaused by:\n" ++ "\n".intercalate (numbered causes)

end Report

namespace CommandLine

/-- What a command may do to the world around it. Reading and writing fail with the reason. -/
structure World (m : Type → Type) where
  /-- What the names of the program's own variables begin with. -/
  scope : String
  environment : List (String × String)
  contents : String → m (Except String (List UInt8))
  input : m (Except String (List UInt8))
  store : String → List UInt8 → m (Except String Unit)
  output : List UInt8 → m Unit
  report : String → m Unit

abbrev Action (m : Type → Type) := ExceptT Report m

variable {m : Type → Type} [Monad m]

def ofResult {α : Type} : Except Report α → Action m α
  | .ok a => pure a
  | .error r => throw r

def ofOperation {α : Type} (r : Except Error α) : Action m α := ofResult (r.mapError Error.report)

def ofAccess {α : Type} (access : m (Except String α)) : Action m α :=
  ExceptT.mk do return (← access).mapError fun reason => ⟨reason, []⟩

def describing {α : Type} (context : String) (action : Action m α) : Action m α :=
  ExceptT.adapt (Report.within context) action

def notText : String := "stream did not contain valid UTF-8"

def textOf (bytes : List UInt8) : Except String String :=
  match Utf8.decode bytes with
  | .ok cs => .ok (String.ofList cs)
  | .error _ => .error notText

def World.readText (w : World m) (path : String) : m (Except String String) :=
  return (← w.contents path).bind textOf

def World.readInputText (w : World m) : m (Except String String) :=
  return (← w.input).bind textOf

def World.print (w : World m) (text : String) : Action m Unit :=
  ExceptT.lift (w.output (Utf8.encodeString text))

end CommandLine

end RowStream
