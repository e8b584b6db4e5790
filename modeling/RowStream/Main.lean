import RowStream.CommandLine.Run

/-!
# The program

The world of the command line in a process: its files, its standard streams and its environment.
-/

namespace RowStream.CommandLine

def reasonOf : IO.Error → String
  | .noFileOrDirectory _ code _ => s!"No such file or directory (os error {code})"
  | .permissionDenied _ code _ => s!"Permission denied (os error {code})"
  | .inappropriateType _ code _ => s!"Is a directory (os error {code})"
  | e => toString e

def attempt {α : Type} (action : IO α) : IO (Except String α) := do
  match ← action.toBaseIO with
  | .ok a => return .ok a
  | .error e => return .error (reasonOf e)

def inputBytes : IO (List UInt8) := do
  return (← (← IO.getStdin).readBinToEnd).toList

def binding? (entry : List UInt8) : Option (String × String) :=
  let cs := Utf8.decodeLossy entry
  match cs.dropWhile (· != '=') with
  | [] => none
  | _ :: value => some (String.ofList (cs.takeWhile (· != '=')), String.ofList value)

def entries (bytes : List UInt8) : List (List UInt8) :=
  bytes.foldr (fun b acc => if b = 0 then [] :: acc else
    match acc with
    | [] => [[b]]
    | entry :: rest => (b :: entry) :: rest) []

def processEnvironment : IO (List (String × String)) := do
  match ← attempt (IO.FS.readBinFile "/proc/self/environ") with
  | .ok bytes => return (entries bytes.toList).filterMap binding?
  | .error _ => return []

def processWorld : IO (World IO) := do
  let environment ← processEnvironment
  return {
    scope := "WIREBRIDGE"
    environment := environment
    contents := fun path => attempt do return (← IO.FS.readBinFile path).toList
    input := attempt inputBytes
    store := fun path bytes => attempt (IO.FS.writeBinFile path ⟨bytes.toArray⟩)
    output := fun bytes => do
      let out ← IO.getStdout
      out.write ⟨bytes.toArray⟩
      out.flush
    report := fun text => do (← IO.getStderr).putStr text }

end RowStream.CommandLine

def main (args : List String) : IO UInt32 := do
  RowStream.CommandLine.run (← RowStream.CommandLine.processWorld) args
