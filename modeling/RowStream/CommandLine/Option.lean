/-!
# Options of a command line

Arguments are words and options. An option begins with `--` and takes its value after a `=` or
from the next argument, which must then be a word; `-` alone is a word, and after `--` everything
is. `scan_escape` says so of the arguments after `--`.
-/

namespace RowStream.CommandLine

inductive OptionKind where
  | flag
  /-- One value, which may be empty. -/
  | text
  /-- One value, which is not empty. -/
  | path
  /-- A value each time that it is given. -/
  | list
deriving DecidableEq, Repr

abbrev OptionTable := List (String × OptionKind)

inductive Refusal where
  | help
  | malformed
deriving DecidableEq, Repr

inductive Spelling where
  | word
  | option (name : String) (attached : Option String)
  | short (letter : Char)
deriving DecidableEq, Repr

def spelling (arg : String) : Spelling :=
  match arg.toList with
  | '-' :: '-' :: cs =>
    let name := String.ofList (cs.takeWhile (· != '='))
    match cs.dropWhile (· != '=') with
    | _ :: value => .option name (some (String.ofList value))
    | [] => .option name none
  | '-' :: c :: _ => .short c
  | _ => .word

structure Given where
  options : List (String × String) := []
  words : List String := []
deriving DecidableEq, Repr, Inhabited

def Given.withOption (g : Given) (name value : String) : Given :=
  { g with options := (name, value) :: g.options }

def Given.withWord (g : Given) (word : String) : Given := { g with words := word :: g.words }

/-- Reads options and words. When `untilWord` is set, the first word ends the options: it and all
that comes after it are words. -/
def scan (known : OptionTable) (untilWord : Bool) : List String → Except Refusal Given
  | [] => .ok {}
  | arg :: rest =>
    if arg = "--" then
      if untilWord then .error .malformed else .ok { words := rest }
    else
      match spelling arg with
      | .word =>
        if untilWord then .ok { words := arg :: rest }
        else (scan known untilWord rest).map (·.withWord arg)
      | .short letter => .error (if letter = 'h' then .help else .malformed)
      | .option name attached =>
        match known.lookup name, attached with
        | none, _ => .error (if name = "help" && attached.isNone then .help else .malformed)
        | some .flag, none => (scan known untilWord rest).map (·.withOption name "")
        | some .flag, some _ => .error .malformed
        | some _, some value => (scan known untilWord rest).map (·.withOption name value)
        | some _, none =>
          match rest with
          | [] => .error .malformed
          | value :: rest =>
            if spelling value = .word then (scan known untilWord rest).map (·.withOption name value)
            else .error .malformed

namespace Given

def values (g : Given) (name : String) : List String :=
  (g.options.filter fun o => o.1 == name).map (·.2)

def value? (g : Given) (name : String) : Option String := (g.values name).head?

def has (g : Given) (name : String) : Bool := (g.value? name).isSome

def suits (g : Given) (name : String) : OptionKind → Bool
  | .list => true
  | .path => (g.values name).length ≤ 1 && !(g.values name).contains ""
  | _ => (g.values name).length ≤ 1

end Given

def read (known : OptionTable) (untilWord : Bool) (args : List String) : Except Refusal Given :=
  match scan known untilWord args with
  | .error refusal => .error refusal
  | .ok g =>
    if known.all fun o => g.suits o.1 o.2 then .ok g else .error .malformed

theorem scan_escape (known : OptionTable) (args : List String) :
    scan known false ("--" :: args) = .ok { words := args } := by
  simp [scan]

end RowStream.CommandLine
