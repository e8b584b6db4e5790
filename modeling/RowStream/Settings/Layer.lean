import RowStream.Json.Basic
import RowStream.Text.Blank

/-!
# Layers of settings

Settings come from layers: a file, and over it the variables of the environment. Each layer puts
values at paths of names, and the last value put at a path counts. Names are compared in small
letters. `Json.find?_put_cons` and `Json.find?_put_of_ne` say what a value put at a path changes.
-/

namespace RowStream

abbrev SettingsLayer := List (String × Json)

namespace Json

def members : Json → List (String × Json)
  | .obj ms => ms
  | _ => []

mutual

/-- Lays a value over another. The members of an object go to their own places, any other value
stands in for what was there. -/
def overlay (old : Json) : Json → Json
  | .obj ms => overlayMembers old ms
  | value => value

def overlayMembers (old : Json) : List (String × Json) → Json
  | [] => old
  | (key, value) :: rest =>
    let name := Text.lowerAscii key
    let below := (find? name old.members).getD (.obj [])
    overlayMembers (.obj (insert name (overlay below value) old.members)) rest

end

/-- Lays a value over the one at a path. What stands in the way of the path gives way
to an object. -/
def put (value : Json) : List String → Json → Json
  | [], old => overlay old value
  | name :: path, old =>
    let below := (find? name old.members).getD (.obj [])
    .obj (insert name (put value path below) old.members)

end Json

namespace SettingsLayer

def isNameChar (c : Char) : Bool := c.isAlphanum || c == '_' || c == '-'

def splitDots : List Char → List (List Char)
  | [] => [[]]
  | '.' :: cs => [] :: splitDots cs
  | c :: cs =>
    match splitDots cs with
    | [] => [[c]]
    | name :: rest => (c :: name) :: rest

/-- The path that a dotted name stands for. A text that is not made of names is a name by itself. -/
def path (key : String) : List String :=
  let names := splitDots (Text.lowerAscii key).toList
  if names.all fun cs => !cs.isEmpty && cs.all isNameChar then names.map String.ofList
  else [Text.lowerAscii key]

def applyTo (layer : SettingsLayer) (settings : Json) : Json :=
  layer.foldl (fun acc (key, value) => Json.put value (path key) acc) settings

def dotted : List Char → List Char
  | '_' :: '_' :: cs => '.' :: dotted cs
  | c :: cs => c :: dotted cs
  | [] => []

/-- The dotted name that a variable sets, when its name begins with `start`. -/
def variableKey? (start name : String) : Option String :=
  let front := (Text.lowerAscii start).toList
  let cs := (Text.lowerAscii name).toList
  if front.isPrefixOf cs then some (String.ofList (dotted (cs.drop front.length))) else none

def ofEnvironment (scope : String) (environment : List (String × String)) : SettingsLayer :=
  environment.filterMap fun (name, value) =>
    (variableKey? (scope ++ "__") name).map fun key => (key, .str value)

end SettingsLayer

theorem Json.find?_put_cons (value : Json) (name : String) (path : List String) (old : Json) :
    find? name (put value (name :: path) old).members =
      some (put value path ((find? name old.members).getD (.obj []))) := by
  simp [put, members, find?_insert_self]

theorem Json.find?_put_of_ne {name other : String} (h : other ≠ name) (value : Json)
    (path : List String) (old : Json) :
    find? other (put value (name :: path) old).members = find? other old.members := by
  simp [put, members, find?_insert_of_ne h]

end RowStream
