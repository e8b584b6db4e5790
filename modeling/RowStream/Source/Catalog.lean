import RowStream.Json.Parser
import RowStream.Source.Values

/-!
# Catalogs of data sources

A registry knows how to make data sources of each type; a catalog holds those of a configuration. A
configuration replaces the whole catalog, or has no effect when any part of it is refused.
-/

namespace RowStream

variable [Zone.Catalogue]

abbrev Factory := String → Json → Except Report DataSource

/-- Puts an entry into a list: in place of the one with the same key, or at the end. -/
def putEntry {α : Type _} (key : String) (value : α) : List (String × α) → List (String × α)
  | [] => [(key, value)]
  | (k, v) :: rest =>
    if k = key then (key, value) :: rest else (k, v) :: putEntry key value rest

def sortedNames (names : List String) : List String :=
  names.mergeSort fun a b => !decide (b < a)

/-- How data sources of each type are made; names of types are in small letters. -/
structure Registry where
  factories : List (String × Factory)

namespace Registry

def valuesFactory : Factory := fun id json =>
  match FixedValues.ofJson id json with
  | .ok v => .ok v.dataSource
  | .error r => .error r

def builtin : Registry := ⟨[(FixedValues.typeName, valuesFactory)]⟩

def register (r : Registry) (type : String) (factory : Factory) : Registry :=
  ⟨putEntry (Text.lowerAscii type) factory r.factories⟩

def typeNames (r : Registry) : List String := sortedNames (r.factories.map (·.1))

def create (r : Registry) (id : String) (json : Json) : Except Error DataSource :=
  match (json.get? "type").bind Json.str? with
  | none => .error (.config (.noType id))
  | some type =>
    match r.factories.lookup (Text.lowerAscii type) with
    | none => .error (.config (.unknownType id type r.typeNames))
    | some factory =>
      match factory id json with
      | .ok source => .ok source
      | .error report => .error (.config (.rejected id report))

end Registry

structure Catalog where
  sources : List (String × DataSource)

namespace Catalog

def empty : Catalog := ⟨[]⟩

def ids (c : Catalog) : List String := sortedNames (c.sources.map (·.1))

def find? (c : Catalog) (id : String) : Option DataSource := c.sources.lookup id

def require (c : Catalog) (id : String) : Except Error DataSource :=
  match c.find? id with
  | some source => .ok source
  | none => .error (.invalidArgument (.unknownSource id c.ids))

/-- Adds the data sources of entries, up to the first that is refused. -/
def addAll (c : Catalog) (registry : Registry) : List (String × Json) → Except Error Catalog
  | [] => .ok c
  | (id, json) :: rest =>
    match registry.create id json with
    | .ok source => addAll ⟨putEntry id source c.sources⟩ registry rest
    | .error e => .error e

/-- The catalog of a configuration: data sources by id, alone or as the member `datasources`. -/
def ofJson (registry : Registry) (json : Json) : Except Error Catalog :=
  match (json.get? "datasources").getD json with
  | .obj members => empty.addAll registry members
  | _ => .error (.config .notAnObject)

def ofText (registry : Registry) (s : String) : Except Error Catalog :=
  match Json.parse? s with
  | some json => ofJson registry json
  | none => .error (.serialization "malformed JSON")

end Catalog

end RowStream
