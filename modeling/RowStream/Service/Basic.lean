import RowStream.Service.SchemaCache
import RowStream.Source.Catalog
import RowStream.Stream.SingleRow

/-!
# The query service

A service holds the data sources of its configuration and the schemas that it has inferred, and
answers requests: with rows, with the count of a mutation, or with a description of the request. A
configuration that is refused leaves the service as it was; one that is taken empties the cache of
the data sources before and after it.
-/

namespace RowStream

variable [Zone.Catalogue]

structure QueryRequest where
  source : String
  query : String
  /-- The columns that are asked for, all columns of the result when there are none. -/
  columns : Option String
  params : List (String × String)
deriving DecidableEq, Repr, Inhabited

def QueryRequest.requested? (r : QueryRequest) : Option String :=
  (r.columns.map Text.trimmed).filter fun s => !s.isEmpty

structure QueryService where
  registry : Registry
  catalog : Catalog
  cache : SchemaCache
  settings : QuerySettings

namespace QueryService

def new (registry : Registry) (cache : SchemaCache) (settings : QuerySettings) : QueryService :=
  ⟨registry, Catalog.empty, cache, settings⟩

def invalidateAll (cache : SchemaCache) (ids : List String) : SchemaCache :=
  ids.foldl SchemaCache.invalidate cache

/-- Takes a catalog over, and says how many data sources it has. -/
def adopt (s : QueryService) : Except Error Catalog → Except Error Nat × QueryService
  | .error e => (.error e, s)
  | .ok catalog =>
    (.ok catalog.sources.length,
      { s with catalog := catalog, cache := invalidateAll s.cache (s.catalog.ids ++ catalog.ids) })

def reload (s : QueryService) (json : Json) : Except Error Nat × QueryService :=
  s.adopt (Catalog.ofJson s.registry json)

def loadText (s : QueryService) (text : String) : Except Error Nat × QueryService :=
  s.adopt (Catalog.ofText s.registry text)

/-- Takes the configuration of a file over, of which `contents` is the text or the reason why there
is none. -/
def loadFile (s : QueryService) (path : String) (contents : Except String String) :
    Except Error Nat × QueryService :=
  match contents with
  | .ok text => s.loadText text
  | .error reason => s.adopt (.error (.config (.unreadable path reason)))

def resultColumns (s : QueryService) (now : Nat) (source : DataSource) (query : String)
    (params : Parameters) : Except Error Table × QueryService :=
  let inferred : Except Error Table :=
    (source.infer query params).mapError (Error.dataAccess source.id)
  let (result, cache) := Id.run (s.cache.get now ⟨source.id, query⟩ params.noCache (pure inferred))
  (result, { s with cache := cache })

/-- The columns of the answer: those asked for, with the defaults of the result's columns, or else
all columns of the result. -/
def requestedColumns (request : QueryRequest) (result : Table) : Except Error Table :=
  match request.requested? with
  | none => result.finalize
  | some text =>
    match Table.ofText text with
    | .error e => .error e
    | .ok table => (table.mergeValues result.columns).1.finalize

def streamOf (source : DataSource) (requested result : Table) (params : Parameters) :
    StreamRequest :=
  { source := source.id
    requested := requested
    custom := source.custom
    result := result
    defaults := source.defaults
    zone := source.zone
    params := params }

def sendRows {τ : Type} (source : DataSource) (query : String) (stream : StreamRequest)
    (sink : Sink τ) (clock : Clock) (t : τ) : Except Error Stats × τ :=
  match source.openRows query stream.result stream.params with
  | .error report => (.error (.dataAccess source.id report), t)
  | .ok rows =>
    let (result, ends) := (stream.run rows.source sink clock).runFrom (rows.start, t)
    (result, ends.2)

def respond {τ : Type} (s : QueryService) (source : DataSource) (request : QueryRequest)
    (params : Parameters) (result : Table) (sink : Sink τ) (clock : Clock) (t : τ) :
    Except Error Stats × τ :=
  match requestedColumns request result with
  | .error e => (.error e, t)
  | .ok requested =>
    let stream := streamOf source requested result params
    if params.debug then
      let texts := stream.description request.query s.settings.showDefaults
      (sendDescription texts sink clock).runFrom t
    else sendRows source request.query stream sink clock t

def execute {τ : Type} (s : QueryService) (request : QueryRequest) (sink : Sink τ) (clock : Clock)
    (t : τ) : Except Error Stats × QueryService × τ :=
  match Parameters.ofEntries s.settings request.params with
  | .error e => (.error e, s, t)
  | .ok params =>
    match s.catalog.require request.source with
    | .error e => (.error e, s, t)
    | .ok source =>
      if params.mutation then
        match source.mutate request.query params with
        | .error report => (.error (.dataAccess source.id report), s, t)
        | .ok affected =>
          let (result, t) := (sendMutation affected params.timeout sink clock).runFrom t
          (result, s, t)
      else
        match s.resultColumns (clock 0) source request.query params with
        | (.error e, s) => (.error e, s, t)
        | (.ok result, s) =>
          let (answer, t) := s.respond source request params result sink clock t
          (answer, s, t)

end QueryService

end RowStream
