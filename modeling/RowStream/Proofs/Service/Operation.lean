import RowStream.Calendar.Catalogue
import RowStream.Proofs.Service.SchemaCache
import RowStream.Proofs.Source.Catalog
import RowStream.Proofs.Source.Values
import RowStream.Proofs.Stream.Delivery
import RowStream.Service.Basic

/-!
# Operations on a service

A service is loaded with configurations, its cache is cleared, and it answers requests, in any
order. `Executes` lists what a request can come to. What every operation keeps, `Kept`, ties the
cache to the catalog: a schema is cached for configured data sources only, so that a configuration
that is taken over leaves nothing of the cache, while one that is refused changes nothing at all.
-/

namespace RowStream

section Zones

variable [Zone.Catalogue]

/-- Every data source goes by the id that it was made for. -/
def Registry.KeepsIds (r : Registry) : Prop :=
  ∀ id json source, r.create id json = .ok source → source.id = id

theorem Registry.create_builtin_ok_iff {id : String} {json : Json} {source : DataSource} :
    Registry.builtin.create id json = .ok source ↔
      ∃ type v, (json.get? "type").bind Json.str? = some type ∧
        Text.lowerAscii type = FixedValues.typeName ∧ FixedValues.ofJson id json = .ok v ∧
        source = v.dataSource := by
  have hlookup : ∀ type, builtin.factories.lookup type =
      if type = FixedValues.typeName then some valuesFactory else none := by
    intro type
    unfold builtin
    by_cases h : type = FixedValues.typeName
    · simp [h]
    · simp [List.lookup_cons, beq_false_of_ne h, h]
  unfold create
  cases (json.get? "type").bind Json.str? with
  | none => simp
  | some type =>
      dsimp only
      rw [hlookup]
      by_cases htype : Text.lowerAscii type = FixedValues.typeName
      · rw [if_pos htype]
        unfold valuesFactory
        cases hv : FixedValues.ofJson id json with
        | error report => simp [hv]
        | ok v => simp [hv, htype, eq_comm]
      · rw [if_neg htype]
        simp [htype]

theorem Registry.keepsIds_builtin : Registry.builtin.KeepsIds := by
  intro id json source h
  obtain ⟨type, v, -, -, hv, rfl⟩ := create_builtin_ok_iff.1 h
  exact (FixedValues.parts_of_ofJson hv).1

/-- Where a configuration comes from: it is given as JSON, or is the contents of a file, when these
can be read. -/
inductive Configuration where
  | json (value : Json)
  | file (path : String) (contents : Except String String)

namespace Configuration

/-- The entries that a configuration makes data sources of, when it is an object. -/
def entries? : Configuration → Option (List (String × Json))
  | .json value => Catalog.entries? value
  | .file _ (.ok text) => (Json.parse? text).bind Catalog.entries?
  | .file _ (.error _) => none

def catalog (registry : Registry) : Configuration → Except Error Catalog
  | .json value => Catalog.ofJson registry value
  | .file _ (.ok text) => Catalog.ofText registry text
  | .file path (.error reason) => .error (.config (.unreadable path reason))

theorem catalog_ok_iff {registry : Registry} {c : Configuration} {catalog : Catalog} :
    c.catalog registry = .ok catalog ↔ ∃ entries, c.entries? = some entries ∧
      Catalog.empty.addAll registry entries = .ok catalog := by
  cases c with
  | json value => exact Catalog.ofJson_ok_iff
  | file path contents =>
      cases contents with
      | error reason => simp [Configuration.catalog, entries?]
      | ok text =>
          change Catalog.ofText registry text = .ok catalog ↔ ∃ entries,
            (Json.parse? text).bind Catalog.entries? = some entries ∧ _
          unfold Catalog.ofText
          cases Json.parse? text with
          | none => simp
          | some value => exact Catalog.ofJson_ok_iff

end Configuration

inductive Operation : Type 1 where
  | load (c : Configuration)
  | clearCache
  | invalidate (source : String)
  | execute {τ : Type} (request : QueryRequest) (sink : Sink τ) (clock : Clock) (t : τ)

/-- What an operation shows: the number of data sources that were loaded, or the answer to a
request, the state of its sink behind it and the batches that this was asked to write. -/
inductive Outcome : Type 1 where
  | loaded (result : Except Error Nat)
  | done
  | answered {τ : Type} (result : Except Error Stats) (t : τ) (deliveries : List Delivery)

end Zones

namespace QueryService

section Zones

variable [Zone.Catalogue]

def load (s : QueryService) : Configuration → Except Error Nat × QueryService
  | .json value => s.reload value
  | .file path contents => s.loadFile path contents

/-- The batches that the answer to a request asks its sink to write, in order. -/
def deliveries {τ : Type} (s : QueryService) (request : QueryRequest) (sink : Sink τ)
    (clock : Clock) (t : τ) : List Delivery :=
  (s.execute request sink.logged clock (t, [])).2.2.2

def perform (s : QueryService) : Operation → Outcome × QueryService
  | .load c => (.loaded (s.load c).1, (s.load c).2)
  | .clearCache => (.done, { s with cache := s.cache.clear })
  | .invalidate source => (.done, { s with cache := s.cache.invalidate source })
  | .execute request sink clock t =>
    let answer := s.execute request sink clock t
    (.answered answer.1 answer.2.2 (s.deliveries request sink clock t), answer.2.1)

def performAll (s : QueryService) : List Operation → List Outcome × QueryService
  | [] => ([], s)
  | op :: ops =>
    let first := s.perform op
    let rest := first.2.performAll ops
    (first.1 :: rest.1, rest.2)

/-! ### What an operation can come to -/

section Steps

variable {τ : Type} {s : QueryService} {request : QueryRequest} {sink : Sink τ} {clock : Clock}
  {t : τ}

theorem load_eq (s : QueryService) (c : Configuration) :
    s.load c = s.adopt (c.catalog s.registry) := by
  cases c with
  | json value => rfl
  | file path contents => cases contents <;> rfl

theorem resultColumns_eq (s : QueryService) (now : Nat) (source : DataSource) (query : String)
    (params : Parameters) :
    s.resultColumns now source query params =
      let found := Id.run (s.cache.get now ⟨source.id, query⟩ params.noCache
        (pure ((source.infer query params).mapError (Error.dataAccess source.id))))
      (found.1, { s with cache := found.2 }) := rfl

theorem respond_congr {u : QueryService} (h : u.settings = s.settings) (source : DataSource)
    (params : Parameters) (result : Table) :
    u.respond source request params result sink clock t =
      s.respond source request params result sink clock t := by
  unfold respond
  rw [h]

/-- What a request can come to. -/
inductive Executes (s : QueryService) (request : QueryRequest) (sink : Sink τ) (clock : Clock)
    (t : τ) : Except Error Stats × QueryService × τ → Prop
  | parametersRefused {e : Error}
      (hparams : Parameters.ofEntries s.settings request.params = .error e) :
      s.Executes request sink clock t (.error e, s, t)
  | sourceUnknown {params : Parameters} {e : Error}
      (hparams : Parameters.ofEntries s.settings request.params = .ok params)
      (hsource : s.catalog.require request.source = .error e) :
      s.Executes request sink clock t (.error e, s, t)
  | mutationRefused {params : Parameters} {source : DataSource} {report : Report}
      (hparams : Parameters.ofEntries s.settings request.params = .ok params)
      (hsource : s.catalog.require request.source = .ok source) (hmode : params.mutation = true)
      (hmutate : source.mutate request.query params = .error report) :
      s.Executes request sink clock t (.error (.dataAccess source.id report), s, t)
  | mutated {params : Parameters} {source : DataSource} {affected : Nat}
      (hparams : Parameters.ofEntries s.settings request.params = .ok params)
      (hsource : s.catalog.require request.source = .ok source) (hmode : params.mutation = true)
      (hmutate : source.mutate request.query params = .ok affected) :
      s.Executes request sink clock t
        (((sendMutation affected params.timeout sink clock).runFrom t).1, s,
          ((sendMutation affected params.timeout sink clock).runFrom t).2)
  | columnsUnknown {params : Parameters} {source : DataSource} {e : Error}
      (hparams : Parameters.ofEntries s.settings request.params = .ok params)
      (hsource : s.catalog.require request.source = .ok source) (hmode : params.mutation = false)
      (hresult : (s.resultColumns (clock 0) source request.query params).1 = .error e) :
      s.Executes request sink clock t
        (.error e, (s.resultColumns (clock 0) source request.query params).2, t)
  | responded {params : Parameters} {source : DataSource} {result : Table}
      (hparams : Parameters.ofEntries s.settings request.params = .ok params)
      (hsource : s.catalog.require request.source = .ok source) (hmode : params.mutation = false)
      (hresult : (s.resultColumns (clock 0) source request.query params).1 = .ok result) :
      s.Executes request sink clock t
        ((s.respond source request params result sink clock t).1,
          (s.resultColumns (clock 0) source request.query params).2,
          (s.respond source request params result sink clock t).2)

/-- The cases are exclusive: what a request comes to in any of them is what it comes to. -/
theorem Executes.execute_eq {answer : Except Error Stats × QueryService × τ}
    (h : s.Executes request sink clock t answer) : s.execute request sink clock t = answer := by
  cases h with
  | parametersRefused hparams =>
      unfold execute
      rw [hparams]
  | sourceUnknown hparams hsource =>
      unfold execute
      rw [hparams, hsource]
  | mutationRefused hparams hsource hmode hmutate | mutated hparams hsource hmode hmutate =>
      unfold execute
      rw [hparams, hsource]
      dsimp only
      rw [if_pos hmode, hmutate]
  | @columnsUnknown params source _ hparams hsource hmode hresult =>
      rcases hcolumns : s.resultColumns (clock 0) source request.query params with ⟨found, s'⟩
      rw [hcolumns] at hresult
      cases hresult
      unfold execute
      rw [hparams, hsource]
      dsimp only
      rw [hmode, hcolumns]
      rfl
  | @responded params source _ hparams hsource hmode hresult =>
      rcases hcolumns : s.resultColumns (clock 0) source request.query params with ⟨found, s'⟩
      have hsettings : s'.settings = s.settings := by
        rw [resultColumns_eq] at hcolumns
        rw [← congrArg (·.2.settings) hcolumns]
      rw [hcolumns] at hresult
      cases hresult
      unfold execute
      rw [hparams, hsource]
      dsimp only
      rw [hmode, hcolumns, ← respond_congr hsettings]
      rfl

/-- Every request comes to one of the cases. -/
theorem executes_execute (s : QueryService) (request : QueryRequest) (sink : Sink τ)
    (clock : Clock) (t : τ) :
    s.Executes request sink clock t (s.execute request sink clock t) := by
  have hcase : ∃ answer, s.Executes request sink clock t answer := by
    rcases hparams : Parameters.ofEntries s.settings request.params with e | params
    · exact ⟨_, .parametersRefused hparams⟩
    rcases hsource : s.catalog.require request.source with e | source
    · exact ⟨_, .sourceUnknown hparams hsource⟩
    cases hmode : params.mutation with
    | true =>
        rcases hmutate : source.mutate request.query params with report | affected
        · exact ⟨_, .mutationRefused hparams hsource hmode hmutate⟩
        · exact ⟨_, .mutated hparams hsource hmode hmutate⟩
    | false =>
        rcases hresult : (s.resultColumns (clock 0) source request.query params).1 with e | result
        · exact ⟨_, .columnsUnknown hparams hsource hmode hresult⟩
        · exact ⟨_, .responded hparams hsource hmode hresult⟩
  obtain ⟨answer, hanswer⟩ := hcase
  rw [hanswer.execute_eq]
  exact hanswer

/-- A request leaves the service as it was, or behind a lookup of its columns. -/
theorem state_execute (s : QueryService) (request : QueryRequest) (sink : Sink τ) (clock : Clock)
    (t : τ) : (s.execute request sink clock t).2.1 = s ∨
    ∃ source params, s.catalog.require request.source = .ok source ∧
      (s.execute request sink clock t).2.1 =
        (s.resultColumns (clock 0) source request.query params).2 := by
  have hanswer := executes_execute s request sink clock t
  generalize s.execute request sink clock t = answer at hanswer ⊢
  cases hanswer with
  | parametersRefused | sourceUnknown | mutationRefused | mutated => exact .inl rfl
  | columnsUnknown _ hsource | responded _ hsource => exact .inr ⟨_, _, hsource, rfl⟩

theorem catalog_execute (s : QueryService) (request : QueryRequest) (sink : Sink τ) (clock : Clock)
    (t : τ) : (s.execute request sink clock t).2.1.catalog = s.catalog := by
  obtain hstate | ⟨source, params, -, hstate⟩ := state_execute s request sink clock t <;> rw [hstate]
  rw [resultColumns_eq]

end Steps

/-! ### What every operation keeps -/

/-- A service that has not been asked yet: nothing is cached, and its data sources, if it has any,
are such as its registry makes. -/
structure Fresh (s : QueryService) : Prop where
  made : ∀ id source, s.catalog.find? id = some source →
    ∃ json, s.registry.create id json = .ok source
  empty : s.cache.slots = []

theorem fresh_new (registry : Registry) (cache : SchemaCache) (settings : QuerySettings)
    (h : cache.slots = []) : (new registry cache settings).Fresh := by
  refine ⟨?_, h⟩
  intro id source hsource
  cases hsource

/-- Every data source is made by the registry, and schemas are cached for configured data sources
only. -/
structure Kept (s : QueryService) : Prop where
  made : ∀ id source, s.catalog.find? id = some source →
    ∃ json, s.registry.create id json = .ok source
  configured : ∀ slot ∈ s.cache.slots, slot.key.source ∈ s.catalog.ids

section Kept

variable {s : QueryService}

theorem Fresh.kept (h : s.Fresh) : s.Kept := by
  refine ⟨h.made, ?_⟩
  rw [h.empty]
  simp

theorem Kept.id_eq (h : s.Kept) (hids : s.registry.KeepsIds) {id : String} {source : DataSource}
    (hsource : s.catalog.require id = .ok source) : source.id = id := by
  obtain ⟨json, hjson⟩ := h.made id source (Catalog.require_ok_iff.1 hsource)
  exact hids id json source hjson

theorem invalidateAll_eq (cache : SchemaCache) (ids : List String) :
    invalidateAll cache ids =
      { cache with slots := cache.slots.filter fun slot => slot.key.source ∉ ids } := by
  induction ids generalizing cache with
  | nil =>
      have hall : cache.slots.filter (fun slot => slot.key.source ∉ []) = cache.slots :=
        List.filter_eq_self.2 (by simp)
      rw [hall]
      rfl
  | cons id rest ih =>
      -- One id is forgotten before the others: two filters, one behind the other.
      have hstep : invalidateAll cache (id :: rest) = invalidateAll (cache.invalidate id) rest := rfl
      have hboth : (cache.slots.filter fun slot => slot.key.source != id).filter
          (fun slot => slot.key.source ∉ rest) =
            cache.slots.filter fun slot => slot.key.source ∉ id :: rest := by
        rw [List.filter_filter]
        apply List.filter_congr
        intro slot _
        by_cases hid : slot.key.source = id <;> simp [hid]
      rw [hstep, ih, ← hboth]
      rfl

theorem invalidateAll_eq_clear {cache : SchemaCache} {ids : List String}
    (h : ∀ slot ∈ cache.slots, slot.key.source ∈ ids) : invalidateAll cache ids = cache.clear := by
  have hnone : (cache.slots.filter fun slot => slot.key.source ∉ ids) = [] := by
    rw [List.filter_eq_nil_iff]
    intro slot hslot
    simp [h slot hslot]
  rw [invalidateAll_eq, hnone]
  rfl

/-- A configuration is refused without effect, or replaces the catalog and empties the cache. -/
theorem Kept.load_cases (h : s.Kept) (c : Configuration) :
    (∃ e, c.catalog s.registry = .error e ∧ s.load c = (.error e, s)) ∨
      ∃ catalog, c.catalog s.registry = .ok catalog ∧ s.load c =
        (.ok catalog.sources.length, { s with catalog := catalog, cache := s.cache.clear }) := by
  rw [load_eq]
  rcases c.catalog s.registry with e | catalog
  · exact .inl ⟨e, rfl, rfl⟩
  · have hempty : invalidateAll s.cache (s.catalog.ids ++ catalog.ids) = s.cache.clear := by
      apply invalidateAll_eq_clear
      intro slot hslot
      exact List.mem_append_left _ (h.configured slot hslot)
    refine .inr ⟨catalog, rfl, ?_⟩
    rw [← hempty]
    rfl

theorem Kept.load (h : s.Kept) (c : Configuration) : (s.load c).2.Kept := by
  obtain ⟨e, -, hload⟩ | ⟨catalog, hcatalog, hload⟩ := h.load_cases c
  · rw [hload]
    exact h
  · obtain ⟨entries, -, hentries⟩ := Configuration.catalog_ok_iff.1 hcatalog
    rw [hload]
    refine ⟨?_, by simp [SchemaCache.clear]⟩
    intro id source hsource
    exact (Catalog.describes_of_addAll hentries).created hsource

theorem Kept.resultColumns (h : s.Kept) (hids : s.registry.KeepsIds) {id : String}
    {source : DataSource} (hsource : s.catalog.require id = .ok source) (now : Nat)
    (query : String) (params : Parameters) :
    (s.resultColumns now source query params).2.Kept := by
  refine ⟨h.made, ?_⟩
  intro slot hslot
  rcases SchemaCache.mem_get hslot with hold | ⟨hkey, -⟩
  · exact h.configured slot hold
  · rw [hkey, h.id_eq hids hsource]
    exact Catalog.mem_ids_iff.2 ⟨source, Catalog.require_ok_iff.1 hsource⟩

theorem Kept.perform (h : s.Kept) (hids : s.registry.KeepsIds) (op : Operation) :
    (s.perform op).2.Kept := by
  cases op with
  | load c => exact h.load c
  | clearCache => exact ⟨h.made, by simp [QueryService.perform, SchemaCache.clear]⟩
  | invalidate source =>
      refine ⟨h.made, ?_⟩
      intro slot hslot
      exact h.configured slot (SchemaCache.mem_invalidate.1 hslot).1
  | execute request sink clock t =>
      change (s.execute request sink clock t).2.1.Kept
      obtain hstate | ⟨source, params, hsource, hstate⟩ := state_execute s request sink clock t
      · rw [hstate]
        exact h
      · rw [hstate]
        exact h.resultColumns hids hsource _ _ _

theorem frame_perform (s : QueryService) (op : Operation) :
    (s.perform op).2.registry = s.registry ∧ (s.perform op).2.settings = s.settings := by
  cases op with
  | load c =>
      change (s.load c).2.registry = s.registry ∧ (s.load c).2.settings = s.settings
      rw [load_eq]
      rcases c.catalog s.registry with e | catalog <;> exact ⟨rfl, rfl⟩
  | clearCache => exact ⟨rfl, rfl⟩
  | invalidate source => exact ⟨rfl, rfl⟩
  | execute request sink clock t =>
      change (s.execute request sink clock t).2.1.registry = s.registry ∧
        (s.execute request sink clock t).2.1.settings = s.settings
      obtain hstate | ⟨source, params, -, hstate⟩ := state_execute s request sink clock t
      · rw [hstate]
        exact ⟨rfl, rfl⟩
      · rw [hstate]
        exact ⟨rfl, rfl⟩

theorem performAll_keeps {P : QueryService → Prop} (hstep : ∀ u op, P u → P (u.perform op).2)
    (h : P s) (ops : List Operation) : P (s.performAll ops).2 := by
  induction ops generalizing s with
  | nil => exact h
  | cons op ops ih => exact ih (hstep s op h)

theorem Kept.performAll (h : s.Kept) (hids : s.registry.KeepsIds) (ops : List Operation) :
    (s.performAll ops).2.Kept ∧ (s.performAll ops).2.registry = s.registry := by
  apply performAll_keeps (P := fun u => u.Kept ∧ u.registry = s.registry) _ ⟨h, rfl⟩
  rintro u op ⟨hkept, hregistry⟩
  exact ⟨hkept.perform (hregistry ▸ hids) op, (frame_perform u op).1.trans hregistry⟩

end Kept

/-- However a service has come about, schemas are cached for configured data sources only.
A configuration that is refused leaves the service as it was. One that is taken over leaves just the
data sources of its entries, and nothing in the cache; it is taken over when each of its entries is
accepted. -/
theorem load_all_or_nothing {start s : QueryService} {ops : List Operation}
    (hids : start.registry.KeepsIds) (hfresh : start.Fresh)
    (hops : (start.performAll ops).2 = s) :
    (∀ slot ∈ s.cache.slots, slot.key.source ∈ s.catalog.ids) ∧
    (∀ c e, (s.load c).1 = .error e → (s.load c).2 = s) ∧
    (∀ c n, (s.load c).1 = .ok n →
      (∃ entries, c.entries? = some entries ∧
        (s.load c).2.catalog.Describes start.registry entries) ∧
      n = (s.load c).2.catalog.ids.length ∧ (s.load c).2.cache = s.cache.clear) ∧
    ∀ c, (∃ n, (s.load c).1 = .ok n) ↔ ∃ entries, c.entries? = some entries ∧
      ∀ entry ∈ entries, ∃ source, start.registry.create entry.1 entry.2 = .ok source := by
  obtain ⟨hkept, hregistry⟩ := hfresh.kept.performAll hids ops
  rw [hops] at hkept hregistry
  refine ⟨hkept.configured, ?_, ?_, ?_⟩
  · intro c e herror
    obtain ⟨e', -, hload⟩ | ⟨catalog, -, hload⟩ := hkept.load_cases c
    · rw [hload]
    · rw [hload] at herror
      cases herror
  · intro c n hok
    obtain ⟨e', -, hload⟩ | ⟨catalog, hcatalog, hload⟩ := hkept.load_cases c
    · rw [hload] at hok
      cases hok
    · rw [hload] at hok ⊢
      cases hok
      obtain ⟨entries, hobject, hentries⟩ := Configuration.catalog_ok_iff.1 hcatalog
      rw [hregistry] at hentries
      exact ⟨⟨entries, hobject, Catalog.describes_of_addAll hentries⟩, (Catalog.length_ids _).symm,
        rfl⟩
  · intro c
    have haccepted : (∃ n, (s.load c).1 = .ok n) ↔
        ∃ catalog, c.catalog start.registry = .ok catalog := by
      rw [load_eq, hregistry]
      rcases c.catalog start.registry with e | catalog <;> simp [adopt]
    rw [haccepted]
    constructor
    · rintro ⟨catalog, hcatalog⟩
      obtain ⟨entries, hobject, hentries⟩ := Configuration.catalog_ok_iff.1 hcatalog
      exact ⟨entries, hobject, Catalog.addAll_ok_iff.1 ⟨catalog, hentries⟩⟩
    · rintro ⟨entries, hobject, hcreated⟩
      obtain ⟨catalog, hentries⟩ := Catalog.addAll_ok_iff.2 hcreated
      exact ⟨catalog, Configuration.catalog_ok_iff.2 ⟨entries, hobject, hentries⟩⟩

end Zones

def numbersConfiguration : Configuration :=
  .json (.obj [("numbers", .obj [("type", .str "values"),
    ("columns", .arr [.obj [("name", .str "n"), ("type", .str "UInt8"),
      ("nullable", .bool false)]]),
    ("rows", .arr [.arr [.ofInt 5], .arr [.ofInt 7]])])])

def untypedEntry : Configuration :=
  .json (.obj [("letters", .obj [("type", .str "values"),
    ("columns", .arr [.obj [("name", .str "c"), ("type", .str "String")]])]), ("digits", .obj [])])

def numbersRequest : QueryRequest := ⟨"numbers", "all", none, []⟩

def numbersService : QueryService :=
  ((new .builtin (.ofSettings {}) {}).performAll
    [.load numbersConfiguration, .execute numbersRequest Collector.sink (.still 0) {}]).2

/-- The data source stays configured and its columns stay cached when another configuration is
refused for its second entry. Loaded again, the first configuration empties the cache. -/
theorem load_all_or_nothing_numbers :
    numbersService.cache.slots.map CacheSlot.key = [⟨"numbers", "all"⟩] ∧
      (∀ slot ∈ numbersService.cache.slots, slot.key.source ∈ numbersService.catalog.ids) ∧
      (numbersService.load untypedEntry).2 = numbersService ∧
      (numbersService.load numbersConfiguration).2.cache.slots = [] := by
  have hfresh := fresh_new .builtin (.ofSettings {}) {} rfl
  obtain ⟨hkeys, hrefused, htaken, -⟩ := load_all_or_nothing Registry.keepsIds_builtin hfresh
    (show _ = numbersService from rfl)
  obtain ⟨e, he⟩ := error_of_toOption
    (show (numbersService.load untypedEntry).1.toOption = none by decide +kernel)
  have hok : (numbersService.load numbersConfiguration).1 = .ok 1 := ok_of_toOption (by decide +kernel)
  refine ⟨by decide +kernel, hkeys, hrefused untypedEntry e he, ?_⟩
  exact congrArg SchemaCache.slots (htaken numbersConfiguration 1 hok).2.2

end QueryService

end RowStream
