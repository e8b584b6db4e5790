import RowStream.Proofs.Service.Operation

/-!
# Answers with and without a cache

A cached schema is answered in the place of the one that a data source would infer. It is the same
as long as the data source of its key is still configured as it was, and that is what every
operation keeps (`Current`): a hit, a miss, an inference that fails, a slot that expires or is
evicted, a configuration that is refused or taken over. So what a service shows of its operations
does not depend on its cache.
-/

namespace RowStream

/-- The columns that a data source infers depend on its configuration and the query only. -/
def Registry.InfersFromQuery [Zone.Catalogue] (r : Registry) : Prop :=
  ∀ id json source, r.create id json = .ok source →
    ∀ query params params', source.infer query params = source.infer query params'

theorem Registry.infersFromQuery_builtin [Zone.Catalogue] : builtin.InfersFromQuery := by
  intro id json source h query params params'
  obtain ⟨type, v, -, -, -, rfl⟩ := create_builtin_ok_iff.1 h
  rfl

namespace QueryService

section Zones

variable [Zone.Catalogue] {s u : QueryService}

/-- A cached schema is what the data source of its key infers. -/
structure Current (s : QueryService) : Prop extends Kept s where
  schema : ∀ slot ∈ s.cache.slots, ∀ schema, slot.schema = some schema →
    ∀ source, s.catalog.find? slot.key.source = some source →
      ∀ params, source.infer slot.key.query params = .ok schema

theorem Fresh.current (h : s.Fresh) : s.Current := by
  refine ⟨h.kept, ?_⟩
  rw [h.empty]
  simp

section Lookup

variable {id : String} {source : DataSource}

theorem Current.resultColumns_answer (h : s.Current) (hids : s.registry.KeepsIds)
    (hsource : s.catalog.require id = .ok source) (now : Nat) (query : String)
    (params : Parameters) :
    (s.resultColumns now source query params).1 =
      (source.infer query params).mapError (Error.dataAccess source.id) := by
  rw [resultColumns_eq]
  apply SchemaCache.get_answer
  intro slot hslot hkey schema hschema
  have hfind : s.catalog.find? slot.key.source = some source := by
    rw [hkey, h.id_eq hids hsource]
    exact Catalog.require_ok_iff.1 hsource
  have hinfer := h.schema slot hslot schema hschema source hfind params
  rw [hkey] at hinfer
  rw [hinfer]
  rfl

theorem Current.resultColumns (h : s.Current) (hids : s.registry.KeepsIds)
    (hinfers : s.registry.InfersFromQuery) (hsource : s.catalog.require id = .ok source)
    (now : Nat) (query : String) (params : Parameters) :
    (s.resultColumns now source query params).2.Current := by
  refine ⟨h.toKept.resultColumns hids hsource now query params, ?_⟩
  intro slot hslot schema hschema source' hsource' params'
  rcases SchemaCache.mem_get hslot with hold | ⟨hkey, hfound⟩
  · exact h.schema slot hold schema hschema source' hsource' params'
  · -- A schema that is new in the cache was inferred by the data source that is configured now.
    have hinfer := ok_of_mapError (hfound schema hschema)
    have hfind := Catalog.require_ok_iff.1 hsource
    rw [hkey, h.id_eq hids hsource] at hsource'
    have hsame : s.catalog.find? id = some source' := hsource'
    rw [hfind] at hsame
    cases hsame
    obtain ⟨json, hjson⟩ := h.made id source hfind
    rw [hkey, hinfers id json source hjson query params' params]
    exact hinfer

end Lookup

theorem Current.load (h : s.Current) (c : Configuration) : (s.load c).2.Current := by
  obtain ⟨e, -, hload⟩ | ⟨catalog, -, hload⟩ := h.load_cases c
  · rw [hload]
    exact h
  · refine ⟨h.toKept.load c, ?_⟩
    rw [hload]
    simp [SchemaCache.clear]

theorem Current.perform (h : s.Current) (hids : s.registry.KeepsIds)
    (hinfers : s.registry.InfersFromQuery) (op : Operation) : (s.perform op).2.Current := by
  cases op with
  | load c => exact h.load c
  | clearCache =>
      refine ⟨h.toKept.perform hids .clearCache, ?_⟩
      simp [QueryService.perform, SchemaCache.clear]
  | invalidate source =>
      refine ⟨h.toKept.perform hids (.invalidate source), ?_⟩
      intro slot hslot
      exact h.schema slot (SchemaCache.mem_invalidate.1 hslot).1
  | execute request sink clock t =>
      change (s.execute request sink clock t).2.1.Current
      obtain hstate | ⟨source, params, hsource, hstate⟩ := state_execute s request sink clock t
      · rw [hstate]
        exact h
      · rw [hstate]
        exact h.resultColumns hids hinfers hsource _ _ _

theorem Current.performAll (h : s.Current) (hids : s.registry.KeepsIds)
    (hinfers : s.registry.InfersFromQuery) (ops : List Operation) :
    (s.performAll ops).2.Current ∧ (s.performAll ops).2.registry = s.registry := by
  apply performAll_keeps (P := fun u => u.Current ∧ u.registry = s.registry) _ ⟨h, rfl⟩
  rintro u op ⟨hcurrent, hregistry⟩
  exact ⟨hcurrent.perform (hregistry ▸ hids) (hregistry ▸ hinfers) op,
    (frame_perform u op).1.trans hregistry⟩

/-- Two services have the same data sources and settings, and neither has a stale schema. -/
structure Alike (s u : QueryService) : Prop where
  registry : u.registry = s.registry
  catalog : u.catalog = s.catalog
  settings : u.settings = s.settings
  left : s.Current
  right : u.Current

section Alike

variable (hids : s.registry.KeepsIds)

include hids

theorem Alike.resultColumns (h : Alike s u) {id : String} {source : DataSource}
    (hsource : s.catalog.require id = .ok source) (now : Nat) (query : String)
    (params : Parameters) :
    (u.resultColumns now source query params).1 = (s.resultColumns now source query params).1 := by
  rw [h.left.resultColumns_answer hids hsource,
    h.right.resultColumns_answer (h.registry ▸ hids) (h.catalog ▸ hsource)]

theorem Alike.executes {τ : Type} (h : Alike s u) {request : QueryRequest} {sink : Sink τ}
    {clock : Clock} {t t' : τ} {result : Except Error Stats} {s' : QueryService}
    (hleft : s.Executes request sink clock t (result, s', t')) :
    ∃ u', u.Executes request sink clock t (result, u', t') := by
  have hcolumns : ∀ source params, s.catalog.require request.source = .ok source →
      (u.resultColumns (clock 0) source request.query params).1 =
        (s.resultColumns (clock 0) source request.query params).1 := by
    intro source params hsource
    exact h.resultColumns hids hsource (clock 0) request.query params
  cases hleft with
  | parametersRefused hparams =>
      rw [← h.settings] at hparams
      exact ⟨u, .parametersRefused hparams⟩
  | sourceUnknown hparams hsource =>
      rw [← h.settings] at hparams
      rw [← h.catalog] at hsource
      exact ⟨u, .sourceUnknown hparams hsource⟩
  | mutationRefused hparams hsource hmode hmutate =>
      rw [← h.settings] at hparams
      rw [← h.catalog] at hsource
      exact ⟨u, .mutationRefused hparams hsource hmode hmutate⟩
  | mutated hparams hsource hmode hmutate =>
      rw [← h.settings] at hparams
      rw [← h.catalog] at hsource
      exact ⟨u, .mutated hparams hsource hmode hmutate⟩
  | columnsUnknown hparams hsource hmode hresult =>
      rw [← hcolumns _ _ hsource] at hresult
      rw [← h.settings] at hparams
      rw [← h.catalog] at hsource
      exact ⟨_, .columnsUnknown hparams hsource hmode hresult⟩
  | responded hparams hsource hmode hresult =>
      rw [← hcolumns _ _ hsource] at hresult
      rw [← h.settings] at hparams
      rw [← h.catalog] at hsource
      rw [← respond_congr h.settings]
      exact ⟨_, .responded hparams hsource hmode hresult⟩

theorem Alike.execute {τ : Type} (h : Alike s u) (request : QueryRequest) (sink : Sink τ)
    (clock : Clock) (t : τ) :
    (s.execute request sink clock t).1 = (u.execute request sink clock t).1 ∧
      (s.execute request sink clock t).2.2 = (u.execute request sink clock t).2.2 := by
  obtain ⟨u', hright⟩ := h.executes hids (executes_execute s request sink clock t)
  rw [hright.execute_eq]
  exact ⟨rfl, rfl⟩

variable (hinfers : s.registry.InfersFromQuery)

include hinfers

/-- An operation shows the same on either service, and they stay alike. -/
theorem Alike.perform (h : Alike s u) (op : Operation) :
    (s.perform op).1 = (u.perform op).1 ∧ Alike (s.perform op).2 (u.perform op).2 := by
  have hids' : u.registry.KeepsIds := h.registry ▸ hids
  have hinfers' : u.registry.InfersFromQuery := h.registry ▸ hinfers
  have halike : (s.perform op).1 = (u.perform op).1 →
      (u.perform op).2.catalog = (s.perform op).2.catalog →
      (s.perform op).1 = (u.perform op).1 ∧ Alike (s.perform op).2 (u.perform op).2 := by
    intro houtcome hcatalog
    obtain ⟨hregistry, hsettings⟩ := frame_perform s op
    obtain ⟨hregistry', hsettings'⟩ := frame_perform u op
    exact ⟨houtcome, hregistry'.trans (h.registry.trans hregistry.symm), hcatalog,
      hsettings'.trans (h.settings.trans hsettings.symm), h.left.perform hids hinfers op,
      h.right.perform hids' hinfers' op⟩
  cases op with
  | clearCache => exact halike rfl h.catalog
  | invalidate source => exact halike rfl h.catalog
  | load c =>
      have hload : (s.load c).1 = (u.load c).1 ∧ (u.load c).2.catalog = (s.load c).2.catalog := by
        rw [load_eq, load_eq, h.registry]
        rcases c.catalog s.registry with e | catalog
        · exact ⟨rfl, h.catalog⟩
        · exact ⟨rfl, rfl⟩
      exact halike (congrArg Outcome.loaded hload.1) hload.2
  | execute request sink clock t =>
      obtain ⟨hresult, hsink⟩ := h.execute hids request sink clock t
      obtain ⟨-, hlogged⟩ := h.execute hids request sink.logged clock (t, [])
      apply halike
      · change Outcome.answered _ _ _ = Outcome.answered _ _ _
        rw [hresult, hsink]
        exact congrArg _ (congrArg Prod.snd hlogged)
      · change (u.execute request sink clock t).2.1.catalog =
          (s.execute request sink clock t).2.1.catalog
        rw [catalog_execute, catalog_execute]
        exact h.catalog

theorem Alike.performAll (h : Alike s u) (ops : List Operation) :
    (s.performAll ops).1 = (u.performAll ops).1 := by
  induction ops generalizing s u with
  | nil => rfl
  | cons op ops ih =>
      obtain ⟨houtcome, halike⟩ := h.perform hids hinfers op
      have hregistry := (frame_perform s op).1
      have hrest := ih (by rwa [hregistry]) (by rwa [hregistry]) halike
      change _ :: _ = _ :: _
      rw [houtcome, hrest]

end Alike

/-- What a service shows of its operations, from its first on, is what it shows without a cache:
the result of every operation, and of every request the state of its sink and the batches that this
was asked to write. -/
theorem performAll_without_cache {s : QueryService} (hids : s.registry.KeepsIds)
    (hinfers : s.registry.InfersFromQuery) (hfresh : s.Fresh) (ops : List Operation) :
    (s.performAll ops).1 = ({ s with cache := .disabled }.performAll ops).1 := by
  have hdisabled : Fresh { s with cache := .disabled } := ⟨hfresh.made, rfl⟩
  have halike : Alike s { s with cache := .disabled } :=
    ⟨rfl, rfl, rfl, hfresh.current, hdisabled.current⟩
  exact halike.performAll hids hinfers ops

end Zones

def lettersConfiguration : Configuration :=
  .json (.obj [("numbers", .obj [("type", .str "values"),
    ("columns", .arr [.obj [("name", .str "c"), ("type", .str "String")]]),
    ("rows", .arr [.arr [.str "x"]])])])

def reloadedOperations : List Operation :=
  [.load numbersConfiguration, .execute numbersRequest Collector.sink (.still 0) {},
    .execute numbersRequest Collector.sink (.still 1) {}, .load lettersConfiguration,
    .execute numbersRequest Collector.sink (.still 2) {}]

/-- The second request finds its columns in the cache, and the last is answered in the new ones. -/
theorem performAll_without_cache_reloaded :
    ((new .builtin (.ofSettings {}) {}).performAll reloadedOperations).1 =
        ((new .builtin .disabled {}).performAll reloadedOperations).1 ∧
      ((new .builtin (.ofSettings {}) {}).performAll reloadedOperations).2.cache.counts =
        { hits := 1, misses := 2 } ∧
      ((new .builtin .disabled {}).performAll reloadedOperations).2.cache.counts =
        { bypassed := 3 } := by
  refine ⟨?_, by decide +kernel, by decide +kernel⟩
  exact performAll_without_cache Registry.keepsIds_builtin Registry.infersFromQuery_builtin
    (fresh_new _ _ _ rfl) _

end QueryService

end RowStream
