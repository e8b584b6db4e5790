import RowStream.Proofs.Service.Rows
import RowStream.Proofs.Service.Transparency
import RowStream.Proofs.Stream.Parameters
import RowStream.Proofs.Stream.SingleRow

/-!
# Answers read back

The columns of an answer are found twice: when it is written, with the settings and the cache of the
service and with defaults merged into the requested columns, and when it is read, from the request
alone. The two agree on whatever a cell is read by, so that every answer is read to its end, as many
rows as it counts. Instants outside of the calendar are the only cells without a text.
-/

namespace RowStream

namespace StreamRequest

variable [Zone.Catalogue] {σ τ : Type} {r : StreamRequest} {source : RowSource σ} {sink : Sink τ}
  {clock : Clock}

/-- No row that the source emits has ticks of an instant outside of the calendar. -/
def StaysInCalendar (r : StreamRequest) (source : RowSource σ) (s : σ) : Prop :=
  ∀ resolved s₀ rows s₁, r.resolve = .ok resolved → source.Advances r.skipped s s₀ →
    r.EmitsRows source resolved s₀ rows s₁ →
    ∀ row ∈ rows, ∀ p ∈ r.requested.columns.zip row, ∀ value,
      p.2.bytes = notNullFlag p.1 ++ value → ¬ p.1.OutsideCalendar value

theorem staysInCalendar_of_emitsRows {resolved : List ResolvedColumn} {s s₀ s₁ s₂ : σ}
    {rows : List (List EmittedCell)} (hresolve : r.resolve = .ok resolved)
    (hskip : source.Advances r.skipped s s₀) (hrows : r.EmitsRows source resolved s₀ rows s₁)
    (hend : source.EndsAt (r.onRow rows.length) s₁ s₂)
    (hinside : ∀ row ∈ rows, ∀ p ∈ r.requested.columns.zip row, ∀ value,
      p.2.bytes = notNullFlag p.1 ++ value → ¬ p.1.OutsideCalendar value) :
    r.StaysInCalendar source s := by
  intro resolved' s₀' rows' s₁' hresolve' hskip' hrows' row hrow
  rw [hresolve] at hresolve'
  cases hresolve'
  cases hskip.unique hskip'
  exact hinside row ((hrows'.isPrefix_of_endsAt hrows hend).subset hrow)

/-- What a run that succeeds has delivered is read as so many rows as it reports. -/
theorem readsBack_of_run_ok {s : σ} {t : τ} {stats : Stats} {ends : σ × τ}
    (hcolumns : r.requested.columns ≠ []) (hreach : ∀ c ∈ r.requested.columns, c.Reachable)
    (hsource : source.WritesValues r.requested.columns) (hinside : r.StaysInCalendar source s)
    (hrun : (r.run source sink clock).runFrom (s, t) = (.ok stats, ends)) :
    r.requested.ReadsBack (r.deliveries source sink clock s t) stats.rows := by
  obtain ⟨resolved, s₀, s₁, emitted, hresolve, hskip, hemits, hcount, hlog, hcells⟩ :=
    cellReads_of_run_ok hreach hsource hrun
  have hrows : ∀ chunk ∈ emitted.map rowBytes, ∃ row, r.requested.ReadsRow chunk row := by
    intro chunk hchunk
    obtain ⟨cells, hmem, rfl⟩ := List.mem_map.1 hchunk
    obtain ⟨hlength, hreads⟩ := hcells cells hmem
    have htexts : List.Forall₂ Column.ReadsText r.requested.columns
        (cells.map EmittedCell.bytes) := by
      rw [List.forall₂_map_right_iff, List.forall₂_iff_zip]
      refine ⟨hlength.symm, ?_⟩
      intro c cell hzip
      exact (hreads (c, cell) hzip).reads.readsText
        (hinside resolved s₀ emitted s₁ hresolve hskip hemits cells hmem (c, cell) hzip)
    exact Table.exists_readsRow hcolumns htexts
  obtain ⟨rows, hreads, hlength⟩ := Table.exists_readsRows hrows
  rw [hlog]
  refine ⟨?_, rows, ?_, ?_⟩
  · intro d hd
    obtain ⟨batch, -, rfl⟩ := List.mem_map.1 hd
    rfl
  · rw [flatMap_batch_batches r.batchSize_pos, List.flatMap_def]
    exact hreads
  · rw [hlength, List.length_map, hcount]

end StreamRequest

namespace QueryService

section Zones

variable [Zone.Catalogue] {τ : Type} {s : QueryService} {request : QueryRequest}
  {source : DataSource} {params : Parameters} {result : Table} {sink : Sink τ} {clock : Clock}
  {t : τ}

/-- The stream by which a request is answered, and the rows that it reads. -/
inductive Streams (s : QueryService) (request : QueryRequest) (now : Nat) :
    StreamRequest → OpenRows → Prop
  | mk {source : DataSource} {params : Parameters} {result requested : Table} {rows : OpenRows}
      (hparams : Parameters.ofEntries s.settings request.params = .ok params)
      (hsource : s.catalog.require request.source = .ok source)
      (hmutation : params.mutation = false) (hdebug : params.debug = false)
      (hresult : (s.resultColumns now source request.query params).1 = .ok result)
      (hrequested : requestedColumns request result = .ok requested)
      (hrows : source.openRows request.query result params = .ok rows) :
      s.Streams request now (streamOf source requested result params) rows

theorem readsBack_of_sendDescription {texts : List String} {t' : τ} {stats : Stats}
    (hlength : texts.length = 6)
    (h : (sendDescription texts sink clock).runFrom t = (.ok stats, t')) :
    debugTable.ReadsBack ((sendDescription texts sink.logged clock).runFrom (t, [])).2.2
      stats.rows := by
  obtain ⟨batch, hbatch, htakes, rfl⟩ := takes_of_runFrom_sendDescription h
  have htexts : List.Forall₂ Column.ReadsText debugTable.columns batch :=
    readsText_plainColumns hlength hbatch
  obtain ⟨row, hrow⟩ := Table.exists_readsRow (List.cons_ne_nil _ _) htexts
  have hone : ∀ chunk ∈ [batch.flatten], ∃ row, debugTable.ReadsRow chunk row := by
    intro chunk hchunk
    rw [List.mem_singleton.1 hchunk]
    exact ⟨row, hrow⟩
  obtain ⟨rows, hrows, hcount⟩ := Table.exists_readsRows hone
  rw [runFrom_sendDescription_of_takes hbatch (Sink.takes_logged [] htakes)]
  refine ⟨by simp, rows, ?_, hcount⟩
  simpa using hrows

theorem readsBack_of_respond_debug {stats : Stats} (hdebug : params.debug = true)
    (h : (s.respond source request params result sink clock t).1 = .ok stats) :
    debugTable.ReadsBack (s.respond source request params result sink.logged clock (t, [])).2.2
      stats.rows := by
  unfold respond at h ⊢
  split at h
  · cases h
  · dsimp only at h ⊢
    rw [if_pos hdebug] at h ⊢
    exact readsBack_of_sendDescription rfl (Prod.ext h rfl)

theorem readsBack_of_respond_values {v : FixedValues} {requested : Table} {stats : Stats}
    (hdebug : params.debug = false) (hrequested : requestedColumns request v.columns = .ok requested)
    (hcolumns : requested.columns ≠ []) (hreach : ∀ c ∈ requested.columns, c.Reachable)
    (hinside : (streamOf v.dataSource requested v.columns params).StaysInCalendar Cursor.source
      v.cursor)
    (h : (s.respond v.dataSource request params v.columns sink clock t).1 = .ok stats) :
    requested.ReadsBack
      (s.respond v.dataSource request params v.columns sink.logged clock (t, [])).2.2
      stats.rows := by
  unfold respond at h ⊢
  rw [hrequested] at h ⊢
  dsimp only at h ⊢
  rw [hdebug, if_neg Bool.false_ne_true] at h ⊢
  have hrun : ((streamOf v.dataSource requested v.columns params).run Cursor.source sink
      clock).runFrom (v.cursor, t) = (.ok stats, _) := Prod.ext h rfl
  exact StreamRequest.readsBack_of_run_ok hcolumns hreach (Cursor.writesValues_source _) hinside hrun

/-- The columns of an answer in rows are found from the request alone, up to their defaults and
their places. -/
theorem answerColumns_of_requestedColumns {requested : Table}
    (hparams : Parameters.ofEntries s.settings request.params = .ok params)
    (hsource : s.catalog.require request.source = .ok source)
    (hmutation : params.mutation = false) (hdebug : params.debug = false)
    (hinfer : ∀ params, source.infer request.query params = .ok result)
    (hresult : ∀ c ∈ result.columns, c.Reachable)
    (hrequested : requestedColumns request result = .ok requested) :
    ∃ columns, s.answerColumns request = .ok columns ∧ columns.columns ≠ [] ∧
      (∀ c ∈ columns.columns, c.Reachable) ∧
      Table.ReadsAlike columns.columns requested.columns := by
  obtain ⟨params', hparams', hmode⟩ := Parameters.exists_sameMode_ofEntries hparams {}
  unfold answerColumns
  rw [hparams']
  dsimp only
  rw [← hmode.mutation, hmutation, ← hmode.debug, hdebug, hsource]
  unfold requestedColumns at hrequested
  cases hnamed : request.requested? with
  | none =>
      rw [hnamed] at hrequested
      obtain ⟨hcolumns, halike⟩ := Table.readsAlike_finalize hrequested
      exact ⟨result, hinfer params', hcolumns, hresult, halike⟩
  | some text =>
      rw [hnamed] at hrequested
      dsimp only at hrequested
      split at hrequested
      · cases hrequested
      · next table htable =>
          obtain ⟨hcolumns, halike⟩ := Table.readsAlike_finalize hrequested
          have hmerged := Table.readsAlike_mergeValues table result.columns
          refine ⟨table, ?_, hmerged.ne_nil_iff.1 hcolumns, Table.reachable_of_ofText htable,
            hmerged.trans halike⟩
          simp [htable]
          rfl

theorem answerColumns_of_debug (hparams : Parameters.ofEntries s.settings request.params = .ok params)
    (hmutation : params.mutation = false) (hdebug : params.debug = true) :
    s.answerColumns request = .ok debugTable := by
  obtain ⟨params', hparams', hmode⟩ := Parameters.exists_sameMode_ofEntries hparams {}
  unfold answerColumns
  rw [hparams']
  dsimp only
  rw [← hmode.mutation, hmutation, ← hmode.debug, hdebug]
  rfl

theorem Kept.exists_fixedValues (h : s.Kept) (hbuiltin : s.registry = .builtin) {id : String}
    (hsource : s.catalog.require id = .ok source) :
    ∃ v : FixedValues, source = v.dataSource ∧ ∀ c ∈ v.columns.columns, c.Reachable := by
  obtain ⟨json, hjson⟩ := h.made id source (Catalog.require_ok_iff.1 hsource)
  rw [hbuiltin] at hjson
  obtain ⟨type, v, -, -, hv, hmade⟩ := Registry.create_builtin_ok_iff.1 hjson
  exact ⟨v, hmade, FixedValues.reachable_of_ofJson hv⟩

theorem Current.exists_readsBack (h : s.Current) (hbuiltin : s.registry = .builtin)
    {s' : QueryService} {t' : τ} {stats : Stats}
    (hrun : s.execute request sink clock t = (.ok stats, s', t'))
    (hinside : ∀ stream rows, s.Streams request (clock 0) stream rows →
      stream.StaysInCalendar rows.source rows.start) :
    ∃ columns, s.answerColumns request = .ok columns ∧ columns.columns ≠ [] ∧
      columns.ReadsBack (s.deliveries request sink clock t) stats.rows := by
  have hanswer := executes_execute s request sink clock t
  rw [hrun] at hanswer
  generalize hend : (Except.ok stats, s', t') = answer at hanswer
  cases hanswer with
  | parametersRefused | sourceUnknown | mutationRefused | columnsUnknown => cases hend
  | mutated hparams hsource hmode hmutate =>
      -- Fixed values refuse every mutation.
      obtain ⟨v, rfl, -⟩ := h.exists_fixedValues hbuiltin hsource
      cases hmutate
  | @responded params source result hparams hsource hmode hresult =>
      obtain ⟨v, rfl, hreach⟩ := h.exists_fixedValues hbuiltin hsource
      have hids : s.registry.KeepsIds := hbuiltin ▸ Registry.keepsIds_builtin
      have hfound := h.resultColumns_answer hids hsource (clock 0) request.query params
      rw [hresult] at hfound
      cases hfound
      have hok : (s.respond v.dataSource request params v.columns sink clock t).1 = .ok stats :=
        congrArg Prod.fst hend.symm
      have hlog : s.deliveries request sink clock t =
          (s.respond v.dataSource request params v.columns sink.logged clock (t, [])).2.2 := by
        unfold deliveries
        rw [(Executes.responded hparams hsource hmode hresult).execute_eq]
      rw [hlog]
      cases hdebug : params.debug with
      | true =>
          exact ⟨debugTable, answerColumns_of_debug hparams hmode hdebug, List.cons_ne_nil _ _,
            readsBack_of_respond_debug hdebug hok⟩
      | false =>
          rcases hrequested : requestedColumns request v.columns with e | requested
          · unfold respond at hok
            rw [hrequested] at hok
            cases hok
          · obtain ⟨columns, hcolumns, hsome, hcolumnsReach, halike⟩ :=
              answerColumns_of_requestedColumns hparams hsource hmode hdebug (fun _ => rfl) hreach
                hrequested
            have hstays := hinside _ _ (.mk hparams hsource hmode hdebug hresult hrequested rfl)
            have hreads := readsBack_of_respond_values hdebug hrequested (halike.ne_nil_iff.2 hsome)
              (halike.reachable hcolumnsReach) hstays hok
            exact ⟨columns, hcolumns, hsome, hreads.congr halike.readers⟩

/-- However a service has come about, the answer to a request that succeeds is read back with the
columns that the request alone gives: without an error, to the last byte, as many rows as it counts,
provided that no instant of it lies outside of the calendar. -/
theorem readRows_of_execute_ok {start s' : QueryService} {ops : List Operation} {t' : τ}
    {stats : Stats} (hbuiltin : start.registry = .builtin) (hfresh : start.Fresh)
    (hops : (start.performAll ops).2 = s)
    (hrun : s.execute request sink clock t = (.ok stats, s', t'))
    (hinside : ∀ stream rows, s.Streams request (clock 0) stream rows →
      stream.StaysInCalendar rows.source rows.start) :
    ∃ columns rows, s.answerColumns request = .ok columns ∧ columns.columns ≠ [] ∧
      (∀ d ∈ s.deliveries request sink clock t, d.written = true) ∧
      columns.ReadsRows ((s.deliveries request sink clock t).flatMap Delivery.batch) rows ∧
      columns.readRows (.ofBytes ((s.deliveries request sink clock t).flatMap Delivery.batch)) =
        (rows, none) ∧
      rows.length = stats.rows := by
  obtain ⟨hcurrent, hregistry⟩ := hfresh.current.performAll
    (hbuiltin ▸ Registry.keepsIds_builtin) (hbuiltin ▸ Registry.infersFromQuery_builtin) ops
  rw [hops] at hcurrent hregistry
  obtain ⟨columns, hcolumns, hsome, hwritten, rows, hrows, hcount⟩ :=
    hcurrent.exists_readsBack (hregistry.trans hbuiltin) hrun hinside
  exact ⟨columns, rows, hcolumns, hsome, hwritten, hrows, hrows.readRows, hcount⟩

end Zones

def eventColumn : Column :=
  { name := "at"
    type := .dateTime64
    nullable := true
    length := 0
    precision := 23
    scale := 3
    zone := none
    options := []
    cell := ⟨"at", .dateTime64, .int64 1, .int64 1, 3⟩
    declared := false
    index := none }

def events : FixedValues :=
  { id := "events"
    columns := Table.ofColumns [eventColumn]
    rows := [[some (.int64 1500)], [none]]
    custom := Table.empty
    defaults := Defaults.initial
    zone := none }

def eventsJson : Json :=
  .obj [("type", .str "values"),
    ("columns", .arr [.obj [("name", .str "at"), ("type", .str "DateTime64"),
      ("scale", .ofInt 3)]]),
    ("rows", .arr [.arr [.ofInt 1500], .arr [.null]])]

def eventsService : QueryService :=
  ⟨.builtin, ⟨[("events", events.dataSource)]⟩, .ofSettings {}, {}⟩

def eventsRequest : QueryRequest := ⟨"events", "all", none, [("batch_size", "1")]⟩

def eventsParameters : Parameters := { Parameters.ofSettings {} with batchSize := 1 }

def eventsStream : StreamRequest :=
  streamOf events.dataSource (Table.ofColumns [{ eventColumn with index := some 0 }]) events.columns
    eventsParameters

def eventsColumns : List ResolvedColumn :=
  [⟨{ eventColumn with index := some 0 }, .result 0, { precision := some 23, scale := some 3 }⟩]

theorem fresh_eventsService : eventsService.Fresh := by
  have hvalues : FixedValues.ofJson "events" eventsJson = .ok events :=
    ok_of_toOption (by decide +kernel)
  refine ⟨?_, rfl⟩
  intro id source hsource
  have hfind : List.lookup id [("events", events.dataSource)] = some source := hsource
  rw [List.lookup_cons] at hfind
  split at hfind
  · next hid =>
      cases hfind
      cases eq_of_beq hid
      exact ⟨eventsJson, Registry.create_builtin_ok_iff.2
        ⟨"values", events, rfl, by decide +kernel, hvalues, rfl⟩⟩
  · cases hfind

theorem staysInCalendar_eventsStream :
    eventsStream.StaysInCalendar Cursor.source events.cursor := by
  have hresolve : eventsStream.resolve = .ok eventsColumns := by decide
  have hfirst : eventsStream.EmitsRows Cursor.source eventsColumns events.cursor
      ([] ++ [[⟨false, [0, 220, 5, 0, 0, 0, 0, 0, 0]⟩]])
      { events.cursor with current := some 0 } :=
    .snoc .none (.advances rfl) (.cons (.value rfl rfl rfl) (.nil _))
  have hsecond : eventsStream.EmitsRows Cursor.source eventsColumns events.cursor
      ([[⟨false, [0, 220, 5, 0, 0, 0, 0, 0, 0]⟩]] ++ [[⟨true, [1]⟩]])
      { events.cursor with current := some 1 } :=
    .snoc hfirst (.advances rfl) (.cons (.nullFlag rfl rfl rfl) (.nil _))
  apply StreamRequest.staysInCalendar_of_emitsRows hresolve (.zero _) hsecond ⟨rfl, rfl⟩
  intro row hrow p hp value hvalue houtside
  rcases List.mem_cons.1 hrow with rfl | hrow
  · rw [List.mem_singleton.1 hp] at hvalue houtside
    have hticks : [0, 220, 5, 0, 0, 0, 0, 0, 0] = 0 :: value := hvalue
    cases hticks
    exact absurd houtside.instant (by decide)
  · rw [List.mem_singleton.1 hrow] at hp
    rw [List.mem_singleton.1 hp] at hvalue
    cases hvalue

theorem eq_eventsStream {stream : StreamRequest} {rows : OpenRows} {now : Nat}
    (h : eventsService.Streams eventsRequest now stream rows) :
    stream = eventsStream ∧ rows = ⟨Cursor, Cursor.source, events.cursor⟩ := by
  have hsource : eventsService.catalog.require eventsRequest.source = .ok events.dataSource := rfl
  have hparams : Parameters.ofEntries eventsService.settings eventsRequest.params =
      .ok eventsParameters := ok_of_toOption (by decide +kernel)
  have hresult := fresh_eventsService.current.resultColumns_answer Registry.keepsIds_builtin hsource
    now eventsRequest.query eventsParameters
  have hrequested : requestedColumns eventsRequest events.columns =
      .ok (Table.ofColumns [{ eventColumn with index := some 0 }]) :=
    ok_of_toOption (by decide +kernel)
  cases h with
  | mk hparams' hsource' _ _ hresult' hrequested' hrows =>
      cases hsource.symm.trans hsource'
      cases hparams.symm.trans hparams'
      cases hresult.symm.trans hresult'
      cases hrequested.symm.trans hrequested'
      cases hrows
      exact ⟨rfl, rfl⟩

theorem readRows_of_execute_ok_events :
    ∃ columns rows, eventsService.answerColumns eventsRequest = .ok columns ∧
      columns.readRows (.ofBytes
        ((eventsService.deliveries eventsRequest Collector.sink (.still 0) {}).flatMap
          Delivery.batch)) = (rows, none) ∧ rows.length = 2 := by
  have hok : (eventsService.execute eventsRequest Collector.sink (.still 0) {}).1 =
      .ok { rows := 2, batches := 2, bytes := 10 } := ok_of_toOption (by decide +kernel)
  have hinside : ∀ stream rows, eventsService.Streams eventsRequest (Clock.still 0 0) stream rows →
      stream.StaysInCalendar rows.source rows.start := by
    intro stream rows hstreams
    obtain ⟨rfl, rfl⟩ := eq_eventsStream hstreams
    exact staysInCalendar_eventsStream
  obtain ⟨columns, rows, hcolumns, -, -, -, hread, hcount⟩ :=
    readRows_of_execute_ok rfl fresh_eventsService
      (show (eventsService.performAll []).2 = eventsService from rfl) (Prod.ext hok rfl) hinside
  exact ⟨columns, rows, hcolumns, hread, hcount⟩

end QueryService

end RowStream
