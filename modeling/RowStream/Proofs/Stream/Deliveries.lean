import RowStream.Calendar.Catalogue
import RowStream.Proofs.Stream.Run
import RowStream.Source.Values

/-!
# Deliveries of streams

What a sink is asked to write. A run that succeeds delivers the batches of its rows and nothing
else; a run that fails behind its skip has delivered the first of them, and nothing of the row or
the batch in progress. The log by which `deliveries` is defined changes neither the answer nor the
states of a run, as `runFrom_run_logged` says.
-/

namespace RowStream

namespace StreamRequest

/-- Batches as a sink logs them when it writes them. -/
def written (batches : List (List UInt8)) : List Delivery := batches.map (⟨·, true⟩)

theorem written_firstBatches_all (size : Nat) (rows : List (List EmittedCell)) :
    written (firstBatches size rows (batchCount size rows.length)) =
      (batches size rows).map fun batch => ⟨batch.flatMap rowBytes, true⟩ := by
  rw [firstBatches_eq_take (Nat.le_refl _), written, ← length_batches, List.take_length,
    List.map_map]
  rfl

theorem flatMap_batch_batches {size : Nat} (hsize : 0 < size) (rows : List (List EmittedCell)) :
    ((batches size rows).map fun batch => (⟨batch.flatMap rowBytes, true⟩ : Delivery)).flatMap
      Delivery.batch = rows.flatMap rowBytes := by
  calc ((batches size rows).map fun batch =>
        (⟨batch.flatMap rowBytes, true⟩ : Delivery)).flatMap Delivery.batch
      = (batches size rows).flatMap (List.flatMap rowBytes) := by rw [List.flatMap_map]
    _ = ((batches size rows).flatMap id).flatMap rowBytes := List.flatMap_assoc.symm
    _ = rows.flatMap rowBytes := by rw [List.flatMap_id, flatten_batches hsize rows]

section Zones

variable [Zone.Catalogue] {σ τ : Type} {r : StreamRequest} {source : RowSource σ} {sink : Sink τ}
  {clock : Clock} {columns : List ResolvedColumn} {s s₀ s' : σ} {t t' : τ}

/-- The batches that a run asks its sink to write, in order. -/
def deliveries (r : StreamRequest) (source : RowSource σ) (sink : Sink τ) (clock : Clock) (s : σ)
    (t : τ) : List Delivery :=
  ((r.run source sink.logged clock).runFrom (s, t, [])).2.2.2

section Logged

variable {deadline : Option Nat} {limit : Nat} {rows : List (List EmittedCell)}

theorem handedOver_logged (h : r.HandedOver sink deadline clock t rows t') :
    r.HandedOver sink.logged deadline clock (t, [])
      rows (t', written (firstBatches r.batchSize rows (rows.length / r.batchSize))) := by
  have hlogged := Sink.collects_logged [] h
  rw [List.nil_append] at hlogged
  exact hlogged

theorem StreamEnd.logged {result : Except Error Stats}
    (h : r.StreamEnd source sink deadline clock columns limit s t result s' t') :
    ∃ log, r.StreamEnd source sink.logged deadline clock columns limit s (t, []) result s'
      (t', log) := by
  cases h with
  | finished hrows hend hcount htaken =>
      exact ⟨_, .finished hrows hend hcount (Sink.collects_logged [] htaken)⟩
  | advanceFailed hrows hrow hadvance hcount htaken =>
      exact ⟨_, .advanceFailed hrows hrow hadvance hcount (handedOver_logged htaken)⟩
  | rowFailed hrows hnext hfails hcount htaken =>
      exact ⟨_, .rowFailed hrows hnext hfails hcount (handedOver_logged htaken)⟩
  | rowLimit hrows hnext hcount htaken =>
      exact ⟨_, .rowLimit hrows hnext hcount (handedOver_logged htaken)⟩
  | batchRefused hrows hfull hcount htaken hrefuses =>
      exact ⟨_, .batchRefused hrows hfull hcount (Sink.collects_logged [] htaken)
        (Sink.refuses_logged _ hrefuses)⟩
  | restRefused hrows hend hlow hhigh hcount htaken hrefuses =>
      exact ⟨_, .restRefused hrows hend hlow hhigh hcount (Sink.collects_logged [] htaken)
        (Sink.refuses_logged _ hrefuses)⟩

end Logged

theorem deliveries_of_streamEnd {result : Except Error Stats} {log : List Delivery}
    (hresolve : r.resolve = .ok columns) (hskip : source.Advances r.skipped s s₀)
    (h : r.StreamEnd source sink.logged (deadlineOf sink (clock 0) r.params.timeout t) clock columns
      maxRows s₀ (t, []) result s' (t', log)) :
    r.deliveries source sink clock s t = log := by
  unfold deliveries
  rw [runFrom_run hresolve hskip]
  have hend := h.runFrom_rowsAfter
  exact congrArg (·.2.2.2) hend

/-- The log of a sink changes nothing of a run. -/
theorem runFrom_run_logged (r : StreamRequest) (source : RowSource σ) (sink : Sink τ)
    (clock : Clock) (s : σ) (t : τ) :
    (r.run source sink.logged clock).runFrom (s, t, []) =
      (((r.run source sink clock).runFrom (s, t)).1, ((r.run source sink clock).runFrom (s, t)).2.1,
        ((r.run source sink clock).runFrom (s, t)).2.2, r.deliveries source sink clock s t) := by
  rcases hresolve : r.resolve with e | columns
  · rw [deliveries, runFrom_run_of_resolve_error hresolve, runFrom_run_of_resolve_error hresolve]
  rcases hskip : (r.skip source r.skipped 0 r.skipped).runFrom s with ⟨e | _, s₀⟩
  · rw [deliveries, runFrom_run_of_skip_error hresolve hskip,
      runFrom_run_of_skip_error hresolve hskip]
  have hadvances := advances_of_runFrom_skip hskip
  obtain ⟨log, hend⟩ := (run_endsIn sink clock t hresolve
    hadvances).logged
  rw [deliveries_of_streamEnd hresolve hadvances hend]
  rw [runFrom_run hresolve hadvances]
  exact hend.runFrom_rowsAfter

section Outcome

variable {rows : List (List EmittedCell)} {s₁ s₂ : σ}

/-- A stream of rows to an open sink succeeds. It delivers the rows in batches, each of them full
but for the last, none of them empty, and reports how many it has delivered. -/
theorem run_ok_of_emitsRows (hresolve : r.resolve = .ok columns)
    (hskip : source.Advances r.skipped s s₀) (hrows : r.EmitsRows source columns s₀ rows s₁)
    (hend : source.EndsAt (r.onRow rows.length) s₁ s₂) (hcount : rows.length ≤ maxRows)
    (hsink : sink.StaysOpen t)
    (htime : ∀ n, (deadlineOf sink (clock 0) r.params.timeout t).any (· ≤ clock n) = false) :
    (∃ t', (r.run source sink clock).runFrom (s, t) =
      (.ok { rows := rows.length
             batches := (rows.length + r.batchSize - 1) / r.batchSize
             bytes := (rows.flatMap rowBytes).length }, s₂, t')) ∧
    r.deliveries source sink clock s t =
      (batches r.batchSize rows).map (fun batch => ⟨batch.flatMap rowBytes, true⟩) ∧
    (r.deliveries source sink clock s t).flatMap Delivery.batch = rows.flatMap rowBytes ∧
    (batches r.batchSize rows).length = (rows.length + r.batchSize - 1) / r.batchSize ∧
    (batches r.batchSize rows).flatten = rows ∧
    (∀ batch ∈ (batches r.batchSize rows).dropLast, batch.length = r.batchSize) ∧
    ∀ batch ∈ batches r.batchSize rows, batch ≠ [] ∧ batch.length ≤ r.batchSize := by
  have hsize := r.batchSize_pos
  obtain ⟨t', htaken⟩ := hsink.collects htime
    (firstBatches r.batchSize rows (batchCount r.batchSize rows.length))
  have hends := StreamEnd.finished hrows hend hcount htaken
  have hlogged := StreamEnd.finished hrows hend hcount (Sink.collects_logged [] htaken)
  have hlog : r.deliveries source sink clock s t =
      (batches r.batchSize rows).map (fun batch => ⟨batch.flatMap rowBytes, true⟩) := by
    rw [deliveries_of_streamEnd hresolve hskip hlogged, ← written_firstBatches_all]
    rfl
  refine ⟨⟨t', ?_⟩, hlog, ?_, length_batches _ _, flatten_batches hsize rows, ?_, ?_⟩
  · rw [runFrom_run hresolve hskip]
    exact hends.runFrom_rowsAfter
  · rw [hlog, flatMap_batch_batches hsize]
  · intro batch hbatch
    exact length_of_mem_dropLast_batches hsize hbatch
  · intro batch hbatch
    exact ⟨ne_nil_of_mem_batches hsize hbatch, length_le_of_mem_batches hbatch⟩

end Outcome

end Zones

def pairsRequest : StreamRequest where
  source := "numbers"
  requested := Table.ofColumns [({ name := "n", type := .uint8 } : Draft).shape none []]
  custom := Table.empty
  result := Table.ofColumns [({ name := "n", type := .uint8 } : Draft).shape none []]
  defaults := Defaults.initial
  zone := none
  params := { Parameters.ofSettings {} with batchSize := 2 }

def pairsColumns : List ResolvedColumn :=
  [⟨({ name := "n", type := .uint8 } : Draft).shape none [], .result 0,
    { precision := some 3, scale := some 0 }⟩]

def pairsCursor : Cursor :=
  { rows := [[some (.int32 5)], [none], [some (.int32 7)]], scales := [0], zone := none }

theorem run_ok_of_emitsRows_pairs :
    (∃ t', (pairsRequest.run Cursor.source Collector.sink (.still 0)).runFrom (pairsCursor, {}) =
      (.ok { rows := 3, batches := 2, bytes := 5 }, { pairsCursor with current := some 3 }, t')) ∧
    pairsRequest.deliveries Cursor.source Collector.sink (.still 0) pairsCursor {} =
      [⟨[0, 5, 1], true⟩, ⟨[0, 7], true⟩] := by
  have hresolve : pairsRequest.resolve = .ok pairsColumns := by decide
  have hfirst : pairsRequest.EmitsRows Cursor.source pairsColumns pairsCursor
      ([] ++ [[⟨false, [0, 5]⟩]]) { pairsCursor with current := some 0 } :=
    .snoc .none (.advances rfl) (.cons (.value rfl rfl rfl) (.nil _))
  have hsecond : pairsRequest.EmitsRows Cursor.source pairsColumns pairsCursor
      ([[⟨false, [0, 5]⟩]] ++ [[⟨true, [1]⟩]]) { pairsCursor with current := some 1 } :=
    .snoc hfirst (.advances rfl) (.cons (.nullFlag rfl rfl rfl) (.nil _))
  have hthird : pairsRequest.EmitsRows Cursor.source pairsColumns pairsCursor
      ([[⟨false, [0, 5]⟩], [⟨true, [1]⟩]] ++ [[⟨false, [0, 7]⟩]])
      { pairsCursor with current := some 2 } :=
    .snoc hsecond (.advances rfl) (.cons (.value rfl rfl rfl) (.nil _))
  have hopen : Collector.sink.StaysOpen {} := Collector.staysOpen_sink rfl
  have htime : ∀ n, (deadlineOf Collector.sink (Clock.still 0 0) pairsRequest.params.timeout
      {}).any (· ≤ Clock.still 0 n) = false := by
    intro n
    rfl
  have h := run_ok_of_emitsRows hresolve (.zero _) hthird ⟨rfl, rfl⟩ (by decide) hopen htime
  exact ⟨h.1, h.2.1⟩

/-! ### Runs that fail -/

theorem take_written (size : Nat) (rows : List (List EmittedCell)) {k n : Nat} (hk : k ≤ n) :
    (written (firstBatches size rows n)).take k = written (firstBatches size rows k) := by
  unfold written firstBatches
  rw [← List.map_take, ← List.map_take, List.take_range, Nat.min_eq_left hk]

section Failing

variable [Zone.Catalogue] {σ τ : Type} {r : StreamRequest} {source : RowSource σ} {sink : Sink τ}
  {clock : Clock} {columns : List ResolvedColumn} {s s₀ s' : σ} {t t' : τ}
  {rows : List (List EmittedCell)} {s₁ s₂ : σ}

theorem mul_div_batchSize_le (r : StreamRequest) (rows : List (List EmittedCell)) :
    r.batchSize * (rows.length / r.batchSize) ≤ rows.length := Nat.mul_div_le _ _

/-- A run that succeeds has emitted rows up to the end of its source, and has delivered
their batches. -/
theorem finished_of_run_ok {stats : Stats} {ends : σ × τ} (hresolve : r.resolve = .ok columns)
    (hskip : source.Advances r.skipped s s₀)
    (hrun : (r.run source sink clock).runFrom (s, t) = (.ok stats, ends)) :
    ∃ rows s₁, r.EmitsRows source columns s₀ rows s₁ ∧
      source.EndsAt (r.onRow rows.length) s₁ ends.1 ∧ stats = Stats.ofRows r.batchSize rows ∧
      r.deliveries source sink clock s t =
        written (firstBatches r.batchSize rows (batchCount r.batchSize rows.length)) := by
  have hends := run_endsIn sink clock t hresolve hskip
  rw [hrun] at hends
  unfold EndsIn at hends
  generalize hresult : (Except.ok stats : Except Error Stats) = result at hends
  cases hends with
  | @finished rows s₁ _ _ hrows hend hcount htaken =>
      have hlogged := StreamEnd.finished hrows hend hcount (Sink.collects_logged [] htaken)
      cases hresult
      exact ⟨rows, s₁, hrows, hend, rfl, deliveries_of_streamEnd hresolve hskip hlogged⟩
  | advanceFailed => cases hresult
  | rowFailed => cases hresult
  | rowLimit => cases hresult
  | batchRefused => cases hresult
  | restRefused => cases hresult

theorem take_deliveries_of_run_ok {τ' : Type} {sink' : Sink τ'} {clock' : Clock} {t₀ : τ'} {k : Nat}
    {stats : Stats} {ends : σ × τ'} (hresolve : r.resolve = .ok columns)
    (hskip : source.Advances r.skipped s s₀) (hrows : r.EmitsRows source columns s₀ rows s₁)
    (hk : r.batchSize * k ≤ rows.length)
    (hrun : (r.run source sink' clock').runFrom (s, t₀) = (.ok stats, ends)) :
    (r.deliveries source sink' clock' s t₀).take k = written (firstBatches r.batchSize rows k) := by
  obtain ⟨all, s₃, hall, hend, -, hlog⟩ := finished_of_run_ok hresolve hskip hrun
  obtain ⟨more, rfl⟩ := hrows.isPrefix_of_endsAt hall hend
  have hcount : k ≤ batchCount r.batchSize (rows ++ more).length := by
    apply Nat.le_trans _ (div_le_batchCount _ r.batchSize_pos)
    rw [Nat.le_div_iff_mul_le r.batchSize_pos, Nat.mul_comm, List.length_append]
    omega
  rw [hlog, take_written _ _ hcount, firstBatches_append hk more]

/-- The first `k` batches of the rows are full ones, and every run that begins with these rows
delivers them first: every run over more rows, and every run over the same source that succeeds. -/
structure BeginsRuns (r : StreamRequest) (source : RowSource σ) (s : σ)
    (rows : List (List EmittedCell)) (k : Nat) : Prop where
  full : ∀ batch ∈ (batches r.batchSize rows).take k, batch.length = r.batchSize
  ofMoreRows : ∀ more, firstBatches r.batchSize rows k =
    ((batches r.batchSize (rows ++ more)).take k).map (List.flatMap rowBytes)
  ofRun : ∀ {τ : Type} (sink : Sink τ) (clock : Clock) (t : τ) (stats : Stats) (ends : σ × τ),
    (r.run source sink clock).runFrom (s, t) = (.ok stats, ends) →
      (r.deliveries source sink clock s t).take k = written (firstBatches r.batchSize rows k)

theorem beginsRuns_of_emitsRows {k : Nat} (hresolve : r.resolve = .ok columns)
    (hskip : source.Advances r.skipped s s₀) (hrows : r.EmitsRows source columns s₀ rows s₁)
    (hk : r.batchSize * k ≤ rows.length) : r.BeginsRuns source s rows k where
  full batch hbatch := length_of_mem_take_batches r.batchSize_pos hk hbatch
  ofMoreRows more := by
    rw [← firstBatches_append hk more]
    apply firstBatches_eq_take
    apply Nat.le_trans _ (div_le_batchCount _ r.batchSize_pos)
    rw [Nat.le_div_iff_mul_le r.batchSize_pos, Nat.mul_comm, List.length_append]
    omega
  ofRun sink clock t stats ends hrun :=
    take_deliveries_of_run_ok hresolve hskip hrows hk hrun

/-- What a run that fails behind its skip has delivered, and why it has failed. The source has
emitted `rows` and the sink has taken their first `k` batches. Then the source or an encoding
failed in the next row, or the sink refused the batch behind these. -/
theorem run_error_behind_skip {e : Error} (hresolve : r.resolve = .ok columns)
    (hskip : source.Advances r.skipped s s₀)
    (hrun : (r.run source sink clock).runFrom (s, t) = (.error e, s', t')) :
    ∃ rows s₁ k t₁,
      r.EmitsRows source columns s₀ rows s₁ ∧
      r.batchSize * k ≤ rows.length ∧
      r.BeginsRuns source s rows k ∧
      sink.Collects (deadlineOf sink (clock 0) r.params.timeout t) clock t
        (firstBatches r.batchSize rows k) t₁ ∧
      ((k = rows.length / r.batchSize ∧ t' = t₁ ∧
          r.deliveries source sink clock s t = written (firstBatches r.batchSize rows k) ∧
          ((∃ report, r.FailsNext source columns rows.length s₁ (.source report) s' ∧
              e = .dataAccess r.source report ∧ e.code = "DATA_ACCESS_ERROR") ∨
            (∃ fault, r.FailsNext source columns rows.length s₁ (.encoding fault) s' ∧
              e = .encode fault ∧ e.code = "ENCODE_ERROR") ∨
            rows.length = maxRows ∧ source.MovesOn (r.onRow rows.length) s₁ s' ∧
              e = .internal .rowLimit)) ∨
        ∃ cause,
          (rows.length = r.batchSize * (k + 1) ∧ s' = s₁ ∨
            source.EndsAt (r.onRow rows.length) s₁ s' ∧ r.batchSize * k < rows.length ∧
              rows.length < r.batchSize * (k + 1)) ∧
          sink.Refuses (deadlineOf sink (clock 0) r.params.timeout t) (clock (k + 1))
            (batchBytes r.batchSize rows k) t₁ cause t' ∧
          r.deliveries source sink clock s t = written (firstBatches r.batchSize rows k) ++
            Sink.refusalLog (batchBytes r.batchSize rows k) cause ∧
          e = .aborted cause ∧ e.code = "ABORTED") := by
  -- Five of the six ends are failures. What each has delivered stands in the same end of the run to
  -- the sink that keeps a log.
  have hends := run_endsIn sink clock t hresolve hskip
  rw [hrun] at hends
  unfold EndsIn at hends
  generalize hresult : (Except.error e : Except Error Stats) = result at hends
  cases hends with
  | finished => cases hresult
  | @advanceFailed rows s₁ _ _ report hrows hrow hadvance hcount htaken =>
      cases hresult
      have hlogged := StreamEnd.advanceFailed hrows hrow hadvance hcount (handedOver_logged htaken)
      refine ⟨rows, s₁, _, t', hrows, mul_div_batchSize_le r rows, ?_, htaken,
        .inl ⟨rfl, rfl, ?_, .inl ⟨report, .advance hrow hadvance, rfl, rfl⟩⟩⟩
      · exact beginsRuns_of_emitsRows hresolve hskip hrows (mul_div_batchSize_le r rows)
      · exact deliveries_of_streamEnd hresolve hskip hlogged
  | @rowFailed rows s₁ _ _ _ failure hrows hnext hfails hcount htaken =>
      cases hresult
      have hlogged := StreamEnd.rowFailed hrows hnext hfails hcount (handedOver_logged htaken)
      refine ⟨rows, s₁, _, t', hrows, mul_div_batchSize_le r rows, ?_, htaken,
        .inl ⟨rfl, rfl, ?_, ?_⟩⟩
      · exact beginsRuns_of_emitsRows hresolve hskip hrows (mul_div_batchSize_le r rows)
      · exact deliveries_of_streamEnd hresolve hskip hlogged
      · cases failure with
        | source report => exact .inl ⟨report, .row hnext hfails, rfl, rfl⟩
        | encoding fault => exact .inr (.inl ⟨fault, .row hnext hfails, rfl, rfl⟩)
  | @rowLimit rows s₁ _ _ hrows hnext hcount htaken =>
      cases hresult
      have hlogged := StreamEnd.rowLimit hrows hnext hcount (handedOver_logged htaken)
      refine ⟨rows, s₁, _, t', hrows, mul_div_batchSize_le r rows, ?_, htaken,
        .inl ⟨rfl, rfl, ?_, .inr (.inr ⟨hcount, hnext, rfl⟩)⟩⟩
      · exact beginsRuns_of_emitsRows hresolve hskip hrows (mul_div_batchSize_le r rows)
      · exact deliveries_of_streamEnd hresolve hskip hlogged
  | @batchRefused rows k _ t₁ _ cause hrows hfull hcount htaken hrefuses =>
      cases hresult
      have hk : r.batchSize * k ≤ rows.length := by
        rw [hfull]
        exact Nat.mul_le_mul_left _ (Nat.le_succ k)
      have hlogged := StreamEnd.batchRefused hrows hfull hcount (Sink.collects_logged [] htaken)
        (Sink.refuses_logged _ hrefuses)
      refine ⟨rows, s', k, t₁, hrows, hk, beginsRuns_of_emitsRows hresolve hskip hrows hk, htaken,
        .inr ⟨cause, .inl ⟨hfull, rfl⟩, hrefuses, ?_, rfl, rfl⟩⟩
      exact deliveries_of_streamEnd hresolve hskip hlogged
  | @restRefused rows k s₁ _ t₁ _ cause hrows hend hlow hhigh hcount htaken hrefuses =>
      cases hresult
      have hk : r.batchSize * k ≤ rows.length := Nat.le_of_lt hlow
      have hlogged := StreamEnd.restRefused hrows hend hlow hhigh hcount
        (Sink.collects_logged [] htaken) (Sink.refuses_logged _ hrefuses)
      refine ⟨rows, s₁, k, t₁, hrows, hk, beginsRuns_of_emitsRows hresolve hskip hrows hk, htaken,
        .inr ⟨cause, .inr ⟨hend, hlow, hhigh⟩, hrefuses, ?_, rfl, rfl⟩⟩
      exact deliveries_of_streamEnd hresolve hskip hlogged

end Failing

/-- The deadline passes between the first batch and the second. -/
theorem run_error_behind_skip_pairs :
    (pairsRequest.run Cursor.source Collector.sink (3 * ·)).runFrom
        (pairsCursor, { deadline := some 5 }) =
      (.error (.aborted .deadlineExceeded), { pairsCursor with current := some 3 },
        { batches := [[0, 5, 1]], deadline := some 5 }) ∧
    ∃ rows s₁ k, pairsRequest.EmitsRows Cursor.source pairsColumns pairsCursor rows s₁ ∧
      pairsRequest.BeginsRuns Cursor.source pairsCursor rows k ∧
      pairsRequest.deliveries Cursor.source Collector.sink (3 * ·) pairsCursor
        { deadline := some 5 } = written (firstBatches 2 rows k) := by
  have hresolve : pairsRequest.resolve = .ok pairsColumns := by decide
  have hrun : (pairsRequest.run Cursor.source Collector.sink (3 * ·)).runFrom
        (pairsCursor, { deadline := some 5 }) =
      (.error (.aborted .deadlineExceeded), { pairsCursor with current := some 3 },
        { batches := [[0, 5, 1]], deadline := some 5 }) := by rfl
  obtain ⟨rows, s₁, k, t₁, hrows, -, hfirst, -, ⟨-, -, hlog, -⟩ | ⟨cause, -, hrefuses, hlog, he, -⟩⟩ :=
    run_error_behind_skip hresolve (.zero _) hrun
  · exact ⟨hrun, rows, s₁, k, hrows, hfirst, hlog⟩
  · cases he
    rw [Sink.refusalLog, List.append_nil] at hlog
    · exact ⟨hrun, rows, s₁, k, hrows, hfirst, hlog⟩
    · intro report h
      cases h

end StreamRequest

end RowStream
