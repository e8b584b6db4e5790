import RowStream.Proofs.Stream.Deliveries
import RowStream.Proofs.Stream.Turns
import RowStream.Proofs.Table

/-!
# The calls of a run in turns

A run makes its calls in turns, whatever the source answers and whenever it fails: the log of the
calls grows with every cell, row and skip by what their turn allows (`Stands`). With that every run
obeys the protocol of its source, as `run_obeys_protocol` says.
-/

namespace RowStream

section Zones

variable [Zone.Catalogue] {σ τ : Type}

namespace RowSource

variable {source : RowSource σ} {row : Nat} {s s₂ : σ}

/-! ### Logged calls -/

theorem runFrom_of_logging {α : Type} (call : σ → SourceCall σ) (x : Stateful Report σ α)
    {p p' : σ × List (SourceCall σ)} {result : Except Report α}
    (h : (SourceCall.logging call x).runFrom p = (result, p')) :
    x.runFrom p.1 = (result, p'.1) ∧ p'.2 = p.2 ++ [call p.1] := by
  have hlogged := SourceCall.runFrom_logging call x p.1 p.2
  rw [h] at hlogged
  cases hlogged
  exact ⟨rfl, rfl⟩

section Logged

variable {p p' : σ × List (SourceCall σ)} {index : Nat} {c : Column}

theorem advance_of_logged {result : Except Report Bool}
    (h : source.logged.advance.runFrom p = (result, p')) :
    source.advance.runFrom p.1 = (result, p'.1) ∧ p'.2 = p.2 ++ [.advance p.1] :=
  runFrom_of_logging .advance source.advance h

theorem isNull_of_logged {result : Except Report Bool}
    (h : (source.logged.isNull row index c).runFrom p = (result, p')) :
    (source.isNull row index c).runFrom p.1 = (result, p'.1) ∧
      p'.2 = p.2 ++ [.isNull p.1 row index c] :=
  runFrom_of_logging (.isNull · row index c) (source.isNull row index c) h

theorem read_of_logged {result : Except Report (List UInt8)}
    (h : (source.logged.read row index c).runFrom p = (result, p')) :
    (source.read row index c).runFrom p.1 = (result, p'.1) ∧
      p'.2 = p.2 ++ [.read p.1 row index c] :=
  runFrom_of_logging (.read · row index c) (source.read row index c) h

end Logged

theorem Advances.exists_last {k : Nat} (h : source.Advances (k + 1) s s₂) :
    ∃ s₁, source.Advances k s s₁ ∧ source.advance.runFrom s₁ = (.ok true, s₂) := by
  induction k generalizing s with
  | zero =>
      obtain _ | ⟨hadvance, hrest⟩ := h
      cases hrest
      exact ⟨s, .zero s, hadvance⟩
  | succ k ih =>
      obtain _ | ⟨hadvance, hrest⟩ := h
      obtain ⟨s₃, hadvances, hlast⟩ := ih hrest
      exact ⟨s₃, .succ hadvance hadvances, hlast⟩

end RowSource

/-! ### The turns of a run -/

def ResolvedColumn.resultCell? (c : ResolvedColumn) : Option (Nat × Column) :=
  match c.origin with
  | .result index => some (index, c.column)
  | _ => none

end Zones

namespace StreamRequest

section Zones

variable [Zone.Catalogue] {σ τ : Type}

/-- The cells that a row is read for: the requested columns that come from the rows, in order, each
with the place that its name is resolved to. -/
def resultCells (r : StreamRequest) : List (Nat × Column) :=
  r.requested.columns.filterMap fun c =>
    match r.origin? c.name with
    | some (.result index) => some (index, c)
    | _ => none

variable {r : StreamRequest} {source : RowSource σ} {sink : Sink τ} {clock : Clock}
  {columns : List ResolvedColumn} {number : Nat} {c : ResolvedColumn}
  {p p₁ p' : σ × List (SourceCall σ)}

theorem resultCells_of_resolve (h : r.resolve = .ok columns) :
    columns.filterMap ResolvedColumn.resultCell? = r.resultCells := by
  unfold resolve at h
  unfold resultCells
  generalize r.requested.columns = requested at h ⊢
  induction requested generalizing columns with
  | nil =>
      cases h
      rfl
  | cons c rest ih =>
      rw [List.mapM_cons] at h
      obtain ⟨first, hfirst, h⟩ := bind_ok h
      obtain ⟨others, hothers, h⟩ := bind_ok h
      cases h
      unfold resolveColumn at hfirst
      rw [List.filterMap_cons, List.filterMap_cons, ih hothers]
      cases horigin : r.origin? c.name with
      | none =>
          rw [horigin] at hfirst
          cases hfirst
      | some origin =>
          rw [horigin] at hfirst
          cases hfirst
          cases origin <;> rfl

theorem column_of_mem_resultCells {cell : Nat × Column} (h : cell ∈ r.resultCells) :
    cell.2 ∈ r.requested.columns ∧
      ∃ hindex : cell.1 < r.result.columns.length, r.result.columns[cell.1].name = cell.2.name := by
  obtain ⟨c, hc, hcell⟩ := List.mem_filterMap.1 h
  split at hcell
  · next index horigin =>
      cases hcell
      refine ⟨hc, ?_⟩
      unfold origin? at horigin
      split at horigin
      · cases horigin
      · split at horigin
        · cases horigin
        · obtain ⟨j, hj, hindex⟩ := Option.map_eq_some_iff.1 horigin
          cases hindex
          obtain ⟨hlt, hname, -⟩ := Table.position?_eq_some_iff.1 hj
          exact ⟨hlt, hname⟩
  · cases hcell

theorem EmitsCell.asksCells {cell : EmittedCell}
    (h : r.EmitsCell source.logged number c p cell p') :
    ∃ asked, p'.2 = p.2 ++ asked ∧
      source.AsksCells number c.resultCell?.toList p.1 asked p'.1 := by
  cases h with
  | sourceId horigin | custom horigin =>
      rw [ResolvedColumn.resultCell?, horigin]
      exact ⟨[], (List.append_nil _).symm, .nil _⟩
  | nullFlag horigin hnull | ownDefault horigin hnull | typeDefault horigin hnull =>
      obtain ⟨hnull, hlog⟩ := RowSource.isNull_of_logged hnull
      rw [ResolvedColumn.resultCell?, horigin]
      exact ⟨_, hlog, .null hnull (.nil _)⟩
  | value horigin hnull hread =>
      obtain ⟨hnull, hlog⟩ := RowSource.isNull_of_logged hnull
      obtain ⟨hread, hlog'⟩ := RowSource.read_of_logged hread
      rw [ResolvedColumn.resultCell?, horigin, hlog', hlog, List.append_assoc]
      exact ⟨_, rfl, .value hnull hread (.nil _)⟩

theorem FailsCell.startsCells {failure : RowFailure}
    (h : r.FailsCell source.logged number c p failure p') (more : List (Nat × Column)) :
    ∃ asked, p'.2 = p.2 ++ asked ∧
      source.StartsCells number (c.resultCell?.toList ++ more) p.1 asked := by
  cases h with
  | sourceId horigin | custom horigin =>
      exact ⟨[], (List.append_nil _).symm, .nil _ _⟩
  | isNull horigin hnull =>
      obtain ⟨hnull, hlog⟩ := RowSource.isNull_of_logged hnull
      rw [ResolvedColumn.resultCell?, horigin]
      exact ⟨_, hlog, .isNull more (congrArg Prod.fst hnull)⟩
  | ownDefault horigin hnull | typeDefault horigin hnull =>
      obtain ⟨hnull, hlog⟩ := RowSource.isNull_of_logged hnull
      rw [ResolvedColumn.resultCell?, horigin]
      exact ⟨_, hlog, .more (.null hnull (.nil _)) (.nil more _)⟩
  | read horigin hnull hread =>
      obtain ⟨hnull, hlog⟩ := RowSource.isNull_of_logged hnull
      obtain ⟨hread, hlog'⟩ := RowSource.read_of_logged hread
      rw [ResolvedColumn.resultCell?, horigin, hlog', hlog, List.append_assoc]
      exact ⟨_, rfl, .read more hnull (congrArg Prod.fst hread)⟩

omit [Zone.Catalogue] in
theorem toList_append_filterMap {α β : Type} (f : α → Option β) (a : α) (rest : List α) :
    (f a).toList ++ rest.filterMap f = (a :: rest).filterMap f := by
  rw [List.filterMap_cons]
  cases f a <;> rfl

theorem EmitsRow.asksCells {cells : List EmittedCell}
    (h : r.EmitsRow source.logged number columns p cells p') :
    ∃ asked, p'.2 = p.2 ++ asked ∧
      source.AsksCells number (columns.filterMap ResolvedColumn.resultCell?) p.1 asked p'.1 := by
  induction h with
  | nil => exact ⟨[], (List.append_nil _).symm, .nil _⟩
  | cons hcell _ ih =>
      obtain ⟨asked, hlog, hasked⟩ := hcell.asksCells
      obtain ⟨rest, hlog', hrest⟩ := ih
      rw [hlog', hlog, List.append_assoc, ← toList_append_filterMap]
      exact ⟨_, rfl, hasked.append hrest⟩

theorem FailsRow.startsCells {failure : RowFailure}
    (h : r.FailsRow source.logged number columns p failure p') :
    ∃ asked, p'.2 = p.2 ++ asked ∧
      source.StartsCells number (columns.filterMap ResolvedColumn.resultCell?) p.1 asked := by
  induction h with
  | here hcell =>
      rw [← toList_append_filterMap]
      exact hcell.startsCells _
  | later hcell _ ih =>
      obtain ⟨asked, hlog, hasked⟩ := hcell.asksCells
      obtain ⟨rest, hlog', hrest⟩ := ih
      rw [hlog', hlog, List.append_assoc, ← toList_append_filterMap]
      exact ⟨_, rfl, .more hasked hrest⟩

/-- Where a stream stands in its turns: behind so many, or behind the advance of one more. -/
inductive Stands (r : StreamRequest) (source : RowSource σ) (s : σ) :
    Bool → Nat → σ × List (SourceCall σ) → Prop
  | between {n : Nat} {s₁ : σ} {calls : List (SourceCall σ)}
      (hturns : source.Turns r.firstRow r.resultCells s n calls s₁) :
      r.Stands source s false n (s₁, calls)
  | onRow {n : Nat} {s₁ s₂ : σ} {calls : List (SourceCall σ)}
      (hturns : source.Turns r.firstRow r.resultCells s n calls s₁)
      (hadvance : source.advance.runFrom s₁ = (.ok true, s₂)) :
      r.Stands source s true n (s₂, calls ++ [.advance s₁])

variable {s : σ} {onRow : Bool} {n : Nat} {calls : List (SourceCall σ)}

theorem Stands.movesOn (h : r.Stands source s onRow n p)
    (hnext : source.logged.MovesOn onRow p p') : r.Stands source s true n p' := by
  cases hnext with
  | stays => exact h
  | advances hadvance =>
      obtain ⟨hadvance, hlog⟩ := RowSource.advance_of_logged hadvance
      cases h with
      | between hturns =>
          rw [← Prod.eta p', hlog]
          exact .onRow hturns hadvance

theorem Stands.emitsRow {cells : List EmittedCell} (h : r.Stands source s true n p)
    (hfirst : r.firstRow ≤ n) (hresolve : r.resolve = .ok columns)
    (hrow : r.EmitsRow source.logged n columns p cells p') :
    r.Stands source s false (n + 1) p' := by
  obtain ⟨asked, hlog, hasked⟩ := hrow.asksCells
  rw [resultCells_of_resolve hresolve] at hasked
  cases h with
  | onRow hturns hadvance =>
      rw [← Prod.eta p', hlog, List.append_assoc]
      exact .between (.reads hturns hadvance hfirst hasked)

theorem Stands.emitsRows {rows : List (List EmittedCell)}
    (h : r.Stands source s (r.onRow 0) r.firstRow p)
    (hresolve : r.resolve = .ok columns) (hrows : r.EmitsRows source.logged columns p rows p') :
    r.Stands source s (r.onRow rows.length) (r.firstRow + rows.length) p' := by
  induction hrows with
  | none => exact h
  | snoc _ hnext hrow ih =>
      rw [List.length_append, List.length_singleton, onRow_succ]
      exact (ih.movesOn hnext).emitsRow (Nat.le_add_right _ _) hresolve hrow

theorem turns_of_advances {m k : Nat} (h : source.logged.Advances k p p')
    (hturns : source.Turns r.firstRow r.resultCells s m p.2 p.1) (hfirst : m + k ≤ r.firstRow) :
    source.Turns r.firstRow r.resultCells s (m + k) p'.2 p'.1 := by
  induction h generalizing m with
  | zero => exact hturns
  | @succ k p p₁ p' hadvance _ ih =>
      obtain ⟨hadvance, hlog⟩ := RowSource.advance_of_logged hadvance
      have hnext : source.Turns r.firstRow r.resultCells s (m + 1) p₁.2 p₁.1 := by
        rw [hlog]
        exact .passes hturns hadvance (by omega)
      rw [show m + (k + 1) = m + 1 + k by omega]
      exact ih hnext (by omega)

theorem turns_of_advances_start (h : source.logged.Advances r.firstRow (s, []) p) :
    source.Turns r.firstRow r.resultCells s r.firstRow p.2 p.1 := by
  have hturns := turns_of_advances (m := 0) h .start (Nat.le_of_eq (Nat.zero_add _))
  rwa [Nat.zero_add] at hturns

theorem stands_of_advances (h : source.logged.Advances r.skipped (s, []) p) :
    r.Stands source s (r.onRow 0) r.firstRow p := by
  have honRow : r.onRow 0 = decide (0 < r.params.position) := by simp [onRow]
  rw [← r.firstRow_add_onRow] at h
  rw [honRow]
  cases hposition : decide (0 < r.params.position) with
  | false =>
      rw [hposition] at h
      exact .between (turns_of_advances_start h)
  | true =>
      rw [hposition] at h
      obtain ⟨p₁, hadvances, hadvance⟩ := h.exists_last
      obtain ⟨hadvance, hlog⟩ := RowSource.advance_of_logged hadvance
      rw [← Prod.eta p, hlog]
      exact .onRow (turns_of_advances_start hadvances) hadvance

theorem lastTurn_of_skip {m total skipped left : Nat} {e : Error}
    (h : (r.skip source.logged total skipped left).runFrom p = (.error e, p'))
    (hturns : source.Turns r.firstRow r.resultCells s m p.2 p.1)
    (hfirst : m + left ≤ r.firstRow + 1) :
    ∃ n calls s₁, source.Turns r.firstRow r.resultCells s n calls s₁ ∧
      source.Stops (.advance s₁) ∧ p'.2 = calls ++ [.advance s₁] := by
  induction left generalizing p m skipped with
  | zero => cases h
  | succ left ih =>
      unfold skip at h
      rcases hmore : source.logged.advance.runFrom p with ⟨report | more, p₁⟩
      · obtain ⟨hadvance, hlog⟩ := RowSource.advance_of_logged hmore
        rw [Stateful.runFrom_bind_of_error (runFrom_blame_error hmore)] at h
        cases h
        exact ⟨m, _, _, hturns, by simp [RowSource.Stops, hadvance], hlog⟩
      · obtain ⟨hadvance, hlog⟩ := RowSource.advance_of_logged hmore
        rw [Stateful.runFrom_bind_of_ok (runFrom_blame_ok hmore)] at h
        cases more with
        | false =>
            cases h
            exact ⟨m, _, _, hturns, by simp [RowSource.Stops, hadvance], hlog⟩
        | true =>
            cases left with
            | zero => cases h
            | succ left =>
                have hnext : source.Turns r.firstRow r.resultCells s (m + 1) p₁.2 p₁.1 := by
                  rw [hlog]
                  exact .passes hturns hadvance (by omega)
                exact ih h hnext (by omega)

theorem Stands.exists_lastTurn (h : r.Stands source s onRow n p) (hfirst : r.firstRow ≤ n) :
    ∃ calls s₁ rest, p.2 = calls ++ rest ∧
      source.Turns r.firstRow r.resultCells s n calls s₁ ∧
      source.LastTurn r.firstRow r.resultCells n s₁ rest := by
  cases h with
  | between hturns => exact ⟨_, _, [], (List.append_nil _).symm, hturns, .nil⟩
  | onRow hturns hadvance => exact ⟨_, _, _, rfl, hturns, .starts hadvance hfirst (.nil _ _)⟩

theorem Stands.advance {result : Except Report Bool} (h : r.Stands source s false n p)
    (hadvance : source.logged.advance.runFrom p = (result, p')) :
    ∃ calls s₁, p'.2 = calls ++ [.advance s₁] ∧
      source.Turns r.firstRow r.resultCells s n calls s₁ ∧
      (source.advance.runFrom s₁).1 = result := by
  obtain ⟨hadvance, hlog⟩ := RowSource.advance_of_logged hadvance
  cases h with
  | between hturns => exact ⟨_, _, hlog, hturns, congrArg Prod.fst hadvance⟩

theorem Stands.failsRow {failure : RowFailure} (h : r.Stands source s true n p)
    (hfirst : r.firstRow ≤ n) (hresolve : r.resolve = .ok columns)
    (hfails : r.FailsRow source.logged n columns p failure p') :
    ∃ calls s₁ rest, p'.2 = calls ++ rest ∧
      source.Turns r.firstRow r.resultCells s n calls s₁ ∧
      source.LastTurn r.firstRow r.resultCells n s₁ rest := by
  obtain ⟨asked, hlog, hasked⟩ := hfails.startsCells
  rw [resultCells_of_resolve hresolve] at hasked
  cases h with
  | onRow hturns hadvance =>
      rw [List.append_assoc] at hlog
      exact ⟨_, _, _, hlog, hturns, .starts hadvance hfirst hasked⟩

/-- A stream makes whole turns and one more at most. When it succeeds, this one finds the end of the
rows. -/
theorem exists_turns (r : StreamRequest) (source : RowSource σ) (sink : Sink τ) (clock : Clock)
    (s : σ) (t : τ) :
    ∃ n calls s₁ rest, r.calls source sink clock s t = calls ++ rest ∧
      source.Turns r.firstRow r.resultCells s n calls s₁ ∧
      source.LastTurn r.firstRow r.resultCells n s₁ rest ∧
      ∀ stats, ((r.run source sink clock).runFrom (s, t)).1 = .ok stats →
        n = r.firstRow + stats.rows ∧ rest = [.advance s₁] ∧
          (source.advance.runFrom s₁).1 = .ok false := by
  have hlogged := runFrom_run_source_logged r source sink clock s t
  rcases hrun : (r.run source.logged sink clock).runFrom ((s, []), t) with ⟨result, p, t'⟩
  rw [hrun] at hlogged
  have hresult : ((r.run source sink clock).runFrom (s, t)).1 = result :=
    (congrArg Prod.fst hlogged).symm
  have hcalls : r.calls source sink clock s t = p.2 := (congrArg (·.2.1.2) hlogged).symm
  rw [hresult, hcalls]
  cases hresolve : r.resolve with
  | error e =>
      rw [runFrom_run_of_resolve_error hresolve] at hrun
      cases hrun
      exact ⟨0, [], s, [], rfl, .start, .nil, fun _ h => by cases h⟩
  | ok columns =>
      rcases hskip : (r.skip source.logged r.skipped 0 r.skipped).runFrom (s, []) with ⟨e | _, p₀⟩
      · rw [runFrom_run_of_skip_error hresolve hskip] at hrun
        cases hrun
        have hfirst : 0 + r.skipped ≤ r.firstRow + 1 := by
          rw [Nat.zero_add, ← r.firstRow_add_onRow]
          exact Nat.add_le_add_left (Bool.toNat_le _) _
        obtain ⟨n, calls, s₁, hturns, hstops, hlog⟩ := lastTurn_of_skip hskip .start hfirst
        exact ⟨n, calls, s₁, _, hlog, hturns, .stops hstops, fun _ h => by cases h⟩
      · have hadvances := advances_of_runFrom_skip hskip
        have hstart := stands_of_advances hadvances
        have hends := run_endsIn sink clock t hresolve hadvances
        rw [hrun] at hends
        unfold EndsIn at hends
        cases hends with
        | finished hrows hend =>
            have hstands := hstart.emitsRows hresolve hrows
            rw [hend.notOnRow] at hstands
            obtain ⟨calls, s₁, hlog, hturns, hanswer⟩ := hstands.advance hend.advanced
            refine ⟨_, calls, s₁, _, hlog, hturns, .stops (by simp [RowSource.Stops, hanswer]), ?_⟩
            intro stats hok
            cases hok
            exact ⟨rfl, rfl, hanswer⟩
        | advanceFailed hrows hrow hadvance =>
            have hstands := hstart.emitsRows hresolve hrows
            rw [hrow] at hstands
            obtain ⟨calls, s₁, hlog, hturns, hanswer⟩ := hstands.advance hadvance
            have hstops : source.Stops (.advance s₁) := by simp [RowSource.Stops, hanswer]
            exact ⟨_, calls, s₁, _, hlog, hturns, .stops hstops, fun _ h => by cases h⟩
        | rowFailed hrows hnext hfails =>
            have hstands := (hstart.emitsRows hresolve hrows).movesOn hnext
            obtain ⟨calls, s₁, rest, hlog, hturns, hrest⟩ :=
              hstands.failsRow (Nat.le_add_right _ _) hresolve hfails
            exact ⟨_, calls, s₁, rest, hlog, hturns, hrest, fun _ h => by cases h⟩
        | rowLimit hrows hnext =>
            have hstands := (hstart.emitsRows hresolve hrows).movesOn hnext
            obtain ⟨calls, s₁, rest, hlog, hturns, hrest⟩ :=
              hstands.exists_lastTurn (Nat.le_add_right _ _)
            exact ⟨_, calls, s₁, rest, hlog, hturns, hrest, fun _ h => by cases h⟩
        | batchRefused hrows =>
            have hstands := hstart.emitsRows hresolve hrows
            obtain ⟨calls, s₁, rest, hlog, hturns, hrest⟩ :=
              hstands.exists_lastTurn (Nat.le_add_right _ _)
            exact ⟨_, calls, s₁, rest, hlog, hturns, hrest, fun _ h => by cases h⟩
        | restRefused hrows hend =>
            have hstands := hstart.emitsRows hresolve hrows
            rw [hend.notOnRow] at hstands
            obtain ⟨calls, s₁, hlog, hturns, hanswer⟩ := hstands.advance hend.advanced
            have hstops : source.Stops (.advance s₁) := by simp [RowSource.Stops, hanswer]
            exact ⟨_, calls, s₁, _, hlog, hturns, .stops hstops, fun _ h => by cases h⟩

/-- The calls of a stream obey the protocol of its source, whatever this answers and whenever it
fails, and the cells that they ask for stand in columns of the rows. A stream that succeeds has
asked for the rows up to the end of the source. -/
theorem run_obeys_protocol (r : StreamRequest) (source : RowSource σ) (sink : Sink τ)
    (clock : Clock) (s : σ) (t : τ) :
    source.Obeys r.firstRow r.resultCells (r.calls source sink clock s t) ∧
    (∀ cell ∈ r.resultCells, cell.2 ∈ r.requested.columns ∧
      ∃ h : cell.1 < r.result.columns.length, r.result.columns[cell.1].name = cell.2.name) ∧
    ∀ stats, ((r.run source sink clock).runFrom (s, t)).1 = .ok stats →
      ∃ before s₁, r.calls source sink clock s t = before ++ [.advance s₁] ∧
        (source.advance.runFrom s₁).1 = .ok false ∧
        source.found before = r.firstRow + stats.rows := by
  obtain ⟨n, calls, s₁, rest, hcalls, hturns, hrest, hok⟩ := exists_turns r source sink clock s t
  rw [hcalls]
  refine ⟨hturns.obeys hrest, fun cell => column_of_mem_resultCells, ?_⟩
  intro stats hresult
  obtain ⟨hn, hlast, hend⟩ := hok stats hresult
  rw [hlast]
  exact ⟨calls, s₁, rfl, hend, hturns.found_eq.trans hn⟩

end Zones

-- A position of 2 leaves the source on the second row, whose null is not read.
example : ((pairsRequest.paged 0 2).calls Cursor.source Collector.sink (.still 0) pairsCursor
    {}).map SourceCall.row? = [none, none, some 1, none, some 2, some 2, none] := rfl

end StreamRequest

end RowStream
