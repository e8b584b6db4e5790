import RowStream.Proofs.Stream.Outcome

/-!
# Runs of streams

A whole run: the columns are resolved, rows are skipped, and the loop goes on from there.
`runFrom_run` takes a run to its loop and `run_endsIn` to one of the ends of the loop.
-/

namespace RowStream

namespace StreamRequest

variable [Zone.Catalogue] {σ τ : Type} {r : StreamRequest} {source : RowSource σ} {sink : Sink τ}
  {clock : Clock} {columns : List ResolvedColumn} {s s₀ : σ} {t : τ}

theorem runFrom_skip_of_advances {total skipped n : Nat} (h : source.Advances n s s₀) :
    (r.skip source total skipped n).runFrom s = (.ok (), s₀) := by
  induction h generalizing skipped with
  | zero => rfl
  | succ hadvance hrest ih =>
      unfold skip
      rw [Stateful.runFrom_bind_of_ok (runFrom_blame_ok hadvance)]
      exact ih

theorem advances_of_runFrom_skip {total skipped n : Nat}
    (h : (r.skip source total skipped n).runFrom s = (.ok (), s₀)) : source.Advances n s s₀ := by
  induction n generalizing s skipped with
  | zero =>
      cases h
      exact .zero _
  | succ n ih =>
      unfold skip at h
      obtain ⟨more, s₁, hadvance, hrest⟩ := Stateful.runFrom_bind_ok h
      cases more with
      | false => cases hrest
      | true => exact .succ (Stateful.runFrom_mapError_ok.1 hadvance) (ih hrest)

theorem rowsAfter_nil (deadline : Option Nat) (limit : Nat) :
    r.rowsAfter source sink deadline clock columns limit [] =
      r.rows source sink deadline clock columns limit (0 < r.params.position) {} := by
  unfold rowsAfter onRow
  rw [Progress.after_nil, List.length_nil]
  simp

theorem runFrom_run_of_resolve_error {e : Error} (h : r.resolve = .error e) :
    (r.run source sink clock).runFrom (s, t) = (.error e, s, t) := by
  unfold run
  apply Stateful.runFrom_bind_of_error
  rw [Stateful.runFrom_ofExcept, h]

theorem runFrom_run_of_resolve_ok (hresolve : r.resolve = .ok columns) :
    (r.run source sink clock).runFrom (s, t) =
      (Stateful.onFirst (r.skip source r.skipped 0 r.skipped) >>= fun _ =>
        r.rows source sink (deadlineOf sink (clock 0) r.params.timeout t) clock columns maxRows
          (0 < r.params.position) {}).runFrom (s, t) := by
  have hcolumns : (Stateful.ofExcept r.resolve : Stateful Error (σ × τ) _).runFrom (s, t) =
      (.ok columns, (s, t)) := by
    rw [Stateful.runFrom_ofExcept, hresolve]
  unfold run
  rw [Stateful.runFrom_bind_of_ok hcolumns, Stateful.runFrom_bind_of_ok (Stateful.runFrom_get _)]

/-- Behind the skip a run is its loop. -/
theorem runFrom_run (hresolve : r.resolve = .ok columns)
    (hskip : source.Advances r.skipped s s₀) :
    (r.run source sink clock).runFrom (s, t) =
      (r.rowsAfter source sink (deadlineOf sink (clock 0) r.params.timeout t) clock columns maxRows
        []).runFrom (s₀, t) := by
  have hbehind : (Stateful.onFirst (r.skip source r.skipped 0 r.skipped) :
      Stateful Error (σ × τ) _).runFrom (s, t) = (.ok (), (s₀, t)) := by
    rw [Stateful.runFrom_onFirst, runFrom_skip_of_advances hskip]
  rw [runFrom_run_of_resolve_ok hresolve, Stateful.runFrom_bind_of_ok hbehind, rowsAfter_nil]

theorem runFrom_run_of_skip_error {e : Error} (hresolve : r.resolve = .ok columns)
    (h : (r.skip source r.skipped 0 r.skipped).runFrom s = (.error e, s₀)) :
    (r.run source sink clock).runFrom (s, t) = (.error e, s₀, t) := by
  rw [runFrom_run_of_resolve_ok hresolve]
  apply Stateful.runFrom_bind_of_error
  rw [Stateful.runFrom_onFirst, h]

/-- A run that gets behind its skip ends as its loop does. -/
theorem run_endsIn (sink : Sink τ) (clock : Clock) (t : τ) (hresolve : r.resolve = .ok columns)
    (hskip : source.Advances r.skipped s s₀) :
    r.EndsIn source sink (deadlineOf sink (clock 0) r.params.timeout t) clock columns maxRows s₀ t
      ((r.run source sink clock).runFrom (s, t)) := by
  rw [runFrom_run hresolve hskip]
  exact rowsAfter_endsIn .none (handedOver_nil_iff.2 rfl) (by simp)

theorem resolve_of_run_ok {stats : Stats} {ends : σ × τ}
    (h : (r.run source sink clock).runFrom (s, t) = (.ok stats, ends)) :
    ∃ columns s₀, r.resolve = .ok columns ∧ source.Advances r.skipped s s₀ := by
  unfold run at h
  obtain ⟨columns, p₁, hcolumns, h⟩ := Stateful.runFrom_bind_ok h
  obtain ⟨p₂, p₃, hget, h⟩ := Stateful.runFrom_bind_ok h
  obtain ⟨_, p₄, hskip, -⟩ := Stateful.runFrom_bind_ok h
  rw [Stateful.runFrom_ofExcept] at hcolumns
  have hresolve : r.resolve = .ok columns := congrArg Prod.fst hcolumns
  have hstate : (s, t) = p₁ := congrArg Prod.snd hcolumns
  have hsame : p₁ = p₃ := congrArg Prod.snd hget
  rw [← hsame, ← hstate, Stateful.runFrom_onFirst] at hskip
  have hok : ((r.skip source r.skipped 0 r.skipped).runFrom s).1 = .ok () :=
    congrArg Prod.fst hskip
  exact ⟨columns, _, hresolve, advances_of_runFrom_skip (Prod.ext hok rfl)⟩

end StreamRequest

end RowStream
