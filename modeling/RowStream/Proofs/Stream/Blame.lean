import RowStream.Proofs.Stream.Protocol

/-!
# Calls that are to blame

What is known of every single call of a stream, without the calls around it. A call for a cell asks
for one of those that a row is read for, and for its bytes only where it has just been said not to
be null. When a stream that has got behind its skip blames its source, one of its calls has answered
with the report.
-/

namespace RowStream

variable [Zone.Catalogue] {σ τ : Type}

namespace RowSource

def Fails (source : RowSource σ) (report : Report) : SourceCall σ → Prop
  | .advance s => (source.advance.runFrom s).1 = .error report
  | .isNull s row index c => ((source.isNull row index c).runFrom s).1 = .error report
  | .read s row index c => ((source.read row index c).runFrom s).1 = .error report

/-- A call asks for one of the cells, if for any; for its bytes where it is not null. -/
def AsksAmong (source : RowSource σ) (cells : List (Nat × Column)) : SourceCall σ → Prop
  | .advance _ => True
  | .isNull _ _ index c => (index, c) ∈ cells
  | .read s row index c =>
    (index, c) ∈ cells ∧ ∃ s₀, (source.isNull row index c).runFrom s₀ = (.ok false, s)

variable {source : RowSource σ} {row first n : Nat} {cells more : List (Nat × Column)}
  {s s₁ : σ} {calls : List (SourceCall σ)} {call : SourceCall σ}

theorem AsksAmong.mono (h : source.AsksAmong cells call) (hsub : ∀ cell ∈ cells, cell ∈ more) :
    source.AsksAmong more call := by
  cases call with
  | advance => trivial
  | isNull => exact hsub _ h
  | read => exact ⟨hsub _ h.1, h.2⟩

theorem AsksCells.asksAmong (h : source.AsksCells row cells s calls s₁) :
    ∀ call ∈ calls, source.AsksAmong cells call := by
  induction h with
  | nil => exact fun _ hcall => nomatch hcall
  | null hnull _ ih =>
    rw [List.forall_mem_cons]
    refine ⟨List.mem_cons_self, fun call hcall => ?_⟩
    exact (ih call hcall).mono fun _ => List.mem_cons_of_mem _
  | value hnull hread _ ih =>
    rw [List.forall_mem_cons, List.forall_mem_cons]
    refine ⟨List.mem_cons_self, ⟨List.mem_cons_self, _, hnull⟩, fun call hcall => ?_⟩
    exact (ih call hcall).mono fun _ => List.mem_cons_of_mem _

theorem StartsCells.asksAmong (h : source.StartsCells row cells s calls) :
    ∀ call ∈ calls, source.AsksAmong cells call := by
  induction h with
  | nil => exact fun _ hcall => nomatch hcall
  | isNull => simp [AsksAmong]
  | read cells hnull =>
    rw [List.forall_mem_cons, List.forall_mem_singleton]
    exact ⟨List.mem_cons_self, List.mem_cons_self, _, hnull⟩
  | more hcells _ ih =>
    intro call hcall
    obtain hcall | hcall := List.mem_append.1 hcall
    · exact (hcells.asksAmong call hcall).mono fun _ => List.mem_append_left _
    · exact (ih call hcall).mono fun _ => List.mem_append_right _

theorem Turns.asksAmong (h : source.Turns first cells s n calls s₁) :
    ∀ call ∈ calls, source.AsksAmong cells call := by
  induction h with
  | start => exact fun _ hcall => nomatch hcall
  | passes _ _ _ ih =>
    rw [List.forall_mem_append, List.forall_mem_singleton]
    exact ⟨ih, trivial⟩
  | reads _ _ _ hcells ih =>
    rw [List.forall_mem_append, List.forall_mem_cons]
    exact ⟨ih, trivial, hcells.asksAmong⟩

theorem LastTurn.asksAmong (h : source.LastTurn first cells n s calls) :
    ∀ call ∈ calls, source.AsksAmong cells call := by
  cases h with
  | nil => exact fun _ hcall => nomatch hcall
  | stops =>
    rw [List.forall_mem_singleton]
    trivial
  | starts _ _ hcells =>
    rw [List.forall_mem_cons]
    exact ⟨trivial, hcells.asksAmong⟩

theorem Advances.logged (h : source.Advances n s s₁) (log : List (SourceCall σ)) :
    ∃ log', source.logged.Advances n (s, log) (s₁, log') := by
  induction h generalizing log with
  | zero => exact ⟨log, .zero _⟩
  | @succ n s s₂ s₁ hadvance _ ih =>
    have hlogged := SourceCall.runFrom_logging .advance source.advance s log
    rw [hadvance] at hlogged
    obtain ⟨log', hrest⟩ := ih (log ++ [.advance s])
    exact ⟨log', .succ hlogged hrest⟩

end RowSource

namespace StreamRequest

variable {r : StreamRequest} {source : RowSource σ} {columns : List ResolvedColumn} {number : Nat}
  {c : ResolvedColumn} {p p' : σ × List (SourceCall σ)} {s s₀ : σ} {report : Report}

theorem asksAmong_calls (r : StreamRequest) (source : RowSource σ) (sink : Sink τ) (clock : Clock)
    (s : σ) (t : τ) :
    ∀ call ∈ r.calls source sink clock s t, source.AsksAmong r.resultCells call := by
  obtain ⟨n, calls, s₁, rest, hcalls, hturns, hrest, -⟩ := exists_turns r source sink clock s t
  rw [hcalls, List.forall_mem_append]
  exact ⟨hturns.asksAmong, hrest.asksAmong⟩

theorem FailsCell.exists_fails (h : r.FailsCell source.logged number c p (.source report) p') :
    ∃ call ∈ p'.2, source.Fails report call := by
  cases h with
  | isNull horigin hnull =>
    obtain ⟨hnull, hlog⟩ := RowSource.isNull_of_logged hnull
    rw [hlog]
    exact ⟨_, List.mem_concat_self, congrArg Prod.fst hnull⟩
  | read horigin hnull hread =>
    obtain ⟨hread, hlog⟩ := RowSource.read_of_logged hread
    rw [hlog]
    exact ⟨_, List.mem_concat_self, congrArg Prod.fst hread⟩

theorem FailsRow.exists_fails
    (h : r.FailsRow source.logged number columns p (.source report) p') :
    ∃ call ∈ p'.2, source.Fails report call := by
  generalize hfailure : RowFailure.source report = failure at h
  induction h with
  | here hcell =>
    subst hfailure
    exact hcell.exists_fails
  | later _ _ ih => exact ih hfailure

theorem exists_fails_of_run {sink : Sink τ} {clock : Clock} {t : τ} {id : String}
    (hresolve : r.resolve = .ok columns) (hskip : source.Advances r.skipped s s₀)
    (h : ((r.run source sink clock).runFrom (s, t)).1 = .error (.dataAccess id report)) :
    id = r.source ∧ ∃ call ∈ r.calls source sink clock s t, source.Fails report call := by
  obtain ⟨log, hlogged⟩ := hskip.logged []
  have hends := run_endsIn sink clock t hresolve hlogged
  rw [runFrom_run_source_logged, h] at hends
  unfold EndsIn at hends
  generalize hresult : (Except.error (.dataAccess id report) : Except Error Stats) = result at hends
  generalize hleft : (((r.run source sink clock).runFrom (s, t)).2.1,
    r.calls source sink clock s t) = left at hends
  have hcalls : r.calls source sink clock s t = left.2 := by rw [← hleft]
  rw [hcalls]
  cases hends with
  | finished => cases hresult
  | rowLimit => cases hresult
  | batchRefused => cases hresult
  | restRefused => cases hresult
  | advanceFailed hrows hrow hadvance =>
    cases hresult
    obtain ⟨hadvance, hlog⟩ := RowSource.advance_of_logged hadvance
    rw [hlog]
    exact ⟨rfl, _, List.mem_concat_self, congrArg Prod.fst hadvance⟩
  | @rowFailed _ _ _ _ _ failure hrows hnext hfails =>
    cases failure with
    | source other =>
      cases hresult
      exact ⟨rfl, hfails.exists_fails⟩
    | encoding fault => cases hresult

theorem resolution_of_resolve_error {e : Error} (h : r.resolve = .error e) :
    ∃ column available, e = .resolution column available := by
  obtain ⟨c, -, hc⟩ := exists_of_mapM_error h
  unfold resolveColumn at hc
  split at hc
  · cases hc
  · cases hc
    exact ⟨_, _, rfl⟩

end StreamRequest

end RowStream
