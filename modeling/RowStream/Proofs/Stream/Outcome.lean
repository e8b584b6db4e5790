import RowStream.Proofs.Stream.Emission
import RowStream.Proofs.Stream.Progress

/-!
# How a stream goes on

The loop of a stream from any point of it, `rowsAfter`: which rows have been emitted says all of its
state. One step emits a row or ends the stream. `runFrom_rowsAfter_of_emits` passes over rows that
are emitted and taken; `rowsAfter_endsIn` says in how many ways the loop can end, whatever its
source and its sink do.
-/

namespace RowStream

namespace StreamRequest

variable [Zone.Catalogue] {σ τ : Type} {r : StreamRequest} {source : RowSource σ} {sink : Sink τ}
  {deadline : Option Nat} {clock : Clock} {columns : List ResolvedColumn}

theorem batchSize_pos (r : StreamRequest) : 0 < r.batchSize := Nat.le_max_left 1 _

theorem onRow_succ (r : StreamRequest) (n : Nat) : r.onRow (n + 1) = false := by
  simp [onRow]

/-- The loop of a stream that has emitted the rows. -/
def rowsAfter (r : StreamRequest) (source : RowSource σ) (sink : Sink τ) (deadline : Option Nat)
    (clock : Clock) (columns : List ResolvedColumn) (limit : Nat)
    (rows : List (List EmittedCell)) : Stateful Error (σ × τ) Stats :=
  r.rows source sink deadline clock columns limit (r.onRow rows.length)
    (Progress.after r.batchSize rows)

theorem next_outcome (source : RowSource σ) (onRow : Bool) (s : σ) :
    (∃ s', source.MovesOn onRow s s') ∨ (∃ s', source.EndsAt onRow s s') ∨
      ∃ report s', onRow = false ∧ source.advance.runFrom s = (.error report, s') := by
  cases onRow with
  | true => exact .inl ⟨s, .stays s⟩
  | false =>
      rcases hadvance : source.advance.runFrom s with ⟨report | more, s'⟩
      · exact .inr (.inr ⟨report, s', rfl, rfl⟩)
      · cases more with
        | true => exact .inl ⟨s', .advances hadvance⟩
        | false => exact .inr (.inl ⟨s', rfl, hadvance⟩)

section Step

variable {rows : List (List EmittedCell)} {cells : List EmittedCell} {limit : Nat} {s s₁ s₂ : σ}
  {t t' : τ}

theorem runFrom_nextRow_of_movesOn {onRow : Bool} (h : source.MovesOn onRow s s₁) :
    (r.nextRow source onRow).runFrom s = (.ok true, s₁) := by
  cases h with
  | stays => rfl
  | advances hadvance => exact runFrom_blame_ok hadvance

theorem runFrom_rows_of_movesOn {onRow : Bool} {p : Progress}
    (h : source.MovesOn onRow s s₁) :
    (r.rows source sink deadline clock columns (limit + 1) onRow p).runFrom (s, t) =
      (Stateful.onFirst (r.row source (r.firstRow + p.stats.rows) columns) >>= fun bytes =>
        Stateful.onSecond ((p.push bytes).settle r.batchSize sink deadline clock) >>= fun p =>
          r.rows source sink deadline clock columns limit false p).runFrom (s₁, t) := by
  rw [StreamRequest.rows.eq_def]
  refine Stateful.runFrom_bind_of_ok (a := true) ?_
  rw [Stateful.runFrom_onFirst, runFrom_nextRow_of_movesOn h]

theorem runFrom_rows_of_endsAt {onRow : Bool} {p : Progress} (h : source.EndsAt onRow s s₁) :
    (r.rows source sink deadline clock columns limit onRow p).runFrom (s, t) =
      (Stateful.onSecond (p.finish sink deadline clock) >>= fun p =>
        (pure p.stats : Stateful Error (σ × τ) Stats)).runFrom (s₁, t) := by
  rw [StreamRequest.rows.eq_def]
  refine Stateful.runFrom_bind_of_ok (a := false) ?_
  rw [Stateful.runFrom_onFirst]
  unfold nextRow
  rw [h.notOnRow, if_neg Bool.false_ne_true, runFrom_blame_ok h.advanced]

theorem runFrom_rowsAfter_snoc
    (hnext : source.MovesOn (r.onRow rows.length) s s₁)
    (hrow : r.EmitsRow source (r.firstRow + rows.length) columns s₁ cells s₂)
    (hsettle : (((Progress.after r.batchSize rows).push (rowBytes cells)).settle
      r.batchSize sink deadline clock).runFrom t =
        (.ok (Progress.after r.batchSize (rows ++ [cells])), t')) :
    (r.rowsAfter source sink deadline clock columns (limit + 1) rows).runFrom (s, t) =
      (r.rowsAfter source sink deadline clock columns limit (rows ++ [cells])).runFrom
        (s₂, t') := by
  unfold rowsAfter
  rw [runFrom_rows_of_movesOn hnext, Progress.rows_stats_after]
  have hbytes : (Stateful.onFirst (r.row source (r.firstRow + rows.length) columns) :
      Stateful Error (σ × τ) _).runFrom (s₁, t) = (.ok (rowBytes cells), (s₂, t)) := by
    rw [Stateful.runFrom_onFirst, hrow.runFrom_row]
  rw [Stateful.runFrom_bind_of_ok hbytes]
  have hbatch : (Stateful.onSecond (((Progress.after r.batchSize rows).push
      (rowBytes cells)).settle r.batchSize sink deadline clock) :
        Stateful Error (σ × τ) _).runFrom (s₂, t) =
      (.ok (Progress.after r.batchSize (rows ++ [cells])), (s₂, t')) := by
    rw [Stateful.runFrom_onSecond, hsettle]
  rw [Stateful.runFrom_bind_of_ok hbatch, List.length_append, List.length_singleton, onRow_succ]

theorem runFrom_rowsAfter_of_advance_error {report : Report} (hrow : r.onRow rows.length = false)
    (hadvance : source.advance.runFrom s = (.error report, s₁)) :
    (r.rowsAfter source sink deadline clock columns limit rows).runFrom (s, t) =
      (.error (.dataAccess r.source report), (s₁, t)) := by
  unfold rowsAfter
  rw [StreamRequest.rows.eq_def]
  apply Stateful.runFrom_bind_of_error
  rw [Stateful.runFrom_onFirst]
  unfold nextRow
  rw [hrow, if_neg Bool.false_ne_true, runFrom_blame_error hadvance]

theorem runFrom_rowsAfter_of_failsRow {failure : RowFailure}
    (hnext : source.MovesOn (r.onRow rows.length) s s₁)
    (hrow : r.FailsRow source (r.firstRow + rows.length) columns s₁ failure s₂) :
    (r.rowsAfter source sink deadline clock columns (limit + 1) rows).runFrom (s, t) =
      (.error (failure.error r.source), (s₂, t)) := by
  unfold rowsAfter
  rw [runFrom_rows_of_movesOn hnext, Progress.rows_stats_after]
  apply Stateful.runFrom_bind_of_error
  rw [Stateful.runFrom_onFirst, hrow.runFrom_row]

theorem runFrom_rowsAfter_of_settle_error {e : Error}
    (hnext : source.MovesOn (r.onRow rows.length) s s₁)
    (hrow : r.EmitsRow source (r.firstRow + rows.length) columns s₁ cells s₂)
    (hsettle : (((Progress.after r.batchSize rows).push (rowBytes cells)).settle
      r.batchSize sink deadline clock).runFrom t = (.error e, t')) :
    (r.rowsAfter source sink deadline clock columns (limit + 1) rows).runFrom (s, t) =
      (.error e, (s₂, t')) := by
  unfold rowsAfter
  rw [runFrom_rows_of_movesOn hnext, Progress.rows_stats_after]
  have hbytes : (Stateful.onFirst (r.row source (r.firstRow + rows.length) columns) :
      Stateful Error (σ × τ) _).runFrom (s₁, t) = (.ok (rowBytes cells), (s₂, t)) := by
    rw [Stateful.runFrom_onFirst, hrow.runFrom_row]
  rw [Stateful.runFrom_bind_of_ok hbytes]
  apply Stateful.runFrom_bind_of_error
  rw [Stateful.runFrom_onSecond, hsettle]

theorem runFrom_rowsAfter_of_rowLimit (hnext : source.MovesOn (r.onRow rows.length) s s₁) :
    (r.rowsAfter source sink deadline clock columns 0 rows).runFrom (s, t) =
      (.error (.internal .rowLimit), (s₁, t)) := by
  unfold rowsAfter
  rw [StreamRequest.rows.eq_def]
  have hrow : (Stateful.onFirst (r.nextRow source (r.onRow rows.length)) :
      Stateful Error (σ × τ) _).runFrom (s, t) = (.ok true, (s₁, t)) := by
    rw [Stateful.runFrom_onFirst, runFrom_nextRow_of_movesOn hnext]
  rw [Stateful.runFrom_bind_of_ok hrow]
  rfl

theorem runFrom_rowsAfter_of_endsAt {p : Progress}
    (hend : source.EndsAt (r.onRow rows.length) s s₁)
    (hfinish : ((Progress.after r.batchSize rows).finish sink deadline clock).runFrom t =
      (.ok p, t')) :
    (r.rowsAfter source sink deadline clock columns limit rows).runFrom (s, t) =
      (.ok p.stats, (s₁, t')) := by
  unfold rowsAfter
  rw [runFrom_rows_of_endsAt hend]
  have hrest : (Stateful.onSecond ((Progress.after r.batchSize rows).finish sink deadline
      clock) : Stateful Error (σ × τ) _).runFrom (s₁, t) = (.ok p, (s₁, t')) := by
    rw [Stateful.runFrom_onSecond, hfinish]
  rw [Stateful.runFrom_bind_of_ok hrest]
  rfl

theorem runFrom_rowsAfter_of_finish_error {e : Error}
    (hend : source.EndsAt (r.onRow rows.length) s s₁)
    (hfinish : ((Progress.after r.batchSize rows).finish sink deadline clock).runFrom t =
      (.error e, t')) :
    (r.rowsAfter source sink deadline clock columns limit rows).runFrom (s, t) =
      (.error e, (s₁, t')) := by
  unfold rowsAfter
  rw [runFrom_rows_of_endsAt hend]
  apply Stateful.runFrom_bind_of_error
  rw [Stateful.runFrom_onSecond, hfinish]

end Step

/-- The sink takes the full batches of the rows, from the state `t₀` on. -/
def HandedOver (r : StreamRequest) (sink : Sink τ) (deadline : Option Nat) (clock : Clock)
    (t₀ : τ) (rows : List (List EmittedCell)) (t : τ) : Prop :=
  sink.Collects deadline clock t₀
    (firstBatches r.batchSize rows (rows.length / r.batchSize)) t

section Batch

variable {rows : List (List EmittedCell)} {cells : List EmittedCell} {t₀ t t' : τ}

theorem handedOver_nil_iff : r.HandedOver sink deadline clock t₀ [] t ↔ t = t₀ := by
  unfold HandedOver firstBatches
  rw [List.length_nil, Nat.zero_div]
  exact Sink.collects_nil_iff

omit [Zone.Catalogue] in
theorem firstBatches_snoc (size : Nat) (rows : List (List EmittedCell))
    (cells : List EmittedCell) :
    firstBatches size (rows ++ [cells]) (rows.length / size) =
      firstBatches size rows (rows.length / size) := by
  exact firstBatches_append (Nat.mul_div_le _ _) [cells]

theorem handedOver_snoc_of_not_full (h : rows.length % r.batchSize + 1 ≠ r.batchSize) :
    r.HandedOver sink deadline clock t₀ (rows ++ [cells]) t ↔
      r.HandedOver sink deadline clock t₀ rows t := by
  unfold HandedOver
  rw [List.length_append, List.length_singleton, (succ_div_of_not_dvd r.batchSize_pos h).1,
    firstBatches_snoc]

theorem handedOver_snoc_of_full (h : rows.length % r.batchSize + 1 = r.batchSize) :
    r.HandedOver sink deadline clock t₀ (rows ++ [cells]) t' ↔
      ∃ t, r.HandedOver sink deadline clock t₀ rows t ∧
        sink.Takes deadline (clock (rows.length / r.batchSize + 1))
          (batchBytes r.batchSize (rows ++ [cells]) (rows.length / r.batchSize)) t t' := by
  unfold HandedOver
  rw [List.length_append, List.length_singleton, (succ_div_of_dvd r.batchSize_pos h).1,
    firstBatches_succ, firstBatches_snoc]
  constructor
  · intro hall
    obtain ⟨t, hbefore, htakes⟩ := hall.of_append_singleton
    rw [length_firstBatches] at htakes
    exact ⟨t, hbefore, htakes⟩
  · rintro ⟨t, hbefore, htakes⟩
    refine .snoc hbefore ?_
    rw [length_firstBatches]
    exact htakes

end Batch

theorem runFrom_rowsAfter_of_emits {s₀ s : σ} {t₀ t : τ} {rows : List (List EmittedCell)}
    (limit : Nat) (hrows : r.EmitsRows source columns s₀ rows s)
    (htaken : r.HandedOver sink deadline clock t₀ rows t) :
    (r.rowsAfter source sink deadline clock columns (limit + rows.length) []).runFrom (s₀, t₀) =
      (r.rowsAfter source sink deadline clock columns limit rows).runFrom (s, t) := by
  induction hrows generalizing limit t with
  | none =>
      rw [handedOver_nil_iff.1 htaken]
      rfl
  | @snoc rows cells s₁ s₂ s₃ hrows hnext hrow ih =>
      rw [List.length_append, List.length_singleton, show limit + (rows.length + 1) =
        limit + 1 + rows.length by omega]
      -- Only a row that fills its batch changes what the sink has taken.
      by_cases hfull : rows.length % r.batchSize + 1 = r.batchSize
      · obtain ⟨t₁, hbefore, htakes⟩ := (handedOver_snoc_of_full hfull).1 htaken
        rw [ih (limit + 1) hbefore]
        apply runFrom_rowsAfter_snoc hnext hrow
        exact Progress.runFrom_settle_of_takes r.batchSize_pos hfull htakes
      · rw [ih (limit + 1) ((handedOver_snoc_of_not_full hfull).1 htaken)]
        apply runFrom_rowsAfter_snoc hnext hrow
        exact Progress.runFrom_settle_of_not_full r.batchSize_pos hfull

/-- The ways in which the loop of a stream ends: what it answers, and the states in which it leaves
the source and the sink. -/
inductive StreamEnd (r : StreamRequest) (source : RowSource σ) (sink : Sink τ)
    (deadline : Option Nat) (clock : Clock) (columns : List ResolvedColumn) (limit : Nat) (s₀ : σ)
    (t₀ : τ) : Except Error Stats → σ → τ → Prop
  | finished {rows : List (List EmittedCell)} {s s₁ : σ} {t : τ}
      (hrows : r.EmitsRows source columns s₀ rows s)
      (hend : source.EndsAt (r.onRow rows.length) s s₁) (hcount : rows.length ≤ limit)
      (htaken : sink.Collects deadline clock t₀
        (firstBatches r.batchSize rows (batchCount r.batchSize rows.length)) t) :
      r.StreamEnd source sink deadline clock columns limit s₀ t₀
        (.ok (Stats.ofRows r.batchSize rows)) s₁ t
  | advanceFailed {rows : List (List EmittedCell)} {s s₁ : σ} {t : τ} {report : Report}
      (hrows : r.EmitsRows source columns s₀ rows s) (hrow : r.onRow rows.length = false)
      (hadvance : source.advance.runFrom s = (.error report, s₁)) (hcount : rows.length ≤ limit)
      (htaken : r.HandedOver sink deadline clock t₀ rows t) :
      r.StreamEnd source sink deadline clock columns limit s₀ t₀
        (.error (.dataAccess r.source report)) s₁ t
  | rowFailed {rows : List (List EmittedCell)} {s s₁ s₂ : σ} {t : τ} {failure : RowFailure}
      (hrows : r.EmitsRows source columns s₀ rows s)
      (hnext : source.MovesOn (r.onRow rows.length) s s₁)
      (hfails : r.FailsRow source (r.firstRow + rows.length) columns s₁ failure s₂)
      (hcount : rows.length < limit) (htaken : r.HandedOver sink deadline clock t₀ rows t) :
      r.StreamEnd source sink deadline clock columns limit s₀ t₀
        (.error (failure.error r.source)) s₂ t
  | rowLimit {rows : List (List EmittedCell)} {s s₁ : σ} {t : τ}
      (hrows : r.EmitsRows source columns s₀ rows s)
      (hnext : source.MovesOn (r.onRow rows.length) s s₁) (hcount : rows.length = limit)
      (htaken : r.HandedOver sink deadline clock t₀ rows t) :
      r.StreamEnd source sink deadline clock columns limit s₀ t₀
        (.error (.internal .rowLimit)) s₁ t
  | batchRefused {rows : List (List EmittedCell)} {k : Nat} {s : σ} {t t₁ : τ} {cause : AbortCause}
      (hrows : r.EmitsRows source columns s₀ rows s) (hfull : rows.length = r.batchSize * (k + 1))
      (hcount : rows.length ≤ limit)
      (htaken : sink.Collects deadline clock t₀ (firstBatches r.batchSize rows k) t)
      (hrefuses : sink.Refuses deadline (clock (k + 1)) (batchBytes r.batchSize rows k)
        t cause t₁) :
      r.StreamEnd source sink deadline clock columns limit s₀ t₀ (.error (.aborted cause)) s t₁
  | restRefused {rows : List (List EmittedCell)} {k : Nat} {s s₁ : σ} {t t₁ : τ}
      {cause : AbortCause} (hrows : r.EmitsRows source columns s₀ rows s)
      (hend : source.EndsAt (r.onRow rows.length) s s₁) (hlow : r.batchSize * k < rows.length)
      (hhigh : rows.length < r.batchSize * (k + 1)) (hcount : rows.length ≤ limit)
      (htaken : sink.Collects deadline clock t₀ (firstBatches r.batchSize rows k) t)
      (hrefuses : sink.Refuses deadline (clock (k + 1)) (batchBytes r.batchSize rows k)
        t cause t₁) :
      r.StreamEnd source sink deadline clock columns limit s₀ t₀ (.error (.aborted cause)) s₁ t₁

/-- A result of a loop as one of its ends. -/
def EndsIn (r : StreamRequest) (source : RowSource σ) (sink : Sink τ) (deadline : Option Nat)
    (clock : Clock) (columns : List ResolvedColumn) (limit : Nat) (s₀ : σ) (t₀ : τ)
    (result : Except Error Stats × σ × τ) : Prop :=
  r.StreamEnd source sink deadline clock columns limit s₀ t₀ result.1 result.2.1 result.2.2

section Outcome

variable {rows : List (List EmittedCell)} {limit total : Nat} {s₀ s s₁ : σ} {t₀ t t₁ : τ}

theorem endsIn_of_endsAt (hrows : r.EmitsRows source columns s₀ rows s)
    (htaken : r.HandedOver sink deadline clock t₀ rows t) (hcount : rows.length ≤ total)
    (hend : source.EndsAt (r.onRow rows.length) s s₁) :
    r.EndsIn source sink deadline clock columns total s₀ t₀
      ((r.rowsAfter source sink deadline clock columns limit rows).runFrom (s, t)) := by
  have hsize := r.batchSize_pos
  rcases Nat.eq_zero_or_pos (rows.length % r.batchSize) with hz | hpos
  · obtain ⟨hfinish, hstats⟩ := Progress.runFrom_finish_of_mod_eq_zero sink deadline clock t
      hsize hz
    rw [runFrom_rowsAfter_of_endsAt hend hfinish, hstats]
    refine .finished hrows hend hcount ?_
    rw [batchCount_of_mod_eq_zero hsize hz]
    exact htaken
  · obtain ⟨t₁, htakes⟩ | ⟨cause, t₁, hrefuses⟩ := sink.takes_or_refuses deadline
      (clock (rows.length / r.batchSize + 1))
      (batchBytes r.batchSize rows (rows.length / r.batchSize)) t
    · obtain ⟨p, hfinish, hstats⟩ := Progress.runFrom_finish_of_takes hsize hpos htakes
      rw [runFrom_rowsAfter_of_endsAt hend hfinish, hstats]
      refine .finished hrows hend hcount ?_
      rw [batchCount_of_mod_pos hsize hpos, firstBatches_succ]
      refine .snoc htaken ?_
      rw [length_firstBatches]
      exact htakes
    · have hfinish := Progress.runFrom_finish_of_refuses hsize hpos hrefuses
      rw [runFrom_rowsAfter_of_finish_error hend hfinish]
      have hdiv := Nat.div_add_mod rows.length r.batchSize
      have hmod := Nat.mod_lt rows.length hsize
      refine .restRefused hrows hend ?_ ?_ hcount htaken hrefuses
      · omega
      · rw [Nat.mul_add, Nat.mul_one]
        omega

/-- Whatever the source and the sink do, the loop ends in one of these ways. -/
theorem rowsAfter_endsIn (hrows : r.EmitsRows source columns s₀ rows s)
    (htaken : r.HandedOver sink deadline clock t₀ rows t) (hlimit : rows.length + limit = total) :
    r.EndsIn source sink deadline clock columns total s₀ t₀
      ((r.rowsAfter source sink deadline clock columns limit rows).runFrom (s, t)) := by
  -- By induction on the rows that are still allowed. Every turn that does not end the loop emits
  -- one more row, and keeps its full batches taken.
  induction limit generalizing rows s t with
  | zero =>
      obtain ⟨s₁, hnext⟩ | ⟨s₁, hend⟩ | ⟨report, s₁, hrow, hadvance⟩ :=
        next_outcome source (r.onRow rows.length) s
      · rw [runFrom_rowsAfter_of_rowLimit hnext]
        exact .rowLimit hrows hnext hlimit htaken
      · exact endsIn_of_endsAt hrows htaken (by omega) hend
      · rw [runFrom_rowsAfter_of_advance_error hrow hadvance]
        exact .advanceFailed hrows hrow hadvance (by omega) htaken
  | succ limit ih =>
      obtain ⟨s₁, hnext⟩ | ⟨s₁, hend⟩ | ⟨report, s₁, hrow, hadvance⟩ :=
        next_outcome source (r.onRow rows.length) s
      · obtain ⟨cells, s₂, hrow⟩ | ⟨failure, s₂, hrow⟩ :=
          row_outcome r source (r.firstRow + rows.length) columns s₁
        · have hmore : (rows ++ [cells]).length + limit = total := by
            rw [List.length_append, List.length_singleton]
            omega
          by_cases hfull : rows.length % r.batchSize + 1 = r.batchSize
          · obtain ⟨t₁, htakes⟩ | ⟨cause, t₁, hrefuses⟩ := sink.takes_or_refuses deadline
              (clock (rows.length / r.batchSize + 1))
              (batchBytes r.batchSize (rows ++ [cells]) (rows.length / r.batchSize)) t
            · have hsettle := Progress.runFrom_settle_of_takes r.batchSize_pos hfull htakes
              rw [runFrom_rowsAfter_snoc hnext hrow hsettle]
              exact ih (.snoc hrows hnext hrow)
                ((handedOver_snoc_of_full hfull).2 ⟨t, htaken, htakes⟩) hmore
            · have hsettle := Progress.runFrom_settle_of_refuses hfull hrefuses
              rw [runFrom_rowsAfter_of_settle_error hnext hrow hsettle]
              refine .batchRefused (.snoc hrows hnext hrow) ?_ (by omega) ?_ hrefuses
              · have hdiv := Nat.div_add_mod rows.length r.batchSize
                rw [List.length_append, List.length_singleton, Nat.mul_add, Nat.mul_one]
                omega
              · rw [firstBatches_snoc]
                exact htaken
          · rw [runFrom_rowsAfter_snoc hnext hrow
              (Progress.runFrom_settle_of_not_full r.batchSize_pos hfull)]
            exact ih (.snoc hrows hnext hrow)
              ((handedOver_snoc_of_not_full hfull).2 htaken) hmore
        · rw [runFrom_rowsAfter_of_failsRow hnext hrow]
          exact .rowFailed hrows hnext hrow (by omega) htaken
      · exact endsIn_of_endsAt hrows htaken (by omega) hend
      · rw [runFrom_rowsAfter_of_advance_error hrow hadvance]
        exact .advanceFailed hrows hrow hadvance (by omega) htaken

theorem runFrom_rowsAfter_nil (hrows : r.EmitsRows source columns s₀ rows s)
    (htaken : r.HandedOver sink deadline clock t₀ rows t) (hcount : rows.length ≤ total) :
    (r.rowsAfter source sink deadline clock columns total []).runFrom (s₀, t₀) =
      (r.rowsAfter source sink deadline clock columns (total - rows.length) rows).runFrom
        (s, t) := by
  rw [← runFrom_rowsAfter_of_emits (total - rows.length) hrows htaken, Nat.sub_add_cancel hcount]

theorem handedOver_of_collects_all
    (h : sink.Collects deadline clock t₀
      (firstBatches r.batchSize rows (batchCount r.batchSize rows.length)) t₁) :
    (rows.length % r.batchSize = 0 ∧ r.HandedOver sink deadline clock t₀ rows t₁) ∨
      0 < rows.length % r.batchSize ∧ ∃ t, r.HandedOver sink deadline clock t₀ rows t ∧
        sink.Takes deadline (clock (rows.length / r.batchSize + 1))
          (batchBytes r.batchSize rows (rows.length / r.batchSize)) t t₁ := by
  rcases Nat.eq_zero_or_pos (rows.length % r.batchSize) with hz | hpos
  · rw [batchCount_of_mod_eq_zero r.batchSize_pos hz] at h
    exact .inl ⟨hz, h⟩
  · rw [batchCount_of_mod_pos r.batchSize_pos hpos, firstBatches_succ] at h
    obtain ⟨t, hbefore, htakes⟩ := h.of_append_singleton
    rw [length_firstBatches] at htakes
    exact .inr ⟨hpos, t, hbefore, htakes⟩

/-- The loop from the start computes each of its ends. -/
theorem StreamEnd.runFrom_rowsAfter {result : Except Error Stats}
    (h : r.StreamEnd source sink deadline clock columns total s₀ t₀ result s t) :
    (r.rowsAfter source sink deadline clock columns total []).runFrom (s₀, t₀) =
      (result, s, t) := by
  have hsize := r.batchSize_pos
  cases h with
  | finished hrows hend hcount htaken =>
      obtain ⟨hz, htaken⟩ | ⟨hpos, t₁, htaken, htakes⟩ := handedOver_of_collects_all htaken
      · obtain ⟨hfinish, hstats⟩ := Progress.runFrom_finish_of_mod_eq_zero sink deadline clock _
          hsize hz
        rw [runFrom_rowsAfter_nil hrows htaken hcount, runFrom_rowsAfter_of_endsAt hend hfinish,
          hstats]
      · obtain ⟨p, hfinish, hstats⟩ := Progress.runFrom_finish_of_takes hsize hpos htakes
        rw [runFrom_rowsAfter_nil hrows htaken hcount, runFrom_rowsAfter_of_endsAt hend hfinish,
          hstats]
  | advanceFailed hrows hrow hadvance hcount htaken =>
      rw [runFrom_rowsAfter_nil hrows htaken hcount,
        runFrom_rowsAfter_of_advance_error hrow hadvance]
  | @rowFailed rows _ _ _ _ _ hrows hnext hfails hcount htaken =>
      rw [runFrom_rowsAfter_nil hrows htaken (Nat.le_of_lt hcount),
        show total - rows.length = total - rows.length - 1 + 1 by omega,
        runFrom_rowsAfter_of_failsRow hnext hfails]
  | rowLimit hrows hnext hcount htaken =>
      rw [runFrom_rowsAfter_nil hrows htaken (Nat.le_of_eq hcount), hcount, Nat.sub_self,
        runFrom_rowsAfter_of_rowLimit hnext]
  | @batchRefused rows k _ t₁ _ _ hrows hfull hcount htaken hrefuses =>
      cases hrows with
      | none =>
          rw [List.length_nil, Nat.mul_add] at hfull
          omega
      | @snoc rows cells _ _ _ hrows hnext hrow =>
          -- The loop stops in the turn of the row that fills the refused batch.
          rw [List.length_append, List.length_singleton] at hfull hcount
          obtain ⟨hdiv, hmod⟩ := div_mod_of_succ_eq hsize hfull
          have hbefore : r.HandedOver sink deadline clock t₀ rows t₁ := by
            unfold HandedOver
            rw [← firstBatches_snoc r.batchSize rows cells, hdiv]
            exact htaken
          rw [← hdiv] at hrefuses
          rw [runFrom_rowsAfter_nil hrows hbefore (by omega),
            show total - rows.length = total - rows.length - 1 + 1 by omega,
            runFrom_rowsAfter_of_settle_error hnext hrow
              (Progress.runFrom_settle_of_refuses hmod hrefuses)]
  | @restRefused rows k _ _ _ _ _ hrows hend hlow hhigh hcount htaken hrefuses =>
      obtain ⟨hdiv, hpos⟩ := div_mod_of_between hlow hhigh
      rw [← hdiv] at htaken hrefuses
      rw [runFrom_rowsAfter_nil hrows htaken hcount,
        runFrom_rowsAfter_of_finish_error hend
          (Progress.runFrom_finish_of_refuses hsize hpos hrefuses)]

end Outcome

end StreamRequest

end RowStream
