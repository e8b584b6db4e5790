import RowStream.Proofs.Stream.Batches
import RowStream.Proofs.Stream.Delivery
import RowStream.Proofs.Stream.Emission

/-!
# Progress of a stream

A stream's progress is a function of the rows that it has emitted: `Progress.after`. Handing a batch
over when it is full keeps progress in that form, and handing over the rest at the end makes the
statistics of the whole stream, `Stats.ofRows`.
-/

namespace RowStream

def batchBytes (size : Nat) (rows : List (List EmittedCell)) (k : Nat) : List UInt8 :=
  (batchRows size rows k).flatMap rowBytes

def firstBatches (size : Nat) (rows : List (List EmittedCell)) (k : Nat) : List (List UInt8) :=
  (List.range k).map (batchBytes size rows)

/-- What a stream of rows reports when all of them are handed over. -/
def Stats.ofRows (size : Nat) (rows : List (List EmittedCell)) : Stats :=
  { rows := rows.length
    batches := batchCount size rows.length
    bytes := (rows.flatMap rowBytes).length }

theorem firstBatches_succ (size : Nat) (rows : List (List EmittedCell)) (k : Nat) :
    firstBatches size rows (k + 1) = firstBatches size rows k ++ [batchBytes size rows k] := by
  unfold firstBatches
  rw [List.range_succ, List.map_append, List.map_singleton]

@[simp] theorem length_firstBatches (size : Nat) (rows : List (List EmittedCell)) (k : Nat) :
    (firstBatches size rows k).length = k := by
  simp [firstBatches]

theorem firstBatches_eq_take {size k : Nat} {rows : List (List EmittedCell)}
    (hk : k ≤ batchCount size rows.length) :
    firstBatches size rows k = ((batches size rows).take k).map (List.flatMap rowBytes) := by
  rw [take_batches hk, List.map_map]
  rfl

theorem firstBatches_append {size k : Nat} {rows : List (List EmittedCell)}
    (hk : size * k ≤ rows.length) (more : List (List EmittedCell)) :
    firstBatches size (rows ++ more) k = firstBatches size rows k := by
  unfold firstBatches
  apply List.map_congr_left
  intro i hi
  unfold batchBytes
  rw [batchRows_append]
  calc size * (i + 1) ≤ size * k := Nat.mul_le_mul_left size (List.mem_range.1 hi)
    _ ≤ rows.length := hk

theorem batchRows_last {α : Type} {size : Nat} {rows : List α} (hsize : 0 < size) :
    batchRows size rows (rows.length / size) = rows.drop (size * (rows.length / size)) := by
  have hdiv := Nat.div_add_mod rows.length size
  have hmod := Nat.mod_lt rows.length hsize
  unfold batchRows
  rw [List.take_of_length_le]
  rw [List.length_drop]
  omega

section Division

variable {size n : Nat}

theorem div_eq_of_between {k : Nat} (hlow : size * k ≤ n) (hhigh : n < size * (k + 1)) :
    n / size = k := by
  apply Nat.div_eq_of_lt_le
  · rw [Nat.mul_comm]
    exact hlow
  · rw [Nat.mul_comm]
    exact hhigh

theorem div_mod_of_between {k : Nat} (hlow : size * k < n) (hhigh : n < size * (k + 1)) :
    n / size = k ∧ 0 < n % size := by
  have hdiv := div_eq_of_between (Nat.le_of_lt hlow) hhigh
  have hrest := Nat.div_add_mod n size
  rw [hdiv] at hrest
  exact ⟨hdiv, by omega⟩

theorem div_mod_of_succ_eq {k : Nat} (hsize : 0 < size) (h : n + 1 = size * (k + 1)) :
    n / size = k ∧ n % size + 1 = size := by
  have hdiv : n / size = k := by
    apply div_eq_of_between
    · rw [Nat.mul_add, Nat.mul_one] at h
      omega
    · omega
  have hrest := Nat.div_add_mod n size
  rw [hdiv] at hrest
  rw [Nat.mul_add, Nat.mul_one] at h
  exact ⟨hdiv, by omega⟩

theorem succ_div_of_not_dvd (hsize : 0 < size) (h : n % size + 1 ≠ size) :
    (n + 1) / size = n / size ∧ (n + 1) % size = n % size + 1 := by
  have hdiv := Nat.div_add_mod n size
  have hmod := Nat.mod_lt n hsize
  have hquot : (n + 1) / size = n / size := by
    apply div_eq_of_between
    · omega
    · rw [Nat.mul_add, Nat.mul_one]
      omega
  refine ⟨hquot, ?_⟩
  have hdiv' := Nat.div_add_mod (n + 1) size
  rw [hquot] at hdiv'
  omega

theorem succ_div_of_dvd (hsize : 0 < size) (h : n % size + 1 = size) :
    (n + 1) / size = n / size + 1 ∧ (n + 1) % size = 0 := by
  have hdiv := Nat.div_add_mod n size
  have hn : n + 1 = size * (n / size + 1) := by
    rw [Nat.mul_add, Nat.mul_one]
    omega
  refine ⟨?_, ?_⟩
  · rw [hn, Nat.mul_div_cancel_left _ hsize]
  · rw [hn, Nat.mul_mod_right]

end Division

namespace StreamRequest.Progress

/-- Progress after rows: full batches are handed over, the rows behind them are pending. -/
def after (size : Nat) (rows : List (List EmittedCell)) : Progress :=
  { stats :=
      { rows := rows.length
        batches := rows.length / size
        bytes := ((rows.take (size * (rows.length / size))).flatMap rowBytes).length }
    pendingRows := rows.length % size
    pending := (rows.drop (size * (rows.length / size))).flatMap rowBytes }

variable {size : Nat} {rows : List (List EmittedCell)} {cells : List EmittedCell}

@[simp] theorem rows_stats_after (size : Nat) (rows : List (List EmittedCell)) :
    (after size rows).stats.rows = rows.length := rfl

theorem after_nil (size : Nat) : after size [] = {} := by
  simp [after]

theorem push_after_of_not_full (hsize : 0 < size) (h : rows.length % size + 1 ≠ size) :
    (after size rows).push (rowBytes cells) = after size (rows ++ [cells]) := by
  obtain ⟨hquot, hrem⟩ := succ_div_of_not_dvd hsize h
  have hle := Nat.mul_div_le rows.length size
  unfold after push
  rw [List.length_append, List.length_singleton, hquot, hrem,
    List.take_append_of_le_length hle, List.drop_append_of_le_length hle, List.flatMap_append,
    List.flatMap_singleton]

theorem pending_push_after (h : rows.length % size + 1 = size) :
    ((after size rows).push (rowBytes cells)).pending =
      batchBytes size (rows ++ [cells]) (rows.length / size) := by
  have hle := Nat.mul_div_le rows.length size
  have hdiv := Nat.div_add_mod rows.length size
  change (rows.drop (size * (rows.length / size))).flatMap rowBytes ++ rowBytes cells = _
  unfold batchBytes batchRows
  rw [List.drop_append_of_le_length hle, List.take_of_length_le]
  · rw [List.flatMap_append, List.flatMap_singleton]
  · rw [List.length_append, List.length_drop, List.length_singleton]
    omega

theorem after_of_full (hsize : 0 < size) (h : rows.length % size + 1 = size) :
    ({ stats :=
        { rows := rows.length + 1
          batches := rows.length / size + 1
          bytes := ((rows.take (size * (rows.length / size))).flatMap rowBytes).length +
            (batchBytes size (rows ++ [cells]) (rows.length / size)).length } } : Progress) =
      after size (rows ++ [cells]) := by
  obtain ⟨hquot, hrem⟩ := succ_div_of_dvd hsize h
  have hle := Nat.mul_div_le rows.length size
  have hdiv := Nat.div_add_mod rows.length size
  have hall : size * (rows.length / size + 1) = (rows ++ [cells]).length := by
    rw [Nat.mul_add, Nat.mul_one, List.length_append, List.length_singleton]
    omega
  have hbytes : (rows.take (size * (rows.length / size))).flatMap rowBytes ++
      batchBytes size (rows ++ [cells]) (rows.length / size) = (rows ++ [cells]).flatMap rowBytes := by
    unfold batchBytes batchRows
    have htake : (rows ++ [cells]).take (size * (rows.length / size)) =
        rows.take (size * (rows.length / size)) := List.take_append_of_le_length hle
    rw [← htake, ← List.flatMap_append, ← List.take_add]
    rw [show size * (rows.length / size) + size = (rows ++ [cells]).length by
      rw [← hall, Nat.mul_add, Nat.mul_one], List.take_length]
  unfold after
  rw [List.length_append, List.length_singleton, hquot, hrem, hall, List.take_length,
    List.drop_length, ← hbytes, List.length_append]
  rfl

variable {τ : Type} {sink : Sink τ} {deadline : Option Nat} {clock : Clock} {t t' : τ}

theorem runFrom_flush_of_takes {p : Progress}
    (h : sink.Takes deadline (clock (p.stats.batches + 1)) p.pending t t') :
    (p.flush sink deadline clock).runFrom t =
      (.ok { stats := { p.stats with
        batches := p.stats.batches + 1, bytes := p.stats.bytes + p.pending.length } }, t') := by
  unfold Progress.flush
  rw [Stateful.runFrom_bind_of_ok (Sink.runFrom_flush_of_takes h)]
  rfl

theorem runFrom_flush_of_refuses {p : Progress} {cause : AbortCause}
    (h : sink.Refuses deadline (clock (p.stats.batches + 1)) p.pending t cause t') :
    (p.flush sink deadline clock).runFrom t = (.error (.aborted cause), t') := by
  unfold Progress.flush
  exact Stateful.runFrom_bind_of_error (Sink.runFrom_flush_of_refuses h)

theorem runFrom_settle_of_not_full (hsize : 0 < size) (h : rows.length % size + 1 ≠ size) :
    (((after size rows).push (rowBytes cells)).settle size sink deadline clock).runFrom t =
      (.ok (after size (rows ++ [cells])), t) := by
  unfold settle
  rw [if_neg (show ((after size rows).push (rowBytes cells)).pendingRows ≠ size from h),
    push_after_of_not_full hsize h]
  rfl

theorem runFrom_settle_of_takes (hsize : 0 < size) (h : rows.length % size + 1 = size)
    (htakes : sink.Takes deadline (clock (rows.length / size + 1))
      (batchBytes size (rows ++ [cells]) (rows.length / size)) t t') :
    (((after size rows).push (rowBytes cells)).settle size sink deadline clock).runFrom t =
      (.ok (after size (rows ++ [cells])), t') := by
  unfold settle
  rw [if_pos (show ((after size rows).push (rowBytes cells)).pendingRows = size from h)]
  rw [← pending_push_after h] at htakes
  rw [runFrom_flush_of_takes htakes, pending_push_after h, ← after_of_full hsize h]
  rfl

theorem runFrom_settle_of_refuses {cause : AbortCause} (h : rows.length % size + 1 = size)
    (hrefuses : sink.Refuses deadline (clock (rows.length / size + 1))
      (batchBytes size (rows ++ [cells]) (rows.length / size)) t cause t') :
    (((after size rows).push (rowBytes cells)).settle size sink deadline clock).runFrom t =
      (.error (.aborted cause), t') := by
  unfold settle
  rw [if_pos (show ((after size rows).push (rowBytes cells)).pendingRows = size from h)]
  rw [← pending_push_after h] at hrefuses
  exact runFrom_flush_of_refuses hrefuses

theorem pending_after (hsize : 0 < size) (rows : List (List EmittedCell)) :
    (after size rows).pending = batchBytes size rows (rows.length / size) := by
  unfold batchBytes
  rw [batchRows_last hsize]
  rfl

theorem runFrom_finish_of_mod_eq_zero (sink : Sink τ) (deadline : Option Nat) (clock : Clock)
    (t : τ) (hsize : 0 < size) (h : rows.length % size = 0) :
    ((after size rows).finish sink deadline clock).runFrom t = (.ok (after size rows), t) ∧
      (after size rows).stats = Stats.ofRows size rows := by
  refine ⟨?_, ?_⟩
  · unfold finish
    rw [if_neg (show ¬0 < (after size rows).pendingRows by
      change ¬0 < rows.length % size
      omega)]
    rfl
  · have hdiv := Nat.div_add_mod rows.length size
    unfold after Stats.ofRows
    rw [batchCount_of_mod_eq_zero hsize h, List.take_of_length_le (by omega)]

theorem runFrom_finish_of_takes (hsize : 0 < size) (h : 0 < rows.length % size)
    (htakes : sink.Takes deadline (clock (rows.length / size + 1))
      (batchBytes size rows (rows.length / size)) t t') :
    ∃ p, ((after size rows).finish sink deadline clock).runFrom t = (.ok p, t') ∧
      p.stats = Stats.ofRows size rows := by
  unfold finish
  rw [if_pos (show 0 < (after size rows).pendingRows from h)]
  rw [← pending_after hsize] at htakes
  refine ⟨_, runFrom_flush_of_takes htakes, ?_⟩
  have hbytes : ((rows.take (size * (rows.length / size))).flatMap rowBytes).length +
      (after size rows).pending.length = (rows.flatMap rowBytes).length := by
    change _ + ((rows.drop (size * (rows.length / size))).flatMap rowBytes).length = _
    rw [← List.length_append, ← List.flatMap_append, List.take_append_drop]
  unfold Stats.ofRows
  rw [batchCount_of_mod_pos hsize h, ← hbytes]
  rfl

theorem runFrom_finish_of_refuses {cause : AbortCause} (hsize : 0 < size)
    (h : 0 < rows.length % size)
    (hrefuses : sink.Refuses deadline (clock (rows.length / size + 1))
      (batchBytes size rows (rows.length / size)) t cause t') :
    ((after size rows).finish sink deadline clock).runFrom t = (.error (.aborted cause), t') := by
  unfold finish
  rw [if_pos (show 0 < (after size rows).pendingRows from h)]
  rw [← pending_after hsize] at hrefuses
  exact runFrom_flush_of_refuses hrefuses

end StreamRequest.Progress

end RowStream
