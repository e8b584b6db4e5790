/-!
# Rows in batches

How rows are cut into batches: batch number `k` holds the rows from `size * k` on, at most `size`
of them. All batches but the last are full, none is empty, and together they hold every row once
and in order. More rows behind those of a full batch do not change it.
-/

namespace RowStream

variable {α : Type}

/-- The rows of batch number `k`, counted from 0. -/
def batchRows (size : Nat) (rows : List α) (k : Nat) : List α := (rows.drop (size * k)).take size

def batchCount (size rows : Nat) : Nat := (rows + size - 1) / size

def batches (size : Nat) (rows : List α) : List (List α) :=
  (List.range (batchCount size rows.length)).map (batchRows size rows)

@[simp] theorem length_batches (size : Nat) (rows : List α) :
    (batches size rows).length = batchCount size rows.length := by
  simp [batches]

theorem batchCount_of_mod_eq_zero {size rows : Nat} (hsize : 0 < size) (h : rows % size = 0) :
    batchCount size rows = rows / size := by
  have hrows : rows = size * (rows / size) := by
    have := Nat.div_add_mod rows size
    omega
  unfold batchCount
  apply Nat.div_eq_of_lt_le
  · rw [Nat.mul_comm]
    omega
  · rw [Nat.add_mul, Nat.one_mul, Nat.mul_comm (rows / size) size]
    omega

theorem batchCount_of_mod_pos {size rows : Nat} (hsize : 0 < size) (h : 0 < rows % size) :
    batchCount size rows = rows / size + 1 := by
  have hdiv := Nat.div_add_mod rows size
  have hmod := Nat.mod_lt rows hsize
  unfold batchCount
  apply Nat.div_eq_of_lt_le
  · rw [Nat.add_mul, Nat.one_mul, Nat.mul_comm (rows / size) size]
    omega
  · rw [Nat.add_mul, Nat.add_mul, Nat.one_mul, Nat.mul_comm (rows / size) size]
    omega

theorem div_le_batchCount {size : Nat} (rows : Nat) (hsize : 0 < size) :
    rows / size ≤ batchCount size rows := by
  rcases Nat.eq_zero_or_pos (rows % size) with hz | hpos
  · exact Nat.le_of_eq (batchCount_of_mod_eq_zero hsize hz).symm
  · rw [batchCount_of_mod_pos hsize hpos]
    exact Nat.le_succ _

theorem mul_lt_of_lt_batchCount {size rows k : Nat} (hsize : 0 < size)
    (hk : k < batchCount size rows) : size * k < rows := by
  have h : size * (k + 1) ≤ rows + size - 1 := by
    calc size * (k + 1) ≤ size * batchCount size rows := Nat.mul_le_mul_left size hk
      _ ≤ rows + size - 1 := Nat.mul_div_le _ _
  rw [Nat.mul_add, Nat.mul_one] at h
  omega

theorem length_batchRows_of_full {size k : Nat} {rows : List α}
    (h : size * (k + 1) ≤ rows.length) : (batchRows size rows k).length = size := by
  rw [Nat.mul_add, Nat.mul_one] at h
  unfold batchRows
  rw [List.length_take, List.length_drop]
  omega

theorem batchRows_ne_nil {size k : Nat} {rows : List α} (hsize : 0 < size)
    (hk : k < batchCount size rows.length) : batchRows size rows k ≠ [] := by
  have hlt := mul_lt_of_lt_batchCount hsize hk
  intro h
  have hlen := congrArg List.length h
  unfold batchRows at hlen
  rw [List.length_take, List.length_drop, List.length_nil] at hlen
  omega

theorem length_batchRows_of_not_last {size k : Nat} {rows : List α} (hsize : 0 < size)
    (hk : k + 1 < batchCount size rows.length) : (batchRows size rows k).length = size := by
  apply length_batchRows_of_full
  exact Nat.le_of_lt (mul_lt_of_lt_batchCount hsize hk)

theorem batchRows_append {size k : Nat} {rows : List α} (more : List α)
    (h : size * (k + 1) ≤ rows.length) :
    batchRows size (rows ++ more) k = batchRows size rows k := by
  rw [Nat.mul_add, Nat.mul_one] at h
  unfold batchRows
  rw [List.drop_append_of_le_length (by omega), List.take_append_of_le_length]
  rw [List.length_drop]
  omega

theorem flatten_batchRows (size : Nat) (rows : List α) (k : Nat) :
    ((List.range k).map (batchRows size rows)).flatten = rows.take (size * k) := by
  induction k with
  | zero => simp
  | succ k ih =>
      rw [List.range_succ, List.map_append, List.flatten_append, ih, List.map_singleton,
        List.flatten_singleton]
      unfold batchRows
      rw [Nat.mul_add, Nat.mul_one, ← List.take_add]

theorem flatten_batches {size : Nat} (hsize : 0 < size) (rows : List α) :
    (batches size rows).flatten = rows := by
  unfold batches
  rw [flatten_batchRows, List.take_of_length_le]
  rcases Nat.eq_zero_or_pos (rows.length % size) with hz | hpos
  · rw [batchCount_of_mod_eq_zero hsize hz]
    have := Nat.div_add_mod rows.length size
    omega
  · rw [batchCount_of_mod_pos hsize hpos, Nat.mul_add, Nat.mul_one]
    have := Nat.div_add_mod rows.length size
    have := Nat.mod_lt rows.length hsize
    omega

theorem take_batches {size : Nat} {rows : List α} {k : Nat} (hk : k ≤ batchCount size rows.length) :
    (batches size rows).take k = (List.range k).map (batchRows size rows) := by
  unfold batches
  rw [← List.map_take, List.take_range, Nat.min_eq_left hk]

theorem ne_nil_of_mem_batches {size : Nat} {rows batch : List α} (hsize : 0 < size)
    (h : batch ∈ batches size rows) : batch ≠ [] := by
  unfold batches at h
  obtain ⟨k, hk, rfl⟩ := List.mem_map.1 h
  exact batchRows_ne_nil hsize (List.mem_range.1 hk)

theorem length_le_of_mem_batches {size : Nat} {rows batch : List α}
    (h : batch ∈ batches size rows) : batch.length ≤ size := by
  unfold batches at h
  obtain ⟨k, -, rfl⟩ := List.mem_map.1 h
  exact List.length_take_le _ _

theorem length_of_mem_dropLast_batches {size : Nat} {rows batch : List α} (hsize : 0 < size)
    (h : batch ∈ (batches size rows).dropLast) : batch.length = size := by
  rw [List.dropLast_eq_take, length_batches, take_batches (Nat.sub_le _ _)] at h
  obtain ⟨k, hk, rfl⟩ := List.mem_map.1 h
  have hlast := List.mem_range.1 hk
  exact length_batchRows_of_not_last hsize (by omega)

theorem length_of_mem_take_batches {size k : Nat} {rows batch : List α} (hsize : 0 < size)
    (hk : size * k ≤ rows.length) (h : batch ∈ (batches size rows).take k) :
    batch.length = size := by
  have hdiv : k ≤ rows.length / size := (Nat.le_div_iff_mul_le hsize).2 (by
    rw [Nat.mul_comm]
    exact hk)
  rw [take_batches (Nat.le_trans hdiv (div_le_batchCount _ hsize))] at h
  obtain ⟨i, hi, rfl⟩ := List.mem_map.1 h
  apply length_batchRows_of_full
  calc size * (i + 1) ≤ size * k := Nat.mul_le_mul_left size (List.mem_range.1 hi)
    _ ≤ rows.length := hk

end RowStream
