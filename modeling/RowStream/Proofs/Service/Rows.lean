import Mathlib.Data.List.Forall2
import RowStream.Proofs.Stream.ReadBack
import RowStream.Service.Answer

/-!
# Rows of answers

A table reads a row when each of its columns reads a cell with a text. It reads rows to the end of
the bytes when these are rows of that kind, one behind the other, and none of them empty.
-/

namespace RowStream.Table

open Wire

variable [Zone.Catalogue] {t u : Table}

/-- The table reads the bytes as one row, whatever stands around them. -/
structure ReadsRow (t : Table) (bytes : List UInt8) (row : List String) : Prop where
  nonempty : bytes ≠ []
  consumes : t.readRow.Consumes bytes (.ok row)

/-- Bytes are rows of the table, one behind the other. -/
def ReadsRows (t : Table) (bytes : List UInt8) (rows : List (List String)) : Prop :=
  ∃ chunks, chunks.flatten = bytes ∧ List.Forall₂ t.ReadsRow chunks rows

/-- A sink has written all that it was asked to, and the table reads it as so many rows. -/
structure ReadsBack (t : Table) (log : List Delivery) (count : Nat) : Prop where
  written : ∀ d ∈ log, d.written = true
  rows : ∃ rows, t.ReadsRows (log.flatMap Delivery.batch) rows ∧ rows.length = count

theorem consumes_mapM_readText {columns : List Column} {cells : List (List UInt8)}
    (h : List.Forall₂ Column.ReadsText columns cells) :
    ∃ row, (columns.mapM Column.readText).Consumes cells.flatten (.ok row) := by
  induction h with
  | nil => exact ⟨[], Reader.consumes_pure []⟩
  | @cons c bytes columns cells hcell hcells ih =>
      obtain ⟨text, htext⟩ := hcell.consumes
      obtain ⟨row, hrow⟩ := ih
      refine ⟨text :: row, ?_⟩
      rw [List.mapM_cons]
      exact htext.bind (hrow.bind_nil (Reader.consumes_pure _))

theorem exists_readsRow {cells : List (List UInt8)} (hcolumns : t.columns ≠ [])
    (h : List.Forall₂ Column.ReadsText t.columns cells) : ∃ row, t.ReadsRow cells.flatten row := by
  obtain ⟨row, hrow⟩ := consumes_mapM_readText h
  refine ⟨row, ?_, hrow⟩
  obtain ⟨c, columns, hc⟩ := List.exists_cons_of_ne_nil hcolumns
  rw [hc] at h
  cases h with
  | cons hcell hcells => exact List.append_ne_nil_of_left_ne_nil hcell.nonempty _

theorem exists_readsRows {chunks : List (List UInt8)}
    (h : ∀ chunk ∈ chunks, ∃ row, t.ReadsRow chunk row) :
    ∃ rows, t.ReadsRows chunks.flatten rows ∧ rows.length = chunks.length := by
  have hrows : ∃ rows, List.Forall₂ t.ReadsRow chunks rows := by
    induction chunks with
    | nil => exact ⟨[], .nil⟩
    | cons chunk chunks ih =>
        rw [List.forall_mem_cons] at h
        obtain ⟨row, hrow⟩ := h.1
        obtain ⟨rows, hrows⟩ := ih h.2
        exact ⟨row :: rows, .cons hrow hrows⟩
  obtain ⟨rows, hrows⟩ := hrows
  exact ⟨rows, ⟨chunks, rfl, hrows⟩, hrows.length_eq.symm⟩

theorem readRows_of_forall₂ {chunks : List (List UInt8)} {rows : List (List String)}
    (h : List.Forall₂ t.ReadsRow chunks rows) (before : List UInt8) :
    t.readRows ⟨before ++ chunks.flatten, before.length⟩ = (rows, none) := by
  induction h generalizing before with
  | nil =>
      unfold readRows
      rw [if_pos (by simp [Buffer.remaining, Buffer.size])]
  | @cons chunk row chunks rows hrow hrows ih =>
      have hpos : 0 < chunk.length := List.length_pos_iff.2 hrow.nonempty
      have hread := hrow.consumes before chunks.flatten
      have hrest := ih (before ++ chunk)
      rw [List.flatten_cons]
      rw [List.append_assoc] at hread hrest
      -- A row takes at least one byte, so that fewer are left behind it.
      unfold readRows
      rw [if_neg (by
        simp only [Buffer.remaining, Buffer.size, List.length_append]
        omega), hread]
      dsimp only
      rw [if_pos (by
        simp only [Buffer.remaining, Buffer.size, List.length_append]
        omega), hrest]

theorem ReadsRows.readRows {bytes : List UInt8} {rows : List (List String)}
    (h : t.ReadsRows bytes rows) : t.readRows (.ofBytes bytes) = (rows, none) := by
  obtain ⟨chunks, rfl, hrows⟩ := h
  exact readRows_of_forall₂ hrows []

theorem readRow_congr (h : u.columns.map Column.readText = t.columns.map Column.readText) :
    u.readRow = t.readRow := by
  have hmap : ∀ columns : List Column, columns.mapM Column.readText =
      (columns.map Column.readText).mapM id := by
    intro columns
    rw [List.mapM_map]
    rfl
  unfold readRow
  rw [hmap, h, ← hmap]

theorem ReadsBack.congr {log : List Delivery} {count : Nat}
    (h : u.columns.map Column.readText = t.columns.map Column.readText)
    (hlog : u.ReadsBack log count) : t.ReadsBack log count := by
  obtain ⟨hwritten, rows, ⟨chunks, hbytes, hchunks⟩, hcount⟩ := hlog
  refine ⟨hwritten, rows, ⟨chunks, hbytes, hchunks.imp ?_⟩, hcount⟩
  intro chunk row hrow
  exact ⟨hrow.nonempty, readRow_congr h ▸ hrow.consumes⟩

end RowStream.Table
