import Mathlib.Data.List.Forall2
import RowStream.Proofs.Column.WellFormed
import RowStream.Proofs.Source.Values
import RowStream.Proofs.Stream.Blame
import RowStream.Proofs.Stream.Paging

/-!
# Streams over fixed rows

A configuration is taken over with rows that fit its columns: one cell for each, of the kind of its
type unless it is null. A stream asks a cursor over them for cells that are there and reads those
that are not null, so that of the cursor's own errors none arises. It passes over the rows from the
first on, and a cursor behind the last row stays there.
-/

namespace RowStream

namespace FixedValues

variable [Zone.Catalogue]

/-- A cell that is null or of the kind of its column. -/
def Fits (c : Column) (cell : StoredCell) : Prop := ∀ v, cell = some v → v.kind = c.type.kind

/-- The cell of a row, by the numbers of the row and of the column. -/
def stored? (v : FixedValues) (row index : Nat) : Option StoredCell :=
  v.rows[row]?.bind fun cells => cells[index]?

variable {id : String} {json : Json} {v : FixedValues}

/-! ## Rows as they are configured -/

theorem fits_of_cellOfJson {c : Column} {cell : StoredCell} (h : cellOfJson c json = .ok cell) :
    Fits c cell := by
  rintro value rfl
  unfold cellOfJson at h
  dsimp only at h
  split at h
  · split at h
    · next henum =>
      obtain ⟨n, -, hcell⟩ := map_ok h
      cases hcell
      exact (Column.kind_of_isEnum henum).symm
    · exact Value.kind_of_ofJson h
  · exact Value.kind_of_ofJson h

theorem fits_of_cellsOfJson {columns : List Column} {items : List Json} {row : List StoredCell}
    (hlength : items.length = columns.length) (h : cellsOfJson columns items = .ok row) :
    List.Forall₂ Fits columns row := by
  induction columns generalizing items row with
  | nil =>
    cases h
    exact .nil
  | cons c columns ih =>
    cases items with
    | nil => cases hlength
    | cons item items =>
      obtain ⟨cell, hcell, h⟩ := bind_ok h
      obtain ⟨rest, hrest, h⟩ := bind_ok h
      cases h
      exact .cons (fits_of_cellOfJson (ok_of_within hcell)) (ih (Nat.succ.inj hlength) hrest)

theorem fits_of_rowOfJson {columns : Table} {row : List StoredCell}
    (h : rowOfJson columns json = .ok row) : List.Forall₂ Fits columns.columns row := by
  unfold rowOfJson at h
  split at h
  · split at h
    · next hlength => exact fits_of_cellsOfJson hlength h
    · cases h
  · cases h

theorem fits_of_rowsOfArray {columns : Table} {number : Nat} {items : List Json}
    {rows : List (List StoredCell)} (h : rowsOfArray columns number items = .ok rows) :
    ∀ row ∈ rows, List.Forall₂ Fits columns.columns row := by
  induction items generalizing number rows with
  | nil =>
    cases h
    exact fun _ hrow => nomatch hrow
  | cons item items ih =>
    obtain ⟨row, hrow, h⟩ := bind_ok h
    obtain ⟨rest, hrest, h⟩ := bind_ok h
    cases h
    rw [List.forall_mem_cons]
    exact ⟨fits_of_rowOfJson (ok_of_mapError hrow), ih hrest⟩

theorem fits_of_rowsOfJson {columns : Table} {rows? : Option Json}
    {rows : List (List StoredCell)} (h : rowsOfJson columns rows? = .ok rows) :
    ∀ row ∈ rows, List.Forall₂ Fits columns.columns row := by
  unfold rowsOfJson at h
  split at h
  · cases h
    exact fun _ hrow => nomatch hrow
  · cases h
    exact fun _ hrow => nomatch hrow
  · exact fits_of_rowsOfArray h
  · cases h

theorem fits_of_ofJson (h : ofJson id json = .ok v) :
    ∀ row ∈ v.rows, List.Forall₂ Fits v.columns.columns row :=
  fits_of_rowsOfJson (parts_of_ofJson h).2.2

end FixedValues

namespace Cursor

variable [Zone.Catalogue]

/-! ## Calls on a cursor -/

theorem runFrom_advance (c : Cursor) : source.advance.runFrom c =
    let next := min (match c.current with | some row => row + 1 | none => 0) c.rows.length
    (.ok (decide (next < c.rows.length)), { c with current := some next }) := rfl

theorem advance_of_ended {c c' : Cursor} (h : source.advance.runFrom c = (.ok false, c')) :
    source.advance.runFrom c' = (.ok false, c') := by
  rw [runFrom_advance] at h
  dsimp only at h
  generalize (match c.current with | some row => row + 1 | none => 0) = next at h
  have hends : ¬ min next c.rows.length < c.rows.length :=
    of_decide_eq_false (Except.ok.inj (congrArg Prod.fst h))
  have hlast : min next c.rows.length = c.rows.length := by omega
  rw [hlast] at h
  have hstate : c' = { c with current := some c.rows.length } := (congrArg Prod.snd h).symm
  rw [hstate, runFrom_advance]
  simp

variable {c : Cursor} {first n row : Nat} {cells : List (Nat × Column)} {s s' : Cursor}
  {calls : List (SourceCall Cursor)}

theorem state_of_asksCells (h : source.AsksCells row cells s calls s') : s' = s := by
  induction h with
  | nil => rfl
  | null hnull _ ih =>
    rw [runFrom_isNull] at hnull
    exact ih.trans (congrArg Prod.snd hnull).symm
  | value hnull hread _ ih =>
    rw [runFrom_isNull] at hnull
    rw [runFrom_read] at hread
    exact ih.trans ((congrArg Prod.snd hread).symm.trans (congrArg Prod.snd hnull).symm)

/-! ## The rows that are visited -/

/-- The row to which a call moves a cursor. -/
def visited : SourceCall Cursor → Option (List StoredCell)
  | .advance s =>
    let moved := (source.advance.runFrom s).2
    moved.current.bind fun row => moved.rows[row]?
  | .isNull _ _ _ _ | .read _ _ _ _ => none

theorem visited_advance (c : Cursor) (n : Nat) :
    visited (.advance (c.behind n)) = c.rows[n]? := by
  have hmoved : visited (.advance (c.behind n)) = c.rows[min n c.rows.length]? := by
    cases n <;> rfl
  rw [hmoved]
  obtain hlt | hle := Nat.lt_or_ge c.rows.length n
  · rw [Nat.min_eq_right (Nat.le_of_lt hlt), List.getElem?_eq_none (Nat.le_refl _),
      List.getElem?_eq_none (Nat.le_of_lt hlt)]
  · rw [Nat.min_eq_left hle]

theorem visited_turn {asked : List (SourceCall Cursor)} (hasked : ∀ call ∈ asked, call.row? ≠ none)
    (c : Cursor) (n : Nat) :
    (.advance (c.behind n) :: asked).filterMap visited = c.rows[n]?.toList := by
  have hnone : asked.filterMap visited = [] := by
    rw [List.filterMap_eq_nil_iff]
    intro call hcall
    cases call with
    | advance => exact absurd rfl (hasked _ hcall)
    | isNull | read => rfl
  rw [← StreamRequest.toList_append_filterMap, visited_advance, hnone, List.append_nil]

theorem advance_behind {s₁ : Cursor} (hn : n ≤ c.rows.length)
    (h : source.advance.runFrom (c.behind n) = (.ok true, s₁)) :
    n < c.rows.length ∧ s₁ = c.behind (n + 1) := by
  rw [runFrom_advance_behind, Nat.min_eq_left hn] at h
  exact ⟨of_decide_eq_true (Except.ok.inj (congrArg Prod.fst h)), (congrArg Prod.snd h).symm⟩

theorem visited_turns (h : source.Turns first cells (c.behind 0) n calls s) :
    n ≤ c.rows.length ∧ s = c.behind n ∧ calls.filterMap visited = c.rows.take n := by
  induction h with
  | start => exact ⟨Nat.zero_le _, rfl, rfl⟩
  | passes _ hadvance _ ih =>
    obtain ⟨hle, rfl, hvisited⟩ := ih
    obtain ⟨hlt, rfl⟩ := advance_behind hle hadvance
    refine ⟨hlt, rfl, ?_⟩
    rw [List.filterMap_append, hvisited, visited_turn (by simp), List.take_add_one]
  | reads _ hadvance _ hcells ih =>
    obtain ⟨hle, rfl, hvisited⟩ := ih
    obtain ⟨hlt, rfl⟩ := advance_behind hle hadvance
    refine ⟨hlt, state_of_asksCells hcells, ?_⟩
    rw [List.filterMap_append, hvisited, visited_turn hcells.row?_ne_none, List.take_add_one]

theorem visited_lastTurn {rest : List (SourceCall Cursor)}
    (h : source.Turns first cells (c.behind 0) n calls s)
    (hrest : source.LastTurn first cells n s rest) :
    (calls ++ rest).filterMap visited <+: c.rows := by
  obtain ⟨-, rfl, hvisited⟩ := visited_turns h
  rw [List.filterMap_append, hvisited]
  cases hrest with
  | nil =>
    rw [List.filterMap_nil, List.append_nil]
    exact List.take_prefix _ _
  | stops =>
    rw [visited_turn (by simp), ← List.take_add_one]
    exact List.take_prefix _ _
  | starts _ _ hcells =>
    rw [visited_turn hcells.row?_ne_none, ← List.take_add_one]
    exact List.take_prefix _ _

theorem visited_of_ended (h : source.Turns first cells (c.behind 0) n calls s)
    (hend : (source.advance.runFrom s).1 = .ok false) :
    (calls ++ [SourceCall.advance s]).filterMap visited = c.rows := by
  obtain ⟨hle, rfl, hvisited⟩ := visited_turns h
  rw [runFrom_advance_behind, Nat.min_eq_left hle] at hend
  have hlast : ¬ n < c.rows.length := of_decide_eq_false (Except.ok.inj hend)
  rw [List.filterMap_append, hvisited, visited_turn (by simp), ← List.take_add_one]
  exact List.take_of_length_le (by omega)

end Cursor

namespace FixedValues

section Zones

variable [Zone.Catalogue] {id : String} {json : Json} {v : FixedValues}

/-! ## The answers of a cursor -/

/-- A call is answered with what the rows hold. A cell is there, and when its bytes are read it is
not null; the bytes are those of its value in the column of the request. -/
def Answers (v : FixedValues) : SourceCall Cursor → Prop
  | .advance s => ∃ more, (Cursor.source.advance.runFrom s).1 = .ok more
  | .isNull s row index c =>
    ∃ cell, v.stored? row index = some cell ∧
      (Cursor.source.isNull row index c).runFrom s = (.ok cell.isNone, s)
  | .read s row index c =>
    ∃ value column, v.stored? row index = some (some value) ∧
      v.columns.columns[index]? = some column ∧
      (Cursor.source.read row index c).runFrom s =
        ((value.encode c.type (StreamRequest.layoutIn v.zone c) column.scale).mapError
          Error.report, s)

theorem exists_stored {row index : Nat}
    (hshape : ∀ cells ∈ v.rows, List.Forall₂ Fits v.columns.columns cells)
    (hrow : row < v.rows.length) (hindex : index < v.columns.columns.length) :
    ∃ cell, v.stored? row index = some cell ∧
      (v.cursor.behind (row + 1)).cell index = .ok cell := by
  have hlength : index < v.rows[row].length := by
    rw [← (hshape _ (List.getElem_mem hrow)).length_eq]
    exact hindex
  refine ⟨v.rows[row][index], ?_, ?_⟩
  · simp [stored?, hrow, hlength]
  · have hfound : v.cursor.rows[row]? = some v.rows[row] := List.getElem?_eq_getElem hrow
    rw [Cursor.cell_behind hfound]
    simp [Cursor.cell, Cursor.only, hlength]

theorem answers_calls {τ : Type}
    (hshape : ∀ cells ∈ v.rows, List.Forall₂ Fits v.columns.columns cells)
    {r : StreamRequest} (hresult : r.result = v.columns) (sink : Sink τ) (clock : Clock) (t : τ) :
    ∀ call ∈ r.calls Cursor.source sink clock v.cursor t, v.Answers call := by
  intro call hcall
  -- The call names a column of the rows, and the row on which the cursor stands.
  have hasks := StreamRequest.asksAmong_calls r Cursor.source sink clock v.cursor t call hcall
  obtain ⟨n, hreaches, hnumber⟩ :=
    StreamRequest.follows_calls r Cursor.source sink clock v.cursor t call hcall
  obtain ⟨hle, hstate⟩ :=
    (Cursor.lists_source v.cursor).stands_of_reaches ⟨Nat.zero_le _, rfl⟩ hreaches
  cases call with
  | advance s => exact ⟨_, congrArg Prod.fst (Cursor.runFrom_advance s)⟩
  | isNull s row index c =>
    obtain ⟨-, hindex, -⟩ := StreamRequest.column_of_mem_resultCells hasks
    rw [hnumber row rfl] at hle hstate
    rw [hresult] at hindex
    obtain ⟨cell, hstored, hcell⟩ := exists_stored hshape hle hindex
    refine ⟨cell, hstored, ?_⟩
    rw [Cursor.runFrom_isNull, show s = v.cursor.behind (row + 1) from hstate, Cursor.isNull, hcell]
    rfl
  | read s row index c =>
    obtain ⟨hmem, s₀, hnull⟩ := hasks
    obtain ⟨-, hindex, -⟩ := StreamRequest.column_of_mem_resultCells hmem
    rw [hnumber row rfl] at hle hstate
    rw [hresult] at hindex
    obtain ⟨cell, hstored, hcell⟩ := exists_stored hshape hle hindex
    -- It has said in this very state that the cell is not null.
    rw [Cursor.runFrom_isNull] at hnull
    have hs : s = v.cursor.behind (row + 1) := hstate
    obtain rfl : s₀ = s := congrArg Prod.snd hnull
    have hvalue := congrArg Prod.fst hnull
    rw [hs, Cursor.isNull, hcell] at hvalue
    cases cell with
    | none => cases hvalue
    | some value =>
      have hscale : v.cursor.scales[index]?.getD 0 = v.columns.columns[index].scale := by
        simp [cursor, hindex]
      refine ⟨value, _, hstored, List.getElem?_eq_getElem hindex, ?_⟩
      rw [Cursor.runFrom_read, hs, Cursor.read, hcell, ← hscale]
      rfl

/-- The error is for a stored value that the column which it is asked for in cannot hold. -/
def Refused (v : FixedValues) (r : StreamRequest) (e : Error) : Prop :=
  ∃ row index c column value fault, (index, c) ∈ r.resultCells ∧
    v.columns.columns[index]? = some column ∧ v.stored? row index = some (some value) ∧
    value.encode c.type (StreamRequest.layoutIn v.zone c) column.scale = .error (.encode fault) ∧
    e = .dataAccess r.source (Error.encode fault).report

omit [Zone.Catalogue] in
theorem exists_dataAccess_of_code {e : Error} (h : e.code = "DATA_ACCESS_ERROR") :
    ∃ source report, e = .dataAccess source report := by
  cases e with
  | dataAccess source report => exact ⟨source, report, rfl⟩
  | _ => simp [Error.code] at h

theorem refused_of_run {τ : Type}
    (hshape : ∀ cells ∈ v.rows, List.Forall₂ Fits v.columns.columns cells)
    {r : StreamRequest} (hresult : r.result = v.columns) {sink : Sink τ} {clock : Clock} {t : τ}
    {e : Error}
    (hrun : ((r.run Cursor.source sink clock).runFrom (v.cursor, t)).1 = .error e)
    (hcode : e.code = "DATA_ACCESS_ERROR") :
    (v.rows.length < r.skipped ∧ e = r.exhausted r.skipped v.rows.length) ∨ v.Refused r e := by
  obtain ⟨source, report, rfl⟩ := exists_dataAccess_of_code hcode
  cases hresolve : r.resolve with
  | error fault =>
    obtain ⟨column, available, rfl⟩ := StreamRequest.resolution_of_resolve_error hresolve
    rw [StreamRequest.runFrom_run_of_resolve_error hresolve] at hrun
    cases hrun
  | ok columns =>
    have hlists := Cursor.lists_source v.cursor
    have hstart : 0 ≤ v.cursor.rows.length ∧ v.cursor = v.cursor.behind 0 := ⟨Nat.zero_le _, rfl⟩
    by_cases hskipped : v.rows.length < r.skipped
    · have hfails := StreamRequest.failsAtOnce_of_lt_skipped hlists hstart hresolve hskipped sink
        clock t
      exact .inl ⟨hskipped, Except.error.inj (hrun.symm.trans hfails.answer)⟩
    · obtain ⟨s₀, hskip, -⟩ := hlists.advances (k := r.skipped) hstart
        (by rw [Nat.zero_add]; exact Nat.not_lt.1 hskipped)
      obtain ⟨rfl, call, hcall, hfails⟩ := StreamRequest.exists_fails_of_run hresolve hskip hrun
      have hanswers := answers_calls hshape hresult sink clock t call hcall
      have hasks := StreamRequest.asksAmong_calls r Cursor.source sink clock v.cursor t call hcall
      right
      cases call with
      | advance s =>
        obtain ⟨more, hmore⟩ := hanswers
        cases hmore.symm.trans hfails
      | isNull s row index c =>
        obtain ⟨cell, -, hnull⟩ := hanswers
        cases (congrArg Prod.fst hnull).symm.trans hfails
      | read s row index c =>
        obtain ⟨value, column, hstored, hcolumn, hread⟩ := hanswers
        have hreport := (congrArg Prod.fst hread).symm.trans hfails
        obtain ⟨bytes, hencode⟩ | ⟨fault, hencode⟩ :=
          value.encode_outcome c.type (StreamRequest.layoutIn v.zone c) column.scale
        · rw [hencode] at hreport
          cases hreport
        · rw [hencode] at hreport
          cases hreport
          exact ⟨row, index, c, column, value, fault, hasks.1, hcolumn, hstored, hencode, rfl⟩

/-- Whatever configuration is accepted, its rows fit its columns, and a cursor that has found no row
finds none later. Whatever is streamed from a cursor over the rows, to whichever sink, each call on
it is answered with what the rows hold; an error of access says that the rows to pass over are too
many or that a value does not fit the column of the request. The rows are visited in their order
from the first on, each once, and all of them when the stream succeeds. -/
theorem stream_of_ofJson (h : ofJson id json = .ok v) :
    (∀ row ∈ v.rows, List.Forall₂ Fits v.columns.columns row) ∧
    (∀ c c' : Cursor, Cursor.source.advance.runFrom c = (.ok false, c') →
      Cursor.source.advance.runFrom c' = (.ok false, c')) ∧
    ∀ r : StreamRequest, r.result = v.columns →
      ∀ {τ : Type} (sink : Sink τ) (clock : Clock) (t : τ),
        let calls := r.calls Cursor.source sink clock v.cursor t
        let outcome := (r.run Cursor.source sink clock).runFrom (v.cursor, t)
        (∀ call ∈ calls, v.Answers call) ∧
        (∀ e, outcome.1 = .error e → e.code = "DATA_ACCESS_ERROR" →
          (v.rows.length < r.skipped ∧ e = r.exhausted r.skipped v.rows.length) ∨ v.Refused r e) ∧
        calls.filterMap Cursor.visited <+: v.rows ∧
        ∀ stats, outcome.1 = .ok stats →
          calls.filterMap Cursor.visited = v.rows ∧
          Cursor.source.advance.runFrom outcome.2.1 = (.ok false, outcome.2.1) := by
  have hshape := fits_of_ofJson h
  refine ⟨hshape, fun c c' => Cursor.advance_of_ended, ?_⟩
  intro r hresult τ sink clock t calls outcome
  obtain ⟨n, whole, s, rest, hcalls, hturns, hrest, hok⟩ :=
    StreamRequest.exists_turns r Cursor.source sink clock v.cursor t
  refine ⟨answers_calls hshape hresult sink clock t,
    fun e => refused_of_run hshape hresult, ?_, ?_⟩
  · rw [show calls = whole ++ rest from hcalls]
    exact Cursor.visited_lastTurn (c := v.cursor) hturns hrest
  · intro stats hstats
    obtain ⟨-, rfl, hend⟩ := hok stats hstats
    constructor
    · rw [show calls = whole ++ [.advance s] from hcalls]
      exact Cursor.visited_of_ended (c := v.cursor) hturns hend
    · have hrun : outcome = (.ok stats, outcome.2) := Prod.ext hstats rfl
      obtain ⟨columns, s₀, hresolve, hskip⟩ := StreamRequest.resolve_of_run_ok hrun
      obtain ⟨rows, s₁, -, hends, -⟩ := StreamRequest.finished_of_run_ok hresolve hskip hrun
      exact Cursor.advance_of_ended hends.advanced

end Zones

def measures : FixedValues where
  id := "measures"
  columns := Table.ofColumns [({ name := "n", type := .int32 } : Draft).shape none []]
  rows := [[some (.int32 5)], [none], [some (.int32 300)]]
  custom := Table.empty
  defaults := Defaults.initial
  zone := none

def measuresJson : Json :=
  .obj [("columns", .arr [.obj [("name", .str "n"), ("type", .str "Int32")]]),
    ("rows", .arr [.arr [.ofInt 5], .arr [.null], .arr [.ofInt 300]])]

def measuresRequest (type : ColumnType) : StreamRequest where
  source := "measures"
  requested := Table.ofColumns [({ name := "n", type := type } : Draft).shape none []]
  custom := Table.empty
  result := measures.columns
  defaults := Defaults.initial
  zone := none
  params := .ofSettings {}

theorem stream_of_ofJson_measures :
    ofJson "measures" measuresJson = .ok measures ∧
    (∃ e, (((measuresRequest .uint8).run Cursor.source Collector.sink (.still 0)).runFrom
      (measures.cursor, {})).1 = .error e ∧ measures.Refused (measuresRequest .uint8) e) ∧
    ((measuresRequest .int16).calls Cursor.source Collector.sink (.still 0) measures.cursor
      {}).filterMap Cursor.visited = measures.rows := by
  have hvalues : ofJson "measures" measuresJson = .ok measures := ok_of_toOption (by decide +kernel)
  obtain ⟨-, -, hstream⟩ := stream_of_ofJson hvalues
  obtain ⟨-, hblamed, -⟩ := hstream (measuresRequest .uint8) rfl Collector.sink (.still 0) {}
  obtain ⟨-, -, -, hall⟩ := hstream (measuresRequest .int16) rfl Collector.sink (.still 0) {}
  refine ⟨hvalues, ⟨_, rfl, ?_⟩, (hall _ rfl).1⟩
  exact (hblamed _ rfl rfl).resolve_left fun h => absurd h.1 (by decide)

end FixedValues

end RowStream
