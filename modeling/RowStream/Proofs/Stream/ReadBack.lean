import RowStream.Proofs.Column.ReadBack
import RowStream.Proofs.Stream.Deliveries

/-!
# Streams read back

What is delivered is read back with the columns that it was requested in. Every cell is read as if
it stood alone, so that a row is as many cells as there are columns and a stream is as many rows as
it reports. A cell that has no text does not move the cells behind it.
-/

namespace RowStream

open Wire

section Zones

variable [Zone.Catalogue]

def readCells : List Column → Buffer → List (Except Error String) × Buffer
  | [], b => ([], b)
  | c :: rest, b =>
    let (text, b) := c.readText.run b
    let (texts, b) := readCells rest b
    (text :: texts, b)

/-- Reads rows until no byte is left, or a row takes none. -/
def readRounds (columns : List Column) (b : Buffer) : List (List (Except Error String)) × Buffer :=
  if b.remaining = 0 then ([], b)
  else
    let row := readCells columns b
    if row.2.remaining < b.remaining then
      let rows := readRounds columns row.2
      (row.1 :: rows.1, rows.2)
    else ([row.1], row.2)
termination_by b.remaining

namespace Column

/-- What the column reads from the bytes of one cell that stand alone. -/
def cellText (c : Column) (bytes : List UInt8) : Except Error String :=
  (c.readText.run (Buffer.ofBytes bytes)).1

/-- The column reads the bytes as one cell. It fails to only when they hold a value outside of
the calendar. -/
structure ReadsCell (c : Column) (bytes : List UInt8) : Prop where
  consumes : c.readText.Consumes bytes (c.cellText bytes)
  nonempty : bytes ≠ []
  failure : ∀ e, c.cellText bytes = .error e → ∃ value, bytes = notNullFlag c ++ value ∧
    c.OutsideCalendar value ∧ e = .decode (.invalidDateTime (ofLittleEndian value))

/-- The column reads the bytes as one cell, and comes to a text. -/
structure ReadsText (c : Column) (bytes : List UInt8) : Prop where
  nonempty : bytes ≠ []
  consumes : ∃ text, c.readText.Consumes bytes (.ok text)

theorem ReadsCell.readsText {c : Column} {bytes : List UInt8} (h : c.ReadsCell bytes)
    (hinside : ∀ value, bytes = notNullFlag c ++ value → ¬ c.OutsideCalendar value) :
    c.ReadsText bytes := by
  refine ⟨h.nonempty, ?_⟩
  cases htext : c.cellText bytes with
  | ok text =>
      refine ⟨text, ?_⟩
      rw [← htext]
      exact h.consumes
  | error e =>
      obtain ⟨value, hvalue, houtside, -⟩ := h.failure e htext
      exact absurd houtside (hinside value hvalue)

theorem consumes_readText_null {c : Column} (h : c.nullable = true) :
    c.readText.Consumes [1] (.ok nullText) := by
  unfold readText
  rw [if_pos h]
  exact (consumes_readFlag true).bind_nil (Reader.consumes_pure _)

theorem consumes_readText_value {c : Column} {value : List UInt8} {result : Except Error String}
    (h : c.readValue.Consumes value result) :
    c.readText.Consumes (notNullFlag c ++ value) result := by
  unfold readText notNullFlag
  by_cases hnullable : c.nullable = true
  · rw [if_pos hnullable, if_pos hnullable]
    exact (consumes_readFlag false).bind h
  · rw [if_neg hnullable, if_neg hnullable]
    exact h

theorem cellText_of_consumes {c : Column} {bytes : List UInt8} {result : Except Error String}
    (h : c.readText.Consumes bytes result) : c.cellText bytes = result := by
  unfold cellText
  rw [h.run_ofBytes]

theorem readsCell_null {c : Column} (h : c.nullable = true) : c.ReadsCell [1] := by
  have htext := cellText_of_consumes (consumes_readText_null h)
  refine ⟨?_, List.cons_ne_nil _ _, ?_⟩
  · rw [htext]
    exact consumes_readText_null h
  · intro e he
    rw [htext] at he
    cases he

theorem readsCell_value {c : Column} {value : List UInt8} {result : Except Error String}
    (h : c.ReadsValue value result) : c.ReadsCell (notNullFlag c ++ value) := by
  have hconsumes := consumes_readText_value h.consumes
  have htext := cellText_of_consumes hconsumes
  refine ⟨?_, List.append_ne_nil_of_right_ne_nil _ h.nonempty, ?_⟩
  · rw [htext]
    exact hconsumes
  · intro e he
    rw [htext] at he
    obtain ⟨houtside, herror⟩ := h.failure e he
    exact ⟨value, rfl, houtside, herror⟩

end Column

def rowTexts (columns : List Column) (cells : List EmittedCell) : List (Except Error String) :=
  List.zipWith (fun c cell => c.cellText cell.bytes) columns cells

/-- A row has a cell for every column, and every column reads its cell. -/
structure ReadsRow (columns : List Column) (cells : List EmittedCell) : Prop where
  length : cells.length = columns.length
  reads : ∀ p ∈ columns.zip cells, p.1.ReadsCell p.2.bytes

theorem ReadsRow.readCells {columns : List Column} {cells : List EmittedCell}
    (h : ReadsRow columns cells) (before after : List UInt8) :
    readCells columns ⟨before ++ rowBytes cells ++ after, before.length⟩ =
      (rowTexts columns cells,
        ⟨before ++ rowBytes cells ++ after, (before ++ rowBytes cells).length⟩) := by
  -- Cells that have been read join the bytes before the cursor.
  induction columns generalizing cells before with
  | nil =>
      have hcells : cells = [] := List.length_eq_zero_iff.1 h.length
      rw [hcells, show rowBytes [] = [] from rfl, List.append_nil]
      rfl
  | cons c columns ih =>
      cases cells with
      | nil => cases h.length
      | cons cell cells =>
          have hcell := (h.reads (c, cell) List.mem_cons_self).consumes before
            (rowBytes cells ++ after)
          have hrest : ReadsRow columns cells := by
            refine ⟨?_, ?_⟩
            · have hlength := h.length
              rw [List.length_cons, List.length_cons] at hlength
              omega
            · intro p hp
              exact h.reads p (List.mem_cons_of_mem _ hp)
          have hcells := ih hrest (before ++ cell.bytes)
          have hbytes : rowBytes (cell :: cells) = cell.bytes ++ rowBytes cells := rfl
          simp only [hbytes, ← List.append_assoc] at hcell hcells ⊢
          unfold RowStream.readCells
          rw [hcell]
          dsimp only
          rw [hcells]
          rfl

theorem ReadsRow.rowBytes_ne_nil {columns : List Column} {cells : List EmittedCell}
    (h : ReadsRow columns cells) (hcolumns : columns ≠ []) : rowBytes cells ≠ [] := by
  cases columns with
  | nil => exact absurd rfl hcolumns
  | cons c columns =>
      cases cells with
      | nil => cases h.length
      | cons cell cells =>
          have hcell := (h.reads (c, cell) List.mem_cons_self).nonempty
          exact List.append_ne_nil_of_left_ne_nil hcell _

theorem readRounds_of_readsRow {columns : List Column} (hcolumns : columns ≠ [])
    {rows : List (List EmittedCell)} (h : ∀ cells ∈ rows, ReadsRow columns cells)
    (before : List UInt8) :
    readRounds columns ⟨before ++ rows.flatMap rowBytes, before.length⟩ =
      (rows.map (rowTexts columns), ⟨before ++ rows.flatMap rowBytes,
        (before ++ rows.flatMap rowBytes).length⟩) := by
  induction rows generalizing before with
  | nil =>
      unfold readRounds
      rw [if_pos (by simp [Buffer.remaining, Buffer.size])]
      simp
  | cons cells rows ih =>
      have hcells : ReadsRow columns cells := h cells List.mem_cons_self
      have hpos : 0 < (rowBytes cells).length :=
        List.length_pos_iff.2 (hcells.rowBytes_ne_nil hcolumns)
      have hrow := hcells.readCells before (rows.flatMap rowBytes)
      have hrest := ih (fun cells hmem => h cells (List.mem_cons_of_mem _ hmem))
        (before ++ rowBytes cells)
      rw [List.flatMap_cons]
      simp only [← List.append_assoc] at hrow hrest ⊢
      -- A row takes at least one byte, so that a round leaves fewer.
      unfold readRounds
      rw [if_neg (by
        simp only [Buffer.remaining, Buffer.size, List.length_append]
        omega)]
      dsimp only
      rw [hrow, if_pos (by
        simp only [Buffer.remaining, Buffer.size, List.length_append]
        omega), hrest]
      rfl

/-- The source writes a cell that is not null as its column writes some value. -/
def RowSource.WritesValues {σ : Type} (source : RowSource σ) (columns : List Column) : Prop :=
  ∀ c ∈ columns, ∀ (number index : Nat) (s s' : σ) (bytes : List UInt8),
    (source.read number index c).runFrom s = (.ok bytes, s') →
      ∃ (v : Value) (zone : Option Zone) (scale : Nat),
        v.encode c.type (StreamRequest.layoutIn zone c) scale = .ok bytes

theorem Cursor.writesValues_source (columns : List Column) :
    Cursor.source.WritesValues columns := by
  intro c _ number index s s' bytes hread
  have hbytes : s.read index c = .ok bytes := by
    have hrun : (Cursor.source.read number index c).runFrom s = (s.read index c, s) := by
      change (get >>= fun c' : Cursor => Stateful.ofExcept (c'.read index c)).runFrom s = _
      rw [Stateful.runFrom_bind_of_ok (Stateful.runFrom_get s), Stateful.runFrom_ofExcept]
    rw [hrun] at hread
    exact congrArg Prod.fst hread
  unfold Cursor.read at hbytes
  split at hbytes
  · cases hbytes
  · cases hbytes
  · rename_i v _
    exact ⟨v, s.zone, _, ok_of_mapError hbytes⟩

end Zones

namespace StreamRequest

section Zones

variable [Zone.Catalogue] {σ τ : Type} {r : StreamRequest} {source : RowSource σ} {sink : Sink τ}
  {clock : Clock}

theorem column_of_resolve {columns : List Column} {resolved : List ResolvedColumn}
    (h : columns.mapM r.resolveColumn = .ok resolved) :
    resolved.map ResolvedColumn.column = columns ∧
      ∀ c ∈ resolved, c.layout = layoutIn r.zone c.column := by
  induction columns generalizing resolved with
  | nil =>
      cases h
      exact ⟨rfl, by simp⟩
  | cons c columns ih =>
      rw [List.mapM_cons] at h
      rcases hc : r.resolveColumn c with e | first
      · rw [hc] at h
        cases h
      rcases hcs : columns.mapM r.resolveColumn with e | rest
      · rw [hc, hcs] at h
        cases h
      rw [hc, hcs] at h
      cases h
      obtain ⟨hcolumns, hlayouts⟩ := ih hcs
      have hfirst : first.column = c ∧ first.layout = layoutIn r.zone c := by
        unfold resolveColumn at hc
        split at hc
        · cases hc
          exact ⟨rfl, rfl⟩
        · cases hc
      refine ⟨?_, ?_⟩
      · rw [List.map_cons, hfirst.1, hcolumns]
      · intro c' hc'
        rcases List.mem_cons.1 hc' with rfl | hmem
        · rw [hfirst.1, hfirst.2]
        · exact hlayouts c' hmem

section Cells

variable {c : ResolvedColumn} {number : Nat} {s s' : σ} {cell : EmittedCell}

theorem EmitsCell.readsCell (hc : c.column.Fits) (hlayout : c.layout = layoutIn r.zone c.column)
    (hsource : source.WritesValues [c.column]) (h : r.EmitsCell source number c s cell s') :
    c.column.ReadsCell cell.bytes := by
  have hvalue : ∀ {v : Value} {zone : Option Zone} {scale : Nat} {bytes : List UInt8},
      v.encode c.column.type (layoutIn zone c.column) scale = .ok bytes →
        c.column.ReadsCell (notNullFlag c.column ++ bytes) := by
    intro v zone scale bytes hbytes
    obtain ⟨result, hreads⟩ := Column.readsValue_of_encode hc hbytes
    exact Column.readsCell_value hreads
  cases h with
  | sourceId _ hbytes | custom _ hbytes | ownDefault _ _ _ _ hbytes | typeDefault _ _ _ _ hbytes =>
      rw [hlayout] at hbytes
      exact hvalue hbytes
  | nullFlag _ _ hflag =>
      unfold writesNull at hflag
      rw [Bool.and_eq_true] at hflag
      exact Column.readsCell_null hflag.1
  | value _ _ hread =>
      obtain ⟨v, zone, scale, hbytes⟩ := hsource c.column List.mem_cons_self _ _ _ _ _ hread
      exact hvalue hbytes

theorem EmitsCell.cellText_of_null (h : r.EmitsCell source number c s cell s')
    (hnull : cell.null = true) (hflag : r.writesNull c.column = true) :
    c.column.cellText cell.bytes = .ok Column.nullText := by
  have hnullable : c.column.nullable = true := by
    unfold writesNull at hflag
    rw [Bool.and_eq_true] at hflag
    exact hflag.1
  cases h with
  | sourceId | custom | value => cases hnull
  | nullFlag => exact Column.cellText_of_consumes (Column.consumes_readText_null hnullable)
  | ownDefault _ _ hfalse | typeDefault _ _ hfalse =>
      rw [hflag] at hfalse
      cases hfalse

end Cells

/-- What a cell of a row says to the column that it was written for. -/
structure CellReads (r : StreamRequest) (c : Column) (cell : EmittedCell) : Prop where
  reads : c.ReadsCell cell.bytes
  null : cell.null = true → r.writesNull c = true → c.cellText cell.bytes = .ok Column.nullText

section Rows

variable {resolved : List ResolvedColumn} {s s' : σ}

theorem EmitsRow.length_eq {number : Nat} {cells : List EmittedCell}
    (h : r.EmitsRow source number resolved s cells s') : cells.length = resolved.length := by
  induction h with
  | nil => rfl
  | cons _ _ ih => rw [List.length_cons, List.length_cons, ih]

theorem EmitsRow.cellReads {number : Nat} {cells : List EmittedCell}
    (hc : ∀ c ∈ resolved, c.column.Fits ∧ c.layout = layoutIn r.zone c.column ∧
      source.WritesValues [c.column])
    (h : r.EmitsRow source number resolved s cells s') :
    ∀ p ∈ (resolved.map ResolvedColumn.column).zip cells, r.CellReads p.1 p.2 := by
  induction h with
  | nil => simp
  | @cons c rest _ _ _ cell cells hcell hrest ih =>
      intro p hp
      rw [List.map_cons, List.zip_cons_cons] at hp
      rcases List.mem_cons.1 hp with rfl | hmem
      · obtain ⟨hfits, hlayout, hsource⟩ := hc c List.mem_cons_self
        exact ⟨hcell.readsCell hfits hlayout hsource, hcell.cellText_of_null⟩
      · exact ih (fun c' hc' => hc c' (List.mem_cons_of_mem _ hc')) p hmem

theorem EmitsRows.emitsRow_of_mem {rows : List (List EmittedCell)} {row : List EmittedCell}
    (h : r.EmitsRows source resolved s rows s') (hrow : row ∈ rows) :
    ∃ number s₁ s₂, r.EmitsRow source number resolved s₁ row s₂ := by
  induction h with
  | none => cases hrow
  | snoc _ _ hlast ih =>
      rcases List.mem_append.1 hrow with hmem | hmem
      · exact ih hmem
      · rw [List.mem_singleton.1 hmem]
        exact ⟨_, _, _, hlast⟩

end Rows

/-- A run that succeeds has delivered the batches of rows whose cells its columns read. -/
theorem cellReads_of_run_ok {s : σ} {t : τ} {stats : Stats} {ends : σ × τ}
    (hreach : ∀ c ∈ r.requested.columns, c.Reachable)
    (hsource : source.WritesValues r.requested.columns)
    (hrun : (r.run source sink clock).runFrom (s, t) = (.ok stats, ends)) :
    ∃ resolved s₀ s₁ rows,
      r.resolve = .ok resolved ∧ source.Advances r.skipped s s₀ ∧
      r.EmitsRows source resolved s₀ rows s₁ ∧ rows.length = stats.rows ∧
      r.deliveries source sink clock s t =
        (batches r.batchSize rows).map (fun batch => ⟨batch.flatMap rowBytes, true⟩) ∧
      ∀ row ∈ rows, row.length = r.requested.columns.length ∧
        ∀ p ∈ r.requested.columns.zip row, r.CellReads p.1 p.2 := by
  obtain ⟨resolved, s₀, hresolve, hskip⟩ := resolve_of_run_ok hrun
  obtain ⟨hresolved, hlayouts⟩ := column_of_resolve hresolve
  obtain ⟨rows, s₁, hrows, -, hstats, hlog⟩ := finished_of_run_ok hresolve hskip hrun
  have hwell : ∀ c ∈ resolved, c.column.Fits ∧ c.layout = layoutIn r.zone c.column ∧
      source.WritesValues [c.column] := by
    intro c hc
    have hmem : c.column ∈ r.requested.columns := by
      rw [← hresolved]
      exact List.mem_map_of_mem hc
    refine ⟨(hreach _ hmem).fits, hlayouts c hc, ?_⟩
    intro c' hc'
    rw [List.mem_singleton.1 hc']
    exact hsource _ hmem
  refine ⟨resolved, s₀, s₁, rows, hresolve, hskip, hrows, ?_, ?_, ?_⟩
  · rw [hstats]
    rfl
  · rw [hlog, written_firstBatches_all]
  · intro row hrow
    obtain ⟨_, _, _, hemits⟩ := hrows.emitsRow_of_mem hrow
    rw [← hresolved]
    exact ⟨by rw [hemits.length_eq, List.length_map], hemits.cellReads hwell⟩

/-- What a run that succeeds has delivered is read back row by row with the columns that it was
requested in, to the last byte. Every cell has the text that its column reads from the bytes of
the cell alone, `\N` for a null that is shown as one; only a value outside of the calendar
has none. -/
theorem readRounds_of_run_ok {s : σ} {t : τ} {stats : Stats} {ends : σ × τ}
    (hcolumns : r.requested.columns ≠ []) (hreach : ∀ c ∈ r.requested.columns, c.Reachable)
    (hsource : source.WritesValues r.requested.columns)
    (hrun : (r.run source sink clock).runFrom (s, t) = (.ok stats, ends)) :
    ∃ resolved s₀ s₁ rows,
      r.resolve = .ok resolved ∧ source.Advances r.skipped s s₀ ∧
      r.EmitsRows source resolved s₀ rows s₁ ∧ rows.length = stats.rows ∧
      (∀ row ∈ rows, row.length = r.requested.columns.length) ∧
      (∀ d ∈ r.deliveries source sink clock s t, d.written = true) ∧
      readRounds r.requested.columns
          (.ofBytes ((r.deliveries source sink clock s t).flatMap Delivery.batch)) =
        (rows.map fun row => List.zipWith (fun c cell => c.cellText cell.bytes)
            r.requested.columns row,
          ⟨(r.deliveries source sink clock s t).flatMap Delivery.batch,
            ((r.deliveries source sink clock s t).flatMap Delivery.batch).length⟩) ∧
      ∀ row ∈ rows, ∀ p ∈ r.requested.columns.zip row,
        p.1.readText.run (.ofBytes p.2.bytes) =
          (p.1.cellText p.2.bytes, ⟨p.2.bytes, p.2.bytes.length⟩) ∧
        (p.2.null = true → p.1.nullable = true → r.params.nullAsDefault = false →
          p.1.cellText p.2.bytes = .ok "\\N") ∧
        ∀ e, p.1.cellText p.2.bytes = .error e → ∃ value, p.2.bytes = notNullFlag p.1 ++ value ∧
          p.1.OutsideCalendar value ∧
          e = .decode (.invalidDateTime (ofLittleEndian value)) := by
  obtain ⟨resolved, s₀, hresolve, hskip⟩ := resolve_of_run_ok hrun
  obtain ⟨hresolved, hlayouts⟩ := column_of_resolve hresolve
  obtain ⟨rows, s₁, hrows, -, hstats, hlog⟩ := finished_of_run_ok hresolve hskip hrun
  have hwell : ∀ c ∈ resolved, c.column.Fits ∧ c.layout = layoutIn r.zone c.column ∧
      source.WritesValues [c.column] := by
    intro c hc
    have hmem : c.column ∈ r.requested.columns := by
      rw [← hresolved]
      exact List.mem_map_of_mem hc
    refine ⟨(hreach _ hmem).fits, hlayouts c hc, ?_⟩
    intro c' hc'
    rw [List.mem_singleton.1 hc']
    exact hsource _ hmem
  have hlength : ∀ row ∈ rows, row.length = r.requested.columns.length := by
    intro row hrow
    obtain ⟨_, _, _, hemits⟩ := hrows.emitsRow_of_mem hrow
    rw [hemits.length_eq, ← hresolved, List.length_map]
  have hcells : ∀ row ∈ rows, ∀ p ∈ r.requested.columns.zip row, r.CellReads p.1 p.2 := by
    intro row hrow
    obtain ⟨_, _, _, hemits⟩ := hrows.emitsRow_of_mem hrow
    rw [← hresolved]
    exact hemits.cellReads hwell
  have hbytes : (r.deliveries source sink clock s t).flatMap Delivery.batch =
      rows.flatMap rowBytes := by
    rw [hlog, written_firstBatches_all, flatMap_batch_batches r.batchSize_pos]
  have hrounds := readRounds_of_readsRow hcolumns
    (fun row hrow => ⟨hlength row hrow, fun p hp => (hcells row hrow p hp).reads⟩) []
  rw [List.nil_append] at hrounds
  refine ⟨resolved, s₀, s₁, rows, hresolve, hskip, hrows, ?_, hlength, ?_, ?_, ?_⟩
  · rw [hstats]
    rfl
  · intro d hd
    rw [hlog] at hd
    obtain ⟨batch, -, rfl⟩ := List.mem_map.1 hd
    rfl
  · rw [hbytes]
    exact hrounds
  · intro row hrow p hp
    have hcell := hcells row hrow p hp
    refine ⟨hcell.reads.consumes.run_ofBytes, ?_, hcell.reads.failure⟩
    intro hnull hnullable hdefault
    apply hcell.null hnull
    unfold writesNull
    rw [hnullable, hdefault]
    rfl

end Zones

theorem readRounds_of_run_ok_pairs :
    ∃ rows : List (List EmittedCell), rows.length = 3 ∧
      readRounds pairsRequest.requested.columns (.ofBytes [0, 5, 1, 0, 7]) =
        (rows.map fun row => List.zipWith (fun c cell => c.cellText cell.bytes)
          pairsRequest.requested.columns row, ⟨[0, 5, 1, 0, 7], 5⟩) := by
  have hrun : (pairsRequest.run Cursor.source Collector.sink (.still 0)).runFrom
      (pairsCursor, {}) = (.ok { rows := 3, batches := 2, bytes := 5 },
        { pairsCursor with current := some 3 }, { batches := [[0, 5, 1], [0, 7]] }) := by rfl
  have hreach : ∀ c ∈ pairsRequest.requested.columns, c.Reachable := by
    intro c hc
    rw [List.mem_singleton.1 hc]
    have hbuild : ({ name := "n", type := .uint8 } : Draft).build =
        .ok (({ name := "n", type := .uint8 } : Draft).shape none []) := by rfl
    exact .built hbuild
  obtain ⟨_, _, _, rows, -, -, -, hcount, -, -, hrounds, -⟩ :=
    readRounds_of_run_ok (List.cons_ne_nil _ _) hreach (Cursor.writesValues_source _) hrun
  exact ⟨rows, hcount, hrounds⟩

end StreamRequest

end RowStream
