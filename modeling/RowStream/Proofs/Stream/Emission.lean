import RowStream.Proofs.Stream.Stateful
import RowStream.Proofs.Value.Encode
import RowStream.Stream.Rows

/-!
# What a source emits

The bytes of a stream as the calls on its source make them, without batches and sinks. `EmitsCell`
lists the ways in which a cell comes about and `FailsCell` those in which it does not; rows are
their cells one after the other, and `EmitsRows` follows the source from row to row. A run computes
exactly this: a row is emitted or fails, and `StreamRequest.row` answers accordingly.
-/

namespace RowStream

/-- A cell of a stream. -/
structure EmittedCell where
  null : Bool
  bytes : List UInt8
deriving DecidableEq, Repr

def rowBytes (cells : List EmittedCell) : List UInt8 := cells.flatMap EmittedCell.bytes

variable [Zone.Catalogue]

/-- What a nullable column puts before a cell that is not null: one byte of 0. -/
def notNullFlag (c : Column) : List UInt8 := if c.nullable then [0] else []

/-- What ends a stream before the row in progress is complete. -/
inductive RowFailure where
  /-- A call on the source failed. -/
  | source (report : Report)
  /-- A constant or a substitute does not fit its column. -/
  | encoding (fault : EncodeFault)
deriving DecidableEq, Repr

def RowFailure.error (id : String) : RowFailure → Error
  | source report => .dataAccess id report
  | encoding fault => .encode fault

/-- So many calls of `advance` in a row find a next row. -/
inductive RowSource.Advances {σ : Type} (source : RowSource σ) : Nat → σ → σ → Prop
  | zero (s : σ) : source.Advances 0 s s
  | succ {n : Nat} {s s₁ s₂ : σ} (hadvance : source.advance.runFrom s = (.ok true, s₁))
      (hrest : source.Advances n s₁ s₂) : source.Advances (n + 1) s s₂

theorem RowSource.Advances.unique {σ : Type} {source : RowSource σ} {n : Nat} {s s₁ s₂ : σ}
    (h : source.Advances n s s₁) (h' : source.Advances n s s₂) : s₁ = s₂ := by
  induction h with
  | zero =>
      cases h'
      rfl
  | succ hadvance hrest ih =>
      obtain _ | ⟨hadvance', hrest'⟩ := h'
      rw [hadvance] at hadvance'
      cases hadvance'
      exact ih hrest'

/-- The source comes to stand on the next row, on which it may stand already. -/
inductive RowSource.MovesOn {σ : Type} (source : RowSource σ) : Bool → σ → σ → Prop
  | stays (s : σ) : source.MovesOn true s s
  | advances {s s' : σ} (hadvance : source.advance.runFrom s = (.ok true, s')) :
      source.MovesOn false s s'

/-- The source has no next row. -/
structure RowSource.EndsAt {σ : Type} (source : RowSource σ) (onRow : Bool) (s s' : σ) :
    Prop where
  notOnRow : onRow = false
  advanced : source.advance.runFrom s = (.ok false, s')

theorem RowSource.MovesOn.not_endsAt {σ : Type} {source : RowSource σ} {onRow : Bool}
    {s s₁ s₂ : σ} (h : source.MovesOn onRow s s₁) : ¬source.EndsAt onRow s s₂ := by
  rintro ⟨hrow, hadvance⟩
  cases h with
  | stays => cases hrow
  | advances hnext =>
      rw [hnext] at hadvance
      simp at hadvance

theorem RowSource.MovesOn.unique {σ : Type} {source : RowSource σ} {onRow : Bool} {s s₁ s₂ : σ}
    (h : source.MovesOn onRow s s₁) (h' : source.MovesOn onRow s s₂) : s₁ = s₂ := by
  cases h with
  | stays =>
      cases h'
      rfl
  | advances hadvance =>
      obtain _ | ⟨hadvance'⟩ := h'
      rw [hadvance] at hadvance'
      exact congrArg Prod.snd hadvance'

namespace StreamRequest

variable {σ : Type}

/-- Whether a null cell of the column is written as its flag alone. -/
def writesNull (r : StreamRequest) (c : Column) : Bool := c.nullable && !r.params.nullAsDefault

/-- A cell of a row and the state that its calls leave the source in. -/
inductive EmitsCell (r : StreamRequest) (source : RowSource σ) (number : Nat)
    (c : ResolvedColumn) : σ → EmittedCell → σ → Prop
  | sourceId {s : σ} {bytes : List UInt8} (horigin : c.origin = .sourceId)
      (hbytes : (Value.text r.source).encode c.column.type c.layout 0 = .ok bytes) :
      r.EmitsCell source number c s ⟨false, notNullFlag c.column ++ bytes⟩ s
  | custom {s : σ} {constant : Column} {bytes : List UInt8} (horigin : c.origin = .custom constant)
      (hbytes : constant.cell.value.encode c.column.type c.layout constant.cell.scale =
        .ok bytes) :
      r.EmitsCell source number c s ⟨false, notNullFlag c.column ++ bytes⟩ s
  | nullFlag {s s₁ : σ} {index : Nat} (horigin : c.origin = .result index)
      (hnull : (source.isNull number index c.column).runFrom s = (.ok true, s₁))
      (hflag : r.writesNull c.column = true) :
      r.EmitsCell source number c s ⟨true, [1]⟩ s₁
  | ownDefault {s s₁ : σ} {index : Nat} {bytes : List UInt8} (horigin : c.origin = .result index)
      (hnull : (source.isNull number index c.column).runFrom s = (.ok true, s₁))
      (hflag : r.writesNull c.column = false) (hdefault : c.column.hasDefault = true)
      (hbytes : c.column.cell.value.encode c.column.type c.layout c.column.cell.scale =
        .ok bytes) :
      r.EmitsCell source number c s ⟨true, notNullFlag c.column ++ bytes⟩ s₁
  | typeDefault {s s₁ : σ} {index : Nat} {bytes : List UInt8} (horigin : c.origin = .result index)
      (hnull : (source.isNull number index c.column).runFrom s = (.ok true, s₁))
      (hflag : r.writesNull c.column = false) (hdefault : c.column.hasDefault = false)
      (hbytes : (r.defaults.cell c.column.type).value.encode c.column.type c.layout
        (r.defaults.cell c.column.type).scale = .ok bytes) :
      r.EmitsCell source number c s ⟨true, notNullFlag c.column ++ bytes⟩ s₁
  | value {s s₁ s₂ : σ} {index : Nat} {bytes : List UInt8} (horigin : c.origin = .result index)
      (hnull : (source.isNull number index c.column).runFrom s = (.ok false, s₁))
      (hread : (source.read number index c.column).runFrom s₁ = (.ok bytes, s₂)) :
      r.EmitsCell source number c s ⟨false, notNullFlag c.column ++ bytes⟩ s₂

inductive FailsCell (r : StreamRequest) (source : RowSource σ) (number : Nat)
    (c : ResolvedColumn) : σ → RowFailure → σ → Prop
  | sourceId {s : σ} {fault : EncodeFault} (horigin : c.origin = .sourceId)
      (hfault : (Value.text r.source).encode c.column.type c.layout 0 = .error (.encode fault)) :
      r.FailsCell source number c s (.encoding fault) s
  | custom {s : σ} {constant : Column} {fault : EncodeFault}
      (horigin : c.origin = .custom constant)
      (hfault : constant.cell.value.encode c.column.type c.layout constant.cell.scale =
        .error (.encode fault)) :
      r.FailsCell source number c s (.encoding fault) s
  | isNull {s s₁ : σ} {index : Nat} {report : Report} (horigin : c.origin = .result index)
      (hnull : (source.isNull number index c.column).runFrom s = (.error report, s₁)) :
      r.FailsCell source number c s (.source report) s₁
  | ownDefault {s s₁ : σ} {index : Nat} {fault : EncodeFault} (horigin : c.origin = .result index)
      (hnull : (source.isNull number index c.column).runFrom s = (.ok true, s₁))
      (hflag : r.writesNull c.column = false) (hdefault : c.column.hasDefault = true)
      (hfault : c.column.cell.value.encode c.column.type c.layout c.column.cell.scale =
        .error (.encode fault)) :
      r.FailsCell source number c s (.encoding fault) s₁
  | typeDefault {s s₁ : σ} {index : Nat} {fault : EncodeFault} (horigin : c.origin = .result index)
      (hnull : (source.isNull number index c.column).runFrom s = (.ok true, s₁))
      (hflag : r.writesNull c.column = false) (hdefault : c.column.hasDefault = false)
      (hfault : (r.defaults.cell c.column.type).value.encode c.column.type c.layout
        (r.defaults.cell c.column.type).scale = .error (.encode fault)) :
      r.FailsCell source number c s (.encoding fault) s₁
  | read {s s₁ s₂ : σ} {index : Nat} {report : Report} (horigin : c.origin = .result index)
      (hnull : (source.isNull number index c.column).runFrom s = (.ok false, s₁))
      (hread : (source.read number index c.column).runFrom s₁ = (.error report, s₂)) :
      r.FailsCell source number c s (.source report) s₂

/-- The cells of a row, in the order of the columns. -/
inductive EmitsRow (r : StreamRequest) (source : RowSource σ) (number : Nat) :
    List ResolvedColumn → σ → List EmittedCell → σ → Prop
  | nil (s : σ) : r.EmitsRow source number [] s [] s
  | cons {c : ResolvedColumn} {rest : List ResolvedColumn} {s s₁ s₂ : σ} {cell : EmittedCell}
      {cells : List EmittedCell} (hcell : r.EmitsCell source number c s cell s₁)
      (hrest : r.EmitsRow source number rest s₁ cells s₂) :
      r.EmitsRow source number (c :: rest) s (cell :: cells) s₂

inductive FailsRow (r : StreamRequest) (source : RowSource σ) (number : Nat) :
    List ResolvedColumn → σ → RowFailure → σ → Prop
  | here {c : ResolvedColumn} {rest : List ResolvedColumn} {s s₁ : σ} {failure : RowFailure}
      (hcell : r.FailsCell source number c s failure s₁) :
      r.FailsRow source number (c :: rest) s failure s₁
  | later {c : ResolvedColumn} {rest : List ResolvedColumn} {s s₁ s₂ : σ} {cell : EmittedCell}
      {failure : RowFailure} (hcell : r.EmitsCell source number c s cell s₁)
      (hrest : r.FailsRow source number rest s₁ failure s₂) :
      r.FailsRow source number (c :: rest) s failure s₂

/-- Whether the source stands on the next row after so many rows: a position leaves it on
the first. -/
def onRow (r : StreamRequest) (emitted : Nat) : Bool := 0 < r.params.position && emitted == 0

/-- The rows that the source emits from the end of the skip on. -/
inductive EmitsRows (r : StreamRequest) (source : RowSource σ) (columns : List ResolvedColumn)
    (s : σ) : List (List EmittedCell) → σ → Prop
  | none : r.EmitsRows source columns s [] s
  | snoc {rows : List (List EmittedCell)} {cells : List EmittedCell} {s₁ s₂ s₃ : σ}
      (hrows : r.EmitsRows source columns s rows s₁)
      (hnext : source.MovesOn (r.onRow rows.length) s₁ s₂)
      (hrow : r.EmitsRow source (r.firstRow + rows.length) columns s₂ cells s₃) :
      r.EmitsRows source columns s (rows ++ [cells]) s₃

/-- What ends the stream after so many rows, before the next one is complete. -/
inductive FailsNext (r : StreamRequest) (source : RowSource σ) (columns : List ResolvedColumn)
    (emitted : Nat) : σ → RowFailure → σ → Prop
  | advance {s s₁ : σ} {report : Report} (hrow : r.onRow emitted = false)
      (hadvance : source.advance.runFrom s = (.error report, s₁)) :
      r.FailsNext source columns emitted s (.source report) s₁
  | row {s s₁ s₂ : σ} {failure : RowFailure} (hnext : source.MovesOn (r.onRow emitted) s s₁)
      (hrow : r.FailsRow source (r.firstRow + emitted) columns s₁ failure s₂) :
      r.FailsNext source columns emitted s failure s₂

theorem runFrom_blame_ok {α : Type} {r : StreamRequest} {x : Stateful Report σ α} {s s' : σ}
    {a : α} (h : x.runFrom s = (.ok a, s')) : (r.blame x).runFrom s = (.ok a, s') :=
  Stateful.runFrom_mapError_ok.2 h

theorem runFrom_blame_error {α : Type} {r : StreamRequest} {x : Stateful Report σ α} {s s' : σ}
    {report : Report} (h : x.runFrom s = (.error report, s')) :
    (r.blame x).runFrom s = (.error (.dataAccess r.source report), s') :=
  Stateful.runFrom_mapError_error.2 ⟨report, h, rfl⟩

theorem nullCell_of_writesNull {r : StreamRequest} {c : ResolvedColumn}
    (h : r.writesNull c.column = true) : r.nullCell c = .ok [1] := by
  have hnullable : c.column.nullable = true := by
    unfold writesNull at h
    simp only [Bool.and_eq_true] at h
    exact h.1
  unfold nullCell
  rw [if_pos (show (c.column.nullable && !r.params.nullAsDefault) = true from h)]
  simp [ResolvedColumn.nullFlag, hnullable, Wire.flag]

theorem nullCell_of_not_writesNull {r : StreamRequest} {c : ResolvedColumn}
    (h : r.writesNull c.column = false) :
    r.nullCell c = (c.substitute r.defaults).map (notNullFlag c.column ++ ·) := by
  unfold nullCell
  rw [if_neg (by simpa [writesNull] using h)]
  rfl

theorem substitute_of_hasDefault {c : ResolvedColumn} {defaults : Defaults}
    (h : c.column.hasDefault = true) :
    c.substitute defaults =
      c.column.cell.value.encode c.column.type c.layout c.column.cell.scale := by
  unfold ResolvedColumn.substitute
  rw [if_pos h]

theorem substitute_of_not_hasDefault {c : ResolvedColumn} {defaults : Defaults}
    (h : c.column.hasDefault = false) :
    c.substitute defaults =
      (defaults.cell c.column.type).value.encode c.column.type c.layout
        (defaults.cell c.column.type).scale := by
  unfold ResolvedColumn.substitute
  rw [if_neg (by simp [h])]

section Cells

variable {r : StreamRequest} {source : RowSource σ} {number index : Nat} {c : ResolvedColumn}
  {s s₁ : σ}

theorem runFrom_cell_sourceId (horigin : c.origin = .sourceId) :
    (r.cell source number c).runFrom s = (c.constant (.text r.source) 0, s) := by
  unfold cell
  rw [horigin]
  exact Stateful.runFrom_ofExcept _ _

theorem runFrom_cell_custom {constant : Column} (horigin : c.origin = .custom constant) :
    (r.cell source number c).runFrom s =
      (c.constant constant.cell.value constant.cell.scale, s) := by
  unfold cell
  rw [horigin]
  exact Stateful.runFrom_ofExcept _ _

theorem runFrom_cell_unanswered {report : Report} (horigin : c.origin = .result index)
    (hnull : (source.isNull number index c.column).runFrom s = (.error report, s₁)) :
    (r.cell source number c).runFrom s = (.error (.dataAccess r.source report), s₁) := by
  unfold cell
  rw [horigin]
  exact Stateful.runFrom_bind_of_error (runFrom_blame_error hnull)

theorem runFrom_cell_null (horigin : c.origin = .result index)
    (hnull : (source.isNull number index c.column).runFrom s = (.ok true, s₁)) :
    (r.cell source number c).runFrom s = (r.nullCell c, s₁) := by
  unfold cell
  rw [horigin]
  dsimp only
  rw [Stateful.runFrom_bind_of_ok (runFrom_blame_ok hnull)]
  exact Stateful.runFrom_ofExcept _ _

theorem runFrom_cell_present (horigin : c.origin = .result index)
    (hnull : (source.isNull number index c.column).runFrom s = (.ok false, s₁)) :
    (r.cell source number c).runFrom s =
      (r.blame (source.read number index c.column) >>= fun bytes =>
        (pure (notNullFlag c.column ++ bytes) : Stateful Error σ _)).runFrom s₁ := by
  unfold cell
  rw [horigin]
  dsimp only
  rw [Stateful.runFrom_bind_of_ok (runFrom_blame_ok hnull)]
  rfl

theorem EmitsCell.runFrom_cell {cell : EmittedCell} {s' : σ}
    (h : r.EmitsCell source number c s cell s') :
    (r.cell source number c).runFrom s = (.ok cell.bytes, s') := by
  cases h with
  | sourceId horigin hbytes =>
      rw [runFrom_cell_sourceId horigin, ResolvedColumn.constant, hbytes]
      rfl
  | custom horigin hbytes =>
      rw [runFrom_cell_custom horigin, ResolvedColumn.constant, hbytes]
      rfl
  | nullFlag horigin hnull hflag =>
      rw [runFrom_cell_null horigin hnull, nullCell_of_writesNull hflag]
  | ownDefault horigin hnull hflag hdefault hbytes =>
      rw [runFrom_cell_null horigin hnull, nullCell_of_not_writesNull hflag,
        substitute_of_hasDefault hdefault, hbytes]
      rfl
  | typeDefault horigin hnull hflag hdefault hbytes =>
      rw [runFrom_cell_null horigin hnull, nullCell_of_not_writesNull hflag,
        substitute_of_not_hasDefault hdefault, hbytes]
      rfl
  | value horigin hnull hread =>
      rw [runFrom_cell_present horigin hnull,
        Stateful.runFrom_bind_of_ok (runFrom_blame_ok hread)]
      rfl

theorem FailsCell.runFrom_cell {failure : RowFailure} {s' : σ}
    (h : r.FailsCell source number c s failure s') :
    (r.cell source number c).runFrom s = (.error (failure.error r.source), s') := by
  cases h with
  | sourceId horigin hfault =>
      rw [runFrom_cell_sourceId horigin, ResolvedColumn.constant, hfault]
      rfl
  | custom horigin hfault =>
      rw [runFrom_cell_custom horigin, ResolvedColumn.constant, hfault]
      rfl
  | isNull horigin hnull => exact runFrom_cell_unanswered horigin hnull
  | ownDefault horigin hnull hflag hdefault hfault =>
      rw [runFrom_cell_null horigin hnull, nullCell_of_not_writesNull hflag,
        substitute_of_hasDefault hdefault, hfault]
      rfl
  | typeDefault horigin hnull hflag hdefault hfault =>
      rw [runFrom_cell_null horigin hnull, nullCell_of_not_writesNull hflag,
        substitute_of_not_hasDefault hdefault, hfault]
      rfl
  | read horigin hnull hread =>
      rw [runFrom_cell_present horigin hnull]
      exact Stateful.runFrom_bind_of_error (runFrom_blame_error hread)

theorem cell_outcome (r : StreamRequest) (source : RowSource σ) (number : Nat)
    (c : ResolvedColumn) (s : σ) :
    (∃ cell s', r.EmitsCell source number c s cell s') ∨
      ∃ failure s', r.FailsCell source number c s failure s' := by
  cases horigin : c.origin with
  | sourceId =>
      obtain ⟨bytes, henc⟩ | ⟨fault, henc⟩ :=
        (Value.text r.source).encode_outcome c.column.type c.layout 0
      · exact .inl ⟨_, _, .sourceId horigin henc⟩
      · exact .inr ⟨_, _, .sourceId horigin henc⟩
  | custom constant =>
      obtain ⟨bytes, henc⟩ | ⟨fault, henc⟩ :=
        constant.cell.value.encode_outcome c.column.type c.layout constant.cell.scale
      · exact .inl ⟨_, _, .custom horigin henc⟩
      · exact .inr ⟨_, _, .custom horigin henc⟩
  | result index =>
      rcases hnull : (source.isNull number index c.column).runFrom s with ⟨report | null, s₁⟩
      · exact .inr ⟨_, _, .isNull horigin hnull⟩
      cases null with
      | false =>
          rcases hread : (source.read number index c.column).runFrom s₁ with ⟨report | bytes, s₂⟩
          · exact .inr ⟨_, _, .read horigin hnull hread⟩
          · exact .inl ⟨_, _, .value horigin hnull hread⟩
      | true =>
          cases hflag : r.writesNull c.column with
          | true => exact .inl ⟨_, _, .nullFlag horigin hnull hflag⟩
          | false =>
              cases hdefault : c.column.hasDefault with
              | true =>
                  obtain ⟨bytes, henc⟩ | ⟨fault, henc⟩ := c.column.cell.value.encode_outcome
                    c.column.type c.layout c.column.cell.scale
                  · exact .inl ⟨_, _, .ownDefault horigin hnull hflag hdefault henc⟩
                  · exact .inr ⟨_, _, .ownDefault horigin hnull hflag hdefault henc⟩
              | false =>
                  obtain ⟨bytes, henc⟩ | ⟨fault, henc⟩ :=
                    (r.defaults.cell c.column.type).value.encode_outcome c.column.type c.layout
                      (r.defaults.cell c.column.type).scale
                  · exact .inl ⟨_, _, .typeDefault horigin hnull hflag hdefault henc⟩
                  · exact .inr ⟨_, _, .typeDefault horigin hnull hflag hdefault henc⟩

end Cells

section Rows

variable {r : StreamRequest} {source : RowSource σ} {number : Nat} {columns : List ResolvedColumn}
  {s s' : σ}

theorem EmitsRow.runFrom_row {cells : List EmittedCell}
    (h : r.EmitsRow source number columns s cells s') :
    (r.row source number columns).runFrom s = (.ok (rowBytes cells), s') := by
  induction h with
  | nil => rfl
  | cons hcell hrest ih =>
      unfold row
      rw [Stateful.runFrom_bind_of_ok hcell.runFrom_cell, Stateful.runFrom_bind_of_ok ih]
      rfl

theorem FailsRow.runFrom_row {failure : RowFailure}
    (h : r.FailsRow source number columns s failure s') :
    (r.row source number columns).runFrom s = (.error (failure.error r.source), s') := by
  induction h with
  | here hcell =>
      unfold row
      exact Stateful.runFrom_bind_of_error hcell.runFrom_cell
  | later hcell hrest ih =>
      unfold row
      rw [Stateful.runFrom_bind_of_ok hcell.runFrom_cell]
      exact Stateful.runFrom_bind_of_error ih

theorem row_outcome (r : StreamRequest) (source : RowSource σ) (number : Nat)
    (columns : List ResolvedColumn) (s : σ) :
    (∃ cells s', r.EmitsRow source number columns s cells s') ∨
      ∃ failure s', r.FailsRow source number columns s failure s' := by
  induction columns generalizing s with
  | nil => exact .inl ⟨_, _, .nil s⟩
  | cons c rest ih =>
      obtain ⟨cell, s₁, hcell⟩ | ⟨failure, s₁, hcell⟩ := cell_outcome r source number c s
      · obtain ⟨cells, s₂, hrest⟩ | ⟨failure, s₂, hrest⟩ := ih s₁
        · exact .inl ⟨_, _, .cons hcell hrest⟩
        · exact .inr ⟨failure, s₂, .later hcell hrest⟩
      · exact .inr ⟨failure, s₁, .here hcell⟩

theorem EmitsCell.unique {c : ResolvedColumn} {cell cell' : EmittedCell} {s₁ s₂ : σ}
    (h : r.EmitsCell source number c s cell s₁) (h' : r.EmitsCell source number c s cell' s₂) :
    cell = cell' ∧ s₁ = s₂ := by
  have hrun := h.runFrom_cell
  rw [h'.runFrom_cell] at hrun
  have hbytes : cell'.bytes = cell.bytes := by
    have := congrArg Prod.fst hrun
    simpa using this
  have hstate : s₂ = s₁ := congrArg Prod.snd hrun
  have hnull : cell.null = cell'.null := by
    cases h <;> cases h' <;> simp_all
  cases cell
  cases cell'
  cases hbytes
  cases hnull
  exact ⟨rfl, hstate.symm⟩

theorem EmitsRow.unique {cells cells' : List EmittedCell} {s₁ s₂ : σ}
    (h : r.EmitsRow source number columns s cells s₁)
    (h' : r.EmitsRow source number columns s cells' s₂) : cells = cells' ∧ s₁ = s₂ := by
  induction h generalizing cells' with
  | nil =>
      cases h'
      exact ⟨rfl, rfl⟩
  | cons hcell hrest ih =>
      obtain _ | ⟨hcell', hrest'⟩ := h'
      obtain ⟨rfl, rfl⟩ := hcell.unique hcell'
      obtain ⟨rfl, rfl⟩ := ih hrest'
      exact ⟨rfl, rfl⟩

end Rows

section Prefixes

variable {r : StreamRequest} {source : RowSource σ} {columns : List ResolvedColumn} {s s₁ s₂ : σ}
  {rows : List (List EmittedCell)}

theorem EmitsRows.of_append_singleton {cells : List EmittedCell} {s₃ : σ}
    (h : r.EmitsRows source columns s (rows ++ [cells]) s₃) :
    ∃ s₁ s₂, r.EmitsRows source columns s rows s₁ ∧
      source.MovesOn (r.onRow rows.length) s₁ s₂ ∧
      r.EmitsRow source (r.firstRow + rows.length) columns s₂ cells s₃ := by
  generalize hall : rows ++ [cells] = all at h
  cases h with
  | none => simp at hall
  | snoc hrows hnext hrow =>
      obtain ⟨rfl, hlast⟩ := List.append_inj' hall rfl
      cases hlast
      exact ⟨_, _, hrows, hnext, hrow⟩

theorem EmitsRows.of_append {more : List (List EmittedCell)}
    (h : r.EmitsRows source columns s (rows ++ more) s₂) :
    ∃ s₁, r.EmitsRows source columns s rows s₁ := by
  induction more generalizing rows with
  | nil =>
      rw [List.append_nil] at h
      exact ⟨_, h⟩
  | cons cells more ih =>
      rw [List.append_cons] at h
      obtain ⟨_, hsnoc⟩ := ih h
      obtain ⟨s₁, _, hrows, -, -⟩ := hsnoc.of_append_singleton
      exact ⟨s₁, hrows⟩

theorem EmitsRows.unique (h : r.EmitsRows source columns s rows s₁)
    (h' : r.EmitsRows source columns s rows s₂) : s₁ = s₂ := by
  induction h generalizing s₂ with
  | none =>
      generalize hall : ([] : List (List EmittedCell)) = all at h'
      cases h' with
      | none => rfl
      | snoc => simp at hall
  | snoc hrows hnext hrow ih =>
      obtain ⟨_, _, hrows', hnext', hrow'⟩ := h'.of_append_singleton
      cases ih hrows'
      cases hnext.unique hnext'
      exact (hrow.unique hrow').2

/-- Whatever a source emits, it emits the same rows again, up to its end. -/
theorem EmitsRows.isPrefix_of_endsAt {all : List (List EmittedCell)} {s₃ : σ}
    (h : r.EmitsRows source columns s rows s₁) (hall : r.EmitsRows source columns s all s₂)
    (hend : source.EndsAt (r.onRow all.length) s₂ s₃) : rows <+: all := by
  induction h with
  | none => exact List.nil_prefix
  | @snoc rows cells t₁ t₂ t₃ hrows hnext hrow ih =>
      obtain ⟨more, rfl⟩ := ih
      cases more with
      | nil =>
          rw [List.append_nil] at hall hend
          cases hall.unique hrows
          exact absurd hend hnext.not_endsAt
      | cons cells' more =>
          rw [List.append_cons] at hall
          obtain ⟨_, hsnoc⟩ := hall.of_append
          obtain ⟨_, _, hrows', hnext', hrow'⟩ := hsnoc.of_append_singleton
          cases hrows.unique hrows'
          cases hnext.unique hnext'
          rw [(hrow.unique hrow').1]
          exact ⟨more, (List.append_cons _ _ _).symm⟩

end Prefixes

end StreamRequest

end RowStream
