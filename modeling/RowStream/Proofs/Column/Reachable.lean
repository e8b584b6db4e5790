import RowStream.Column.Config
import RowStream.Proofs.Result

/-!
# Columns that can come about

`Column.Reachable` follows a column through the operations on columns: a column is built from a
draft, whether of a declaration, of JSON or of another column, its default is merged and its place
is fixed. What changes a default leaves the shape of the column as it was built.
-/

namespace RowStream

namespace Cell

theorem take_frame {c c' : Cell} {x : Except Error (Option Value)} (h : c.take x = .ok c') :
    ∃ v, c' = { c with value := v } := by
  unfold take at h
  split at h
  · cases h
    exact ⟨_, rfl⟩
  · cases h
    exact ⟨c.value, rfl⟩
  · split at h
    · cases h
    · cases h
      exact ⟨c.value, rfl⟩

theorem mergeText_frame {c c' : Cell} {s : String} (h : c.mergeText s = .ok c') :
    ∃ v, c' = { c with value := v } := by
  unfold mergeText at h
  split at h
  · cases h
    exact ⟨c.value, rfl⟩
  · exact take_frame h

theorem mergeJson_frame {c c' : Cell} {json : Json} (h : c.mergeJson json = .ok c') :
    ∃ v, c' = { c with value := v } := by
  unfold mergeJson at h
  split at h
  · exact mergeText_frame h
  · exact take_frame h

theorem merge?_frame {c c' other : Cell} (h : c.merge? other = some c') :
    ∃ v, c' = { c with value := v } := by
  unfold merge? at h
  split at h
  · cases h
    exact ⟨_, rfl⟩
  · cases h

end Cell

namespace Column

theorem columnPrecision_le (d : Draft) : d.columnPrecision ≤ d.type.maxPrecision := by
  unfold Draft.columnPrecision
  split
  · exact Nat.le_refl _
  · exact Nat.min_le_right _ _

theorem columnPrecision_pos {d : Draft} (h : 0 < d.type.maxPrecision) : 0 < d.columnPrecision := by
  have hdefault : 0 < d.type.defaultPrecision := by
    cases ht : d.type <;> rw [ht] at h <;> first | decide | exact absurd h (by decide)
  have hgiven : 0 < (d.precision.filter (0 < ·)).getD d.type.defaultPrecision := by
    cases hp : d.precision.filter (0 < ·) with
    | none => exact hdefault
    | some p =>
        have hpos := (Option.filter_eq_some_iff.1 hp).2
        simpa using hpos
  unfold Draft.columnPrecision
  split
  · exact h
  · rw [Nat.lt_min]
    exact ⟨hgiven, h⟩

theorem defaultPrecision_eq_zero {t : ColumnType} (h : t.maxPrecision = 0) :
    t.defaultPrecision = 0 := by
  cases t <;> first | rfl | exact absurd h (by decide)

theorem columnScale_le (d : Draft) :
    d.columnScale ≤ d.type.maxScale ∧ d.columnScale ≤ d.columnPrecision := by
  unfold Draft.columnScale
  omega

theorem columnLength_pos {d : Draft} (h : d.type = .fixedString) : 1 ≤ d.columnLength := by
  unfold Draft.columnLength
  rw [if_pos h]
  exact Nat.le_max_left _ _

variable [Zone.Catalogue] {c c' : Column}

theorem mergeText_frame {s : String} (h : c.mergeText s = .ok c') : ∃ v, c' = c.withValue v := by
  unfold mergeText at h
  split at h
  · obtain ⟨n, -, rfl⟩ := map_ok h
    exact ⟨_, rfl⟩
  · obtain ⟨cell, hcell, rfl⟩ := map_ok h
    obtain ⟨v, rfl⟩ := Cell.mergeText_frame hcell
    exact ⟨v, rfl⟩

theorem mergeJson_frame {json : Json} (h : c.mergeJson json = .ok c') :
    ∃ v, c' = c.withValue v := by
  have hcell : (c.cell.mergeJson json).map (fun cell => { c with cell := cell }) = .ok c' →
      ∃ v, c' = c.withValue v := by
    intro h
    obtain ⟨cell, hcell, rfl⟩ := map_ok h
    obtain ⟨v, rfl⟩ := Cell.mergeJson_frame hcell
    exact ⟨v, rfl⟩
  unfold mergeJson at h
  dsimp only at h
  split at h
  · exact mergeText_frame h
  · split at h
    · split at h
      · obtain ⟨n, -, rfl⟩ := map_ok h
        exact ⟨_, rfl⟩
      · cases h
    · exact hcell h
  · exact hcell h

theorem mergeValue?_frame {other : Column} (h : c.mergeValue? other = some c') :
    ∃ v, c' = { c.withValue v with declared := true } := by
  unfold mergeValue? at h
  split at h
  · obtain ⟨cell, hcell, rfl⟩ := Option.map_eq_some_iff.1 h
    obtain ⟨v, rfl⟩ := Cell.merge?_frame hcell
    exact ⟨v, rfl⟩
  · cases h

theorem setIndex_frame {index : Nat} (h : c.setIndex index = .ok c') :
    c' = { c with index := some index } := by
  unfold setIndex at h
  split at h
  · cases h
  · exact (Except.ok.inj h).symm

/-- The columns that operations on columns lead to. -/
inductive Reachable : Column → Prop
  | unspecified : Reachable unspecified
  | built {d : Draft} {c : Column} (h : d.build = .ok c) : Reachable c
  | mergedText {c c' : Column} {s : String} (hc : Reachable c) (h : c.mergeText s = .ok c') :
      Reachable c'
  | mergedJson {c c' : Column} {json : Json} (hc : Reachable c) (h : c.mergeJson json = .ok c') :
      Reachable c'
  | mergedValue {c c' other : Column} (hc : Reachable c) (h : c.mergeValue? other = some c') :
      Reachable c'
  | placed {c c' : Column} {index : Nat} (hc : Reachable c) (h : c.setIndex index = .ok c') :
      Reachable c'

theorem reachable_of_ofDeclaration {text : String} (h : ofDeclaration text = .ok c) :
    c.Reachable := by
  unfold ofDeclaration at h
  split at h
  · cases h
  · exact .built (ok_of_mapError h)

theorem reachable_of_ofJson {json : Json} (h : ofJson json = .ok c) : c.Reachable := by
  unfold ofJson at h
  split at h
  · split at h
    · cases h
    · exact .built (ok_of_mapError h)
  · cases h

theorem reachable_of_renamed {name : String} (h : c.renamed name = .ok c') : c'.Reachable :=
  .built h

theorem build_ok_iff {d : Draft} : d.build = .ok c ↔
    ∃ zone options, d.columnZone = .ok zone ∧ d.columnOptions = .ok options ∧
      d.fill (d.shape zone options) = .ok c := by
  unfold Draft.build
  rcases d.columnZone with e | zone
  · simp [bind, Except.bind]
  rcases d.columnOptions with e | options
  · simp [bind, Except.bind]
  · simp [bind, Except.bind]

theorem fill_frame {d : Draft} (h : d.fill c = .ok c') : ∃ v, c' = c.withValue v := by
  -- A current value goes into the column first, and a default is read on top of it.
  have hdefault : ∀ {c₁ : Column} {v : Value}, c₁ = c.withValue v →
      ({ d with current := none } : Draft).fill c₁ = .ok c' → ∃ v, c' = c.withValue v := by
    rintro c₁ v rfl h
    unfold Draft.fill at h
    dsimp only at h
    split at h
    · obtain ⟨w, rfl⟩ := mergeText_frame h
      exact ⟨w, rfl⟩
    · obtain ⟨w, rfl⟩ := mergeJson_frame h
      exact ⟨w, rfl⟩
    · cases h
      exact ⟨v, rfl⟩
  cases hcurrent : d.current with
  | none =>
      apply hdefault (show c = c.withValue c.cell.value from rfl)
      rw [← h]
      unfold Draft.fill
      rw [hcurrent]
  | some v =>
      apply hdefault (show c.withValue v = c.withValue v from rfl)
      rw [← h]
      unfold Draft.fill
      rw [hcurrent]

/-- A column that is built has the shape of its draft. -/
theorem shape_of_build {d : Draft} (h : d.build = .ok c) :
    ∃ zone options v, d.columnZone = .ok zone ∧ d.columnOptions = .ok options ∧
      c = (d.shape zone options).withValue v := by
  obtain ⟨zone, options, hzone, hoptions, hfill⟩ := build_ok_iff.1 h
  obtain ⟨v, hc⟩ := fill_frame hfill
  exact ⟨zone, options, v, hzone, hoptions, hc⟩

/-- What every column keeps to, so that its cells have the same bytes for writer and reader. -/
structure Fits (c : Column) : Prop where
  length : c.type = .fixedString → 1 ≤ c.length
  precision : c.layout.precisionFor c.type = c.precision
  scale : c.layout.scaleFor c.type = c.scale

theorem precisionFor_columnPrecision (d : Draft) {l : Layout}
    (h : l.precision = some d.columnPrecision) : l.precisionFor d.type = d.columnPrecision := by
  have hle := columnPrecision_le d
  unfold Layout.precisionFor
  by_cases hsized : d.type.isSizedDecimal
  · unfold Draft.columnPrecision
    rw [if_pos hsized, if_pos hsized]
  · rw [if_neg hsized, h]
    rcases Nat.eq_zero_or_pos d.type.maxPrecision with hzero | hpos
    · have hnone : d.columnPrecision = 0 := by omega
      rw [hnone]
      exact defaultPrecision_eq_zero hzero
    · have hsome : (some d.columnPrecision).filter (0 < ·) = some d.columnPrecision := by
        rw [Option.filter_some, if_pos]
        exact decide_eq_true (columnPrecision_pos hpos)
      rw [hsome]
      dsimp only
      omega

theorem scaleFor_columnScale (d : Draft) {l : Layout} (hscale : l.scale = some d.columnScale)
    (hprecision : l.precision = some d.columnPrecision) : l.scaleFor d.type = d.columnScale := by
  have hle := columnScale_le d
  unfold Layout.scaleFor
  rw [hscale, precisionFor_columnPrecision d hprecision, Option.getD_some]
  omega

theorem Reachable.fits (h : c.Reachable) : c.Fits := by
  induction h with
  | unspecified => exact ⟨nofun, rfl, rfl⟩
  | built h =>
      obtain ⟨zone, options, v, -, -, rfl⟩ := shape_of_build h
      exact ⟨columnLength_pos, precisionFor_columnPrecision _ rfl, scaleFor_columnScale _ rfl rfl⟩
  | mergedText _ h ih =>
      obtain ⟨v, rfl⟩ := mergeText_frame h
      exact ⟨ih.length, ih.precision, ih.scale⟩
  | mergedJson _ h ih =>
      obtain ⟨v, rfl⟩ := mergeJson_frame h
      exact ⟨ih.length, ih.precision, ih.scale⟩
  | mergedValue _ h ih =>
      obtain ⟨v, rfl⟩ := mergeValue?_frame h
      exact ⟨ih.length, ih.precision, ih.scale⟩
  | placed _ h ih =>
      rw [setIndex_frame h]
      exact ⟨ih.length, ih.precision, ih.scale⟩

end Column

end RowStream
