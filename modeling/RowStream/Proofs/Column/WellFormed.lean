import RowStream.Proofs.Column.Operation
import RowStream.Proofs.Column.RoundTrip

/-!
# Columns are well formed

`Column.WellFormed` lists what the fields of a column keep to among themselves. Building sees to all
of it, whatever the draft asks for, and afterwards only the value of the cell changes, each time for
one of the same kind. `Column.Obtained` follows a column from where it comes about through
everything that is done to it, in place, accepted or not.
-/

namespace RowStream

namespace Value

variable {type : ColumnType} {scale : Nat} {v : Value}

theorem kind_of_parse {s : String} (h : parse s type scale = .ok v) : v.kind = type.kind :=
  (readable_of_parse? (parse_ok_iff.1 h)).kind

theorem kind_of_ofNumber? {n : JsonNumber} (h : ofNumber? n type = some v) :
    v.kind = type.kind := by
  unfold ofNumber? at h
  split at h
  case h_1 hk | h_4 hk | h_5 hk | h_6 hk =>
      cases h
      exact hk.symm
  case h_2 hk | h_3 hk =>
      obtain ⟨w, -, rfl⟩ := Option.map_eq_some_iff.1 h
      exact hk.symm
  case h_7 | h_8 => cases h

theorem kind_of_ofJson {json : Json} (h : ofJson json type scale = .ok (some v)) :
    v.kind = type.kind := by
  have hparse : ∀ {s : String}, (parse s type scale).map some = .ok (some v) →
      v.kind = type.kind := by
    intro s h
    obtain ⟨w, hw, hv⟩ := map_ok h
    cases hv
    exact kind_of_parse hw
  unfold ofJson at h
  dsimp only at h
  split at h
  · cases h
  · exact hparse h
  · split at h
    · next hk =>
        cases h
        exact hk.symm
    · next hk =>
        cases h
        exact hk.symm
    · exact hparse h
  · split at h
    · exact hparse h
    · split at h
      · next hnumber =>
          cases h
          exact kind_of_ofNumber? hnumber
      · cases h
  · split at h
    · next hk =>
        cases h
        exact hk.symm
    · cases h
  · split at h
    · next hk =>
        cases h
        exact hk.symm
    · cases h

end Value

namespace Cell

variable {c c' : Cell}

theorem kind_of_take {x : Except Error (Option Value)} (h : c.take x = .ok c')
    (hc : c.value.kind = c.type.kind) (hx : ∀ v, x = .ok (some v) → v.kind = c.type.kind) :
    c'.value.kind = c.type.kind := by
  unfold take at h
  split at h
  · cases h
    exact hx _ rfl
  · cases h
    exact hc
  · split at h
    · cases h
    · cases h
      exact hc

theorem kind_of_mergeText {s : String} (h : c.mergeText s = .ok c')
    (hc : c.value.kind = c.type.kind) : c'.value.kind = c.type.kind := by
  unfold mergeText at h
  split at h
  · cases h
    exact hc
  · apply kind_of_take h hc
    intro v hv
    obtain ⟨w, hw, hsome⟩ := map_ok hv
    cases hsome
    exact Value.kind_of_parse hw

theorem kind_of_mergeJson {json : Json} (h : c.mergeJson json = .ok c')
    (hc : c.value.kind = c.type.kind) : c'.value.kind = c.type.kind := by
  unfold mergeJson at h
  split at h
  · exact kind_of_mergeText h hc
  · exact kind_of_take h hc fun v hv => Value.kind_of_ofJson hv

end Cell

namespace Draft

/-- A draft that is made of no column. -/
structure Fresh (d : Draft) : Prop where
  current : d.current = none
  declared : d.declared = false

/-- A draft that is made of a column, whatever has been set since. -/
structure MadeOf [Zone.Catalogue] (d : Draft) (c : Column) : Prop where
  name : d.name = c.name
  type : d.type = c.type
  current : d.current = some c.cell.value
  declared : d.declared = c.declared

theorem fresh_of_ofType {name : String} {e : TypeExpression} {d : Draft}
    (h : ofType name e = .ok d) : d.Fresh := by
  have hnamed := (named_of_ofType h).1
  exact ⟨hnamed.current, hnamed.declared⟩

theorem fresh_of_ofDeclaration {text : List Char} {d : Draft} (h : ofDeclaration text = .ok d) :
    d.Fresh := by
  have hnamed := (named_of_ofDeclaration h).1
  exact ⟨hnamed.current, hnamed.declared⟩

theorem fresh_of_withOptions {d d' : Draft} {json : Option Json}
    (h : d.withOptions json = .ok d') (hd : d.Fresh) : d'.Fresh := by
  unfold withOptions at h
  split at h
  · obtain ⟨options, -, rfl⟩ := map_ok h
    exact ⟨hd.current, hd.declared⟩
  · cases h
    exact ⟨hd.current, hd.declared⟩
  · cases h
    exact hd

theorem fresh_of_ofJson {json : Json} {d : Draft} (h : ofJson json = .ok d) : d.Fresh := by
  unfold ofJson at h
  obtain ⟨type, -, h⟩ := bind_ok h
  obtain ⟨draft, htype, h⟩ := bind_ok h
  obtain ⟨draft', hoptions, h⟩ := bind_ok h
  have hdraft := fresh_of_ofType htype
  have hfresh : draft'.Fresh := fresh_of_withOptions hoptions ⟨hdraft.current, hdraft.declared⟩
  split at h
  · cases h
    exact hfresh
  · cases h
    exact hfresh
  · cases h
    exact ⟨hfresh.current, hfresh.declared⟩

theorem range_of_columnOptions {d : Draft} {options : List (String × Int32)}
    (h : d.columnOptions = .ok options) : ∀ o ∈ options,
      (optionRange d.type).1 ≤ o.2.toInt ∧ o.2.toInt ≤ (optionRange d.type).2 := by
  unfold columnOptions at h
  split at h
  · dsimp only at h
    split at h
    · cases h
    · next hfind =>
        cases h
        intro o ho
        have hout := List.find?_eq_none.1 hfind o ho
        simp only [Bool.or_eq_true, decide_eq_true_eq, not_or, Int.not_lt] at hout
        exact hout
  · cases h
    simp

end Draft

namespace Column

theorem kind_of_isEnum {t : ColumnType} (h : t.isEnum = true) : t.kind = .int32 := by
  cases t <;> first | rfl | cases h

theorem kind_initialValue {t : ColumnType} {options : List (String × Int32)}
    (h : options ≠ [] → t.isEnum = true) : (Draft.initialValue t options).kind = t.kind := by
  cases options with
  | nil => exact Value.kind_zero t
  | cons o options => exact (kind_of_isEnum (h (List.cons_ne_nil _ _))).symm

section Zones

variable [Zone.Catalogue]

/-- What the fields of a column keep to among themselves. -/
structure WellFormed (c : Column) : Prop where
  name : Text.allBlank c.name = false
  cellName : c.cell.name = c.name
  scale_le_precision : c.scale ≤ c.precision
  scale_le : c.scale ≤ c.type.maxScale
  precision_le : c.precision ≤ c.type.maxPrecision
  sizedDecimal : c.type.isSizedDecimal = true → c.precision = c.type.maxPrecision
  decimal : c.type = .decimal → 1 ≤ c.precision ∧ c.precision ≤ 76
  fixedLength : c.type = .fixedString → 1 ≤ c.length ∧ c.length ≤ 0xFFFFFF
  noLength : c.type ≠ .fixedString → c.length = 0
  zone : c.zone ≠ none → c.type = .dateTime ∨ c.type = .dateTime64
  enum : c.options ≠ [] → c.type.isEnum = true
  options : ∀ o ∈ c.options,
    (Draft.optionRange c.type).1 ≤ o.2.toInt ∧ o.2.toInt ≤ (Draft.optionRange c.type).2
  cellType : c.cell.type = c.type
  defaultKind : c.cell.default.kind = c.type.kind
  valueKind : c.cell.value.kind = c.type.kind

/-- The columns that come about in any way, and those that operations leave, accepted or not. -/
inductive Obtained : Column → Prop
  | unspecified : Obtained unspecified
  | built {d : Draft} {c : Column} (hd : d.Fresh) (h : d.build = .ok c) : Obtained c
  | declared {text : String} {c : Column} (h : ofDeclaration text = .ok c) : Obtained c
  | configured {json : Json} {c : Column} (h : ofJson json = .ok c) : Obtained c
  | rebuilt {c c' : Column} {d : Draft} (hc : Obtained c) (hd : d.MadeOf c)
      (h : d.build = .ok c') : Obtained c'
  | performed {c : Column} {op : Operation} (hc : Obtained c)
      (hop : ∀ other, op = .mergeValue other → Obtained other) :
      Obtained ((perform op).runFrom c).2

variable {c c' : Column}

theorem WellFormed.withValue (hc : c.WellFormed) {v : Value} (hv : v.kind = c.type.kind) :
    (c.withValue v).WellFormed :=
  { hc with valueKind := hv }

theorem WellFormed.mapCell (hc : c.WellFormed) {x : Except Error Cell}
    (hframe : ∀ cell, x = .ok cell → ∃ v, cell = { c.cell with value := v })
    (hkind : ∀ cell, x = .ok cell → cell.value.kind = c.cell.type.kind)
    (h : x.map (fun cell => { c with cell := cell }) = .ok c') : c'.WellFormed := by
  obtain ⟨cell, hcell, rfl⟩ := map_ok h
  obtain ⟨v, rfl⟩ := hframe cell hcell
  have hv : v.kind = c.type.kind := (hkind _ hcell).trans (by rw [hc.cellType])
  exact hc.withValue hv

theorem WellFormed.valueKind_cell (hc : c.WellFormed) : c.cell.value.kind = c.cell.type.kind := by
  rw [hc.cellType, hc.valueKind]

theorem WellFormed.mergeText (hc : c.WellFormed) {s : String} (h : c.mergeText s = .ok c') :
    c'.WellFormed := by
  unfold Column.mergeText at h
  split at h
  · next henum =>
      obtain ⟨n, -, rfl⟩ := map_ok h
      rw [Bool.and_eq_true] at henum
      exact hc.withValue (kind_of_isEnum henum.1).symm
  · exact hc.mapCell (fun _ => Cell.mergeText_frame)
      (fun _ hcell => Cell.kind_of_mergeText hcell hc.valueKind_cell) h

theorem WellFormed.mergeJson (hc : c.WellFormed) {json : Json} (h : c.mergeJson json = .ok c') :
    c'.WellFormed := by
  have hcell : (c.cell.mergeJson json).map (fun cell => { c with cell := cell }) = .ok c' →
      c'.WellFormed :=
    hc.mapCell (fun _ => Cell.mergeJson_frame)
      fun _ hcell => Cell.kind_of_mergeJson hcell hc.valueKind_cell
  unfold Column.mergeJson at h
  dsimp only at h
  split at h
  · exact hc.mergeText h
  · split at h
    · next henum =>
        split at h
        · obtain ⟨n, -, rfl⟩ := map_ok h
          exact hc.withValue (kind_of_isEnum henum).symm
        · cases h
    · exact hcell h
  · exact hcell h

theorem WellFormed.mergeValue? (hc : c.WellFormed) {other : Column} (hother : other.WellFormed)
    (h : c.mergeValue? other = some c') : c'.WellFormed := by
  unfold Column.mergeValue? at h
  split at h
  · next hsame =>
      obtain ⟨cell, hcell, rfl⟩ := Option.map_eq_some_iff.1 h
      unfold Cell.merge? at hcell
      split at hcell
      · cases hcell
        have hv : other.cell.value.kind = c.type.kind := by rw [hother.valueKind, hsame.1]
        exact { hc with valueKind := hv }
      · cases hcell
  · cases h

theorem WellFormed.setIndex (hc : c.WellFormed) {index : Nat} (h : c.setIndex index = .ok c') :
    c'.WellFormed := by
  rw [setIndex_frame h]
  exact { hc with }

theorem wellFormed_shape {d : Draft} {zone : Option Zone} {options : List (String × Int32)}
    (hzone : d.columnZone = .ok zone) (hoptions : d.columnOptions = .ok options) :
    (d.shape zone options).WellFormed := by
  have hdeclarable := declarable_of_shape hzone hoptions (d.shape zone options).cell.value
  have henum : options ≠ [] → d.type.isEnum = true := by
    intro hne
    by_contra hnot
    exact hne (hdeclarable.options (Bool.eq_false_iff.2 hnot))
  have hscale := Column.columnScale_le d
  have hprecision := columnPrecision_le d
  exact
    { name := Draft.allBlank_columnName d
      cellName := rfl
      scale_le_precision := hscale.2
      scale_le := hscale.1
      precision_le := hprecision
      sizedDecimal := by
        intro hsized
        change d.columnPrecision = d.type.maxPrecision
        unfold Draft.columnPrecision
        exact if_pos hsized
      decimal := by
        intro hdecimal
        change d.type = .decimal at hdecimal
        refine ⟨columnPrecision_pos (by rw [hdecimal]; decide), ?_⟩
        rw [hdecimal] at hprecision
        exact hprecision
      fixedLength := by
        intro hfixed
        refine ⟨columnLength_pos hfixed, ?_⟩
        change d.columnLength ≤ 0xFFFFFF
        unfold Draft.columnLength Draft.maxLength
        split <;> omega
      noLength := by
        intro hfixed
        change d.columnLength = 0
        unfold Draft.columnLength
        exact if_neg hfixed
      zone := by
        intro hne
        have haccepts : d.type.acceptsZone = true := by
          by_contra hnot
          exact hne (hdeclarable.zone (Bool.eq_false_iff.2 hnot))
        change d.type = .dateTime ∨ d.type = .dateTime64
        revert haccepts
        cases d.type <;> decide
      enum := henum
      options := Draft.range_of_columnOptions hoptions
      cellType := rfl
      defaultKind := kind_initialValue henum
      valueKind := kind_initialValue henum }

theorem wellFormed_of_build {d : Draft} (hcurrent : ∀ v ∈ d.current, v.kind = d.type.kind)
    (h : d.build = .ok c) : c.WellFormed := by
  obtain ⟨zone, options, hzone, hoptions, hfill⟩ := build_ok_iff.1 h
  have hshape := wellFormed_shape hzone hoptions
  have hdefault : ∀ {c₁ : Column}, c₁.WellFormed →
      ({ d with current := none } : Draft).fill c₁ = .ok c → c.WellFormed := by
    intro c₁ hc₁ h
    unfold Draft.fill at h
    dsimp only at h
    split at h
    · exact hc₁.mergeText h
    · exact hc₁.mergeJson h
    · cases h
      exact hc₁
  unfold Draft.fill at hfill
  cases hd : d.current with
  | none =>
      rw [hd] at hfill
      exact hdefault hshape hfill
  | some v =>
      rw [hd] at hfill
      exact hdefault (hshape.withValue (hcurrent v hd)) hfill

theorem WellFormed.rebuilt (hc : c.WellFormed) {d : Draft} (htype : d.type = c.type)
    (hcurrent : d.current = some c.cell.value) (h : d.build = .ok c') : c'.WellFormed := by
  apply wellFormed_of_build _ h
  intro v hv
  rw [hcurrent, Option.mem_some_iff] at hv
  rw [← hv, htype]
  exact hc.valueKind

theorem wellFormed_of_fresh {d : Draft} (hd : d.Fresh) (h : d.build = .ok c) : c.WellFormed := by
  apply wellFormed_of_build _ h
  intro v hv
  rw [hd.current] at hv
  cases hv

theorem WellFormed.result (hc : c.WellFormed) {op : Operation}
    (hop : ∀ other, op = .mergeValue other → other.WellFormed)
    (h : op.result c = .ok (some c')) : c'.WellFormed := by
  cases op with
  | mergeText s => exact hc.mergeText (ok_of_map_some h)
  | mergeJson json => exact hc.mergeJson (ok_of_map_some h)
  | mergeValue other => exact hc.mergeValue? (hop other rfl) (Except.ok.inj h)
  | rename name => exact hc.rebuilt rfl rfl (ok_of_map_some h)
  | rebuild => exact hc.rebuilt rfl rfl (ok_of_map_some h)
  | place index => exact hc.setIndex (ok_of_map_some h)

theorem WellFormed.performed (hc : c.WellFormed) {op : Operation}
    (hop : ∀ other, op = .mergeValue other → other.WellFormed) :
    ((perform op).runFrom c).2.WellFormed :=
  perform_cases (motive := fun x => x.2.WellFormed) c op (fun _ _ => hc)
    fun _ hresult => hc.result hop hresult

theorem runFrom_perform_of_not_accepted (op : Operation) :
    ((perform op).runFrom c).1 ≠ .ok true → ((perform op).runFrom c).2 = c :=
  perform_cases (motive := fun x => x.1 ≠ .ok true → x.2 = c) c op (fun _ _ _ => rfl)
    fun _ _ haccepted => absurd rfl haccepted

theorem wellFormed_unspecified : unspecified.WellFormed where
  name := show Text.allBlank unnamed = false by decide
  cellName := rfl
  scale_le_precision := Nat.le_refl 0
  scale_le := Nat.zero_le _
  precision_le := Nat.zero_le _
  sizedDecimal := nofun
  decimal := nofun
  fixedLength := nofun
  noLength _ := rfl
  zone h := absurd rfl h
  enum h := absurd rfl h
  options := nofun
  cellType := rfl
  defaultKind := rfl
  valueKind := rfl

theorem Obtained.wellFormed (h : c.Obtained) : c.WellFormed := by
  induction h with
  | unspecified => exact wellFormed_unspecified
  | built hd h => exact wellFormed_of_fresh hd h
  | declared h =>
      unfold ofDeclaration at h
      split at h
      · cases h
      · next hdraft =>
          exact wellFormed_of_fresh (Draft.fresh_of_ofDeclaration hdraft) (ok_of_mapError h)
  | configured h =>
      unfold ofJson at h
      split at h
      · split at h
        · cases h
        · next hdraft =>
            exact wellFormed_of_fresh (Draft.fresh_of_ofJson hdraft) (ok_of_mapError h)
      · cases h
  | rebuilt _ hd h ih => exact ih.rebuilt hd.type hd.current h
  | performed _ _ ih ihother => exact ih.performed ihother

/-- A column is well formed whatever it comes from and whatever is done to it, and an operation that
fails or declines leaves it as it was. -/
theorem wellFormed_and_kept (h : c.Obtained) :
    c.WellFormed ∧ ∀ op : Operation,
      ((perform op).runFrom c).1 ≠ .ok true → ((perform op).runFrom c).2 = c :=
  ⟨h.wellFormed, runFrom_perform_of_not_accepted⟩

end Zones

def signal : Column :=
  { name := "signal"
    type := .enum8
    nullable := false
    length := 0
    precision := 0
    scale := 0
    zone := none
    options := [("off", -1), ("on", 1)]
    cell := ⟨"signal", .enum8, .int32 (-1), .int32 1, 0⟩
    declared := true
    index := none }

theorem wellFormed_and_kept_signal :
    ofDeclaration "signal Enum8('off' = -1, 'on' = 1) DEFAULT on" = .ok signal ∧
      signal.WellFormed ∧ ((perform (.mergeText "dim")).runFrom signal).2 = signal := by
  have hread : ofDeclaration "signal Enum8('off' = -1, 'on' = 1) DEFAULT on" = .ok signal :=
    ok_of_toOption (by decide +kernel)
  obtain ⟨e, hrefused⟩ : ∃ e, signal.mergeText "dim" = .error e :=
    error_of_toOption (by decide +kernel)
  have hfails : ((perform (.mergeText "dim")).runFrom signal).1 = .error e := by
    rw [runFrom_perform]
    simp only [Operation.result, hrefused, Except.map]
  obtain ⟨hformed, hkept⟩ := wellFormed_and_kept (.declared hread)
  exact ⟨hread, hformed, hkept _ (by simp [hfails])⟩

end Column

end RowStream
