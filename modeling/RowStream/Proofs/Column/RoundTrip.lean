import RowStream.Calendar.Catalogue
import RowStream.Proofs.Column.Declared

/-!
# Columns there and back

A column that a text declares is declared again by the text that is made of it, but for the scale at
which a decimal default is held.
-/

namespace RowStream

open TypeExpression Declaration

namespace Draft

theorem named_of_ofType {name : String} {e : TypeExpression} {d : Draft}
    (h : ofType name e = .ok d) : d.Named ∧ d.default = none := by
  have hplain : ∀ {d : Draft}, d.precision = none → d.scale = none → d.current = none →
      d.declared = false → d.Named :=
    fun hprecision hscale hcurrent hdeclared =>
      ⟨fun _ _ => hprecision, fun _ _ => hscale, hcurrent, hdeclared⟩
  unfold ofType at h
  generalize ColumnType.ofName e.name = type at h
  cases type with
  | fixedString =>
      obtain ⟨length, -, h⟩ := bind_ok h
      cases h
      exact ⟨hplain rfl rfl rfl rfl, rfl⟩
  | dateTime64 =>
      obtain ⟨scale, -, h⟩ := bind_ok h
      cases h
      exact ⟨⟨fun _ _ => rfl, fun _ hne => absurd rfl hne, rfl, rfl⟩, rfl⟩
  | decimal =>
      obtain ⟨precision, -, h⟩ := bind_ok h
      obtain ⟨scale, -, h⟩ := bind_ok h
      cases h
      refine ⟨⟨fun hne => absurd rfl hne, fun hdecimal => ?_, rfl, rfl⟩, rfl⟩
      cases (show true = false from hdecimal)
  | decimal32 | decimal64 | decimal128 | decimal256 =>
      obtain ⟨scale, -, h⟩ := bind_ok h
      cases h
      refine ⟨⟨fun _ _ => rfl, fun hdecimal => ?_, rfl, rfl⟩, rfl⟩
      cases (show true = false from hdecimal)
  | enum | enum8 | enum16 =>
      obtain ⟨options, -, h⟩ := bind_ok h
      cases h
      exact ⟨hplain rfl rfl rfl rfl, rfl⟩
  | _ =>
      cases h
      exact ⟨hplain rfl rfl rfl rfl, rfl⟩

theorem named_of_ofDeclaration {text : List Char} {d : Draft} (h : ofDeclaration text = .ok d) :
    d.Named ∧ (d.default = none ∨ ∃ s, d.default = some (.text s)) := by
  obtain ⟨declaration, -, h⟩ := bind_ok h
  obtain ⟨draft, htype, h⟩ := bind_ok h
  obtain ⟨hnamed, hnone⟩ := named_of_ofType htype
  have hdefault : ∀ s, ({ draft with default := some (.text s) } : Draft).Named :=
    fun s => ⟨hnamed.precision, hnamed.scale, hnamed.current, hnamed.declared⟩
  split at h
  · cases h
    exact ⟨hnamed, .inl hnone⟩
  · split at h
    · cases h
      exact ⟨hnamed, .inl hnone⟩
    · cases h
      exact ⟨hdefault _, .inr ⟨_, rfl⟩⟩
  · cases h
    exact ⟨hdefault _, .inr ⟨_, rfl⟩⟩

end Draft

namespace Column

theorem bare_stands {cs : List Char} (h : Text.Numeral.IsNumeral cs) :
    (Literal.bare cs).CanStand ∧ (Literal.bare cs).IsDefault := by
  have hblank := fun x hx => Text.Numeral.isBlank_of_isNumeralChar (h.chars x hx)
  refine ⟨⟨Text.head?_not_blank hblank, Text.getLast?_not_blank hblank, h.nonempty, ?_⟩,
    h.sameLetters_cons (by decide) _⟩
  intro hquote
  have hchar := h.chars _ (List.mem_of_head? hquote)
  exact absurd hchar (by decide)

theorem parse_of_cell_mergeText {cell cell' : Cell} {s : String} (h : cell.mergeText s = .ok cell') :
    cell' = cell ∨
      ∃ v, s ≠ "" ∧ Value.parse s cell.type cell.scale = .ok v ∧ cell' = { cell with value := v } := by
  unfold Cell.mergeText at h
  split at h
  · cases h
    exact .inl rfl
  · next hs =>
      have hne : s ≠ "" := by
        rintro rfl
        exact hs rfl
      cases hparse : Value.parse s cell.type cell.scale with
      | ok v =>
          rw [hparse] at h
          cases h
          exact .inr ⟨v, hne, rfl, rfl⟩
      | error e =>
          rw [hparse] at h
          change (if cell.type.kind.isNumeric = true then Except.error e else .ok cell) = _ at h
          split at h
          · cases h
          · cases h
            exact .inl rfl

theorem columnOptions_of_not_enum {d : Draft} (henum : d.type.isEnum = false) :
    d.columnOptions = .ok [] := by
  unfold Draft.columnOptions
  rw [henum]
  rfl

theorem isBinary_of_readable {v : Value} {type : ColumnType} (h : v.Readable type)
    (hbinary : v.isBinary = true) : type = .float32 ∨ type = .float64 := by
  have hkind := h.kind
  cases v with
  | binary32 x =>
      left
      cases type <;> first | rfl | cases hkind
  | binary64 x =>
      right
      cases type <;> first | rfl | cases hkind
  | _ => cases hbinary

theorem kind_ne_decimal {type : ColumnType} (h : type.isDecimal = false) : type.kind ≠ .decimal := by
  cases type <;> first | decide | cases h

section Zones

variable [Zone.Catalogue] {c : Column}

theorem declarable_of_shape {d : Draft} {zone : Option Zone} {options : List (String × Int32)}
    (hzone : d.columnZone = .ok zone) (hoptions : d.columnOptions = .ok options) (v : Value) :
    ((d.shape zone options).withValue v).Declarable := by
  have hmax : d.type.maxPrecision ≤ maxWord32 := by cases d.type <;> decide
  have hprecision : d.columnPrecision ≤ maxWord32 := Nat.le_trans (columnPrecision_le d) hmax
  refine ⟨?_, hprecision, Nat.le_trans (Column.columnScale_le d).2 hprecision, ?_, ?_⟩
  · change d.columnLength ≤ maxWord32
    unfold Draft.columnLength Draft.maxLength maxWord32
    split <;> omega
  · intro haccepts
    unfold Draft.columnZone at hzone
    split at hzone
    · exact (Except.ok.inj hzone).symm
    · rw [show d.type.acceptsZone = false from haccepts] at hzone
      exact (Except.ok.inj hzone).symm
  · intro henum
    unfold Draft.columnOptions at hoptions
    rw [show d.type.isEnum = false from henum] at hoptions
    exact (Except.ok.inj hoptions).symm

theorem declarable_of_build {d : Draft} (h : d.build = .ok c) : c.Declarable := by
  obtain ⟨zone, options, v, hzone, hoptions, rfl⟩ := shape_of_build h
  exact declarable_of_shape hzone hoptions v

theorem literal_of_not_enum (henum : c.type.isEnum = false) :
    c.literal = match c.cell.value with
      | .text s => .quoted s.toList
      | v => .bare v.toText.toList := by
  have hoption : c.defaultOption? = none := by
    unfold defaultOption?
    rw [henum]
    rfl
  unfold literal
  rw [hoption]
  cases c.cell.value <;> rfl

theorem text_literal (henum : c.type.isEnum = false) :
    String.ofList c.literal.text = c.cell.value.toText := by
  rw [literal_of_not_enum henum]
  cases c.cell.value <;> exact String.ofList_toList

theorem literal_stands (henum : c.type.isEnum = false)
    (hbinary : c.cell.value.isBinary = false) :
    c.literal.CanStand ∧ c.literal.IsDefault := by
  rw [literal_of_not_enum henum]
  rcases Value.toText_cases hbinary with ⟨b, hb⟩ | ⟨s, hs⟩ | hnumeral
  · rw [hb]
    cases b
    · exact ⟨⟨by decide, by decide, by decide, by decide⟩, rfl⟩
    · exact ⟨⟨by decide, by decide, by decide, by decide⟩, rfl⟩
  · rw [hs]
    exact ⟨trivial, trivial⟩
  · have hbare := bare_stands hnumeral
    cases hvalue : c.cell.value with
    | text s => exact ⟨trivial, trivial⟩
    | _ =>
        rw [hvalue] at hbare
        exact hbare

theorem mergeText_of_not_enum (henum : c.type.isEnum = false) (s : String) :
    c.mergeText s = (c.cell.mergeText s).map fun cell => { c with cell := cell } := by
  unfold mergeText
  rw [henum]
  rfl

/-- A value that is merged as its own text is found again. -/
theorem mergeText_toText {v : Value} (henum : c.type.isEnum = false)
    (hv : v.Readable c.cell.type) (hbinary : v.isBinary = false)
    (hempty : v.toText = "" → v = c.cell.value) :
    ∃ v', c.mergeText v.toText = .ok (c.withValue v') ∧ v'.equal v = true ∧
      (c.cell.type.kind ≠ .decimal → v' = v) := by
  rw [mergeText_of_not_enum henum]
  unfold Cell.mergeText
  by_cases hs : v.toText = ""
  · have hvalue := hempty hs
    refine ⟨v, ?_, Value.equal_self hbinary, fun _ => rfl⟩
    rw [hs, if_pos (by decide), hvalue]
    rfl
  · obtain ⟨v', hparse, hequal, hsame⟩ := Value.parse_toText c.cell.scale hv hbinary
    refine ⟨v', ?_, hequal, hsame⟩
    rw [if_neg (by simpa using hs), hparse]
    rfl

/-- A column whose default, if it has one of its own, is read from a text. -/
structure TextBuilt (d : Draft) (zone : Option Zone) (v : Value) : Prop where
  named : d.Named
  notEnum : d.type.isEnum = false
  zone : d.columnZone = .ok zone
  options : d.columnOptions = .ok []
  readable : v.Readable d.type
  empty : v.isBinary = false → v.toText = "" → v = Value.zero d.type
  undeclared : d.default = none → v = Value.zero d.type

theorem textBuilt_of_build {d : Draft} (hd : d.Named)
    (htext : d.default = none ∨ ∃ s, d.default = some (.text s)) (henum : d.type.isEnum = false)
    (h : d.build = .ok c) : ∃ zone v, TextBuilt d zone v ∧ c = (d.shape zone []).withValue v := by
  obtain ⟨zone, options, hzone, hoptions, hfill⟩ := build_ok_iff.1 h
  have hnone := columnOptions_of_not_enum henum
  rw [hnone] at hoptions
  cases hoptions
  unfold Draft.fill at hfill
  rw [hd.current] at hfill
  rcases htext with hdefault | ⟨s, hdefault⟩
  · rw [hdefault] at hfill
    cases hfill
    exact ⟨zone, Value.zero d.type, ⟨hd, henum, hzone, hnone, Value.readable_zero d.type,
      fun _ _ => rfl, fun _ => rfl⟩, rfl⟩
  · rw [hdefault] at hfill
    change (d.shape zone []).mergeText s = .ok c at hfill
    rw [mergeText_of_not_enum henum] at hfill
    obtain ⟨cell, hcell, rfl⟩ := map_ok hfill
    have hdeclared : ∀ {v : Value}, d.default = none → v = Value.zero d.type := by
      intro v hnot
      rw [hdefault] at hnot
      cases hnot
    rcases parse_of_cell_mergeText hcell with rfl | ⟨v, hs, hparse, rfl⟩
    · exact ⟨zone, Value.zero d.type, ⟨hd, henum, hzone, hnone, Value.readable_zero d.type,
        fun _ _ => rfl, hdeclared⟩, rfl⟩
    · have hread := Value.parse_ok_iff.1 hparse
      exact ⟨zone, v, ⟨hd, henum, hzone, hnone, Value.readable_of_parse? hread,
        fun hbinary hempty => absurd hempty (Value.toText_ne_empty hs hread hbinary),
        hdeclared⟩, rfl⟩

section Rebuilt

variable {d : Draft} {zone : Option Zone} {v : Value}

theorem TextBuilt.declaresDefault (h : TextBuilt d zone v) :
    ((d.shape zone []).withValue v).declaresDefault = d.default.isSome := by
  change ((d.declared || d.default.isSome) || !v.equal (Value.zero d.type)) = _
  rw [h.named.declared]
  cases hdefault : d.default with
  | none =>
      rw [h.undeclared hdefault, Value.equal_zero]
      rfl
  | some raw => rfl

theorem shape_declared (hd : d.Named) (options : List (String × Int32)) {declared : Bool}
    (hdeclared : d.default.isSome = declared) :
    { d.shape zone options with declared := declared } = d.shape zone options := by
  have hsame : (d.shape zone options).declared = declared := by
    change (d.declared || d.default.isSome) = declared
    rw [hd.declared, Bool.false_or, hdeclared]
  rw [← hsame]

theorem TextBuilt.rebuilt_of_merge (h : TextBuilt d zone v) {raw : Option RawDefault}
    (hraw : raw.isSome = d.default.isSome)
    (hmerge : raw.isSome = true → ∃ v', (((d.shape zone []).withValue v).settled raw).fill
      (d.shape zone []) = .ok ((d.shape zone []).withValue v') ∧ v'.equal v = true ∧
        (d.type.kind ≠ .decimal → v' = v)) :
    ∃ v', (((d.shape zone []).withValue v).settled raw).build =
        .ok ((d.shape zone []).withValue v') ∧
      v'.equal v = true ∧ (d.type.kind ≠ .decimal → v' = v) := by
  rw [Draft.build_settled _ h.named h.zone h.options, shape_declared h.named [] hraw.symm]
  cases raw with
  | none =>
      have hzero := h.undeclared (by simpa using hraw.symm)
      refine ⟨v, ?_, ?_, fun _ => rfl⟩
      · rw [hzero]
        rfl
      · rw [hzero]
        exact Value.equal_zero d.type
  | some raw => exact hmerge rfl

/-- From the draft of its parts a column is built again, with an equal default. -/
theorem TextBuilt.rebuilt (h : TextBuilt d zone v)
    (hbinary : d.default.isSome = true → v.isBinary = false) :
    ∃ v', (((d.shape zone []).withValue v).settled (declaredDefault
        (if d.default.isSome then some ((d.shape zone []).withValue v).literal else none))).build =
          .ok ((d.shape zone []).withValue v') ∧
      v'.equal v = true ∧ (d.type.kind ≠ .decimal → v' = v) := by
  cases hdefault : d.default.isSome with
  | false => exact h.rebuilt_of_merge hdefault.symm (fun hraw => by cases hraw)
  | true =>
      obtain ⟨v', hmerge, hequal, hsame⟩ := mergeText_toText (c := d.shape zone []) h.notEnum
        h.readable (hbinary hdefault) (h.empty (hbinary hdefault))
      refine h.rebuilt_of_merge hdefault.symm (fun _ => ⟨v', ?_, hequal, hsame⟩)
      change Column.mergeText (d.shape zone [])
        (String.ofList ((d.shape zone []).withValue v).literal.text) = _
      rw [text_literal h.notEnum]
      exact hmerge

end Rebuilt

theorem equal_withValue {v : Value} (hvalue : v.equal c.cell.value = true)
    (hdefault : c.cell.default.equal c.cell.default = true) : (c.withValue v).equal c = true := by
  unfold equal Cell.equal withValue
  simp [hvalue, hdefault]

theorem textBuilt_of_ofDeclaration {text : String} (h : ofDeclaration text = .ok c)
    (henum : c.type.isEnum = false) :
    ∃ d zone v, TextBuilt d zone v ∧ c = (d.shape zone []).withValue v ∧ c.Declarable := by
  unfold ofDeclaration at h
  split at h
  · cases h
  · next d hdraft =>
      have hbuild := ok_of_mapError h
      obtain ⟨hnamed, htext⟩ := Draft.named_of_ofDeclaration hdraft
      have htype : c.type = d.type := by
        obtain ⟨zone, options, v, -, -, rfl⟩ := shape_of_build hbuild
        rfl
      obtain ⟨zone, v, hbuilt, hc⟩ := textBuilt_of_build hnamed htext (by rw [← htype, henum]) hbuild
      exact ⟨d, zone, v, hbuilt, hc, declarable_of_build hbuild⟩

/-- A default of its own is no floating-point number when such columns have none. -/
theorem TextBuilt.isBinary_eq_false {d : Draft} {zone : Option Zone} {v : Value}
    (h : TextBuilt d zone v)
    (hfloat : d.type = .float32 ∨ d.type = .float64 → d.default.isSome = false)
    (hdefault : d.default.isSome = true) : v.isBinary = false := by
  rw [Bool.eq_false_iff]
  intro hv
  have hnone := hfloat (isBinary_of_readable h.readable hv)
  rw [hdefault] at hnone
  cases hnone

/-- A column that a text declares is declared again by its declaration. Only the default may differ,
and then it is an equal decimal. -/
theorem ofDeclaration_declaration {text : String} (h : ofDeclaration text = .ok c)
    (henum : c.type.isEnum = false)
    (hfloat : c.type = .float32 ∨ c.type = .float64 → c.declaresDefault = false) :
    ∃ v, ofDeclaration (c.declaration true) = .ok (c.withValue v) ∧
      (c.withValue v).equal c = true ∧ (c.type.isDecimal = false → v = c.cell.value) := by
  obtain ⟨d, zone, v, hbuilt, rfl, hdeclarable⟩ := textBuilt_of_ofDeclaration h henum
  -- A default that is declared is no floating-point number, so that its text gives it back.
  have hdeclares := hbuilt.declaresDefault
  have hbinary := hbuilt.isBinary_eq_false (by rwa [← hdeclares])
  obtain ⟨v', hrebuilt, hequal, hsame⟩ := hbuilt.rebuilt hbinary
  have hstands : ∀ x ∈ (if d.default.isSome then some ((d.shape zone []).withValue v).literal
      else none), x.CanStand ∧ x.IsDefault := by
    intro x hx
    split at hx
    · next hdefault =>
        cases hx
        exact literal_stands henum (hbinary hdefault)
    · cases hx
  have hlist := toList_declaration ((d.shape zone []).withValue v) true
  rw [Bool.true_and, hdeclares] at hlist
  have hread := draft_of_written hdeclarable henum (fun x hx => (hstands x hx).1)
    (fun x hx => (hstands x hx).2)
  rw [← hlist] at hread
  refine ⟨v', ?_, equal_withValue hequal (Value.equal_zero d.type),
    fun hdecimal => hsame (kind_ne_decimal hdecimal)⟩
  unfold ofDeclaration
  rw [hread]
  dsimp only
  rw [hrebuilt]
  rfl

end Zones

def amount : Column :=
  { name := "amount"
    type := .decimal
    nullable := true
    length := 0
    precision := 12
    scale := 3
    zone := none
    options := []
    cell := ⟨"amount", .decimal, .decimal ⟨0, 0⟩, .decimal ⟨1, -3⟩, 3⟩
    declared := true
    index := none }

theorem ofDeclaration_declaration_amount :
    ofDeclaration "amount nullable( Decimal(12,3) ) default 1e3" = .ok amount ∧
      ∃ v, ofDeclaration (amount.declaration true) = .ok (amount.withValue v) ∧
        (amount.withValue v).equal amount = true := by
  have hread : ofDeclaration "amount nullable( Decimal(12,3) ) default 1e3" = .ok amount :=
    ok_of_toOption (by decide +kernel)
  have hfloat : amount.type = .float32 ∨ amount.type = .float64 →
      amount.declaresDefault = false := by decide
  obtain ⟨v, hagain, hequal, -⟩ := ofDeclaration_declaration hread (by decide) hfloat
  exact ⟨hread, v, hagain, hequal⟩

end Column

end RowStream
