import RowStream.Proofs.Column.EnumOptions
import RowStream.Proofs.Column.WellFormed

/-!
# Columns in normal form

The declaration of a column without its default is a normal form. It is read as a column with the
same parts, those aside that the type alone decides, and that column has the same declaration. This
holds of every well-formed column, whatever it was made of.
-/

namespace RowStream

open TypeExpression Declaration

namespace ColumnType

theorem isDecimal_of_isSizedDecimal {t : ColumnType} (h : t.isSizedDecimal = true) :
    t.isDecimal = true := by
  cases t <;> first | rfl | cases h

theorem eq_decimal (t : ColumnType) :
    t.isDecimal = true → t.isSizedDecimal = false → t = .decimal := by
  cases t <;> decide

end ColumnType

namespace Column

variable [Zone.Catalogue] {c d : Column}

/-- The columns agree in all that their declarations without defaults say. -/
structure DeclaredAlike (c d : Column) : Prop where
  name : d.name = c.name
  type : d.type = c.type
  nullable : d.nullable = c.nullable
  length : d.length = c.length
  zone : d.zone = c.zone
  options : d.options = c.options
  scale : c.type.isDecimal = true ∨ c.type = .dateTime64 → d.scale = c.scale
  precision : c.type.isDecimal = true → d.precision = c.precision

theorem DeclaredAlike.typeArgs (h : DeclaredAlike c d) : d.typeArgs = c.typeArgs := by
  have hscale := h.scale
  have hprecision := h.precision
  unfold Column.typeArgs
  rw [h.type, h.length, h.zone, h.options]
  generalize c.type = type at hscale hprecision
  split
  · rfl
  · rfl
  · rw [hscale (.inr rfl)]
  · rw [hscale (.inl rfl), hprecision rfl]
  · split
    · next hsized => rw [hscale (.inl (ColumnType.isDecimal_of_isSizedDecimal hsized))]
    · rfl

theorem DeclaredAlike.declaration (h : DeclaredAlike c d) :
    d.declaration false = c.declaration false := by
  rw [← String.toList_inj, toList_declaration, toList_declaration, h.name, h.nullable, h.type,
    h.typeArgs]
  rfl

namespace WellFormed

theorem declarable (h : c.WellFormed) : c.Declarable := by
  have hmax : c.type.maxPrecision ≤ maxWord32 := by cases c.type <;> decide
  have hprecision : c.precision ≤ maxWord32 := Nat.le_trans h.precision_le hmax
  refine ⟨?_, hprecision, Nat.le_trans h.scale_le_precision hprecision, ?_, ?_⟩
  · by_cases htype : c.type = .fixedString
    · exact Nat.le_trans (h.fixedLength htype).2 (by decide)
    · rw [h.noLength htype]
      decide
  · intro haccepts
    by_contra hzone
    rcases h.zone hzone with htype | htype
    · rw [htype] at haccepts
      cases haccepts
    · rw [htype] at haccepts
      cases haccepts
  · intro henum
    by_contra hoptions
    rw [h.enum hoptions] at henum
    cases henum

theorem draft_of_declaration (h : c.WellFormed) :
    Draft.ofDeclaration (c.declaration false).toList = .ok (c.settled none) := by
  rw [toList_declaration]
  cases henum : c.type.isEnum with
  | false =>
      exact draft_of_written h.declarable henum (fun x hx => by cases hx) fun x hx => by cases hx
  | true => exact draft_of_written_enum h.declarable henum fun x hx => by cases hx

section Settled

variable (h : c.WellFormed) (default : Option RawDefault)
include h

theorem columnName_settled : (c.settled default).columnName = c.name := by
  change (if Text.allBlank c.name then unnamed else c.name) = c.name
  rw [h.name]
  rfl

theorem columnLength_settled : (c.settled default).columnLength = c.length := by
  change (if c.type = .fixedString then max 1 (min ((if c.type = .fixedString then some c.length
    else none).getD 1) Draft.maxLength) else 0) = c.length
  by_cases htype : c.type = .fixedString
  · have hlength := h.fixedLength htype
    rw [if_pos htype, if_pos htype, Option.getD_some]
    unfold Draft.maxLength
    omega
  · rw [if_neg htype, h.noLength htype]

theorem columnPrecision_settled (hdecimal : c.type.isDecimal = true) :
    (c.settled default).columnPrecision = c.precision := by
  change (if c.type.isSizedDecimal then c.type.maxPrecision else
    min (((if c.type = .decimal then some c.precision else none).filter (0 < ·)).getD
      c.type.defaultPrecision) c.type.maxPrecision) = c.precision
  cases hsized : c.type.isSizedDecimal with
  | true => rw [if_pos rfl, h.sizedDecimal hsized]
  | false =>
      have htype := c.type.eq_decimal hdecimal hsized
      have hpos : 0 < c.precision := (h.decimal htype).1
      rw [if_neg Bool.false_ne_true, if_pos htype, Option.filter_some,
        if_pos (decide_eq_true hpos), Option.getD_some]
      exact Nat.min_eq_left h.precision_le

theorem columnScale_settled (htype : c.type.isDecimal = true ∨ c.type = .dateTime64) :
    (c.settled default).columnScale = c.scale := by
  have hprecision : c.scale ≤ (c.settled default).columnPrecision := by
    rcases htype with hdecimal | hticks
    · rw [h.columnPrecision_settled default hdecimal]
      exact h.scale_le_precision
    · -- A `DateTime64` that does not name its precision has room for every scale of ticks.
      have hscale := h.scale_le
      rw [hticks] at hscale
      change c.scale ≤ (if c.type.isSizedDecimal then c.type.maxPrecision else
        min (((if c.type = .decimal then some c.precision else none).filter (0 < ·)).getD
          c.type.defaultPrecision) c.type.maxPrecision)
      rw [hticks, if_neg (by decide), if_neg (by decide)]
      exact Nat.le_trans hscale (by decide)
  change min (min ((if c.type.isDecimal ∨ c.type = .dateTime64 then some c.scale else none).getD
    c.type.defaultScale) c.type.maxScale) (c.settled default).columnPrecision = c.scale
  rw [if_pos htype, Option.getD_some, Nat.min_eq_left h.scale_le, Nat.min_eq_left hprecision]

theorem columnZone_settled : (c.settled default).columnZone = .ok c.zone := by
  cases hzone : c.zone with
  | none =>
      unfold Draft.columnZone settled
      rw [hzone]
      rfl
  | some z =>
      have haccepts : c.type.acceptsZone = true := by
        rcases h.zone (by rw [hzone]; exact Option.some_ne_none z) with htype | htype
        · rw [htype]
          rfl
        · rw [htype]
          rfl
      apply Draft.columnZone_of_name _ haccepts
      change c.zone.map Zone.name = some z.name
      rw [hzone]
      rfl

theorem columnOptions_settled : (c.settled default).columnOptions = .ok c.options := by
  have htype : (c.settled default).type = c.type := rfl
  have hoptions : (c.settled default).options = c.options := rfl
  unfold Draft.columnOptions
  rw [htype, hoptions]
  split
  · have hrange : (c.options.find? fun o =>
        decide (o.2.toInt < (Draft.optionRange c.type).1) ||
          decide ((Draft.optionRange c.type).2 < o.2.toInt)) = none := by
      rw [List.find?_eq_none]
      intro o ho
      have hbounds := h.options o ho
      simp only [Bool.or_eq_true, decide_eq_true_eq, not_or, Int.not_lt]
      exact hbounds
    dsimp only
    rw [hrange]
  · next henum => rw [h.declarable.options (Bool.eq_false_iff.2 henum)]

theorem build_settled : (c.settled none).build = .ok ((c.settled none).shape c.zone c.options) := by
  unfold Draft.build
  rw [h.columnZone_settled none, h.columnOptions_settled none]
  rfl

theorem declaredAlike_shape :
    DeclaredAlike c ((c.settled none).shape c.zone c.options) where
  name := h.columnName_settled none
  type := rfl
  nullable := rfl
  length := h.columnLength_settled none
  zone := rfl
  options := rfl
  scale := h.columnScale_settled none
  precision := h.columnPrecision_settled none

end Settled

end WellFormed

omit [Zone.Catalogue] in
theorem equal_initialValue (type : ColumnType) (options : List (String × Int32)) :
    (Draft.initialValue type options).equal (Draft.initialValue type options) = true := by
  unfold Draft.initialValue
  split
  · exact Value.equal_self rfl
  · exact Value.equal_zero type

theorem declaresDefault_shape {d : Draft} (zone : Option Zone) (options : List (String × Int32))
    (hdeclared : d.declared = false) (hdefault : d.default.isSome = false) :
    (d.shape zone options).declaresDefault = false := by
  change ((d.declared || d.default.isSome) || !(Draft.initialValue d.type options).equal
    (Draft.initialValue d.type options)) = false
  rw [hdeclared, hdefault, equal_initialValue]
  rfl

/-- The declaration of a column without its default declares a column that agrees with it, has no
default and has the same declaration. -/
theorem WellFormed.exists_declared (h : c.WellFormed) :
    ∃ d, ofDeclaration (c.declaration false) = .ok d ∧ DeclaredAlike c d ∧
      d.declaresDefault = false ∧ d.declaration false = c.declaration false := by
  have halike := h.declaredAlike_shape
  refine ⟨(c.settled none).shape c.zone c.options, ?_, halike,
    declaresDefault_shape _ _ rfl rfl, halike.declaration⟩
  unfold ofDeclaration
  rw [h.draft_of_declaration]
  dsimp only
  rw [h.build_settled]
  rfl

end Column

end RowStream
