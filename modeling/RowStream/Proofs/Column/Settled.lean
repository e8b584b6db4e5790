import RowStream.Proofs.Column.Reachable

/-!
# Columns that are built again

`Column.settled` is a draft of a column with those parts of it that its declaration names. From it
the same column is built, when the other parts come from the type alone: what building clamps and
drops once it leaves as it is the second time.
-/

namespace RowStream

namespace Column

variable [Zone.Catalogue]

/-- The parts of a column that its declaration names. -/
def settled (c : Column) (default : Option RawDefault) : Draft :=
  { name := c.name
    type := c.type
    nullable := c.nullable
    length := if c.type = .fixedString then some c.length else none
    precision := if c.type = .decimal then some c.precision else none
    scale := if c.type.isDecimal ∨ c.type = .dateTime64 then some c.scale else none
    zone := c.zone.map Zone.name
    options := c.options
    default := default }

end Column

namespace Draft

structure Named (d : Draft) : Prop where
  precision : d.type ≠ .decimal → d.type.isSizedDecimal = false → d.precision = none
  scale : d.type.isDecimal = false → d.type ≠ .dateTime64 → d.scale = none
  current : d.current = none
  declared : d.declared = false

theorem allBlank_columnName (d : Draft) : Text.allBlank d.columnName = false := by
  unfold columnName
  split
  · decide
  · next h => exact Bool.eq_false_iff.2 h

theorem columnZone_of_name [Zone.Catalogue] {e : Draft} {z : Zone} (hzone : e.zone = some z.name)
    (haccepts : e.type.acceptsZone = true) : e.columnZone = .ok (some z) := by
  unfold columnZone
  rw [hzone]
  dsimp only
  rw [haccepts, z.allBlank_name, z.trimmed_name, Zone.ofName?_name]
  rfl

section Given

variable {d e : Draft} (htype : e.type = d.type)
include htype

theorem columnLength_of_given (h : d.type = .fixedString → e.length = some d.columnLength) :
    e.columnLength = d.columnLength := by
  by_cases hfixed : d.type = .fixedString
  · have hgiven := h hfixed
    have hpos := Column.columnLength_pos hfixed
    have hmax : d.columnLength ≤ maxLength := by
      unfold columnLength maxLength
      split <;> omega
    rw [columnLength, htype, hgiven, if_pos hfixed, Option.getD_some]
    omega
  · unfold columnLength
    rw [htype, if_neg hfixed, if_neg hfixed]

theorem columnPrecision_of_given (h : e.precision = some d.columnPrecision) :
    e.columnPrecision = d.columnPrecision := by
  have hle := Column.columnPrecision_le d
  rw [columnPrecision, htype, h]
  split
  · next hsized => rw [columnPrecision, if_pos hsized]
  · rcases Nat.eq_zero_or_pos d.type.maxPrecision with hzero | hpos
    · omega
    · have hgiven := decide_eq_true (Column.columnPrecision_pos hpos)
      rw [Option.filter_some, if_pos hgiven, Option.getD_some]
      omega

theorem columnScale_of_given (hprecision : e.columnPrecision = d.columnPrecision)
    (h : e.scale = some d.columnScale) : e.columnScale = d.columnScale := by
  have hle := Column.columnScale_le d
  rw [columnScale, htype, h, hprecision, Option.getD_some]
  omega

theorem columnZone_of_given [Zone.Catalogue] {zone : Option Zone} (hzone : d.columnZone = .ok zone)
    (h : e.zone = zone.map Zone.name) : e.columnZone = .ok zone := by
  cases zone with
  | none =>
      unfold columnZone
      rw [h]
      rfl
  | some z =>
      apply columnZone_of_name h
      rw [htype]
      unfold columnZone at hzone
      split at hzone
      · cases hzone
      · split at hzone
        · cases hzone
        · next hkept =>
            rw [Bool.or_eq_true, not_or] at hkept
            simpa using hkept.1

end Given

section Settled

variable [Zone.Catalogue] {d : Draft} {zone : Option Zone} {options : List (String × Int32)}
  {v : Value} (default : Option RawDefault)

theorem columnName_settled :
    (((d.shape zone options).withValue v).settled default).columnName = d.columnName := by
  change (if Text.allBlank d.columnName then _ else d.columnName) = _
  rw [allBlank_columnName]
  rfl

theorem columnLength_settled :
    (((d.shape zone options).withValue v).settled default).columnLength = d.columnLength :=
  columnLength_of_given rfl fun hfixed => if_pos hfixed

theorem columnPrecision_settled (hd : d.Named) :
    (((d.shape zone options).withValue v).settled default).columnPrecision = d.columnPrecision := by
  -- Only `Decimal` names its precision; the others have the one that the type gives them.
  by_cases hdecimal : d.type = .decimal
  · exact columnPrecision_of_given rfl (if_pos hdecimal)
  · by_cases hsized : d.type.isSizedDecimal = true
    · unfold columnPrecision
      change (if d.type.isSizedDecimal then d.type.maxPrecision else _) = _
      rw [if_pos hsized, if_pos hsized]
    · unfold columnPrecision
      change (if d.type.isSizedDecimal then d.type.maxPrecision else
        min (((if d.type = .decimal then some d.columnPrecision else none).filter (0 < ·)).getD
          d.type.defaultPrecision) d.type.maxPrecision) = _
      rw [if_neg hsized, if_neg hsized, if_neg hdecimal,
        hd.precision hdecimal (Bool.eq_false_iff.2 hsized)]

theorem columnScale_settled (hd : d.Named) :
    (((d.shape zone options).withValue v).settled default).columnScale = d.columnScale := by
  have hprecision : (((d.shape zone options).withValue v).settled default).columnPrecision =
      d.columnPrecision := columnPrecision_settled default hd
  by_cases h : d.type.isDecimal ∨ d.type = .dateTime64
  · exact columnScale_of_given rfl hprecision (if_pos h)
  · unfold columnScale
    rw [hprecision]
    change min (min ((if d.type.isDecimal ∨ d.type = .dateTime64 then some d.columnScale
      else none).getD d.type.defaultScale) d.type.maxScale) d.columnPrecision = _
    rw [if_neg h]
    rw [not_or] at h
    rw [hd.scale (Bool.eq_false_iff.2 h.1) h.2]

theorem columnZone_settled (hzone : d.columnZone = .ok zone) :
    (((d.shape zone options).withValue v).settled default).columnZone = .ok zone := by
  have htype : (((d.shape zone options).withValue v).settled default).type = d.type := rfl
  exact columnZone_of_given htype hzone rfl

omit [Zone.Catalogue] in
theorem columnOptions_of_same {e : Draft} (htype : e.type = d.type) (hsame : e.options = options)
    (hoptions : d.columnOptions = .ok options) : e.columnOptions = .ok options := by
  unfold columnOptions at hoptions ⊢
  rw [htype, hsame]
  split at hoptions
  · next henum =>
      dsimp only at hoptions ⊢
      split at hoptions
      · cases hoptions
      · next hrange =>
          cases hoptions
          rw [if_pos henum, hrange]
  · next henum =>
      cases hoptions
      rw [if_neg henum]

theorem shape_of_same {e : Draft} (htype : e.type = d.type) (hnullable : e.nullable = d.nullable)
    (hname : e.columnName = d.columnName) (hlength : e.columnLength = d.columnLength)
    (hprecision : e.columnPrecision = d.columnPrecision)
    (hscale : e.columnScale = d.columnScale) :
    e.shape zone options =
      { d.shape zone options with declared := e.declared || e.default.isSome } := by
  unfold shape
  rw [htype, hnullable, hname, hlength, hprecision, hscale]

theorem shape_settled (hd : d.Named) :
    (((d.shape zone options).withValue v).settled default).shape zone options =
      { d.shape zone options with declared := default.isSome } :=
  shape_of_same rfl rfl (columnName_settled default) (columnLength_settled default)
    (columnPrecision_settled default hd) (columnScale_settled default hd)

/-- A column that is built again is filled in the shape that it has. -/
theorem build_settled (hd : d.Named) (hzone : d.columnZone = .ok zone)
    (hoptions : d.columnOptions = .ok options) :
    (((d.shape zone options).withValue v).settled default).build =
      (((d.shape zone options).withValue v).settled default).fill
        { d.shape zone options with declared := default.isSome } := by
  have hsame : (((d.shape zone options).withValue v).settled default).columnOptions = .ok options :=
    columnOptions_of_same (by rfl) (by rfl) hoptions
  unfold build
  rw [columnZone_settled default hzone, hsame]
  simp only [bind, Except.bind]
  rw [shape_settled default hd]

end Settled

end Draft

end RowStream
