import RowStream.Column.Config
import RowStream.Proofs.Column.RoundTrip

/-!
# Columns as JSON and back

The object that is made of a column is read as the same column, but for the scale at which a decimal
default is held. The members of the object are found one by one; together they are the draft that
the declaration of the column names, with a default that is merged from JSON and not from a text.
-/

namespace RowStream

namespace Json

theorem find?_append (key : String) (members more : List (String × Json)) :
    find? key (members ++ more) = (find? key members).or (find? key more) := by
  induction members with
  | nil => rfl
  | cons m rest ih =>
      obtain ⟨k, v⟩ := m
      by_cases h : k = key
      · simp [find?, h]
      · simp [find?, h, ih]

theorem find?_ite (p : Prop) [Decidable p] (key other : String) (value : Json) :
    find? key (if p then [(other, value)] else []) = if p ∧ other = key then some value else none := by
  by_cases hp : p <;> simp [hp, find?]

theorem word32?_ofInt {n : Nat} (h : n ≤ maxWord32) : (ofInt n).word32? = some n := by
  simp [word32?, nat?, ofInt, JsonNumber.toNat?, h]

theorem word_of_member {p : Prop} [Decidable p] {n : Nat} (h : n ≤ maxWord32) :
    ((if p then some (ofInt n) else none).bind word32?).or none = if p then some n else none := by
  by_cases hp : p <;> simp [hp, word32?_ofInt h]

end Json

open TypeExpression

theorem TypeExpression.parse_name (t : ColumnType) :
    parse t.name.toList = .ok ⟨t.name, [], false⟩ := by
  have hname := ColumnType.isName t
  have hargs : ∀ a ∈ (none : Option (List (List Char))).getD [], Token.IsPiece ',' a := by simp
  obtain ⟨rest, hfront, hrest⟩ := front_written hname hargs endsType_nil
  have htrim : Text.trimStart (written t.name.toList none ++ []) = written t.name.toList none ++ [] :=
    trimStart_written_append hname []
  rw [List.append_nil] at hfront htrim
  change front t.name.toList = _ at hfront
  change Text.trimStart t.name.toList = t.name.toList at htrim
  unfold parse
  rw [htrim, hfront]
  dsimp only
  rw [hrest, String.ofList_toList]
  rfl

namespace Draft

theorem ofType_name (name : String) (t : ColumnType) :
    ofType name ⟨t.name, [], false⟩ = .ok { name := name, type := t, nullable := false } := by
  unfold ofType
  dsimp only
  rw [Column.ofName_name]
  cases t <;> rfl

theorem build_of_precision [Zone.Catalogue] {d : Draft} {precision : Option Nat}
    (h : ({ d with precision := precision } : Draft).columnPrecision = d.columnPrecision) :
    ({ d with precision := precision } : Draft).build = d.build := by
  have hshape : ∀ zone options, ({ d with precision := precision } : Draft).shape zone options =
      d.shape zone options := by
    intro zone options
    have hscale : ({ d with precision := precision } : Draft).columnScale = d.columnScale := by
      unfold columnScale
      rw [h]
    exact shape_of_same rfl rfl rfl rfl h hscale
  have hzone : ({ d with precision := precision } : Draft).columnZone = d.columnZone := rfl
  have hoptions : ({ d with precision := precision } : Draft).columnOptions = d.columnOptions := rfl
  unfold build
  rw [hzone, hoptions]
  simp only [hshape]
  rfl

end Draft

namespace Column

section Zones

variable [Zone.Catalogue] {c : Column}

section Members

variable (c)

theorem get?_toJson_name : c.toJson.get? "name" = some (.str c.name) := by
  unfold toJson
  cases c.zone <;> simp [Json.get?, Json.find?]

theorem get?_toJson_type : c.toJson.get? "type" = some (.str c.type.name) := by
  unfold toJson
  cases c.zone <;> simp [Json.get?, Json.find?]

theorem get?_toJson_nullable : c.toJson.get? "nullable" = some (.bool c.nullable) := by
  unfold toJson
  cases c.zone <;> simp [Json.get?, Json.find?]

theorem get?_toJson_length :
    c.toJson.get? "length" = if c.type = .fixedString then some (Json.ofInt c.length) else none := by
  unfold toJson
  cases c.zone <;> simp [Json.get?, Json.find?_append, Json.find?, Json.find?_ite]

theorem get?_toJson_precision :
    c.toJson.get? "precision" = if c.type.isDecimal then some (Json.ofInt c.precision) else none := by
  unfold toJson
  cases c.zone <;> simp [Json.get?, Json.find?_append, Json.find?, Json.find?_ite]

theorem get?_toJson_scale : c.toJson.get? "scale" =
    if c.type.isDecimal ∨ c.type = .dateTime64 then some (Json.ofInt c.scale) else none := by
  unfold toJson
  cases c.zone <;> simp [Json.get?, Json.find?_append, Json.find?, Json.find?_ite]

theorem get?_toJson_timezone :
    c.toJson.get? "timezone" = c.zone.map fun z => Json.str z.name := by
  unfold toJson
  cases c.zone <;> simp [Json.get?, Json.find?_append, Json.find?, Json.find?_ite]

theorem get?_toJson_options (henum : c.type.isEnum = false) : c.toJson.get? "options" = none := by
  unfold toJson
  cases c.zone <;> simp [Json.get?, Json.find?_append, Json.find?, Json.find?_ite, henum]

theorem get?_toJson_value :
    c.toJson.get? "value" = if c.declaresDefault then some c.defaultJson else none := by
  unfold toJson
  cases c.zone <;> simp [Json.get?, Json.find?_append, Json.find?, Json.find?_ite]

end Members

theorem draft_of_members (hc : c.Declarable)
    (hoptions : ∀ d : Draft, d.options = [] →
      d.withOptions (c.toJson.get? "options") = .ok { d with options := c.options })
    (hnull : c.declaresDefault = true → c.defaultJson ≠ .null) :
    Draft.ofJson c.toJson = .ok { c.settled (if c.declaresDefault then some (.json c.defaultJson)
      else none) with precision := if c.type.isDecimal then some c.precision else none } := by
  have htype : Draft.typeOfJson c.toJson = .ok ⟨c.type.name, [], false⟩ := by
    unfold Draft.typeOfJson
    rw [get?_toJson_type]
    exact parse_name c.type
  have hzone : ((c.zone.map fun z => Json.str z.name).bind Json.str?).or none =
      c.zone.map Zone.name := by
    cases c.zone <;> rfl
  -- Members that are absent leave what the name of the type alone says.
  unfold Draft.ofJson settled
  rw [htype]
  simp only [bind, Except.bind, get?_toJson_name, get?_toJson_nullable, get?_toJson_length,
    get?_toJson_precision, get?_toJson_scale, get?_toJson_timezone, get?_toJson_value,
    Option.bind_some, Json.str?, Json.bool?, Option.getD_some, Draft.ofType_name]
  rw [hoptions _ rfl, Json.word_of_member hc.length, Json.word_of_member hc.precision,
    Json.word_of_member hc.scale, hzone]
  dsimp only
  by_cases hdeclares : c.declaresDefault = true
  · rw [if_pos hdeclares, if_pos hdeclares]
    split
    · next hnone => cases hnone
    · next hvalue => exact absurd (Option.some.inj hvalue) (hnull hdeclares)
    · next value _ hvalue =>
        cases hvalue
        rfl
  · rw [if_neg hdeclares, if_neg hdeclares]
    rfl

/-- The object of a column is read as the draft that names its parts, sized decimals with
their precision. -/
theorem draft_of_toJson (hc : c.Declarable) (henum : c.type.isEnum = false)
    (hnull : c.declaresDefault = true → c.defaultJson ≠ .null) :
    Draft.ofJson c.toJson = .ok { c.settled (if c.declaresDefault then some (.json c.defaultJson)
      else none) with precision := if c.type.isDecimal then some c.precision else none } := by
  refine draft_of_members hc ?_ hnull
  intro d hd
  rw [get?_toJson_options c henum, hc.options henum, ← hd]
  rfl

theorem defaultJson_of_not_enum (henum : c.type.isEnum = false) :
    c.defaultJson = match c.cell.value with
      | .bool b => .bool b
      | .int32 n => Json.ofInt n.toInt
      | .int64 n => Json.ofInt n.toInt
      | .binary32 x => Json.ofBinary64 x.toBinary64
      | .binary64 x => Json.ofBinary64 x
      | v => .str v.toText := by
  have hoption : c.defaultOption? = none := by
    unfold defaultOption?
    rw [henum]
    rfl
  unfold defaultJson
  rw [hoption, henum]
  cases c.cell.value <;> rfl

theorem defaultJson_ne_null (henum : c.type.isEnum = false)
    (hbinary : c.cell.value.isBinary = false) : c.defaultJson ≠ .null := by
  rw [defaultJson_of_not_enum henum]
  cases hvalue : c.cell.value with
  | binary32 x | binary64 x =>
      rw [hvalue] at hbinary
      cases hbinary
  | _ => exact fun h => by cases h

theorem mergeJson_defaultJson {v : Value} (henum : c.type.isEnum = false)
    (hv : v.Readable c.cell.type) (hbinary : v.isBinary = false)
    (hempty : v.toText = "" → v = c.cell.value) :
    ∃ v', c.mergeJson (c.withValue v).defaultJson = .ok (c.withValue v') ∧ v'.equal v = true ∧
      (c.cell.type.kind ≠ .decimal → v' = v) := by
  have hkind := hv.kind
  -- Truth values and numbers of up to 64 bits are taken as such, other values from their text.
  have htext := mergeText_toText henum hv hbinary hempty
  have hnumber : ∀ n : Int, Value.ofJson (Json.ofInt n) c.cell.type c.cell.scale = .ok (some v) →
      c.mergeJson (Json.ofInt n) = .ok (c.withValue v) := by
    intro n hread
    unfold mergeJson Json.ofInt
    dsimp only
    rw [henum, if_neg Bool.false_ne_true]
    change Except.map _ (c.cell.take (Value.ofJson (Json.ofInt n) c.cell.type c.cell.scale)) = _
    rw [hread]
    rfl
  have hwhole {n : Int} (hexact : v.kind.isExact = true)
      (hvalue : Value.ofInt? n v.kind = some v) :
      ∃ v', c.mergeJson (Json.ofInt n) = .ok (c.withValue v') ∧ v'.equal v = true ∧
        (c.cell.type.kind ≠ .decimal → v' = v) := by
    refine ⟨v, hnumber n ?_, Value.equal_self hbinary, fun _ => rfl⟩
    rw [hkind] at hexact hvalue
    rw [Value.ofJson_ofInt hexact, hvalue]
    rfl
  rw [defaultJson_of_not_enum (c := c.withValue v) henum]
  change ∃ v', c.mergeJson (match v with
    | .bool b => .bool b
    | .int32 n => Json.ofInt n.toInt
    | .int64 n => Json.ofInt n.toInt
    | .binary32 x => Json.ofBinary64 x.toBinary64
    | .binary64 x => Json.ofBinary64 x
    | v => .str v.toText) = .ok (c.withValue v') ∧ _
  cases v with
  | binary32 x | binary64 x => cases hbinary
  | integer n | decimal d | text s => exact htext
  | bool b =>
      refine ⟨.bool b, ?_, Value.equal_self rfl, fun _ => rfl⟩
      unfold mergeJson Cell.mergeJson Value.ofJson
      dsimp only
      rw [← hkind]
      rfl
  | int32 n => exact hwhole rfl (Value.ofInt?_toInt32 n)
  | int64 n => exact hwhole rfl (Value.ofInt?_toInt64 n)

/-- From the draft of its object a column is built again, with an equal default. -/
theorem TextBuilt.rebuilt_json {d : Draft} {zone : Option Zone} {v : Value} (h : TextBuilt d zone v)
    (hbinary : d.default.isSome = true → v.isBinary = false) :
    ∃ v', (((d.shape zone []).withValue v).settled (if d.default.isSome then
        some (.json ((d.shape zone []).withValue v).defaultJson) else none)).build =
          .ok ((d.shape zone []).withValue v') ∧
      v'.equal v = true ∧ (d.type.kind ≠ .decimal → v' = v) := by
  cases hdefault : d.default.isSome with
  | false => exact h.rebuilt_of_merge hdefault.symm (fun hraw => by cases hraw)
  | true =>
      have hv := hbinary hdefault
      exact h.rebuilt_of_merge hdefault.symm fun _ =>
        mergeJson_defaultJson h.notEnum h.readable hv (h.empty hv)

theorem columnPrecision_of_decimal (default : Option RawDefault) :
    ({ c.settled default with precision := if c.type.isDecimal then some c.precision else none } :
      Draft).columnPrecision = (c.settled default).columnPrecision := by
  unfold Draft.columnPrecision settled
  dsimp only
  by_cases hsized : c.type.isSizedDecimal = true
  · rw [if_pos hsized, if_pos hsized]
  · have hdecimal : c.type.isDecimal = true ↔ c.type = .decimal := by
      revert hsized
      cases c.type <;> decide
    simp only [hdecimal]

/-- A column that a text declares is read again from the object that is made of it. Only the default
may differ, and then it is an equal decimal. -/
theorem ofJson_toJson {text : String} (h : ofDeclaration text = .ok c)
    (henum : c.type.isEnum = false)
    (hfloat : c.type = .float32 ∨ c.type = .float64 → c.declaresDefault = false) :
    ∃ v, ofJson c.toJson = .ok (c.withValue v) ∧ (c.withValue v).equal c = true ∧
      (c.type.isDecimal = false → v = c.cell.value) := by
  obtain ⟨d, zone, v, hbuilt, rfl, hdeclarable⟩ := textBuilt_of_ofDeclaration h henum
  have hdeclares := hbuilt.declaresDefault
  have hbinary := hbuilt.isBinary_eq_false (by rwa [← hdeclares])
  have hdraft := draft_of_toJson hdeclarable henum fun hdefault =>
    defaultJson_ne_null henum (hbinary (by rwa [← hdeclares]))
  rw [hdeclares] at hdraft
  obtain ⟨v', hbuild, hequal, hsame⟩ := hbuilt.rebuilt_json hbinary
  refine ⟨v', ?_, equal_withValue hequal (Value.equal_zero d.type),
    fun hdecimal => hsame (kind_ne_decimal hdecimal)⟩
  obtain ⟨members, hmembers⟩ : ∃ members,
    ((d.shape zone []).withValue v).toJson = .obj members := ⟨_, rfl⟩
  unfold ofJson
  rw [hmembers]
  dsimp only
  rw [← hmembers, hdraft]
  dsimp only
  rw [Draft.build_of_precision (columnPrecision_of_decimal _), hbuild]
  rfl

end Zones

def stamp : Column :=
  { name := "at"
    type := .dateTime64
    nullable := true
    length := 0
    precision := 23
    scale := 3
    zone := some .berlin
    options := []
    cell := ⟨"at", .dateTime64, .int64 1, .int64 1500, 3⟩
    declared := true
    index := none }

theorem ofJson_toJson_stamp :
    ofDeclaration "at Nullable(DateTime64(3, 'Europe/Berlin')) DEFAULT '1970-01-01 00:00:01.5'" =
        .ok stamp ∧
      ofJson stamp.toJson = .ok stamp := by
  have hread : ofDeclaration
      "at Nullable(DateTime64(3, 'Europe/Berlin')) DEFAULT '1970-01-01 00:00:01.5'" = .ok stamp :=
    ok_of_toOption (by decide +kernel)
  have hfloat : stamp.type = .float32 ∨ stamp.type = .float64 →
      stamp.declaresDefault = false := by decide
  obtain ⟨v, hagain, -, hvalue⟩ := ofJson_toJson hread (by decide) hfloat
  rw [hvalue (by decide)] at hagain
  exact ⟨hread, hagain⟩

end Column

end RowStream
