import Mathlib.Data.List.Nodup
import RowStream.Proofs.Column.EnumDefault
import RowStream.Proofs.Column.EnumOptions

/-!
# Enums there and back

The default of an enum is a number, and is written by the name of the first option that has it. It
comes back when that name is read as the number again. This fails for a name that an earlier option
has with another number, and for the empty name, since an empty text is no default.
`Column.NamesDefault` says that it does not fail; `enum_readBack_iff` says that an enum comes back
from its declaration exactly then, and from its object exactly when besides no name stands twice.
-/

namespace RowStream

open Text.Numeral

namespace Column

theorem exists_int32 {v : Value} (h : v.kind = .int32) : ∃ n, v = .int32 n := by
  cases v with
  | int32 n => exact ⟨n, rfl⟩
  | _ => cases h

theorem find?_of_nodup {options : List (String × Int32)} {name : String} {n : Int32}
    (h : (options.map (·.1)).Nodup) (hmem : (name, n) ∈ options) :
    (options.find? fun o => o.1 == name) = some (name, n) := by
  obtain ⟨o, ho⟩ : ∃ o, (options.find? fun o => o.1 == name) = some o := by
    rw [← Option.isSome_iff_exists, List.find?_isSome]
    exact ⟨(name, n), hmem, beq_self_eq_true name⟩
  have hname : o.1 = name := by simpa using List.find?_some ho
  rw [ho, List.inj_on_of_nodup_map h (List.mem_of_find?_eq_some ho) hmem hname]

section Zones

variable [Zone.Catalogue]

/-- The number that the name of an option is read as. An empty text is not read, and leaves the
number of the first option. -/
def nameNumber? (c : Column) (name : String) : Option Int32 :=
  if name.isEmpty then c.options.head?.map (·.2)
  else (c.options.find? fun o => o.1 == name).map (·.2)

/-- The default has a name, which is read as the default. -/
def NamesDefault (c : Column) : Prop :=
  ∃ name n, c.cell.value = .int32 n ∧ c.optionName? n = some name ∧ c.nameNumber? name = some n

/-- An enum whose default, if it has one of its own, is read from a text. -/
structure EnumBuilt (d : Draft) (zone : Option Zone) (n : Int32) (c : Column) : Prop where
  named : d.Named
  isEnum : d.type.isEnum = true
  column : c = (d.shape zone c.options).withValue (.int32 n)
  taken : d.columnOptions = .ok c.options
  zone : d.columnZone = .ok zone
  offered : c.options ≠ [] → c.DefaultOffered
  undeclared : d.default = none → .int32 n = Draft.initialValue d.type c.options

variable {c : Column}

theorem enumBuilt_of_ofDeclaration {text : String} (h : ofDeclaration text = .ok c)
    (henum : c.type.isEnum = true) : ∃ d zone n, EnumBuilt d zone n c ∧ c.Declarable := by
  unfold ofDeclaration at h
  split at h
  · cases h
  · next d hdraft =>
      have hbuild := ok_of_mapError h
      obtain ⟨hnamed, htext⟩ := Draft.named_of_ofDeclaration hdraft
      have hfresh := Draft.fresh_of_ofDeclaration hdraft
      have hkind := (wellFormed_of_fresh hfresh hbuild).valueKind
      have hdeclarable := declarable_of_build hbuild
      have htaken : d.OffersDefault := by
        unfold Draft.OffersDefault
        rcases htext with hnone | ⟨s, hs⟩
        · rw [hnone]
          trivial
        · rw [hs]
          trivial
      have hoffered : c.options ≠ [] → c.DefaultOffered :=
        fun hne => (defaultOffered_of_build hfresh hbuild hne).2.2 htaken
      obtain ⟨zone, options, hzone, hoptions, hfill⟩ := build_ok_iff.1 hbuild
      obtain ⟨v, rfl⟩ := fill_frame hfill
      rw [kind_of_isEnum henum] at hkind
      obtain ⟨n, rfl⟩ := exists_int32 hkind
      refine ⟨d, zone, n, ⟨hnamed, henum, rfl, hoptions, hzone, hoffered, ?_⟩, hdeclarable⟩
      intro hnone
      unfold Draft.fill at hfill
      rw [hnamed.current, hnone] at hfill
      have hvalue := congrArg (fun c : Column => c.cell.value) (Except.ok.inj hfill)
      exact hvalue.symm

section Texts

theorem defaultOption?_of_enum (henum : c.type.isEnum = true) {n : Int32}
    (hvalue : c.cell.value = .int32 n) : c.defaultOption? = c.optionName? n := by
  have hnumber : (Value.int32 n).toInt32? = some n := by
    unfold Value.toInt32? Value.toInt64?
    dsimp only
    rw [Option.bind_some, n.toInt_toInt64, int32?_toInt]
  unfold defaultOption?
  rw [if_pos henum, hvalue, hnumber, Option.bind_some]

theorem literal_of_enum {n : Int32} (hvalue : c.cell.value = .int32 n) :
    String.ofList c.literal.text = c.defaultText ∧ c.literal.CanStand ∧ c.literal.IsDefault := by
  unfold literal defaultText
  rw [hvalue]
  cases c.defaultOption? with
  | some option => exact ⟨String.ofList_toList, trivial, trivial⟩
  | none => exact ⟨String.ofList_toList, bare_stands (isNumeral_toString n.toInt)⟩

theorem mergeText_of_name (henum : c.type.isEnum = true)
    (hinitial : c.cell.value = Draft.initialValue c.type c.options) {name : String} {n : Int32}
    (hname : (name, n) ∈ c.options) : ∃ m, c.nameNumber? name = some m ∧
      c.mergeText name = .ok (c.withValue (.int32 m)) := by
  unfold nameNumber? mergeText
  by_cases hempty : name.isEmpty = true
  · obtain ⟨o, rest, hoptions⟩ := List.exists_cons_of_ne_nil (List.ne_nil_of_mem hname)
    have hvalue : c.cell.value = .int32 o.2 := by
      rw [hinitial, hoptions]
      rfl
    refine ⟨o.2, ?_, ?_⟩
    · rw [if_pos hempty, hoptions]
      rfl
    · unfold Cell.mergeText
      rw [hempty, Bool.not_true, Bool.and_false, if_neg Bool.false_ne_true, if_pos rfl, ← hvalue]
      rfl
  · obtain ⟨o, ho⟩ : ∃ o, (c.options.find? fun o => o.1 == name) = some o := by
      rw [← Option.isSome_iff_exists, List.find?_isSome]
      exact ⟨(name, n), hname, beq_self_eq_true name⟩
    refine ⟨o.2, ?_, ?_⟩
    · rw [if_neg hempty, ho]
      rfl
    · unfold enumValue optionValue
      rw [henum, Bool.eq_false_iff.2 hempty, if_pos (by decide), ho]
      rfl

theorem mergeText_of_no_options (henum : c.type.isEnum = true) (hnone : c.options = [])
    {s : String} (hs : s ≠ "") : ∃ e, c.mergeText s = .error e := by
  have hempty : s.isEmpty = false := by simpa using hs
  unfold mergeText
  rw [henum, hempty, if_pos (by decide)]
  unfold enumValue optionValue
  rw [hnone]
  dsimp only [List.find?_nil]
  split
  · unfold requireKnown optionName?
    rw [hnone]
    exact ⟨_, rfl⟩
  · exact ⟨_, rfl⟩

end Texts

section Rebuilt

variable {d : Draft} {zone : Option Zone} {n : Int32}

theorem EnumBuilt.value (h : EnumBuilt d zone n c) : c.cell.value = .int32 n := by
  rw [h.column]
  rfl

theorem EnumBuilt.declaresDefault (h : EnumBuilt d zone n c) :
    c.declaresDefault = d.default.isSome := by
  rw [h.column]
  change ((d.declared || d.default.isSome) ||
    !(Value.int32 n).equal (Draft.initialValue d.type c.options)) = _
  rw [h.named.declared]
  cases hdefault : d.default with
  | none =>
      rw [← h.undeclared hdefault, Value.equal_self rfl]
      rfl
  | some raw => rfl

theorem EnumBuilt.options_eq_nil (h : EnumBuilt d zone n c) (hname : c.optionName? n = none) :
    c.options = [] := by
  by_contra hne
  obtain ⟨o, ho, hvalue⟩ := h.offered hne
  rw [h.value] at hvalue
  unfold optionName? at hname
  rw [Option.map_eq_none_iff, List.find?_eq_none] at hname
  exact hname o ho (by simpa using (Value.int32.inj hvalue).symm)

/-- The text of the default is read as the default exactly when the default is named by it. -/
theorem EnumBuilt.mergeText_iff (h : EnumBuilt d zone n c) :
    (d.shape zone c.options).mergeText c.defaultText = .ok c ↔ c.NamesDefault := by
  have henum : c.type.isEnum = true := by
    rw [h.column]
    exact h.isEnum
  unfold defaultText
  rw [defaultOption?_of_enum henum h.value, h.value]
  cases hname : c.optionName? n with
  | none =>
      have htext : toString n.toInt ≠ "" := by
        intro hempty
        have hnumeral := isNumeral_toString n.toInt
        rw [hempty] at hnumeral
        exact hnumeral.nonempty rfl
      have hnone : (d.shape zone c.options).options = [] := h.options_eq_nil hname
      obtain ⟨e, hrefused⟩ := mergeText_of_no_options h.isEnum hnone htext
      apply iff_of_false
      · rw [Option.getD_none]
        change ¬(d.shape zone c.options).mergeText (toString n.toInt) = .ok c
        rw [hrefused]
        exact fun h => by cases h
      · rintro ⟨name, m, hvalue, hnamed, -⟩
        cases h.value.symm.trans hvalue
        rw [hname] at hnamed
        cases hnamed
  | some name =>
      have hmem : (name, n) ∈ (d.shape zone c.options).options := mem_of_optionName? hname
      obtain ⟨m, hread, hmerge⟩ := mergeText_of_name h.isEnum rfl hmem
      change c.nameNumber? name = some m at hread
      rw [Option.getD_some, hmerge]
      constructor
      · intro hsame
        have hvalue := congrArg (fun c : Column => c.cell.value) (Except.ok.inj hsame)
        have hnumber : m = n := Value.int32.inj (hvalue.trans h.value)
        rw [hnumber] at hread
        exact ⟨name, n, h.value, hname, hread⟩
      · rintro ⟨name', n', hvalue, hname', hread'⟩
        cases h.value.symm.trans hvalue
        cases hname.symm.trans hname'
        cases hread.symm.trans hread'
        exact congrArg Except.ok h.column.symm

/-- From the draft of its parts an enum is built again exactly when its default, if it has one of
its own, is named. -/
theorem EnumBuilt.rebuilt_iff (h : EnumBuilt d zone n c) :
    (c.settled (if c.declaresDefault then some (.text c.defaultText) else none)).build = .ok c ↔
      (c.declaresDefault = true → c.NamesDefault) := by
  have hbuild : ∀ raw : Option RawDefault, (c.settled raw).build =
      (c.settled raw).fill { d.shape zone c.options with declared := raw.isSome } := by
    intro raw
    rw [h.column]
    exact Draft.build_settled raw h.named h.zone h.taken
  rw [hbuild]
  cases hdeclares : c.declaresDefault with
  | false =>
      rw [h.declaresDefault] at hdeclares
      have hinitial := h.undeclared (by simpa using hdeclares)
      refine iff_of_true ?_ (fun hdeclared => by cases hdeclared)
      rw [if_neg Bool.false_ne_true]
      calc Except.ok { d.shape zone c.options with declared := false }
        _ = .ok (d.shape zone c.options) :=
          congrArg Except.ok (shape_declared h.named c.options hdeclares)
        _ = .ok ((d.shape zone c.options).withValue (.int32 n)) := by
          rw [hinitial]
          rfl
        _ = .ok c := congrArg Except.ok h.column.symm
  | true =>
      rw [h.declaresDefault] at hdeclares
      have hshape : { d.shape zone c.options with declared := true } = d.shape zone c.options :=
        shape_declared h.named c.options hdeclares
      rw [if_pos rfl]
      change Column.mergeText { d.shape zone c.options with declared := true } _ = _ ↔ _
      rw [hshape, h.mergeText_iff]
      simp

end Rebuilt

theorem build_json_str (c : Column) (s : String) :
    (c.settled (some (.json (.str s)))).build = (c.settled (some (.text s))).build := rfl

theorem ofDeclaration_ok_iff {text : String} {d : Draft}
    (hdraft : Draft.ofDeclaration text.toList = .ok d) :
    ofDeclaration text = .ok c ↔ d.build = .ok c := by
  unfold ofDeclaration
  rw [hdraft]
  constructor
  · exact ok_of_mapError
  · intro hbuild
    dsimp only
    rw [hbuild]
    rfl

theorem ofJson_toJson_ok_iff {c' : Column} :
    ofJson c.toJson = .ok c' ↔ ∃ d, Draft.ofJson c.toJson = .ok d ∧ d.build = .ok c' := by
  obtain ⟨members, hmembers⟩ : ∃ members, c.toJson = .obj members := ⟨_, rfl⟩
  unfold ofJson
  rw [hmembers]
  dsimp only
  cases Draft.ofJson (.obj members) with
  | error e => simp
  | ok d =>
      constructor
      · intro h
        exact ⟨d, rfl, ok_of_mapError h⟩
      · rintro ⟨d', hd', hbuild⟩
        cases hd'
        dsimp only
        rw [hbuild]
        rfl

theorem namesDefault_of_nodup (hnodup : (c.options.map (·.1)).Nodup)
    (hnames : "" ∉ c.options.map (·.1)) (hoffered : c.DefaultOffered) : c.NamesDefault := by
  obtain ⟨o, ho, hvalue⟩ := hoffered
  obtain ⟨name, hname⟩ : ∃ name, c.optionName? o.2 = some name := by
    unfold optionName?
    rw [← Option.isSome_iff_exists, Option.isSome_map, List.find?_isSome]
    exact ⟨o, ho, beq_self_eq_true o.2⟩
  have hmem := mem_of_optionName? hname
  have hempty : ¬name.isEmpty = true := by
    intro h
    apply hnames
    rw [← show name = "" by simpa using h]
    exact List.mem_map_of_mem hmem
  refine ⟨name, o.2, hvalue, hname, ?_⟩
  unfold nameNumber?
  rw [if_neg hempty, find?_of_nodup hnodup hmem]
  rfl

/-- An enum that a text declares comes back from its declaration exactly when its default, if it
has one of its own, is named, and from its object exactly when besides no name stands twice. Options
with names of their own see to all of it. -/
theorem enum_readBack_iff {text : String} (h : ofDeclaration text = .ok c)
    (henum : c.type.isEnum = true) :
    (ofDeclaration (c.declaration true) = .ok c ↔
        (c.declaresDefault = true → c.NamesDefault)) ∧
      (ofJson c.toJson = .ok c ↔
        (c.options.map (·.1)).Nodup ∧ (c.declaresDefault = true → c.NamesDefault)) ∧
      ((c.options.map (·.1)).Nodup → "" ∉ c.options.map (·.1) → c.options ≠ [] →
        ofDeclaration (c.declaration true) = .ok c ∧ ofJson c.toJson = .ok c) := by
  obtain ⟨d, zone, n, hbuilt, hdeclarable⟩ := enumBuilt_of_ofDeclaration h henum
  -- Both ways lead to the draft of the parts, with the default as a text.
  have hrebuilt := hbuilt.rebuilt_iff
  have hdeclared : ofDeclaration (c.declaration true) = .ok c ↔
      (c.declaresDefault = true → c.NamesDefault) := by
    obtain ⟨htext, hstands⟩ := literal_of_enum hbuilt.value
    have hdraft := draft_of_written_enum hdeclarable henum
      (l := if c.declaresDefault then some c.literal else none) (by
        intro x hx
        split at hx
        · cases hx
          exact hstands
        · cases hx)
    have hlist := toList_declaration c true
    rw [Bool.true_and] at hlist
    rw [← hlist] at hdraft
    rw [ofDeclaration_ok_iff hdraft, ← hrebuilt]
    unfold declaredDefault
    cases c.declaresDefault with
    | false => rfl
    | true => simp only [if_true, Option.map_some, htext]
  have hconfigured : (c.options.map (·.1)).Nodup →
      (ofJson c.toJson = .ok c ↔ (c.declaresDefault = true → c.NamesDefault)) := by
    intro hnodup
    rw [ofJson_toJson_ok_iff, ← hrebuilt, draft_of_toJson_enum hdeclarable henum hnodup,
      defaultJson_of_enum henum]
    cases c.declaresDefault with
    | false => simp
    | true => simp [build_json_str]
  refine ⟨hdeclared, ?_, ?_⟩
  · constructor
    · intro hagain
      obtain ⟨d', hdraft, hbuild⟩ := ofJson_toJson_ok_iff.1 hagain
      obtain ⟨zone', options', v, -, hoptions', hc'⟩ := shape_of_build hbuild
      have htype : d'.type.isEnum = true := by
        rw [hc'] at henum
        exact henum
      have hnodup : (c.options.map (·.1)).Nodup := by
        have hsame : c.options = d'.options := by
          rw [← options_of_columnOptions htype hoptions', hc']
          rfl
        rw [hsame]
        exact nodup_of_draft_of_toJson henum hdraft
      exact ⟨hnodup, (hconfigured hnodup).1 hagain⟩
    · rintro ⟨hnodup, hnamed⟩
      exact (hconfigured hnodup).2 hnamed
  · intro hnodup hnames hsome
    have hnamed := namesDefault_of_nodup hnodup hnames (hbuilt.offered hsome)
    exact ⟨hdeclared.2 fun _ => hnamed, (hconfigured hnodup).2 fun _ => hnamed⟩

end Zones

theorem enum_readBack_iff_signal :
    ofDeclaration "signal Enum8('off' = -1, 'on' = 1) DEFAULT on" = .ok signal ∧
      ofDeclaration (signal.declaration true) = .ok signal ∧ ofJson signal.toJson = .ok signal := by
  have hread : ofDeclaration "signal Enum8('off' = -1, 'on' = 1) DEFAULT on" = .ok signal :=
    ok_of_toOption (by decide +kernel)
  obtain ⟨-, -, hagain⟩ := enum_readBack_iff hread (by decide)
  exact ⟨hread, hagain (by decide) (by decide) (by decide)⟩

def unspoken : Column :=
  { name := "e"
    type := .enum8
    nullable := false
    length := 0
    precision := 0
    scale := 0
    zone := none
    options := [("a", 1), ("", 2)]
    cell := ⟨"e", .enum8, .int32 1, .int32 2, 0⟩
    declared := true
    index := none }

/-- The empty name is no default, and the first option takes its place. -/
theorem not_readBack_unspoken :
    ofDeclaration "e Enum8('a' = 1, '' = 2) DEFAULT 2" = .ok unspoken ∧
      ofDeclaration (unspoken.declaration true) = .ok (unspoken.withValue (.int32 1)) ∧
      ofJson unspoken.toJson = .ok (unspoken.withValue (.int32 1)) ∧
      unspoken.withValue (.int32 1) ≠ unspoken :=
  ⟨ok_of_toOption (by decide +kernel), ok_of_toOption (by decide +kernel),
    ok_of_toOption (by decide +kernel), by decide⟩

end Column

end RowStream
