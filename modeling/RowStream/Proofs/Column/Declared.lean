import RowStream.Proofs.Column.Settled
import RowStream.Proofs.Declaration.Written
import RowStream.Proofs.Value.Parse

/-!
# Columns declared again

The declaration of a column is a name, a type with arguments and a default, as they are written in
every declaration. Parsing it gives the draft of the column that names the same parts.
-/

namespace RowStream

open Text.Numeral TypeExpression Declaration

namespace Token

theorem walk_literal (stop : Char → Bool) (cs : List Char) :
    walk stop 0 (tokens (Quoted.literal cs)) = some 0 := by
  have hsection : (Quoted.section? '\'' (cs.flatMap Quoted.escape ++ ['\''])) =
      some (cs.flatMap Quoted.escape, []) := Quoted.section?_escape cs (by simp)
  unfold Quoted.literal
  rw [List.cons_append, walk_quoted (by decide) hsection]
  rfl

theorem trim_literal (cs : List Char) : Text.trim (Quoted.literal cs) = Quoted.literal cs := by
  apply Text.trim_of_ends_not_blank
  · rfl
  · rw [Quoted.getLast?_literal]
    rfl

theorem isPiece_literal (separator : Char) (cs : List Char) :
    IsPiece separator (Quoted.literal cs) :=
  ⟨walk_literal _ cs, trim_literal cs, List.cons_ne_nil _ _⟩

theorem isPlain_of_isNumeralChar {c : Char} (h : isNumeralChar c = true) : isPlain c = true :=
  isPlain_of_class (by decide) h

theorem isPiece_numeral {separator : Char} (hsep : isNumeralChar separator = false)
    {cs : List Char} (h : IsNumeral cs) : IsPiece separator cs := by
  refine ⟨?_, h.trim, h.nonempty⟩
  apply walk_plain (fun c hc => isPlain_of_isNumeralChar (h.chars c hc))
  intro c hc
  apply beq_false_of_ne
  rintro rfl
  rw [h.chars c hc] at hsep
  cases hsep

end Token

open Token

theorem ColumnType.isName (t : ColumnType) : IsName t.name.toList := by
  cases t <;> exact ⟨List.all_eq_true.1 (by decide), by decide, by decide⟩

theorem isNumeral_nat (n : Nat) : IsNumeral (toString n).toList := isNumeral_toString (n : Int)

namespace Draft

def writtenOption (o : String × Int32) : List Char :=
  Quoted.literal o.1.toList ++ " = ".toList ++ (toString o.2.toInt).toList

theorem isPiece_writtenOption (o : String × Int32) : IsPiece ',' (writtenOption o) := by
  have hnumeral := isNumeral_toString o.2.toInt
  have hcomma : ∀ c ∈ (toString o.2.toInt).toList, (c == ',') = false := by
    intro c hc
    apply beq_false_of_ne
    rintro rfl
    exact absurd (hnumeral.chars _ hc) (by decide)
  refine ⟨?_, ?_, List.cons_ne_nil _ _⟩
  · unfold writtenOption
    rw [List.append_assoc, walk_append_text (walk_literal _ _) (by rintro c ⟨⟩; decide)]
    change walk _ 0 (tokens (' ' :: '=' :: ' ' :: (toString o.2.toInt).toList)) = _
    rw [tokens_cons_char (by decide), walk_char (by decide) rfl, tokens_cons_char (by decide),
      walk_char (by decide) rfl, tokens_cons_char (by decide), walk_char (by decide) rfl]
    exact walk_plain (fun c hc => isPlain_of_isNumeralChar (hnumeral.chars c hc)) hcomma 0
  · apply Text.trim_of_ends_not_blank
    · rfl
    · have hlast := Text.getLast?_not_blank fun c hc =>
        isBlank_of_isNumeralChar (hnumeral.chars c hc)
      obtain ⟨c, hc⟩ := Option.isSome_iff_exists.1 (List.getLast?_isSome.2 hnumeral.nonempty)
      unfold writtenOption
      rw [hc] at hlast
      rw [List.getLast?_append, hc]
      exact hlast

end Draft

/-- A literal that is not taken for the absence of a default. -/
def Literal.IsDefault : Literal → Prop
  | .quoted _ => True
  | .bare word => Text.sameLetters word "null".toList = false

namespace Column

theorem toList_literalText (s : String) :
    (Quoted.literalText s).toList = Quoted.literal s.toList := String.toList_ofList

theorem toList_optionsText (options : List (String × Int32)) : (optionsText options).toList =
    [',', ' '].intercalate (options.map fun (name, n) =>
      Quoted.literal name.toList ++ " = ".toList ++ (toString n.toInt).toList) := by
  have hseparator : ", ".toList = [',', ' '] := by decide
  unfold optionsText
  rw [String.toList_intercalate, List.map_map, hseparator]
  apply congrArg
  apply List.map_congr_left
  rintro ⟨name, n⟩ -
  simp [toList_literalText]

theorem isPiece_nat (n : Nat) : IsPiece ',' (toString n).toList :=
  isPiece_numeral (by decide) (isNumeral_nat n)

theorem numberArg_toString {type : ColumnType} {args : List (List Char)} {i n : Nat}
    (harg : args[i]? = some (toString n).toList) (hn : n ≤ maxWord32) :
    Draft.numberArg type args i = .ok (some n) := by
  unfold Draft.numberArg
  rw [harg]
  dsimp only
  rw [(isNumeral_nat n).trim, unsignedUpTo?_toString hn]

theorem textArg_literal {args : List (List Char)} {i : Nat} {s : String}
    (harg : args[i]? = some (Quoted.literal s.toList)) : Draft.textArg args i = some s := by
  unfold Draft.textArg
  rw [harg, Option.map_some, Quoted.unquote_literal, String.ofList_toList]

theorem ofName_name (t : ColumnType) : ColumnType.ofName t.name = t := by
  unfold ColumnType.ofName
  rw [ColumnType.lookup?_name]
  rfl

variable [Zone.Catalogue] {c : Column}

def typeArgs (c : Column) : Option (List (List Char)) :=
  match c.type with
  | .fixedString => some [(toString c.length).toList]
  | .dateTime => c.zone.map fun z => [Quoted.literal z.name.toList]
  | .dateTime64 =>
    some ((toString c.scale).toList :: (c.zone.map fun z => Quoted.literal z.name.toList).toList)
  | .decimal => some [(toString c.precision).toList, (toString c.scale).toList]
  | t =>
    if t.isSizedDecimal then some [(toString c.scale).toList]
    else if t.isEnum then
      some (c.options.map fun (name, n) =>
        Quoted.literal name.toList ++ " = ".toList ++ (toString n.toInt).toList)
    else none

def literal (c : Column) : Literal :=
  match c.defaultOption?, c.cell.value with
  | some option, _ => .quoted option.toList
  | none, .text s => .quoted s.toList
  | none, v => .bare v.toText.toList

theorem toList_baseType (c : Column) : c.baseType.toList = written c.type.name.toList c.typeArgs := by
  have hstring : ∀ s : String, toString s = s := fun _ => rfl
  unfold baseType typeArgs
  cases c.type with
  | fixedString | decimal => simp [hstring, written, ColumnType.name]
  | dateTime | dateTime64 =>
      cases c.zone <;> simp [hstring, written, ColumnType.name, toList_literalText]
  | decimal32 | decimal64 | decimal128 | decimal256 =>
      simp [hstring, written, ColumnType.isSizedDecimal]
  | enum | enum8 | enum16 =>
      simp [hstring, written, ColumnType.isSizedDecimal, ColumnType.isEnum, toList_optionsText]
  | _ => rfl

theorem toList_typeText (c : Column) :
    c.typeText.toList = writtenIn c.nullable (written c.type.name.toList c.typeArgs) := by
  have hstring : ∀ s : String, toString s = s := fun _ => rfl
  unfold typeText writtenIn
  split
  · next h => simp [hstring, toList_baseType]
  · next h => exact toList_baseType c

theorem toList_defaultLiteral (c : Column) : c.defaultLiteral.toList = c.literal.written := by
  unfold defaultLiteral literal
  cases c.defaultOption? with
  | some option => exact toList_literalText option
  | none =>
      cases c.cell.value with
      | text s => exact toList_literalText s
      | _ => rfl

theorem toList_declaration (c : Column) (withDefault : Bool) :
    (c.declaration withDefault).toList = Quoted.identifier c.name.toList ++
      ' ' :: (writtenIn c.nullable (written c.type.name.toList c.typeArgs) ++
        writtenDefault (if withDefault && c.declaresDefault then some c.literal else none)) := by
  have hname : (Quoted.identifierText c.name).toList = Quoted.identifier c.name.toList :=
    String.toList_ofList
  have hhead : (Quoted.identifierText c.name ++ " " ++ c.typeText).toList =
      Quoted.identifier c.name.toList ++
        ' ' :: writtenIn c.nullable (written c.type.name.toList c.typeArgs) := by
    rw [String.toList_append, String.toList_append, hname, toList_typeText, List.append_assoc]
    rfl
  unfold declaration
  dsimp only
  by_cases h : (withDefault && c.declaresDefault) = true
  · rw [if_pos h, if_pos h, String.toList_append, String.toList_append, hhead,
      toList_defaultLiteral, List.append_assoc, List.append_assoc]
    rfl
  · rw [if_neg h, if_neg h, hhead]
    unfold writtenDefault
    rw [List.append_nil]

/-- What the parts of a column keep to so that its type names them all. -/
structure Declarable (c : Column) : Prop where
  length : c.length ≤ maxWord32
  precision : c.precision ≤ maxWord32
  scale : c.scale ≤ maxWord32
  zone : c.type.acceptsZone = false → c.zone = none
  options : c.type.isEnum = false → c.options = []

theorem mem_typeArgs {a : List Char} (h : a ∈ c.typeArgs.getD []) :
    (∃ n : Nat, a = (toString n).toList) ∨ (∃ s, a = Quoted.literal s) ∨
      ∃ o, a = Draft.writtenOption o := by
  have hzone : ∀ {z : Option Zone}, a ∈ (z.map fun z => Quoted.literal z.name.toList).toList →
      ∃ s, a = Quoted.literal s := by
    intro z ha
    rw [Option.mem_toList, Option.map_eq_some_iff] at ha
    obtain ⟨z, -, rfl⟩ := ha
    exact ⟨z.name.toList, rfl⟩
  unfold typeArgs at h
  split at h
  · exact .inl ⟨_, List.mem_singleton.1 h⟩
  · cases hz : c.zone with
    | none =>
        rw [hz] at h
        cases h
    | some z =>
        rw [hz] at h
        exact .inr (.inl ⟨_, List.mem_singleton.1 h⟩)
  · rcases List.mem_cons.1 h with h | h
    · exact .inl ⟨_, h⟩
    · exact .inr (.inl (hzone h))
  · rcases List.mem_cons.1 h with h | h
    · exact .inl ⟨_, h⟩
    · exact .inl ⟨_, List.mem_singleton.1 h⟩
  · split at h
    · exact .inl ⟨_, List.mem_singleton.1 h⟩
    · split at h
      · obtain ⟨o, -, rfl⟩ := List.mem_map.1 h
        exact .inr (.inr ⟨o, rfl⟩)
      · cases h

theorem isPiece_typeArgs (c : Column) : ∀ a ∈ c.typeArgs.getD [], IsPiece ',' a := by
  intro a ha
  rcases mem_typeArgs ha with ⟨n, rfl⟩ | ⟨s, rfl⟩ | ⟨o, rfl⟩
  · exact isPiece_nat n
  · exact isPiece_literal ',' s
  · exact Draft.isPiece_writtenOption o

/-- The arguments of the type give back the parts of the column. -/
theorem ofType_typeArgs (hc : c.Declarable) (henum : c.type.isEnum = false) :
    Draft.ofType c.name ⟨c.type.name, c.typeArgs.getD [], c.nullable⟩ = .ok (c.settled none) := by
  have hoptions := hc.options henum
  have hzone := hc.zone
  have hplain : c.type.acceptsZone = false → c.zone.map Zone.name = none := by
    intro h
    rw [hzone h]
    rfl
  unfold Draft.ofType typeArgs settled
  dsimp only
  rw [ofName_name, hoptions]
  cases htype : c.type with
  | fixedString =>
      dsimp only
      rw [numberArg_toString rfl hc.length, hplain (by rw [htype]; rfl)]
      rfl
  | dateTime =>
      cases hz : c.zone with
      | none => rfl
      | some z =>
          dsimp only [Option.map, Option.getD]
          rw [textArg_literal rfl]
          rfl
  | dateTime64 =>
      cases hz : c.zone with
      | none =>
          dsimp only [Option.map, Option.getD, Option.toList]
          rw [numberArg_toString rfl hc.scale]
          rfl
      | some z =>
          dsimp only [Option.map, Option.getD, Option.toList]
          rw [numberArg_toString rfl hc.scale, textArg_literal rfl]
          rfl
  | decimal =>
      dsimp only [Option.getD]
      rw [numberArg_toString rfl hc.precision, numberArg_toString rfl hc.scale,
        hplain (by rw [htype]; rfl)]
      rfl
  | decimal32 | decimal64 | decimal128 | decimal256 =>
      rw [hplain (by rw [htype]; rfl)]
      dsimp only [Option.getD]
      rw [numberArg_toString rfl hc.scale]
      rfl
  | enum | enum8 | enum16 =>
      rw [htype] at henum
      cases henum
  | _ =>
      rw [hplain (by rw [htype]; rfl)]
      rfl

/-- The default that a literal declares. -/
def declaredDefault (literal : Option Literal) : Option RawDefault :=
  literal.map fun l => .text (String.ofList l.text)

theorem draft_of_parts {l : Option Literal}
    (htype : Draft.ofType c.name ⟨c.type.name, c.typeArgs.getD [], c.nullable⟩ =
      .ok (c.settled none))
    (hstand : ∀ x ∈ l, x.CanStand) (hdefault : ∀ x ∈ l, x.IsDefault) :
    Draft.ofDeclaration (Quoted.identifier c.name.toList ++
        ' ' :: (writtenIn c.nullable (written c.type.name.toList c.typeArgs) ++
          writtenDefault l)) =
      .ok (c.settled (declaredDefault l)) := by
  unfold Draft.ofDeclaration
  rw [parse_written _ (ColumnType.isName c.type) c.isPiece_typeArgs hstand]
  simp only [bind, Except.bind]
  rw [String.ofList_toList, String.ofList_toList, htype]
  cases l with
  | none => rfl
  | some l =>
      cases l with
      | quoted text => rfl
      | bare word =>
          have hword : Text.sameLetters word "null".toList = false := hdefault _ rfl
          dsimp only
          rw [hword]
          rfl

/-- The declaration of a column is read as the draft that names its parts. -/
theorem draft_of_written (hc : c.Declarable) (henum : c.type.isEnum = false) {l : Option Literal}
    (hstand : ∀ x ∈ l, x.CanStand) (hdefault : ∀ x ∈ l, x.IsDefault) :
    Draft.ofDeclaration (Quoted.identifier c.name.toList ++
        ' ' :: (writtenIn c.nullable (written c.type.name.toList c.typeArgs) ++
          writtenDefault l)) =
      .ok (c.settled (declaredDefault l)) :=
  draft_of_parts (ofType_typeArgs hc henum) hstand hdefault

end Column

end RowStream
