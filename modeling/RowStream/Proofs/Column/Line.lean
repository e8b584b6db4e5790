import RowStream.Proofs.Column.Piece

/-!
# Declarations on one line

A line feed is escaped in options and defaults and is not escaped in names. So a declaration stands
on one line exactly when the name of its column does, and what stands on its first line otherwise is
the beginning of a name that does not end there, which is no declaration.
-/

namespace RowStream

open Text Token TypeExpression Declaration

namespace Text

theorem not_mem_of_class {p : Char → Bool} {c : Char} (hc : p c = false) {cs : List Char}
    (h : ∀ d ∈ cs, p d = true) : c ∉ cs := by
  intro hmem
  rw [h c hmem] at hc
  cases hc

theorem not_mem_intercalate {c : Char} {separator : List Char} (hseparator : c ∉ separator)
    {xs : List (List Char)} (h : ∀ x ∈ xs, c ∉ x) : c ∉ separator.intercalate xs := by
  induction xs with
  | nil => exact List.not_mem_nil
  | cons x xs ih =>
      rw [List.forall_mem_cons] at h
      cases xs with
      | nil =>
          rw [List.intercalate_singleton]
          exact h.1
      | cons y ys =>
          rw [List.intercalate_cons_cons, List.mem_append, List.mem_append, not_or, not_or]
          exact ⟨⟨h.1, hseparator⟩, ih h.2⟩

end Text

namespace Column

variable [Zone.Catalogue] (c : Column)

theorem lineFeed_not_mem_typeArgs : ∀ a ∈ c.typeArgs.getD [], '\n' ∉ a := by
  intro a ha
  rcases mem_typeArgs ha with ⟨n, rfl⟩ | ⟨s, rfl⟩ | ⟨o, rfl⟩
  · exact not_mem_of_class (by decide) (isNumeral_nat n).chars
  · exact Quoted.not_mem_literal s
  · have hnumber : '\n' ∉ (toString o.2.toInt).toList :=
      not_mem_of_class (by decide) (Numeral.isNumeral_toString o.2.toInt).chars
    unfold Draft.writtenOption
    rw [List.mem_append, List.mem_append, not_or, not_or]
    exact ⟨⟨Quoted.not_mem_literal _, by decide⟩, hnumber⟩

theorem lineFeed_not_mem_written : '\n' ∉ written c.type.name.toList c.typeArgs := by
  have hname : '\n' ∉ c.type.name.toList :=
    not_mem_of_class (by decide) (ColumnType.isName c.type).word
  have hargs : '\n' ∉ [',', ' '].intercalate (c.typeArgs.getD []) :=
    not_mem_intercalate (by decide) c.lineFeed_not_mem_typeArgs
  unfold written
  cases hc : c.typeArgs with
  | none => exact hname
  | some args =>
      rw [hc] at hargs
      simpa [hname] using hargs

theorem lineFeed_not_mem_type :
    '\n' ∉ writtenIn c.nullable (written c.type.name.toList c.typeArgs) := by
  have hwritten := c.lineFeed_not_mem_written
  unfold writtenIn
  split
  · simpa using hwritten
  · exact hwritten

theorem lineFeed_not_mem_literal : '\n' ∉ c.literal.written := by
  unfold literal
  cases c.defaultOption? with
  | some option => exact Quoted.not_mem_literal option.toList
  | none =>
      cases hvalue : c.cell.value with
      | text s => exact Quoted.not_mem_literal s.toList
      | _ => exact not_mem_of_class (by decide) (Value.isBare_toText rfl).chars

theorem exists_behind_name (withDefault : Bool) : ∃ rest, '\n' ∉ rest ∧
    (c.declaration withDefault).toList = '`' :: Quoted.double c.name.toList ++ rest := by
  have hdefault : '\n' ∉ writtenDefault
      (if withDefault && c.declaresDefault then some c.literal else none) := by
    split
    · unfold writtenDefault
      rw [List.mem_append, not_or]
      exact ⟨by decide, c.lineFeed_not_mem_literal⟩
    · exact List.not_mem_nil
  refine ⟨'`' :: ' ' :: (writtenIn c.nullable (written c.type.name.toList c.typeArgs) ++
    writtenDefault (if withDefault && c.declaresDefault then some c.literal else none)), ?_, ?_⟩
  · rw [List.mem_cons, List.mem_cons, List.mem_append, not_or, not_or, not_or]
    exact ⟨by decide, by decide, c.lineFeed_not_mem_type, hdefault⟩
  · rw [toList_declaration]
    unfold Quoted.identifier
    rw [List.append_assoc]
    rfl

theorem lineFeed_mem_declaration_iff (withDefault : Bool) :
    '\n' ∈ (c.declaration withDefault).toList ↔ '\n' ∈ c.name.toList := by
  obtain ⟨rest, hrest, hdeclaration⟩ := c.exists_behind_name withDefault
  rw [hdeclaration, List.mem_append, List.mem_cons, Quoted.mem_double]
  simp [hrest]

/-- The first line of a declaration on several lines is the beginning of its name. -/
theorem exists_first_line {c : Column} (h : '\n' ∈ c.name.toList) (withDefault : Bool) :
    ∃ front rest, '\n' ∉ front ∧
      (c.declaration withDefault).toList = ('`' :: Quoted.double front) ++ '\n' :: rest := by
  obtain ⟨behind, -, hdeclaration⟩ := c.exists_behind_name withDefault
  obtain ⟨front, rest, hname, hfront⟩ := List.eq_append_cons_of_mem h
  refine ⟨front, Quoted.double rest ++ behind, hfront, ?_⟩
  rw [hdeclaration, hname, Quoted.double_append, Quoted.double, if_neg (by decide)]
  simp

end Column

namespace Declaration

theorem section?_trimEnd {cs : List Char} (h : Quoted.section? '`' cs = none) :
    Quoted.section? '`' (trimEnd cs) = none := by
  obtain ⟨blanks, happend, hblank⟩ := exists_trimEnd_append cs
  have hmore : blanks.head? ≠ some '`' := by
    intro hquote
    exact absurd (hblank '`' (List.mem_of_head? hquote)) (by decide)
  cases hs : Quoted.section? '`' (trimEnd cs) with
  | none => rfl
  | some p =>
      have hsection := section?_append_of_some (by decide) hs hmore
      rw [happend, h] at hsection
      cases hsection

theorem namePart_open {cs : List Char} (h : Quoted.section? '`' cs = none) :
    namePart ('`' :: cs) = .error .unterminatedName := by
  unfold namePart
  split
  · next heq => cases heq
  · next heq =>
      cases heq
      rw [h]
  · next hne => exact absurd rfl (hne cs)

/-- The beginning of a name that does not end is refused. -/
theorem ofDeclaration_open [Zone.Catalogue] {cs : List Char} (h : Quoted.section? '`' cs = none) :
    Column.ofDeclaration (String.ofList ('`' :: cs)) =
      .error (.schema .unterminatedName (String.ofList ('`' :: cs))) := by
  unfold Column.ofDeclaration Draft.ofDeclaration parse
  rw [String.toList_ofList, trimStart_cons_of_not_blank (by decide), namePart_open h]
  rfl

end Declaration

end RowStream
