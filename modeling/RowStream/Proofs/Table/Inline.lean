import RowStream.Proofs.Column.Piece
import RowStream.Table

/-!
# Tables in one line

The declarations of a table, with commas between them, are taken apart again into the same
declarations, whatever names, options and defaults are in them. So the line is read as the columns
that the declarations declare, each read alone.
-/

namespace RowStream.Table

open Text Token

variable [Zone.Catalogue]

theorem toList_inline (t : Table) (withDefaults : Bool) : (t.inline withDefaults).toList =
    [',', ' '].intercalate ((t.declarations withDefaults).map String.toList) := by
  have hseparator : ", ".toList = [',', ' '] := by decide
  unfold inline
  rw [String.toList_intercalate, hseparator]

theorem mem_declarations {t : Table} {withDefaults : Bool} {cs : List Char} :
    cs ∈ (t.declarations withDefaults).map String.toList ↔
      ∃ c ∈ t.columns, (c.declaration withDefaults).toList = cs := by
  unfold declarations
  rw [List.map_map, List.mem_map]
  rfl

theorem isPiece_of_mem_declarations {t : Table} {withDefaults : Bool} {cs : List Char}
    (h : cs ∈ (t.declarations withDefaults).map String.toList) : IsPiece ',' cs := by
  obtain ⟨c, -, rfl⟩ := mem_declarations.1 h
  exact c.isPiece_declaration withDefaults

theorem head?_inline {t : Table} (withDefaults : Bool) (h : t.columns ≠ []) :
    (t.inline withDefaults).toList.head? = some '`' := by
  obtain ⟨c, rest, hcolumns⟩ := List.exists_cons_of_ne_nil h
  have hne := (c.isPiece_declaration withDefaults).nonempty
  rw [toList_inline]
  unfold declarations
  rw [hcolumns, List.map_cons, List.map_cons, head?_intercalate _ hne, Column.toList_declaration]
  rfl

theorem columnsOf_declarations (declarations : List String) :
    columnsOf (declarations.map String.toList) = declarations.mapM Column.ofDeclaration := by
  have hsame : ((fun cs => Column.ofDeclaration (String.ofList cs)) ∘ String.toList) =
      Column.ofDeclaration := by
    funext s
    exact congrArg Column.ofDeclaration String.ofList_toList
  unfold columnsOf
  rw [List.mapM_map, hsame]

theorem ofInline_intercalate {declarations : List String}
    (h : ∀ cs ∈ declarations.map String.toList, IsPiece ',' cs) :
    ofInline ([',', ' '].intercalate (declarations.map String.toList)) =
      (declarations.mapM Column.ofDeclaration).map ofColumns := by
  unfold ofInline
  rw [splitTopLevel_intercalate (by decide) (by decide) h]
  dsimp only
  rw [columnsOf_declarations]

theorem ofText_of_backtick {s : String} (htrim : trim s.toList = s.toList)
    (h : s.toList.head? = some '`') : ofText s = ofInline s.toList := by
  obtain ⟨rest, hrest⟩ : ∃ rest, s.toList = '`' :: rest := by
    cases hs : s.toList with
    | nil =>
        rw [hs] at h
        cases h
    | cons c rest =>
        rw [hs] at h
        cases h
        exact ⟨rest, rfl⟩
  have hlabel : sameLetters (('`' :: rest).take versionLabel.length) versionLabel = false :=
    sameLetters_cons_of_ne (by decide) _ _
  unfold ofText
  rw [htrim, hrest]
  dsimp only
  rw [hlabel]
  rfl

theorem ofText_inline (t : Table) (withDefaults : Bool) :
    ofText (t.inline withDefaults) =
      ((t.declarations withDefaults).mapM Column.ofDeclaration).map ofColumns := by
  have hpieces : ∀ cs ∈ (t.declarations withDefaults).map String.toList, IsPiece ',' cs :=
    fun cs hcs => isPiece_of_mem_declarations hcs
  rw [← ofInline_intercalate hpieces, ← toList_inline]
  by_cases hcolumns : t.columns = []
  · unfold inline declarations
    rw [hcolumns]
    rfl
  · apply ofText_of_backtick _ (head?_inline withDefaults hcolumns)
    rw [toList_inline]
    exact trim_intercalate _ (fun cs hcs => (hpieces cs hcs).trimmed)
      fun cs hcs => (hpieces cs hcs).nonempty

/-- A table in one line is read as the columns that its declarations declare, in their order; it is
refused when one of them is. -/
theorem ofText_inline_framed (t : Table) (withDefaults : Bool) :
    ofText (t.inline withDefaults) =
        ((t.declarations withDefaults).mapM Column.ofDeclaration).map ofColumns ∧
      ((∃ e, ofText (t.inline withDefaults) = .error e) ↔
        ∃ c ∈ t.columns, ∃ e, Column.ofDeclaration (c.declaration withDefaults) = .error e) ∧
      ofText (empty.inline withDefaults) = .ok empty := by
  refine ⟨ofText_inline t withDefaults, ?_, rfl⟩
  rw [ofText_inline, exists_map_error_iff, mapM_error_iff]
  unfold declarations
  simp only [List.mem_map, exists_exists_and_eq_and]

end RowStream.Table
