import RowStream.Proofs.Column.Declared
import RowStream.Proofs.Value.Text

/-!
# Declarations between others

Whatever its name, its options and its default are, the declaration of a column has its quotes and
its parentheses closed, no comma outside of them and no blanks around it. So it can stand between
commas and is found there as it is.
-/

namespace RowStream

open Text Token TypeExpression Declaration

namespace Token

theorem isPiece_bare {separator : Char} (hsep : isBareChar separator = false) {cs : List Char}
    (h : IsBare cs) : IsPiece separator cs := by
  refine ⟨?_, h.trim, h.nonempty⟩
  apply walk_plain (fun c hc => isPlain_of_class (by decide) (h.chars c hc))
  intro c hc
  apply beq_false_of_ne
  rintro rfl
  rw [h.chars c hc] at hsep
  cases hsep

theorem walk_identifier {stop : Char → Bool} (name : List Char) {more : List Char}
    (h : more.head? ≠ some '`') (depth : Nat) :
    walk stop depth (tokens (Quoted.identifier name ++ more)) = walk stop depth (tokens more) := by
  have hbody : Quoted.identifier name ++ more = '`' :: (Quoted.double name ++ '`' :: more) := by
    simp [Quoted.identifier]
  rw [hbody, walk_quoted (by decide) (Quoted.section?_double name h)]

end Token

namespace Declaration

theorem walk_writtenDefault {default : Option Literal}
    (h : ∀ l ∈ default, IsPiece ',' l.written) :
    walk (· == ',') 0 (tokens (writtenDefault default)) = some 0 := by
  cases default with
  | none => rfl
  | some l =>
      have hplain : ∀ c ∈ " DEFAULT ".toList, isPlain c = true := List.all_eq_true.1 (by decide)
      have hcomma : ∀ c ∈ " DEFAULT ".toList, (c == ',') = false := by simp
      unfold writtenDefault
      rw [walk_plain_append hplain hcomma]
      exact (h l rfl).walks

theorem head?_writtenDefault (default : Option Literal) :
    ∀ c, (writtenDefault default).head? = some c → Quoted.isQuote c = false := by
  cases default with
  | none =>
      intro c hc
      cases hc
  | some l =>
      rintro c ⟨⟩
      decide

end Declaration

namespace TypeExpression

variable {name : List Char} {args : Option (List (List Char))}

theorem written_ne_nil (hn : IsName name) : written name args ≠ [] := by
  cases args with
  | none => exact hn.nonempty
  | some args =>
      unfold written
      exact List.append_ne_nil_of_right_ne_nil _ (List.cons_ne_nil _ _)

theorem writtenIn_ne_nil (nullable : Bool) (hn : IsName name) :
    writtenIn nullable (written name args) ≠ [] := by
  cases nullable with
  | false => exact written_ne_nil hn
  | true => exact List.append_ne_nil_of_right_ne_nil _ (List.cons_ne_nil _ _)

theorem getLast?_written (hn : IsName name) :
    (written name args).getLast?.any isBlank = false := by
  cases args with
  | none => exact getLast?_not_blank fun c hc => isBlank_of_isWordChar (hn.word c hc)
  | some args =>
      unfold written
      rw [List.getLast?_concat]
      decide

theorem getLast?_writtenIn (nullable : Bool) (hn : IsName name) :
    (writtenIn nullable (written name args)).getLast?.any isBlank = false := by
  cases nullable with
  | false => exact getLast?_written hn
  | true =>
      unfold writtenIn
      rw [if_pos rfl, List.getLast?_concat]
      decide

end TypeExpression

namespace Column

variable [Zone.Catalogue] (c : Column)

theorem isPiece_default : IsPiece ',' c.literal.written := by
  unfold literal
  cases c.defaultOption? with
  | some option => exact isPiece_literal ',' option.toList
  | none =>
      cases hvalue : c.cell.value with
      | text s => exact isPiece_literal ',' s.toList
      | _ => exact isPiece_bare (by decide) (Value.isBare_toText rfl)

/-- A declaration can stand between commas. -/
theorem isPiece_declaration (withDefault : Bool) :
    IsPiece ',' (c.declaration withDefault).toList := by
  have hname := ColumnType.isName c.type
  have hdefault : ∀ l ∈ (if withDefault && c.declaresDefault then some c.literal else none),
      IsPiece ',' l.written := by
    intro l hl
    split at hl
    · cases hl
      exact c.isPiece_default
    · cases hl
  rw [toList_declaration]
  generalize (if withDefault && c.declaresDefault then some c.literal else none) = default
    at hdefault
  refine ⟨?_, ?_, List.cons_ne_nil _ _⟩
  · have hword : ∀ d, isWordChar d = true → (d == ',') = false := by
      intro d hd
      apply beq_false_of_ne
      rintro rfl
      cases hd
    rw [walk_identifier _ (by simp), tokens_cons_char (by decide),
      walk_char (by decide) (by decide),
      walk_append_text (walk_writtenIn c.nullable hname c.isPiece_typeArgs hword)
        (head?_writtenDefault default)]
    exact walk_writtenDefault hdefault
  · apply trim_of_ends_not_blank rfl
    rw [List.append_cons, ← List.append_assoc]
    cases default with
    | none =>
        unfold writtenDefault
        rw [List.append_nil]
        exact getLast?_append_not_blank _ (writtenIn_ne_nil c.nullable hname)
          (getLast?_writtenIn c.nullable hname)
    | some l =>
        have hl := hdefault l rfl
        unfold writtenDefault
        rw [← List.append_assoc]
        exact getLast?_append_not_blank _ hl.nonempty (getLast?_not_blank_of_trim hl.trimmed)

end Column

end RowStream
