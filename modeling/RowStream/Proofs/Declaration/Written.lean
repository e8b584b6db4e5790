import RowStream.Declaration.Basic
import RowStream.Proofs.Declaration.Token

/-!
# Declarations that are written

A declaration is written as its name between backticks, its type and its default. The type is a
word, its arguments stand in parentheses with commas between them, and `Nullable` may enclose all of
it. What is written so is parsed as the declaration that was written.
-/

namespace RowStream

namespace TypeExpression

open Token

/-- A type by its name, with arguments in parentheses or without. -/
def written (name : List Char) : Option (List (List Char)) → List Char
  | none => name
  | some args => name ++ '(' :: [',', ' '].intercalate args ++ [')']

def writtenIn (nullable : Bool) (type : List Char) : List Char :=
  if nullable then "Nullable".toList ++ '(' :: type ++ [')'] else type

/-- A word that can name a type. -/
structure IsName (name : List Char) : Prop where
  word : ∀ c ∈ name, isWordChar c = true
  nonempty : name ≠ []
  other : Text.sameLetters name "nullable".toList = false

theorem isPlain_of_isWordChar {c : Char} (h : isWordChar c = true) : isPlain c = true :=
  isPlain_of_class (by decide) h

theorem isBlank_of_isWordChar {c : Char} (h : isWordChar c = true) : Text.isBlank c = false := by
  rcases Bool.or_eq_true_iff.1 h with h | h
  · exact Text.isBlank_of_isAlphanum h
  · rw [of_decide_eq_true h]
    decide

theorem walk_intercalate {args : List (List Char)} (h : ∀ a ∈ args, IsPiece ',' a) :
    walk (fun _ => false) 0 (tokens ([',', ' '].intercalate args)) = some 0 := by
  induction args with
  | nil => rfl
  | cons a args ih =>
      have ha := walk_inside 0 (h a List.mem_cons_self).walks
      cases args with
      | nil =>
          rw [List.intercalate_singleton]
          exact ha
      | cons b bs =>
          have htail := ih fun c hc => h c (List.mem_cons_of_mem _ hc)
          rw [List.intercalate_cons_cons, List.append_assoc]
          change walk _ 0 (tokens (a ++ ',' :: ' ' :: [',', ' '].intercalate (b :: bs))) = _
          rw [walk_append_text ha (by rintro c ⟨⟩; decide), tokens_cons_char (by decide),
            walk_char (by decide) rfl, tokens_cons_char (by decide), walk_char (by decide) rfl]
          exact htail

theorem walk_written {stop : Char → Bool} {name : List Char} {args : Option (List (List Char))}
    (hn : IsName name) (hargs : ∀ a ∈ args.getD [], IsPiece ',' a)
    (hstop : ∀ c, isWordChar c = true → stop c = false) :
    walk stop 0 (tokens (written name args)) = some 0 := by
  have hname : walk stop 0 (tokens name) = some 0 :=
    walk_plain (fun c hc => isPlain_of_isWordChar (hn.word c hc))
      (fun c hc => hstop c (hn.word c hc)) 0
  cases args with
  | none => exact hname
  | some args =>
      have hquote : ∀ c, ('(' :: [',', ' '].intercalate args ++ [')']).head? = some c →
          Quoted.isQuote c = false := by
        rintro c ⟨⟩
        decide
      have hbody : written name (some args) =
          name ++ ('(' :: [',', ' '].intercalate args ++ [')']) := List.append_assoc ..
      rw [hbody, walk_append_text hname hquote]
      exact walk_parentheses (walk_intercalate hargs)

theorem walk_writtenIn {stop : Char → Bool} (nullable : Bool) {name : List Char}
    {args : Option (List (List Char))} (hn : IsName name) (hargs : ∀ a ∈ args.getD [], IsPiece ',' a)
    (hstop : ∀ c, isWordChar c = true → stop c = false) :
    walk stop 0 (tokens (writtenIn nullable (written name args))) = some 0 := by
  cases nullable with
  | false => exact walk_written hn hargs hstop
  | true =>
      have hword : ∀ c ∈ "Nullable".toList, isWordChar c = true :=
        List.all_eq_true.1 (by decide)
      have hbody : writtenIn true (written name args) =
          "Nullable".toList ++ ('(' :: written name args ++ [')']) := List.append_assoc ..
      rw [hbody, walk_plain_append (fun c hc => isPlain_of_isWordChar (hword c hc))
        (fun c hc => hstop c (hword c hc))]
      exact walk_parentheses (walk_written hn hargs fun _ _ => rfl)

theorem front_of_arguments {cs args rest : List Char}
    (hname : (cs.takeWhile isWordChar).isEmpty = false)
    (hargs : arguments (Text.trimStart (cs.dropWhile isWordChar)) = .ok (args, rest)) :
    front cs =
      if Text.sameLetters (cs.takeWhile isWordChar) "nullable".toList then
        match front (Text.trimStart args) with
        | .ok (inner, after) =>
          if (Text.trimStart after).isEmpty then .ok ({ inner with nullable := true }, rest)
          else .error .invalidNullable
        | .error _ => .error .invalidNullable
      else
        match splitTopLevel ',' args with
        | .ok args => .ok (⟨String.ofList (cs.takeWhile isWordChar), args, false⟩, rest)
        | .error _ => .error .invalidArguments := by
  rw [front]
  split
  · next h =>
      rw [hname] at h
      cases h
  · split
    · next h =>
        rw [hargs] at h
        cases h
    · next h =>
        rw [hargs] at h
        cases h
        rfl

/-- What may follow a type: neither more of its name nor a parenthesis. -/
structure EndsType (after : List Char) : Prop where
  name : after.head?.any isWordChar = false
  arguments : (Text.trimStart after).head? ≠ some '('

theorem arguments_of_ends {after : List Char} (h : EndsType after) :
    arguments (Text.trimStart after) = .ok ([], Text.trimStart after) := by
  unfold arguments
  split
  · next heq =>
      exact absurd (by rw [heq]; rfl) h.arguments
  · rfl

/-- A type is found at the front of a text that it is written into. -/
theorem front_written {name after : List Char} {args : Option (List (List Char))} (hn : IsName name)
    (hargs : ∀ a ∈ args.getD [], IsPiece ',' a) (hafter : EndsType after) :
    ∃ rest, front (written name args ++ after) =
        .ok (⟨String.ofList name, args.getD [], false⟩, rest) ∧
      Text.trimStart rest = Text.trimStart after := by
  have hempty : name.isEmpty = false := by simpa using hn.nonempty
  cases args with
  | none =>
      have htake := Text.takeWhile_append hn.word hafter.name
      have hname : ((name ++ after).takeWhile isWordChar).isEmpty = false := by rw [htake, hempty]
      have hdrop : arguments (Text.trimStart ((name ++ after).dropWhile isWordChar)) =
          .ok ([], Text.trimStart after) := by
        rw [Text.dropWhile_append hn.word hafter.name, arguments_of_ends hafter]
      refine ⟨Text.trimStart after, ?_, Text.trimStart_trimStart after⟩
      unfold written
      rw [front_of_arguments hname hdrop, htake, hn.other]
      rfl
  | some args =>
      change ∀ a ∈ args, IsPiece ',' a at hargs
      have hbody : written name (some args) ++ after =
          name ++ '(' :: ([',', ' '].intercalate args ++ ')' :: after) := by
        simp [written]
      have htake : (name ++ '(' :: ([',', ' '].intercalate args ++ ')' :: after)).takeWhile
          isWordChar = name := Text.takeWhile_append hn.word rfl
      have hdrop : (name ++ '(' :: ([',', ' '].intercalate args ++ ')' :: after)).dropWhile
          isWordChar = '(' :: ([',', ' '].intercalate args ++ ')' :: after) :=
        Text.dropWhile_append hn.word rfl
      have hgroup := group_of_walk (walk_intercalate hargs) after
      refine ⟨after, ?_, rfl⟩
      rw [hbody, front_of_arguments (by rw [htake, hempty]) (by rw [hdrop]; exact hgroup), htake,
        hn.other]
      rw [splitTopLevel_intercalate (by decide) (by decide) hargs]
      rfl

theorem trimStart_written_append {name : List Char} {args : Option (List (List Char))}
    (hn : IsName name) (more : List Char) :
    Text.trimStart (written name args ++ more) = written name args ++ more := by
  obtain ⟨c, cs, rfl⟩ := List.exists_cons_of_ne_nil hn.nonempty
  have hc := isBlank_of_isWordChar (hn.word c List.mem_cons_self)
  cases args with
  | none => exact Text.trimStart_cons_of_not_blank hc _
  | some args => exact Text.trimStart_cons_of_not_blank hc _

theorem trimStart_writtenIn_append {nullable : Bool} {name : List Char}
    {args : Option (List (List Char))} (hn : IsName name) (more : List Char) :
    Text.trimStart (writtenIn nullable (written name args) ++ more) =
      writtenIn nullable (written name args) ++ more := by
  cases nullable with
  | false => exact trimStart_written_append hn more
  | true => exact Text.trimStart_cons_of_not_blank (by decide) _

theorem endsType_nil : EndsType [] := ⟨rfl, by simp [Text.trimStart]⟩

theorem front_writtenIn (nullable : Bool) {name after : List Char}
    {args : Option (List (List Char))} (hn : IsName name)
    (hargs : ∀ a ∈ args.getD [], IsPiece ',' a) (hafter : EndsType after) :
    ∃ rest, front (writtenIn nullable (written name args) ++ after) =
        .ok (⟨String.ofList name, args.getD [], nullable⟩, rest) ∧
      Text.trimStart rest = Text.trimStart after := by
  cases nullable with
  | false => exact front_written hn hargs hafter
  | true =>
      obtain ⟨rest, hinner, hrest⟩ := front_written hn hargs endsType_nil
      have hbody : writtenIn true (written name args) ++ after =
          "Nullable".toList ++ '(' :: (written name args ++ ')' :: after) := by
        simp [writtenIn]
      have hword : ∀ c ∈ "Nullable".toList, isWordChar c = true :=
        List.all_eq_true.1 (by decide)
      have htake : ("Nullable".toList ++ '(' :: (written name args ++ ')' :: after)).takeWhile
          isWordChar = "Nullable".toList := Text.takeWhile_append hword rfl
      have hdrop : ("Nullable".toList ++ '(' :: (written name args ++ ')' :: after)).dropWhile
          isWordChar = '(' :: (written name args ++ ')' :: after) :=
        Text.dropWhile_append hword rfl
      have hgroup := group_of_walk (walk_written hn hargs fun _ _ => rfl) after
      refine ⟨after, ?_, rfl⟩
      rw [List.append_nil] at hinner
      rw [hbody, front_of_arguments (by rw [htake]; decide) (by rw [hdrop]; exact hgroup), htake,
        if_pos (by decide), ← List.append_nil (written name args), trimStart_written_append hn,
        List.append_nil, hinner]
      dsimp only
      rw [hrest, if_pos (by decide)]

end TypeExpression

def Literal.written : Literal → List Char
  | .quoted text => Quoted.literal text
  | .bare word => word

/-- A word can stand bare when no blanks are around it and no quote begins it. -/
def Literal.CanStand : Literal → Prop
  | .quoted _ => True
  | .bare word => word.head?.any Text.isBlank = false ∧ word.getLast?.any Text.isBlank = false ∧
      word ≠ [] ∧ word.head? ≠ some '\''

namespace Declaration

open TypeExpression

def writtenDefault : Option Literal → List Char
  | none => []
  | some l => " DEFAULT ".toList ++ l.written

theorem literalPart_bare {word : List Char} (hne : word ≠ []) (hquote : word.head? ≠ some '\'') :
    literalPart word = .ok (.bare (Text.trimEnd word), []) := by
  unfold literalPart
  split
  · exact absurd rfl hne
  · exact absurd rfl hquote
  · rfl

theorem literalPart_quote {cs inner rest : List Char}
    (h : Quoted.section? '\'' cs = some (inner, rest)) :
    literalPart ('\'' :: cs) = .ok (.quoted (Quoted.unescape inner), rest) := by
  unfold literalPart
  split
  · next heq => cases heq
  · next heq =>
      cases heq
      rw [h]
  · next hne => exact absurd rfl (hne cs)

theorem literalPart_written {l : Literal} (h : l.CanStand) :
    literalPart (Text.trimStart (' ' :: l.written)) = .ok (l, []) := by
  rw [Text.trimStart_cons_of_blank (by decide)]
  cases l with
  | quoted text =>
      have hsection : (Quoted.section? '\'' (text.flatMap Quoted.escape ++ ['\''])) =
          some (text.flatMap Quoted.escape, []) := Quoted.section?_escape text (by simp)
      change literalPart (Text.trimStart (Quoted.literal text)) = _
      unfold Quoted.literal
      rw [List.cons_append, Text.trimStart_cons_of_not_blank (by decide),
        literalPart_quote hsection, Quoted.unescape_escape]
  | bare word =>
      obtain ⟨hfirst, hlast, hne, hquote⟩ := h
      change literalPart (Text.trimStart word) = _
      rw [Text.trimStart_of_head?_not_blank hfirst, literalPart_bare hne hquote,
        Text.trimEnd_of_getLast?_not_blank hlast]

theorem trimStart_writtenDefault (l : Literal) :
    Text.trimStart (writtenDefault (some l)) = keyword ++ ' ' :: l.written := by
  change Text.trimStart (' ' :: 'D' :: _) = _
  rw [Text.trimStart_cons_of_blank (by decide), Text.trimStart_cons_of_not_blank (by decide)]
  rfl

theorem defaultPart_written {default : Option Literal} (h : ∀ l ∈ default, l.CanStand) :
    defaultPart (Text.trimStart (writtenDefault default)) = .ok (default, []) := by
  cases default with
  | none => rfl
  | some l =>
      have hkeyword : afterKeyword? (keyword ++ ' ' :: l.written) = some (' ' :: l.written) := rfl
      rw [trimStart_writtenDefault]
      unfold defaultPart
      rw [hkeyword]
      dsimp only
      rw [literalPart_written (h l rfl)]
      rfl

theorem endsType_writtenDefault (default : Option Literal) : EndsType (writtenDefault default) := by
  cases default with
  | none => exact endsType_nil
  | some l =>
      refine ⟨rfl, ?_⟩
      rw [trimStart_writtenDefault]
      change some 'D' ≠ some '('
      decide

theorem namePart_backtick {cs inner rest : List Char}
    (h : Quoted.section? '`' cs = some (inner, rest)) :
    namePart ('`' :: cs) = .ok (String.ofList (Quoted.undouble inner), rest) := by
  unfold namePart
  split
  · next heq => cases heq
  · next heq =>
      cases heq
      rw [h]
  · next hne => exact absurd rfl (hne cs)

theorem namePart_identifier (name : List Char) {rest : List Char} (h : rest.head? ≠ some '`') :
    namePart (Quoted.identifier name ++ rest) = .ok (String.ofList name, rest) := by
  have hbody : Quoted.identifier name ++ rest = '`' :: (Quoted.double name ++ '`' :: rest) := by
    simp [Quoted.identifier]
  rw [hbody, namePart_backtick (Quoted.section?_double name h), Quoted.undouble_double]

/-- What is written is what is parsed. -/
theorem parse_written (name : List Char) {nullable : Bool} {type : List Char}
    {args : Option (List (List Char))} {default : Option Literal} (hn : IsName type)
    (hargs : ∀ a ∈ args.getD [], Token.IsPiece ',' a) (hdefault : ∀ l ∈ default, l.CanStand) :
    parse (Quoted.identifier name ++
        ' ' :: (writtenIn nullable (written type args) ++ writtenDefault default)) =
      .ok ⟨String.ofList name, ⟨String.ofList type, args.getD [], nullable⟩, default⟩ := by
  obtain ⟨rest, hfront, hrest⟩ :=
    front_writtenIn nullable hn hargs (endsType_writtenDefault default)
  have hstart : ∀ more, Text.trimStart (Quoted.identifier name ++ more) =
      Quoted.identifier name ++ more :=
    fun more => Text.trimStart_cons_of_not_blank (by decide) _
  unfold parse
  rw [hstart, namePart_identifier name (by simp)]
  simp only [bind, Except.bind]
  rw [Text.trimStart_cons_of_blank (by decide), trimStart_writtenIn_append hn, hfront]
  dsimp only
  rw [hrest, defaultPart_written hdefault]
  rfl

end Declaration

end RowStream
