import RowStream.Error
import RowStream.Declaration.Quoted

/-!
# Tokens of declarations

A text as single characters and quoted sections, so that separators and parentheses inside quotes
are not seen. `text_tokens` says that the tokens make up the text; `splitTopLevel` cuts at
separators outside of quotes and parentheses, `group` ends at the parenthesis that closes a group.
-/

namespace RowStream

inductive Token where
  | char (c : Char)
  /-- A quoted section with its quote and inner text. -/
  | quoted (quote : Char) (inner : List Char)
  /-- A quote that is not closed, and all that follows it. -/
  | unclosed (quote : Char) (rest : List Char)
deriving DecidableEq, Repr

namespace Token

def text : Token → List Char
  | char c => [c]
  | quoted quote inner => quote :: inner ++ [quote]
  | unclosed quote rest => quote :: rest

def textOf (tokens : List Token) : List Char := tokens.flatMap text

/-- The tokens of a text after its first `skip` characters, which belong to a token before. -/
def tokensFrom (skip : Nat) : List Char → List Token
  | [] => []
  | c :: cs =>
    match skip with
    | skip + 1 => tokensFrom skip cs
    | 0 =>
      if Quoted.isQuote c then
        match Quoted.section? c cs with
        | some (inner, _) => quoted c inner :: tokensFrom (inner.length + 1) cs
        | none => [unclosed c cs]
      else char c :: tokensFrom 0 cs

def tokens (cs : List Char) : List Token := tokensFrom 0 cs

theorem tokensFrom_eq (skip : Nat) (cs : List Char) :
    tokensFrom skip cs = tokensFrom 0 (cs.drop skip) := by
  induction cs generalizing skip with
  | nil => simp [tokensFrom]
  | cons c cs ih =>
    cases skip with
    | zero => rfl
    | succ skip => simp [tokensFrom, ih]

theorem text_tokensFrom (skip : Nat) (cs : List Char) :
    textOf (tokensFrom skip cs) = cs.drop skip := by
  induction cs generalizing skip with
  | nil => simp [tokensFrom, textOf]
  | cons c cs ih =>
    cases skip with
    | succ skip => simpa [tokensFrom] using ih skip
    | zero =>
      have ih' : ∀ skip, (tokensFrom skip cs).flatMap text = cs.drop skip := ih
      simp only [tokensFrom, List.drop_zero]
      split
      · split
        · next inner rest h =>
          have hcs := Quoted.section?_append h
          simp only [textOf, List.flatMap_cons, ih', text]
          simp [hcs]
        · simp [textOf, text]
      · simp [textOf, ih', text]

theorem text_tokens (cs : List Char) : textOf (tokens cs) = cs := text_tokensFrom 0 cs

def extend (front : List Char) : List (List Char) → List (List Char)
  | [] => [front]
  | piece :: pieces => (front ++ piece) :: pieces

/-- The pieces between separators, `depth` parentheses being open. -/
def pieces (separator : Char) (depth : Nat) : List Token → Except SchemaFault (List (List Char))
  | [] => if depth = 0 then .ok [[]] else .error .unbalanced
  | unclosed .. :: _ => .error .unterminatedQuote
  | quoted quote inner :: rest =>
    (pieces separator depth rest).map (extend (quote :: inner ++ [quote]))
  | char c :: rest =>
    if c = '(' then (pieces separator (depth + 1) rest).map (extend [c])
    else if c = ')' then
      match depth with
      | 0 => .error .unbalanced
      | depth + 1 => (pieces separator depth rest).map (extend [c])
    else if c = separator && depth = 0 then (pieces separator depth rest).map ([] :: ·)
    else (pieces separator depth rest).map (extend [c])

/-- Cuts a text at the separators outside of quotes and parentheses. Pieces lose the blanks around
them, and blank ones are dropped. -/
def splitTopLevel (separator : Char) (cs : List Char) : Except SchemaFault (List (List Char)) :=
  (pieces separator 0 (tokens cs)).map fun ps =>
    (ps.map Text.trim).filter fun piece => !piece.isEmpty

/-- The text up to the parenthesis that closes a group inside of which `depth` more are open, and
what follows that parenthesis. -/
def group (depth : Nat) : List Token → Except SchemaFault (List Char × List Char)
  | [] => .error .unbalanced
  | unclosed .. :: _ => .error .unterminatedQuote
  | quoted quote inner :: rest =>
    (group depth rest).map fun (text, after) => (quote :: inner ++ quote :: text, after)
  | char c :: rest =>
    if c = '(' then (group (depth + 1) rest).map fun (text, after) => (c :: text, after)
    else if c = ')' then
      match depth with
      | 0 => .ok ([], textOf rest)
      | depth + 1 => (group depth rest).map fun (text, after) => (c :: text, after)
    else (group depth rest).map fun (text, after) => (c :: text, after)

theorem group_append {depth : Nat} {ts : List Token} {inner after : List Char}
    (h : group depth ts = .ok (inner, after)) : textOf ts = inner ++ ')' :: after := by
  have split {x : Except SchemaFault (List Char × List Char)}
      {f : List Char × List Char → List Char × List Char} {r : List Char × List Char}
      (h : x.map f = .ok r) : ∃ p, x = .ok p ∧ f p = r := by
    cases x with
    | error e => cases h
    | ok p => exact ⟨p, rfl, by cases h; rfl⟩
  fun_induction group depth ts generalizing inner after with
  | case1 => cases h
  | case2 => cases h
  | case3 depth quote body rest ih =>
    obtain ⟨⟨i, a⟩, hg, he⟩ := split h
    cases he
    simp only [textOf, List.flatMap_cons, text]
    rw [show rest.flatMap text = _ from ih hg]
    simp
  | case4 depth rest ih =>
    obtain ⟨⟨i, a⟩, hg, he⟩ := split h
    cases he
    simp only [textOf, List.flatMap_cons, text]
    rw [show rest.flatMap text = _ from ih hg]
    rfl
  | case5 => cases h; rfl
  | case6 rest depth _ ih =>
    obtain ⟨⟨i, a⟩, hg, he⟩ := split h
    cases he
    simp only [textOf, List.flatMap_cons, text]
    rw [show rest.flatMap text = _ from ih hg]
    rfl
  | case7 depth c rest _ _ ih =>
    obtain ⟨⟨i, a⟩, hg, he⟩ := split h
    cases he
    simp only [textOf, List.flatMap_cons, text]
    rw [show rest.flatMap text = _ from ih hg]
    rfl

end Token

end RowStream
