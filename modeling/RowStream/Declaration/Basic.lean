import RowStream.Declaration.Token
import RowStream.Text.Blank

/-!
# Declarations

A column is declared by its name, its type and an optional default:

```text
declaration := name type [DEFAULT literal]
name        := `quoted``name` | bare_name
type        := Nullable(type) | word [ '(' arguments ')' ]
literal     := 'quoted \' text' | token
```

`Declaration.parse` reads a declaration and `TypeExpression.parse` a type alone. Arguments are kept
as they are written; what they mean depends on the type.
-/

namespace RowStream

structure TypeExpression where
  name : String
  args : List (List Char) := []
  nullable : Bool := false
deriving DecidableEq, Repr

inductive Literal where
  /-- Text between single quotes, without its escapes. -/
  | quoted (text : List Char)
  /-- A word or number, up to the end of the declaration. -/
  | bare (text : List Char)
deriving DecidableEq, Repr

def Literal.text : Literal → List Char
  | quoted text | bare text => text

structure Declaration where
  name : String
  type : TypeExpression
  default : Option Literal
deriving DecidableEq, Repr

namespace TypeExpression

def isWordChar (c : Char) : Bool := c.isAlphanum || c = '_'

/-- Arguments in parentheses, when a text begins with them, and what follows them. -/
def arguments (cs : List Char) : Except SchemaFault (List Char × List Char) :=
  match cs with
  | '(' :: rest => Token.group 0 (Token.tokens rest)
  | _ => .ok ([], cs)

theorem length_arguments {cs args rest : List Char} (h : arguments cs = .ok (args, rest)) :
    args.length ≤ cs.length := by
  unfold arguments at h
  split at h
  · have hg := Token.group_append h
    rw [Token.text_tokens] at hg
    rw [hg]
    simp
    omega
  · cases h
    exact Nat.zero_le _

theorem length_dropWhile_le (p : Char → Bool) (cs : List Char) :
    (cs.dropWhile p).length ≤ cs.length :=
  (List.dropWhile_sublist p).length_le

theorem length_dropWhile_lt {p : Char → Bool} {cs : List Char}
    (h : (cs.takeWhile p).isEmpty = false) : (cs.dropWhile p).length < cs.length := by
  cases cs with
  | nil => cases h
  | cons c cs =>
    by_cases hc : p c = true
    · rw [List.dropWhile_cons_of_pos hc]
      exact Nat.lt_succ_of_le (length_dropWhile_le p cs)
    · rw [List.takeWhile_cons_of_neg hc] at h
      cases h

theorem length_arguments_lt {cs args rest : List Char}
    (hw : (cs.takeWhile isWordChar).isEmpty = false)
    (h : arguments (Text.trimStart (cs.dropWhile isWordChar)) = .ok (args, rest)) :
    (Text.trimStart args).length < cs.length :=
  Nat.lt_of_le_of_lt (length_dropWhile_le _ _)
    (Nat.lt_of_le_of_lt (length_arguments h)
      (Nat.lt_of_le_of_lt (length_dropWhile_le _ _) (length_dropWhile_lt hw)))

def front (cs : List Char) : Except SchemaFault (TypeExpression × List Char) :=
  match _ : (cs.takeWhile isWordChar).isEmpty with
  | true => .error .missingType
  | false =>
    match _ : arguments (Text.trimStart (cs.dropWhile isWordChar)) with
    | .error fault => .error fault
    | .ok (args, rest) =>
      if Text.sameLetters (cs.takeWhile isWordChar) "nullable".toList then
        match front (Text.trimStart args) with
        | .ok (inner, after) =>
          if (Text.trimStart after).isEmpty then .ok ({ inner with nullable := true }, rest)
          else .error .invalidNullable
        | .error _ => .error .invalidNullable
      else
        match Token.splitTopLevel ',' args with
        | .ok args => .ok (⟨String.ofList (cs.takeWhile isWordChar), args, false⟩, rest)
        | .error _ => .error .invalidArguments
termination_by cs.length
decreasing_by exact length_arguments_lt (by assumption) (by assumption)

def parse (cs : List Char) : Except SchemaFault TypeExpression :=
  match front (Text.trimStart cs) with
  | .error fault => .error fault
  | .ok (type, rest) =>
    let rest := Text.trimStart rest
    if rest.isEmpty then .ok type else .error (.trailing (String.ofList rest))

end TypeExpression

namespace Declaration

def namePart (cs : List Char) : Except SchemaFault (String × List Char) :=
  match cs with
  | [] => .error .missingName
  | '`' :: rest =>
    match Quoted.section? '`' rest with
    | some (inner, rest) => .ok (String.ofList (Quoted.undouble inner), rest)
    | none => .error .unterminatedName
  | cs => .ok (String.ofList (cs.takeWhile (!Text.isBlank ·)), cs.dropWhile (!Text.isBlank ·))

def keyword : List Char := "DEFAULT".toList

/-- What follows the keyword, when a text begins with it in any case and it ends there. -/
def afterKeyword? (cs : List Char) : Option (List Char) :=
  let rest := cs.drop keyword.length
  if Text.sameLetters (cs.take keyword.length) keyword && rest.head?.all Text.isBlank then some rest
  else none

def literalPart (cs : List Char) : Except SchemaFault (Literal × List Char) :=
  match cs with
  | [] => .error .missingDefault
  | '\'' :: rest =>
    match Quoted.section? '\'' rest with
    | some (inner, rest) => .ok (.quoted (Quoted.unescape inner), rest)
    | none => .error .unterminatedLiteral
  | cs => .ok (.bare (Text.trimEnd cs), [])

def defaultPart (cs : List Char) : Except SchemaFault (Option Literal × List Char) :=
  match afterKeyword? cs with
  | some rest => (literalPart (Text.trimStart rest)).map fun (l, rest) => (some l, rest)
  | none => .ok (none, cs)

def parse (cs : List Char) : Except SchemaFault Declaration := do
  let (name, rest) ← namePart (Text.trimStart cs)
  let (type, rest) ← TypeExpression.front (Text.trimStart rest)
  let (default, rest) ← defaultPart (Text.trimStart rest)
  let rest := Text.trimStart rest
  if rest.isEmpty then .ok ⟨name, type, default⟩
  else .error (.trailing (String.ofList rest))

end Declaration

end RowStream
