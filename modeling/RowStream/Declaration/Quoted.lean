import RowStream.Text.Blank

/-!
# Quoted text

Three quotes set text apart: `'` and `"`, in which a backslash takes the next character along, and
the backtick, in which it does not. A quote written twice does not end the text. `section?` finds
the end of quoted text, `literal` and `identifier` write it, `unescape` and `undouble` read it
back. `section?_append` says that inner text and rest make up the text again.
-/

namespace RowStream.Quoted

def isQuote (c : Char) : Bool := c = '\'' || c = '`' || c = '"'

/-- Inner text and rest of what follows an opening quote, `none` when the quote is not closed. -/
def section? (quote : Char) : List Char → Option (List Char × List Char)
  | [] => none
  | [c] => if c = quote then some ([], []) else none
  | c :: d :: rest =>
    if c = '\\' && quote != '`' then
      (section? quote rest).map fun (inner, rest) => (c :: d :: inner, rest)
    else if c = quote then
      if d = quote then (section? quote rest).map fun (inner, rest) => (c :: d :: inner, rest)
      else some ([], d :: rest)
    else (section? quote (d :: rest)).map fun (inner, rest) => (c :: inner, rest)

def escaped (c : Char) : Char :=
  if c = 'n' then '\n'
  else if c = 't' then '\t'
  else if c = 'r' then '\r'
  else if c = '0' then '\x00'
  else c

/-- Resolves backslashes and quotes written twice in the inner text of a literal. -/
def unescape : List Char → List Char
  | [] => []
  | [c] => [c]
  | c :: d :: rest =>
    if c = '\\' then escaped d :: unescape rest
    else if c = '\'' && d = '\'' then '\'' :: unescape rest
    else c :: unescape (d :: rest)

def escape (c : Char) : List Char :=
  if c = '\\' then ['\\', '\\']
  else if c = '\'' then ['\\', '\'']
  else if c = '\n' then ['\\', 'n']
  else if c = '\r' then ['\\', 'r']
  else if c = '\t' then ['\\', 't']
  else if c = '\x00' then ['\\', '0']
  else [c]

def literal (cs : List Char) : List Char := '\'' :: cs.flatMap escape ++ ['\'']

def literalText (s : String) : String := String.ofList (literal s.toList)

/-- The text of a literal between single quotes; any other text stands for itself. Blanks around it
are dropped. -/
def unquote (cs : List Char) : List Char :=
  let cs := Text.trim cs
  match cs with
  | '\'' :: rest =>
    if rest.getLast? = some '\'' then unescape rest.dropLast else cs
  | _ => cs

def double : List Char → List Char
  | [] => []
  | c :: cs => if c = '`' then '`' :: '`' :: double cs else c :: double cs

def undouble : List Char → List Char
  | [] => []
  | [c] => [c]
  | c :: d :: rest =>
    if c = '`' && d = '`' then '`' :: undouble rest else c :: undouble (d :: rest)

def identifier (cs : List Char) : List Char := '`' :: double cs ++ ['`']

def identifierText (s : String) : String := String.ofList (identifier s.toList)

theorem section?_append {quote : Char} {cs inner rest : List Char}
    (h : section? quote cs = some (inner, rest)) : cs = inner ++ quote :: rest := by
  fun_induction section? quote cs generalizing inner rest with
  | case1 => cases h
  | case2 => cases h; rfl
  | case3 => cases h
  | case4 c d cs _ ih =>
    obtain ⟨⟨i, r⟩, hs, he⟩ := Option.map_eq_some_iff.1 h
    cases he
    rw [ih hs]
    rfl
  | case5 cs _ ih =>
    obtain ⟨⟨i, r⟩, hs, he⟩ := Option.map_eq_some_iff.1 h
    cases he
    rw [ih hs]
    rfl
  | case6 => cases h; rfl
  | case7 c d cs _ _ ih =>
    obtain ⟨⟨i, r⟩, hs, he⟩ := Option.map_eq_some_iff.1 h
    cases he
    rw [ih hs]
    rfl

end RowStream.Quoted
