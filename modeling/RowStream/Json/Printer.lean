import RowStream.Json.Basic
import RowStream.Number.Shortest

/-!
# Compact JSON text

Values are written without blanks, members in order. Whole numbers are written as they are; a
floating-point number has the fewest digits that are read back as it, with a point when it lies
between `10^-5` and `10^16` and with an exponent otherwise.
-/

namespace RowStream

structure NumberStyle where
  /-- The least power of ten of a leading digit that is written positionally. -/
  leastPositional : Int
  greatestPositional : Int

/-- Numbers of JSON text are positional from `10^-5` up to sixteen whole digits. -/
def jsonNumberStyle : NumberStyle := ⟨-5, 15⟩

def NumberStyle.text (style : NumberStyle) (d : Digits) : String :=
  if style.leastPositional ≤ d.leading && d.leading ≤ style.greatestPositional then
    if 0 ≤ d.exponent then d.positional ++ ".0" else d.positional
  else d.scientific

def jsonFloatText (x : Binary64) : String :=
  match x.parts with
  | .finite negative m q =>
    let magnitude :=
      if m == 0 then "0.0" else jsonNumberStyle.text (BinaryFormat.binary64.shortest m q)
    if negative then "-" ++ magnitude else magnitude
  | _ => "null"

def JsonNumber.text : JsonNumber → String
  | .integer n => toString n
  | .float x => jsonFloatText x

namespace Json

def escape (c : Char) : List Char :=
  if c = '"' then ['\\', '"']
  else if c = '\\' then ['\\', '\\']
  else
    let n := c.toNat
    if n == 8 then ['\\', 'b']
    else if n == 9 then ['\\', 't']
    else if n == 10 then ['\\', 'n']
    else if n == 12 then ['\\', 'f']
    else if n == 13 then ['\\', 'r']
    else if n < 0x20 then '\\' :: 'u' :: '0' :: '0' :: Text.Numeral.hexByte n
    else [c]

def quoted (s : String) : String := String.ofList ('"' :: s.toList.flatMap escape ++ ['"'])

mutual

def text : Json → String
  | .null => "null"
  | .bool b => if b then "true" else "false"
  | .num n => n.text
  | .str s => quoted s
  | .arr items => "[" ++ itemsText items ++ "]"
  | .obj members => "\x7b" ++ membersText members ++ "\x7d"

def itemsText : List Json → String
  | [] => ""
  | [v] => v.text
  | v :: w :: rest => v.text ++ "," ++ itemsText (w :: rest)

def membersText : List (String × Json) → String
  | [] => ""
  | [(k, v)] => quoted k ++ ":" ++ v.text
  | (k, v) :: m :: rest => quoted k ++ ":" ++ v.text ++ "," ++ membersText (m :: rest)

end

end Json

end RowStream
