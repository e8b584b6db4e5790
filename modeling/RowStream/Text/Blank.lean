/-!
# Blank characters

The characters that Unicode gives the property `White_Space`, and the functions that strip them from
the ends of a text.
-/

namespace RowStream.Text

/-- The property `White_Space`: the ASCII blanks, next line, no-break space and the wider blanks. -/
def isBlank (c : Char) : Bool :=
  let n := c.toNat
  (9 ≤ n && n ≤ 13) || n == 0x20 || n == 0x85 || n == 0xA0 || n == 0x1680 ||
    (0x2000 ≤ n && n ≤ 0x200A) || n == 0x2028 || n == 0x2029 || n == 0x202F || n == 0x205F ||
    n == 0x3000

def trimStart (cs : List Char) : List Char := cs.dropWhile isBlank

def trimEnd (cs : List Char) : List Char := (cs.reverse.dropWhile isBlank).reverse

def trim (cs : List Char) : List Char := trimEnd (trimStart cs)

def trimmed (s : String) : String := String.ofList (trim s.toList)

def allBlank (s : String) : Bool := s.toList.all isBlank

def sameLetters (cs ds : List Char) : Bool := cs.map Char.toLower == ds.map Char.toLower

def sameWord (s t : String) : Bool := sameLetters s.toList t.toList

def lowerAscii (s : String) : String := String.ofList (s.toList.map Char.toLower)

theorem trimStart_cons_of_not_blank {c : Char} (h : isBlank c = false) (cs : List Char) :
    trimStart (c :: cs) = c :: cs := by
  simp [trimStart, h]

theorem trimEnd_append_singleton_of_not_blank {c : Char} (h : isBlank c = false) (cs : List Char) :
    trimEnd (cs ++ [c]) = cs ++ [c] := by
  simp [trimEnd, h]

end RowStream.Text
