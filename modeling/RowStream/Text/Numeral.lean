import RowStream.Text.Blank

/-!
# Decimal numerals

Whole numbers as they are written in arguments and cells: ASCII digits after an optional sign.
`nat?_toDigits` says that the digits of a number are read back as that number.
-/

namespace RowStream.Text.Numeral

def nat? (cs : List Char) : Option Nat :=
  if cs.isEmpty || !cs.all Char.isDigit then none else some (Nat.ofDigitChars 10 cs 0)

def unsigned? : List Char → Option Nat
  | '+' :: cs => nat? cs
  | cs => nat? cs

def signed? : List Char → Option Int
  | '+' :: cs => (nat? cs).map Int.ofNat
  | '-' :: cs => (nat? cs).map fun n => -(n : Int)
  | cs => (nat? cs).map Int.ofNat

def unsignedUpTo? (max : Nat) (cs : List Char) : Option Nat :=
  (unsigned? cs).filter (· ≤ max)

/-- Digits that may be set apart by `_`, which must not come first. -/
def grouped? (cs : List Char) : Option Nat :=
  if cs.head? = some '_' then none else
    if cs.isEmpty || !cs.all (fun c => c.isDigit || c == '_') then none
    else some (Nat.ofDigitChars 10 (cs.filter (· != '_')) 0)

def positive? : List Char → Option Nat
  | '+' :: cs => grouped? cs
  | cs => grouped? cs

/-- A number of any size: grouped digits after an optional sign. -/
def big? : List Char → Option Int
  | '-' :: '+' :: _ => none
  | '-' :: cs => (positive? cs).map fun n => -(n : Int)
  | cs => (positive? cs).map Int.ofNat

def withSign (n : Int) : String := if n < 0 then toString n else "+" ++ toString n

def padded (width n : Nat) : String :=
  let digits := toString n
  String.ofList (List.replicate (width - digits.length) '0') ++ digits

def hexDigit (n : Nat) : Char := Nat.digitChar n

def hexByte (n : Nat) : List Char := [hexDigit (n / 16), hexDigit (n % 16)]

def hexValue? (c : Char) : Option Nat :=
  let n := c.toNat
  if 48 ≤ n && n ≤ 57 then some (n - 48)
  else if 97 ≤ n && n ≤ 102 then some (n - 87)
  else if 65 ≤ n && n ≤ 70 then some (n - 55)
  else none

theorem nat?_toDigits (n : Nat) : nat? (Nat.toDigits 10 n) = some n := by
  have hd : ∀ c ∈ Nat.toDigits 10 n, c.isDigit = true :=
    fun c hc => Nat.isDigit_of_mem_toDigits (by decide) (by decide) hc
  simp [nat?, List.all_eq_true.2 hd, Nat.ofDigitChars_toDigits]

end RowStream.Text.Numeral
