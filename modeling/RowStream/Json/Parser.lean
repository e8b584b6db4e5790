import RowStream.Json.Basic
import RowStream.Text.Numeral

/-!
# Reading JSON text

`Json.parse?` accepts exactly one value with blanks around it, nested less than 128 deep. A number
with a fraction, an exponent or too many digits is scaled from its leading digits: as many as fit an
unsigned word of 64 bits, rounded once, then multiplied or divided by a rounded power of ten.
-/

namespace RowStream.JsonParser

def skipBlanks (cs : List Char) : List Char :=
  cs.dropWhile fun c => c == ' ' || c == '\n' || c == '\t' || c == '\r'

/-- The greatest power of ten that the scaling divides or multiplies by at once. -/
def greatestPower : Nat := 308

def floatPower (n : Nat) : Binary64 := Binary64.ofRatio false (tenPow n) 1

/-- Scales `x` by `10 ^ e`: `none` when the result is too great. -/
def scale (x : Binary64) (e : Int) : Option Binary64 :=
  if 0 ≤ e then
    if x.parts.isZero then some x
    else if (greatestPower : Int) < e then none
    else
      let y := x.mulFinite (floatPower e.toNat)
      match y.parts with
      | .finite .. => some y
      | _ => none
  else if (-e).toNat ≤ greatestPower then some (x.divFinite (floatPower (-e).toNat))
  else
    let x := x.divFinite (floatPower greatestPower)
    if (-e).toNat - greatestPower ≤ greatestPower then
      some (x.divFinite (floatPower ((-e).toNat - greatestPower)))
    else some Binary64.zero

def ofParts (negative : Bool) (significand : Nat) (e : Int) : Option JsonNumber :=
  (scale (Binary64.ofInt significand) e).map fun x => .float (if negative then x.neg else x)

/-- Takes digits into a significand as long as it fits a word: the significand, the number of digits
taken, and the rest. -/
def takeDigits (significand taken : Nat) : List Char → Nat × Nat × List Char
  | [] => (significand, taken, [])
  | c :: cs =>
    let next := significand * 10 + (c.toNat - 48)
    if c.isDigit && next ≤ maxWord64 then takeDigits next (taken + 1) cs
    else (significand, taken, c :: cs)

/-- The exponents at which the text of a number stops being meaningful. -/
def greatestExponent : Nat := 0x7FFFFFFF

def finish (negative : Bool) (significand : Nat) (e : Int) (cs : List Char) :
    Option (JsonNumber × List Char) :=
  match cs with
  | [] => (ofParts negative significand e).map (·, [])
  | c :: rest =>
    if c == 'e' || c == 'E' then
      let (down, rest) :=
        match rest with
        | '+' :: rest => (false, rest)
        | '-' :: rest => (true, rest)
        | rest => (false, rest)
      let digits := rest.takeWhile Char.isDigit
      let rest := rest.dropWhile Char.isDigit
      if digits.isEmpty then none
      else
        let n := Nat.ofDigitChars 10 digits 0
        if greatestExponent < n then
          if significand != 0 && !down then none
          else some (.float (if negative then Binary64.zero.neg else Binary64.zero), rest)
        else
          let e := if down then e - n else e + n
          (ofParts negative significand e).map (·, rest)
    else (ofParts negative significand e).map (·, c :: rest)

def afterWhole (negative : Bool) (significand : Nat) (dropped : Nat) (cs : List Char) :
    Option (JsonNumber × List Char) :=
  match cs with
  | '.' :: frac =>
    let (significand', taken, rest) := takeDigits significand 0 frac
    match frac with
    | c :: _ =>
      if c.isDigit then
        finish negative significand' ((dropped : Int) - taken) (rest.dropWhile Char.isDigit)
      else none
    | [] => none
  | 'e' :: _ | 'E' :: _ => finish negative significand dropped cs
  | _ =>
    if dropped == 0 then
      if negative then
        if significand == 0 || 0x8000000000000000 < significand then
          (ofParts true significand 0).map (·, cs)
        else some (.integer (-(significand : Int)), cs)
      else some (.integer significand, cs)
    else finish negative significand dropped cs

def number (negative : Bool) (cs : List Char) : Option (JsonNumber × List Char) :=
  match cs with
  | '0' :: rest =>
    match rest with
    | c :: _ => if c.isDigit then none else afterWhole negative 0 0 rest
    | [] => afterWhole negative 0 0 []
  | c :: _ =>
    if c.isDigit then
      let (significand, _, rest) := takeDigits 0 0 cs
      afterWhole negative significand (rest.takeWhile Char.isDigit).length
        (rest.dropWhile Char.isDigit)
    else none
  | [] => none

def hexFour : List Char → Option (Nat × List Char)
  | a :: b :: c :: d :: rest =>
    match Text.Numeral.hexValue? a, Text.Numeral.hexValue? b, Text.Numeral.hexValue? c,
      Text.Numeral.hexValue? d with
    | some a, some b, some c, some d => some (((a * 16 + b) * 16 + c) * 16 + d, rest)
    | _, _, _, _ => none
  | _ => none

/-- What an escape stands for, from the character after the backslash. A surrogate must come with
its partner. -/
def escape : List Char → Option (Char × List Char)
  | 'u' :: rest =>
    match hexFour rest with
    | none => none
    | some (n, rest) =>
      if 0xDC00 ≤ n && n ≤ 0xDFFF then none
      else if 0xD800 ≤ n && n ≤ 0xDBFF then
        match rest with
        | '\\' :: 'u' :: rest =>
          match hexFour rest with
          | some (m, rest) =>
            if 0xDC00 ≤ m && m ≤ 0xDFFF then
              some (Char.ofNat (0x10000 + (n - 0xD800) * 0x400 + (m - 0xDC00)), rest)
            else none
          | none => none
        | _ => none
      else some (Char.ofNat n, rest)
  | c :: rest =>
    if c == '"' || c == '\\' || c == '/' then some (c, rest)
    else if c == 'b' then some (Char.ofNat 8, rest)
    else if c == 'f' then some (Char.ofNat 12, rest)
    else if c == 'n' then some ('\n', rest)
    else if c == 'r' then some ('\r', rest)
    else if c == 't' then some ('\t', rest)
    else none
  | [] => none

/-- The characters of a string up to its closing quote; `done` holds those read so
far, last first. -/
def string (fuel : Nat) (done : List Char) (cs : List Char) : Option (String × List Char) :=
  match fuel, cs with
  | 0, _ | _, [] => none
  | fuel + 1, c :: rest =>
    if c == '"' then some (String.ofList done.reverse, rest)
    else if c == '\\' then
      match escape rest with
      | some (d, rest) => string fuel (d :: done) rest
      | none => none
    else if c.toNat < 0x20 then none
    else string fuel (c :: done) rest

def word? (w : String) (cs : List Char) : Option (List Char) :=
  if w.toList.isPrefixOf cs then some (cs.drop w.length) else none

mutual

/-- Reads a value. `depth` bounds the nesting and `fuel` the number of steps. -/
def value (fuel depth : Nat) (cs : List Char) : Option (Json × List Char) :=
  match fuel with
  | 0 => none
  | fuel + 1 =>
    match skipBlanks cs with
    | [] => none
    | c :: rest =>
      if c == '"' then (string (rest.length + 1) [] rest).map fun (s, rest) => (.str s, rest)
      else if c == '-' then (number true rest).map fun (n, rest) => (.num n, rest)
      else if c.isDigit then (number false (c :: rest)).map fun (n, rest) => (.num n, rest)
      else if c == 't' then (word? "rue" rest).map (Json.bool true, ·)
      else if c == 'f' then (word? "alse" rest).map (Json.bool false, ·)
      else if c == 'n' then (word? "ull" rest).map (Json.null, ·)
      else if depth ≤ 1 then none
      else if c == '[' then
        match skipBlanks rest with
        | ']' :: rest => some (.arr [], rest)
        | rest => (items fuel (depth - 1) rest).map fun (vs, rest) => (.arr vs, rest)
      else if c == '\x7b' then
        match skipBlanks rest with
        | '\x7d' :: rest => some (.obj [], rest)
        | rest =>
          (members fuel (depth - 1) rest).map fun (ms, rest) => (Json.ofMembers ms, rest)
      else none

def items (fuel depth : Nat) (cs : List Char) : Option (List Json × List Char) :=
  match fuel with
  | 0 => none
  | fuel + 1 =>
    match value fuel depth cs with
    | none => none
    | some (v, rest) =>
      match skipBlanks rest with
      | ',' :: rest => (items fuel depth rest).map fun (vs, rest) => (v :: vs, rest)
      | ']' :: rest => some ([v], rest)
      | _ => none

def members (fuel depth : Nat) (cs : List Char) : Option (List (String × Json) × List Char) :=
  match fuel with
  | 0 => none
  | fuel + 1 =>
    match skipBlanks cs with
    | '"' :: rest =>
      match string (rest.length + 1) [] rest with
      | none => none
      | some (k, rest) =>
        match skipBlanks rest with
        | ':' :: rest =>
          match value fuel depth rest with
          | none => none
          | some (v, rest) =>
            match skipBlanks rest with
            | ',' :: rest => (members fuel depth rest).map fun (ms, rest) => ((k, v) :: ms, rest)
            | '\x7d' :: rest => some ([(k, v)], rest)
            | _ => none
        | _ => none
    | _ => none

end

end RowStream.JsonParser

namespace RowStream

def Json.maxDepth : Nat := 128

def Json.parse? (s : String) : Option Json :=
  let cs := s.toList
  match JsonParser.value (2 * cs.length + 2) Json.maxDepth cs with
  | some (v, rest) => if (JsonParser.skipBlanks rest).isEmpty then some v else none
  | none => none

end RowStream
