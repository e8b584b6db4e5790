/-!
# UTF-8

Text as bytes and back. `decode` reports where the first ill-formed sequence stands and how long it
is; `decodeLossy` puts U+FFFD in the place of each one. The ranges of the second byte rule out
overlong forms, surrogates and values above U+10FFFF.
-/

namespace RowStream.Utf8

def encode (cs : List Char) : List UInt8 := cs.flatMap String.utf8EncodeChar

def encodeString (s : String) : List UInt8 := encode s.toList

def byteLength (s : String) : Nat := (encodeString s).length

inductive Front where
  /-- A character and the bytes it takes. -/
  | char (c : Char) (size : Nat)
  /-- An ill-formed sequence of so many bytes. -/
  | invalid (size : Nat)
  /-- A sequence that could go on, but the bytes end. -/
  | incomplete (size : Nat)
deriving DecidableEq, Repr

/-- A byte that carries six more bits of a character. -/
def isTail (b : Nat) : Bool := 0x80 ≤ b && b ≤ 0xBF

/-- The number of bytes that a first byte promises after itself, with the least and the greatest
second byte that may follow. -/
def lead? (b : Nat) : Option (Nat × Nat × Nat) :=
  if 0xC2 ≤ b && b ≤ 0xDF then some (1, 0x80, 0xBF)
  else if b == 0xE0 then some (2, 0xA0, 0xBF)
  else if b == 0xED then some (2, 0x80, 0x9F)
  else if 0xE1 ≤ b && b ≤ 0xEF then some (2, 0x80, 0xBF)
  else if b == 0xF0 then some (3, 0x90, 0xBF)
  else if 0xF1 ≤ b && b ≤ 0xF3 then some (3, 0x80, 0xBF)
  else if b == 0xF4 then some (3, 0x80, 0x8F)
  else none

/-- Reads the tail bytes that are still owed; `value` holds the bits read so far. -/
def tails (owed value size : Nat) (bytes : List UInt8) : Front :=
  match owed, bytes with
  | 0, _ => .char (Char.ofNat value) size
  | _ + 1, [] => .incomplete size
  | owed + 1, b :: rest =>
    if isTail b.toNat then tails owed (value * 64 + b.toNat % 64) (size + 1) rest
    else .invalid size

def front (b : UInt8) (rest : List UInt8) : Front :=
  let n := b.toNat
  if n < 0x80 then .char (Char.ofNat n) 1
  else
    match lead? n with
    | none => .invalid 1
    | some (owed, low, high) =>
      let bits := if owed == 1 then n % 32 else if owed == 2 then n % 16 else n % 8
      match rest with
      | [] => .incomplete 1
      | c :: rest =>
        if low ≤ c.toNat && c.toNat ≤ high then
          tails (owed - 1) (bits * 64 + c.toNat % 64) 2 rest
        else .invalid 1

inductive Fault where
  /-- An ill-formed sequence of `size` bytes stands at `offset`. -/
  | invalid (size offset : Nat)
  /-- The bytes end inside the sequence that begins at `offset`. -/
  | incomplete (offset : Nat)
deriving DecidableEq, Repr

def Fault.message : Fault → String
  | .invalid size offset => s!"invalid utf-8 sequence of {size} bytes from index {offset}"
  | .incomplete offset => s!"incomplete utf-8 byte sequence from index {offset}"

/-- Decodes with `skip` bytes of the current character still to pass over. -/
def decodeFrom (offset skip : Nat) : List UInt8 → Except Fault (List Char)
  | [] => .ok []
  | b :: rest =>
    match skip with
    | skip + 1 => decodeFrom (offset + 1) skip rest
    | 0 =>
      match front b rest with
      | .char c size => (decodeFrom (offset + 1) (size - 1) rest).map (c :: ·)
      | .invalid size => .error (.invalid size offset)
      | .incomplete _ => .error (.incomplete offset)

def decode (bytes : List UInt8) : Except Fault (List Char) := decodeFrom 0 0 bytes

def lossyFrom (skip : Nat) : List UInt8 → List Char
  | [] => []
  | b :: rest =>
    match skip with
    | skip + 1 => lossyFrom skip rest
    | 0 =>
      match front b rest with
      | .char c size => c :: lossyFrom (size - 1) rest
      | .invalid size => '\uFFFD' :: lossyFrom (size - 1) rest
      | .incomplete size => '\uFFFD' :: lossyFrom (size - 1) rest

/-- The text of bytes, with U+FFFD for every ill-formed sequence. -/
def decodeLossy (bytes : List UInt8) : List Char := lossyFrom 0 bytes

end RowStream.Utf8
