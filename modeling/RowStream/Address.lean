import RowStream.Text.Numeral

/-!
# Network addresses

Addresses of the two internet protocols: their values, the texts that are read as addresses, and the
text in which they are written. `Ipv6.text` shortens the first longest run of zero groups.
-/

namespace RowStream

structure Ipv4 where
  value : UInt32
deriving DecidableEq, Repr, Inhabited

structure Ipv6 where
  high : UInt64
  low : UInt64
deriving DecidableEq, Repr, Inhabited

namespace Address

/-- A number of at most `size` digits at the front of a text, the digits valued by `value?`. A
longer row of digits is no number. -/
def digits (value? : Char → Option Nat) (base size : Nat) (cs : List Char) :
    Option (Nat × List Char) :=
  let ds := cs.takeWhile fun c => (value? c).isSome
  if ds.isEmpty || size < ds.length then none
  else
    some (ds.foldl (fun n c => n * base + (value? c).getD 0) 0, cs.drop ds.length)

def decimal? (c : Char) : Option Nat := if c.isDigit then some (c.toNat - 48) else none

/-- A number below 256 without a leading zero. -/
def octet (cs : List Char) : Option (Nat × List Char) :=
  match digits decimal? 10 3 cs with
  | some (n, rest) =>
    if n < 256 && (cs.head? != some '0' || (cs.drop 1).head?.all fun c => !c.isDigit) then
      some (n, rest)
    else none
  | none => none

/-- `count` octets, each after a point but the first; `value` holds those already read. -/
def octets (value : Nat) : Nat → List Char → Option (Nat × List Char)
  | 0, cs => some (value, cs)
  | count + 1, cs =>
    match cs with
    | '.' :: cs =>
      match octet cs with
      | some (n, rest) => octets (value * 256 + n) count rest
      | none => none
    | _ => none

def ipv4Part (cs : List Char) : Option (Nat × List Char) :=
  match octet cs with
  | some (n, rest) => octets n 3 rest
  | none => none

def afterColon (first : Bool) (cs : List Char) : Option (List Char) :=
  if first then some cs
  else
    match cs with
    | ':' :: cs => some cs
    | _ => none

/-- Up to `limit` groups of sixteen bits. An address of version 4 may stand for the last two. The
groups, whether they end in such an address, and the rest. -/
def groups (first : Bool) : Nat → List Char → List Nat × Bool × List Char
  | 0, cs => ([], false, cs)
  | limit + 1, cs =>
    let inner := afterColon first cs
    match (if limit = 0 then none else inner.bind ipv4Part) with
    | some (v, rest) => ([v / 65536, v % 65536], true, rest)
    | none =>
      match inner.bind (digits Text.Numeral.hexValue? 16 4) with
      | some (g, rest) =>
        let (gs, quad, rest) := groups false limit rest
        (g :: gs, quad, rest)
      | none => ([], false, cs)

def groupsValue (gs : List Nat) : Nat := gs.foldl (fun n g => n * 65536 + g) 0

end Address

namespace Ipv4

def parse? (cs : List Char) : Option Ipv4 :=
  match Address.ipv4Part cs with
  | some (n, []) => some ⟨UInt32.ofNat n⟩
  | _ => none

def text (a : Ipv4) : String :=
  let n := a.value.toNat
  ".".intercalate
    [toString (n / 16777216), toString (n / 65536 % 256), toString (n / 256 % 256),
     toString (n % 256)]

end Ipv4

namespace Ipv6

def value (a : Ipv6) : Nat := a.high.toNat * 0x10000000000000000 + a.low.toNat

def ofNat (n : Nat) : Ipv6 :=
  ⟨UInt64.ofNat (n / 0x10000000000000000), UInt64.ofNat (n % 0x10000000000000000)⟩

/-- The address of a text: eight groups, or fewer with `::` in the place of one or more zeros. -/
def parse? (cs : List Char) : Option Ipv6 :=
  let (front, quad, rest) := Address.groups true 8 cs
  if front.length = 8 then
    if rest.isEmpty then some (ofNat (Address.groupsValue front)) else none
  else if quad then none
  else
    match rest with
    | ':' :: ':' :: rest =>
      let (back, _, rest) := Address.groups true (7 - front.length) rest
      if rest.isEmpty then
        let zeros := List.replicate (8 - front.length - back.length) 0
        some (ofNat (Address.groupsValue (front ++ zeros ++ back)))
      else none
    | _ => none

def groups (a : Ipv6) : List Nat :=
  let halves (n : Nat) : List Nat :=
    [n / 0x1000000000000, n / 0x100000000 % 0x10000, n / 0x10000 % 0x10000, n % 0x10000]
  halves a.high.toNat ++ halves a.low.toNat

def zeroRun (gs : List Nat) : Nat := (gs.takeWhile (· == 0)).length

/-- Start and length of the first longest run of zeros, when it is longer than `best`. -/
def longestZeros (start : Nat) (best : Nat × Nat) : List Nat → Nat × Nat
  | [] => best
  | g :: gs =>
    let run := zeroRun (g :: gs)
    longestZeros (start + 1) (if best.2 < run then (start, run) else best) gs

def groupsText (gs : List Nat) : String :=
  ":".intercalate (gs.map fun g => String.ofList (Nat.toDigits 16 g))

/-- The text of an address: its groups in hexadecimal, the first longest run of two or more zero
groups as `::`; an address that carries one of version 4 ends in the text of that. -/
def text (a : Ipv6) : String :=
  let gs := a.groups
  if gs.take 6 = [0, 0, 0, 0, 0, 0xFFFF] then
    "::ffff:" ++ Ipv4.text ⟨UInt32.ofNat (a.low.toNat % 0x100000000)⟩
  else
    let (start, run) := longestZeros 0 (0, 0) gs
    if 1 < run then groupsText (gs.take start) ++ "::" ++ groupsText (gs.drop (start + run))
    else groupsText gs

end Ipv6

end RowStream
