import RowStream.Wire.Varint
import RowStream.Wire.Integer
import RowStream.Address
import RowStream.Uuid

/-!
# Texts, identifiers and addresses

Texts and other rows of bytes carry their length in front; those of a fixed length do not. An
identifier is two little-endian halves, the high one first; an address of version 4 is one
little-endian number, one of version 6 has its high byte first.
-/

namespace RowStream.Wire

def sized (bytes : List UInt8) : Except Error (List UInt8) :=
  if bytes.length ≤ maxWord32 then .ok (varint bytes.length ++ bytes)
  else .error (.encode (.tooLong bytes.length))

def readSized : Reader (List UInt8) := do
  take (← readVarint)

def text (s : String) : Except Error (List UInt8) := sized (Utf8.encodeString s)

def joinLines (s : String) : String :=
  String.ofList (s.toList.map fun c => if c = '\r' ∨ c = '\n' then ' ' else c)

def readText : Reader String := do
  match Utf8.decode (← readSized) with
  | .ok cs => return String.ofList cs
  | .error fault => malformed (.invalidText fault)

/-- Bytes without their length, of which there may be at most `length`. -/
def fixed (bytes : List UInt8) (length : Nat) : Except Error (List UInt8) :=
  if bytes.length ≤ length then .ok bytes
  else .error (.encode (.fixedOverflow bytes.length length))

/-- Bytes without their length, filled up with zeros. -/
def padded (bytes : List UInt8) (length : Nat) : Except Error (List UInt8) := do
  let bytes ← fixed bytes length
  return bytes ++ List.replicate (length - bytes.length) 0

def uuid (u : Uuid) : List UInt8 := littleEndian 8 u.high.toNat ++ littleEndian 8 u.low.toNat

/-- The identifier at the cursor, one half after the other. -/
def readUuid : Reader Uuid := do
  let high ← readUnsigned 8
  let low ← readUnsigned 8
  return ⟨UInt64.ofNat high, UInt64.ofNat low⟩

def ipv4 (a : Ipv4) : List UInt8 := littleEndian 4 a.value.toNat

def readIpv4 : Reader Ipv4 := do
  return ⟨UInt32.ofNat (← readUnsigned 4)⟩

def ipv6 (a : Ipv6) : List UInt8 := (littleEndian 16 a.value).reverse

def readIpv6 : Reader Ipv6 := do
  return Ipv6.ofNat (ofLittleEndian (← take 16).reverse)

end RowStream.Wire
