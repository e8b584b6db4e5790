import RowStream.Wire.Buffer
import RowStream.Wire.LittleEndian
import RowStream.Number.Machine

/-!
# Integer formats

Whole numbers of a fixed width, little end first. A signed format of up to 32 bits also takes the
numbers that only the unsigned format of its width can hold, and writes them as that format does.
-/

namespace RowStream.Wire

structure IntegerFormat where
  name : String
  width : Nat
  /-- Whether the bytes are read as two's complement. -/
  signed : Bool
  /-- Whether numbers above the greatest signed one are taken too. -/
  promotes : Bool
deriving DecidableEq, Repr

namespace IntegerFormat

def int8 : IntegerFormat := ⟨"Int8", 1, true, true⟩
def int16 : IntegerFormat := ⟨"Int16", 2, true, true⟩
def int32 : IntegerFormat := ⟨"Int32", 4, true, true⟩
def int64 : IntegerFormat := ⟨"Int64", 8, true, false⟩
def int128 : IntegerFormat := ⟨"Int128", 16, true, false⟩
def int256 : IntegerFormat := ⟨"Int256", 32, true, false⟩
def uint8 : IntegerFormat := ⟨"UInt8", 1, false, false⟩
def uint16 : IntegerFormat := ⟨"UInt16", 2, false, false⟩
def uint32 : IntegerFormat := ⟨"UInt32", 4, false, false⟩
def uint64 : IntegerFormat := ⟨"UInt64", 8, false, false⟩
def uint128 : IntegerFormat := ⟨"UInt128", 16, false, false⟩
def uint256 : IntegerFormat := ⟨"UInt256", 32, false, false⟩

def low (f : IntegerFormat) : Int := if f.signed then -(twoPow (8 * f.width - 1) : Int) else 0

def high (f : IntegerFormat) : Int :=
  if f.signed && !f.promotes then (twoPow (8 * f.width - 1) : Int) - 1
  else (twoPow (8 * f.width) : Int) - 1

def encode (f : IntegerFormat) (n : Int) : Except Error (List UInt8) :=
  if f.low ≤ n ∧ n ≤ f.high then .ok (twosComplement f.width n)
  else .error (.encode (.outOfRange n f.name f.low f.high))

def read (f : IntegerFormat) : Reader Int := do
  let bytes ← take f.width
  return if f.signed then ofTwosComplement bytes else ofLittleEndian bytes

end IntegerFormat

def readUnsigned (width : Nat) : Reader Nat := do
  return ofLittleEndian (← take width)

def binary32 (bits : UInt32) : List UInt8 := littleEndian 4 bits.toNat

def binary64 (bits : UInt64) : List UInt8 := littleEndian 8 bits.toNat

def flag (b : Bool) : List UInt8 := [if b then 1 else 0]

/-- A flag; every byte but 0 means that it is set. -/
def readFlag : Reader Bool := do
  return (← take 1) != [0]

end RowStream.Wire
