import RowStream.Wire.Bytes

/-!
# Writers

Computations that put bytes at the end of a buffer. A value of several parts is put part by part;
what can be refused about it is looked at before its first part.
-/

namespace RowStream.Wire

abbrev Writer := ExceptT Error (StateM Buffer) Unit

def Writer.run (w : Writer) (b : Buffer) : Except Error Unit × Buffer := (ExceptT.run w).run b

def put (bytes : List UInt8) : Writer := modify (·.append bytes)

def offer : Except Error (List UInt8) → Writer
  | .ok bytes => put bytes
  | .error e => throw e

def writeVarint (n : Nat) : Writer := put (varint n)

def writeSized (bytes : List UInt8) : Writer := do
  if bytes.length ≤ maxWord32 then
    writeVarint bytes.length
    put bytes
  else throw (.encode (.tooLong bytes.length))

def writeText (s : String) : Writer := writeSized (Utf8.encodeString s)

/-- Puts the bytes without their length; the zeros behind them are left to the caller. -/
def writeFixed (bytes : List UInt8) (length : Nat) : Writer := offer (fixed bytes length)

def writeZeros (count : Nat) : Writer := put (List.replicate count 0)

/-- Puts one half after the other, the high one first. -/
def writeUuid (u : Uuid) : Writer := do
  put (littleEndian 8 u.high.toNat)
  put (littleEndian 8 u.low.toNat)

end RowStream.Wire
