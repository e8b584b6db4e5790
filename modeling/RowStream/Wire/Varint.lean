import RowStream.Wire.Buffer
import RowStream.Number.Machine

/-!
# Variable-length numbers

Numbers in groups of seven bits, the lowest group first; the high bit of a byte says that another
group follows. Reading takes at most five groups and one byte at a time, so that a failure leaves
the cursor behind the bytes already seen.
-/

namespace RowStream.Wire

/-- The groups of a number, as few as possible. -/
def varint (n : Nat) : List UInt8 :=
  if h : n < 128 then [UInt8.ofNat n] else UInt8.ofNat (n % 128 + 128) :: varint (n / 128)
termination_by n
decreasing_by omega

def maxGroups : Nat := 5

/-- Reads up to `groups` more groups; those before it make up `value`, and `weight` is the place
value of the next one. -/
def readGroups (value weight : Nat) : Nat → Reader Nat
  | 0 => malformed (.varintUnterminated maxGroups)
  | groups + 1 => do
    let bytes ← take 1
    let byte := (bytes.headD 0).toNat
    let value := value + byte % 128 * weight
    if byte < 128 then
      if value ≤ maxWord32 then return value else malformed (.varintOverflow value)
    else readGroups value (weight * 128) groups

def readVarint : Reader Nat := readGroups 0 1 maxGroups

end RowStream.Wire
