import RowStream.Wire.Integer

/-!
# Decimals on the wire

A decimal of `precision` digits, `scale` of them behind the point, is a whole number of units
`10 ^ (-scale)` in two's complement. Its width follows from the precision.
-/

namespace RowStream.Wire

/-- The bytes of a decimal, rounded half away from zero to the scale and refused when its digits
exceed the precision. -/
def decimal (d : Decimal) (precision scale : Nat) : Except Error (List UInt8) :=
  let units := d.rescale scale
  if units.natAbs < tenPow precision then .ok (twosComplement (decimalWidth precision) units)
  else .error (.encode (.decimalOverflow d precision scale))

def readDecimal (precision scale : Nat) : Reader Decimal := do
  let bytes ← take (decimalWidth precision)
  return ⟨ofTwosComplement bytes, scale⟩

end RowStream.Wire
