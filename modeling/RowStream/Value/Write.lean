import RowStream.Value.Encode
import RowStream.Wire.Writer

/-!
# Values put into buffers

`Value.write` puts a value at the end of a buffer, in the parts that its bytes have: texts of a
fixed length and the zeros behind them, a length and the text that it belongs to, the halves of an
identifier. Every other value is one part.
-/

namespace RowStream.Value

variable [Zone.Catalogue]

/-- Puts a value as a column of the type holds it. Ticks are given at `sourceScale`. -/
def writeBy (v : Value) (clocks : Zone.Clocks) (t : ColumnType) (layout : Layout)
    (sourceScale : Nat) : Wire.Writer :=
  match t with
  | .fixedString => do
    let bytes := Utf8.encodeString v.toText
    let length := max (layout.length.getD bytes.length) 1
    Wire.writeFixed bytes length
    Wire.writeZeros (length - bytes.length)
  | .string => Wire.writeText v.toText
  | .uuid =>
    match v.toUuid? with
    | some u => Wire.writeUuid u
    | none => throw (.encode (.mismatch v.toText .uuid))
  | t => Wire.offer (v.encodeBy clocks t layout sourceScale)

def write (v : Value) (t : ColumnType) (layout : Layout) (sourceScale : Nat) : Wire.Writer :=
  v.writeBy Zone.offset t layout sourceScale

end RowStream.Value
