import RowStream.Error

/-!
# Buffers

A row of bytes that grows at its end and is read from a cursor. Readers run over a buffer; one that
fails keeps what the readers before it have consumed. `take` is the only way in which the cursor
moves.
-/

namespace RowStream.Wire

/-- Bytes and the place of the cursor among them. -/
structure Buffer where
  bytes : List UInt8 := []
  position : Nat := 0
deriving DecidableEq, Repr, Inhabited

namespace Buffer

def empty : Buffer := {}

def ofBytes (bytes : List UInt8) : Buffer := ⟨bytes, 0⟩

def size (b : Buffer) : Nat := b.bytes.length

def remaining (b : Buffer) : Nat := b.size - b.position

def append (b : Buffer) (bytes : List UInt8) : Buffer := { b with bytes := b.bytes ++ bytes }

end Buffer

abbrev Reader := ExceptT Error (StateM Buffer)

namespace Reader

def run {α : Type} (r : Reader α) (b : Buffer) : Except Error α × Buffer :=
  (ExceptT.run r).run b

end Reader

def malformed {α : Type} (fault : DecodeFault) : Reader α := throw (.decode fault)

/-- The next `n` bytes. When fewer are left the cursor stays where it is. -/
def take (n : Nat) : Reader (List UInt8) := do
  let b ← get
  if b.remaining < n then
    malformed (.endOfBuffer n b.position b.remaining)
  else
    set { b with position := b.position + n }
    return (b.bytes.drop b.position).take n

end RowStream.Wire
