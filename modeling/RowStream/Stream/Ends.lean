import RowStream.Column.Basic

/-!
# Sources and sinks of rows

A stream reads rows at one end and hands batches to the other. Either end has a state of its own
that every call may change, also one that fails. `Collector` keeps batches in memory and `Channel`
hands them to a receiver.
-/

namespace RowStream

variable [Zone.Catalogue]

/-- A computation over a state that may fail; a failure keeps the state. -/
abbrev Stateful (ε σ : Type) := ExceptT ε (StateM σ)

namespace Stateful

def runFrom {ε σ α : Type} (x : Stateful ε σ α) (s : σ) : Except ε α × σ := (ExceptT.run x).run s

def mapError {ε ε' σ α : Type} (f : ε → ε') (x : Stateful ε σ α) : Stateful ε' σ α :=
  ExceptT.adapt f x

def ofExcept {ε σ α : Type} : Except ε α → Stateful ε σ α
  | .ok a => pure a
  | .error e => throw e

def onFirst {ε σ τ α : Type} (x : Stateful ε σ α) : Stateful ε (σ × τ) α :=
  ExceptT.mk fun (s, t) => let (r, s) := x.runFrom s; (r, (s, t))

def onSecond {ε σ τ α : Type} (x : Stateful ε τ α) : Stateful ε (σ × τ) α :=
  ExceptT.mk fun (s, t) => let (r, t) := x.runFrom t; (r, (s, t))

end Stateful

structure RowSource (σ : Type) where
  advance : Stateful Report σ Bool
  /-- Whether a cell of the current row is null: number of the row, place of its column, and the
  column that it is read for. -/
  isNull : Nat → Nat → Column → Stateful Report σ Bool
  /-- The bytes of a cell that is not null, as the column lays them out. -/
  read : Nat → Nat → Column → Stateful Report σ (List UInt8)

structure Sink (τ : Type) where
  isOpen : τ → Bool
  /-- The reading of the clock from which on no batch may be written. -/
  deadline : τ → Option Nat
  write : List UInt8 → Stateful Report τ Unit

/-- The readings of a clock in milliseconds: the first when a request starts, one more
before every batch. -/
abbrev Clock := Nat → Nat

def Clock.still (reading : Nat) : Clock := fun _ => reading

structure Collector where
  batches : List (List UInt8) := []
  closed : Bool := false
  deadline : Option Nat := none
deriving DecidableEq, Repr, Inhabited

namespace Collector

def bytes (c : Collector) : List UInt8 := c.batches.flatten

def write (batch : List UInt8) : Stateful Report Collector Unit := do
  let c ← get
  if c.closed then throw ⟨"sink is closed", []⟩
  else set { c with batches := c.batches ++ [batch] }

def sink : Sink Collector := ⟨fun c => !c.closed, Collector.deadline, write⟩

end Collector

structure Channel where
  pending : List (List UInt8) := []
  dropped : Bool := false
  deadline : Option Nat := none
deriving DecidableEq, Repr, Inhabited

namespace Channel

def write (batch : List UInt8) : Stateful Report Channel Unit := do
  let c ← get
  if c.dropped then throw ⟨"response receiver dropped", []⟩
  else set { c with pending := c.pending ++ [batch] }

def receive (c : Channel) : Option (List UInt8) × Channel :=
  match c.pending with
  | [] => (none, c)
  | batch :: rest => (some batch, { c with pending := rest })

/-- The receiver goes away; what it has not received is lost. -/
def hangUp (c : Channel) : Channel := { c with pending := [], dropped := true }

def sink : Sink Channel := ⟨fun c => !c.dropped, Channel.deadline, write⟩

end Channel

end RowStream
