import RowStream.Column.Draft
import RowStream.Stream.Ends

/-!
# Columns that are worked on

The operations on a column carried out in place. They write to the column and to its cell where
these stand, call by call, and an error keeps whatever was written before it. `Operation.result`
gives what an operation makes of a column as a function.
-/

namespace RowStream

variable [Zone.Catalogue]

namespace Cell

def takeInPlace : Except Error (Option Value) → Stateful Error Cell Unit
  | .ok (some v) => modify fun c => { c with value := v }
  | .ok none => return ()
  | .error e => do if (← get).type.kind.isNumeric then throw e

def mergeTextInPlace (s : String) : Stateful Error Cell Unit := do
  if s.isEmpty then return ()
  else
    let c ← get
    takeInPlace ((Value.parse s c.type c.scale).map some)

def mergeJsonInPlace : Json → Stateful Error Cell Unit
  | .str s => mergeTextInPlace s
  | json => do
    let c ← get
    takeInPlace (Value.ofJson json c.type c.scale)

def mergeInPlace (other : Cell) : Stateful Error Cell Bool := do
  if other.name = (← get).name then
    modify fun c => { c with value := other.value }
    return true
  else return false

end Cell

namespace Column

def onCell {α : Type} (x : Stateful Error Cell α) : Stateful Error Column α :=
  ExceptT.mk fun c => let (r, cell) := x.runFrom c.cell; (r, { c with cell := cell })

def mergeTextInPlace (s : String) : Stateful Error Column Unit := do
  let c ← get
  if c.type.isEnum && !s.isEmpty then
    let n ← Stateful.ofExcept (c.enumValue s)
    modify fun c => c.withValue (.int32 n)
  else onCell (Cell.mergeTextInPlace s)

def mergeJsonInPlace : Json → Stateful Error Column Unit
  | .str s => mergeTextInPlace s
  | .num n => do
    let c ← get
    if c.type.isEnum then
      match n.toInt64?.bind fun w => int32? w.toInt with
      | some value =>
        let n ← Stateful.ofExcept (c.requireKnown value)
        modify fun c => c.withValue (.int32 n)
      | none => throw (.invalidArgument (.invalidEnumNumber n.text))
    else onCell (Cell.mergeJsonInPlace (.num n))
  | json => onCell (Cell.mergeJsonInPlace json)

def mergeValueInPlace (other : Column) : Stateful Error Column Bool := do
  let c ← get
  if other.type = c.type ∧ other.scale = c.scale then
    if ← onCell (Cell.mergeInPlace other.cell) then
      modify fun c => { c with declared := true }
      return true
    else return false
  else return false

def setIndexInPlace (index : Nat) : Stateful Error Column Unit := do
  let c ← get
  match c.index with
  | some existing => throw (.internal (.indexTaken c.name existing))
  | none => modify fun c => { c with index := some index }

def replaceInPlace (f : Column → Except Error Column) : Stateful Error Column Unit := do
  let c ← Stateful.ofExcept (f (← get))
  set c

inductive Operation where
  | mergeText (s : String)
  | mergeJson (json : Json)
  | mergeValue (other : Column)
  | rename (name : String)
  /-- Builds the column again, from the draft that is made of it. -/
  | rebuild
  | place (index : Nat)
deriving Inhabited

/-- Carries an operation out, and says whether it was accepted. -/
def perform : Operation → Stateful Error Column Bool
  | .mergeText s => do
    mergeTextInPlace s
    return true
  | .mergeJson json => do
    mergeJsonInPlace json
    return true
  | .mergeValue other => mergeValueInPlace other
  | .rename name => do
    replaceInPlace fun c => c.renamed name
    return true
  | .rebuild => do
    replaceInPlace fun c => c.toDraft.build
    return true
  | .place index => do
    setIndexInPlace index
    return true

def performAll (c : Column) (ops : List Operation) : Column :=
  ops.foldl (fun c op => ((perform op).runFrom c).2) c

/-- What an operation makes of a column, `none` when it declines. -/
def Operation.result (c : Column) : Operation → Except Error (Option Column)
  | .mergeText s => (c.mergeText s).map some
  | .mergeJson json => (c.mergeJson json).map some
  | .mergeValue other => .ok (c.mergeValue? other)
  | .rename name => (c.renamed name).map some
  | .rebuild => c.toDraft.build.map some
  | .place index => (c.setIndex index).map some

end Column

end RowStream
