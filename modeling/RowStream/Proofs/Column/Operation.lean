import RowStream.Column.Operation
import RowStream.Proofs.Stream.Stateful

/-!
# Operations on columns

What is done to a column in place comes to what the function of the same name answers: the result
takes the place of the column, or the column stays as it was. `runFrom_perform` says so of every
operation, so that later proofs follow `Operation.result` and no computation.
-/

namespace RowStream

open Stateful

namespace Cell

variable (c : Cell)

theorem runFrom_takeInPlace (x : Except Error (Option Value)) :
    (takeInPlace x).runFrom c = replaced c (c.take x) := by
  rcases x with e | _ | v
  · unfold takeInPlace take
    rw [runFrom_bind_of_ok (runFrom_get c)]
    dsimp only
    cases c.type.kind.isNumeric <;> rfl
  · rfl
  · rfl

theorem runFrom_mergeTextInPlace (s : String) :
    (mergeTextInPlace s).runFrom c = replaced c (c.mergeText s) := by
  unfold mergeTextInPlace mergeText
  by_cases h : s.isEmpty = true
  · rw [if_pos h, if_pos h]
    rfl
  · rw [if_neg h, if_neg h, runFrom_bind_of_ok (runFrom_get c)]
    exact runFrom_takeInPlace c _

theorem runFrom_mergeJsonInPlace (json : Json) :
    (mergeJsonInPlace json).runFrom c = replaced c (c.mergeJson json) := by
  cases json with
  | str s => exact runFrom_mergeTextInPlace c s
  | null | bool b | num n | arr items | obj members =>
      unfold mergeJsonInPlace
      rw [runFrom_bind_of_ok (runFrom_get c)]
      exact runFrom_takeInPlace c _

theorem runFrom_mergeInPlace (other : Cell) : (mergeInPlace other).runFrom c =
    match c.merge? other with
    | some c' => (.ok true, c')
    | none => (.ok false, c) := by
  unfold mergeInPlace merge?
  rw [runFrom_bind_of_ok (runFrom_get c)]
  by_cases h : other.name = c.name
  · rw [if_pos h, if_pos h]
    rfl
  · rw [if_neg h, if_neg h]
    rfl

end Cell

namespace Column

section InPlace

variable [Zone.Catalogue] (c : Column)

theorem runFrom_onCell {α : Type} (x : Stateful Error Cell α) : (onCell x).runFrom c =
    ((x.runFrom c.cell).1, { c with cell := (x.runFrom c.cell).2 }) := rfl

theorem replaced_onCell (x : Except Error Cell) :
    ((replaced c.cell x).1, { c with cell := (replaced c.cell x).2 }) =
      replaced c (x.map fun cell => { c with cell := cell }) := by
  cases x <;> rfl

theorem runFrom_takeOption (x : Except Error Int32) :
    (do let n ← Stateful.ofExcept x; modify fun c => c.withValue (.int32 n) :
      Stateful Error Column Unit).runFrom c = replaced c (x.map fun n => c.withValue (.int32 n)) := by
  cases x with
  | error e => exact runFrom_bind_of_error (runFrom_ofExcept _ c)
  | ok n => exact runFrom_bind_of_ok (runFrom_ofExcept _ c)

theorem runFrom_mergeTextInPlace (s : String) :
    (mergeTextInPlace s).runFrom c = replaced c (c.mergeText s) := by
  unfold mergeTextInPlace mergeText
  rw [runFrom_bind_of_ok (runFrom_get c)]
  by_cases h : (c.type.isEnum && !s.isEmpty) = true
  · rw [if_pos h, if_pos h]
    exact runFrom_takeOption c _
  · rw [if_neg h, if_neg h, runFrom_onCell, Cell.runFrom_mergeTextInPlace, replaced_onCell]

theorem runFrom_mergeJsonInPlace (json : Json) :
    (mergeJsonInPlace json).runFrom c = replaced c (c.mergeJson json) := by
  have hcell : (onCell (Cell.mergeJsonInPlace json)).runFrom c =
      replaced c ((c.cell.mergeJson json).map fun cell => { c with cell := cell }) := by
    rw [runFrom_onCell, Cell.runFrom_mergeJsonInPlace, replaced_onCell]
  cases json with
  | str s => exact runFrom_mergeTextInPlace c s
  | num n =>
      unfold mergeJsonInPlace mergeJson
      dsimp only
      rw [runFrom_bind_of_ok (runFrom_get c)]
      by_cases henum : c.type.isEnum = true
      · rw [if_pos henum, if_pos henum]
        cases n.toInt64?.bind fun w => int32? w.toInt with
        | none => rfl
        | some value => exact runFrom_takeOption c _
      · rw [if_neg henum, if_neg henum]
        exact hcell
  | null | bool b | arr items | obj members => exact hcell

theorem runFrom_mergeValueInPlace (other : Column) : (mergeValueInPlace other).runFrom c =
    match c.mergeValue? other with
    | some c' => (.ok true, c')
    | none => (.ok false, c) := by
  unfold mergeValueInPlace mergeValue?
  rw [runFrom_bind_of_ok (runFrom_get c)]
  by_cases h : other.type = c.type ∧ other.scale = c.scale
  · have hcell : (onCell (Cell.mergeInPlace other.cell)).runFrom c =
        match c.cell.merge? other.cell with
        | some cell => (.ok true, { c with cell := cell })
        | none => (.ok false, c) := by
      rw [runFrom_onCell, Cell.runFrom_mergeInPlace]
      cases c.cell.merge? other.cell <;> rfl
    rw [if_pos h, if_pos h]
    cases hmerge : c.cell.merge? other.cell with
    | none =>
        rw [hmerge] at hcell
        exact runFrom_bind_of_ok hcell
    | some cell =>
        rw [hmerge] at hcell
        exact runFrom_bind_of_ok hcell
  · rw [if_neg h, if_neg h]
    rfl

theorem runFrom_setIndexInPlace (index : Nat) :
    (setIndexInPlace index).runFrom c = replaced c (c.setIndex index) := by
  unfold setIndexInPlace setIndex
  rw [runFrom_bind_of_ok (runFrom_get c)]
  cases c.index <;> rfl

theorem runFrom_replaceInPlace (f : Column → Except Error Column) :
    (replaceInPlace f).runFrom c = replaced c (f c) := by
  unfold replaceInPlace
  rw [runFrom_bind_of_ok (runFrom_get c)]
  cases f c with
  | error e => exact runFrom_bind_of_error (runFrom_ofExcept _ c)
  | ok c' => exact runFrom_bind_of_ok (runFrom_ofExcept _ c)

theorem runFrom_perform (op : Operation) : (perform op).runFrom c =
    match op.result c with
    | .ok (some c') => (.ok true, c')
    | .ok none => (.ok false, c)
    | .error e => (.error e, c) := by
  -- All but `mergeValue` replace the column or fail, and answer when they have replaced it.
  have hreplaces : ∀ {x : Stateful Error Column Unit} {r : Except Error Column},
      x.runFrom c = replaced c r → (do x; return true : Stateful Error Column Bool).runFrom c =
        match r.map some with
        | .ok (some c') => (.ok true, c')
        | .ok none => (.ok false, c)
        | .error e => (.error e, c) := by
    intro x r hx
    cases r with
    | error e => exact runFrom_bind_of_error hx
    | ok c' => exact runFrom_bind_of_ok hx
  cases op with
  | mergeText s => exact hreplaces (runFrom_mergeTextInPlace c s)
  | mergeJson json => exact hreplaces (runFrom_mergeJsonInPlace c json)
  | mergeValue other =>
      have hresult : (Operation.mergeValue other).result c = .ok (c.mergeValue? other) := rfl
      rw [hresult]
      refine (runFrom_mergeValueInPlace c other).trans ?_
      cases c.mergeValue? other <;> rfl
  | rename name => exact hreplaces (runFrom_replaceInPlace c _)
  | rebuild => exact hreplaces (runFrom_replaceInPlace c _)
  | place index => exact hreplaces (runFrom_setIndexInPlace c index)

/-- What holds of the column and of the result of an operation holds of what the operation leaves,
accepted or not. -/
theorem perform_cases {motive : Except Error Bool × Column → Prop} (op : Operation)
    (kept : ∀ r, r ≠ .ok true → motive (r, c))
    (taken : ∀ c', op.result c = .ok (some c') → motive (.ok true, c')) :
    motive ((perform op).runFrom c) := by
  rw [runFrom_perform]
  split
  · next hresult => exact taken _ hresult
  · exact kept _ (by simp)
  · exact kept _ (by simp)

end InPlace

end Column

end RowStream
