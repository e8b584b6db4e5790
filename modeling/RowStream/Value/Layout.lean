import RowStream.Calendar.Zone
import RowStream.ColumnType
import RowStream.Number.Machine
import RowStream.Number.Power

/-!
# Layouts

What a column says about the bytes of its values: length, precision, scale and zone. A layout that
leaves something open takes what the type provides. Ticks move between scales by `rescaleTicks`.
-/

namespace RowStream

variable [Zone.Catalogue]

structure Layout where
  length : Option Nat := none
  precision : Option Nat := none
  scale : Option Nat := none
  zone : Option Zone := none
deriving DecidableEq, Repr, Inhabited

namespace Layout

/-- The precision that values of a type are written with. A precision of 0 counts as none. -/
def precisionFor (l : Layout) (t : ColumnType) : Nat :=
  if t.isSizedDecimal then t.maxPrecision
  else
    match l.precision.filter (0 < ·) with
    | some p => min p (max t.maxPrecision 1)
    | none => t.defaultPrecision

def scaleFor (l : Layout) (t : ColumnType) : Nat :=
  min (min (l.scale.getD t.defaultScale) (max t.maxScale t.defaultScale)) (l.precisionFor t)

def resolve (l : Layout) (t : ColumnType) : Nat × Nat := (l.precisionFor t, l.scaleFor t)

end Layout

/-- Ticks at another scale: the greatest number of ticks that is not later, or the end of the range
that it leaves. Scales above 9 count as 9. -/
def rescaleTicks (ticks : Int64) (source target : Nat) : Int64 :=
  let source := min source ColumnType.maxTickScale
  let target := min target ColumnType.maxTickScale
  if source ≤ target then saturate64 (ticks.toInt * tenPow (target - source))
  else Int64.ofInt (ticks.toInt / tenPow (source - target))

end RowStream
