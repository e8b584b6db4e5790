import RowStream.Stream.Rows

/-!
# Data sources

A data source answers queries: with the columns of the result, with its rows, or with the number of
rows that a mutation changed. Its rows may be read over a state of any type (`OpenRows`).
-/

namespace RowStream

variable [Zone.Catalogue]

/-- Rows of an answered query, before the first of them. -/
structure OpenRows where
  State : Type
  source : RowSource State
  start : State

structure DataSource where
  id : String
  type : String
  /-- Its constant columns. -/
  custom : Table
  defaults : Defaults
  /-- The zone of columns that name none. -/
  zone : Option Zone
  infer : String → Parameters → Except Report Table
  openRows : String → Table → Parameters → Except Report OpenRows
  /-- The number of rows that a mutation changes. -/
  mutate : String → Parameters → Except Report Nat

def DataSource.refuseMutation (type : String) (_query : String) (_params : Parameters) :
    Except Report Nat :=
  .error ⟨s!"data source type '{type}' does not support mutations", []⟩

end RowStream
