import RowStream.Proofs.Table
import RowStream.Source.Values

/-!
# Fixed values of a configuration

What is known of fixed values that a configuration was accepted for.
-/

namespace RowStream.FixedValues

variable [Zone.Catalogue] {id : String} {json : Json} {v : FixedValues}

omit [Zone.Catalogue] in
theorem ok_of_within {α : Type} {context : String} {x : Except Error α} {a : α}
    (h : within context x = .ok a) : x = .ok a := by
  cases x with
  | error e => cases h
  | ok b =>
      cases h
      rfl

theorem parts_of_ofJson (h : ofJson id json = .ok v) :
    v.id = id ∧ Table.ofJson ((json.get? "columns").getD .null) = .ok v.columns ∧
      rowsOfJson v.columns (json.get? "rows") = .ok v.rows := by
  obtain ⟨columns, hcolumns, h⟩ := bind_ok h
  dsimp only at h
  split at h
  · cases h
  · obtain ⟨custom, -, h⟩ := bind_ok h
    obtain ⟨defaults, -, h⟩ := bind_ok h
    obtain ⟨zone, -, h⟩ := bind_ok h
    obtain ⟨rows, hrows, h⟩ := bind_ok h
    cases h
    exact ⟨rfl, ok_of_within hcolumns, hrows⟩

theorem reachable_of_ofJson (h : ofJson id json = .ok v) :
    ∀ c ∈ v.columns.columns, c.Reachable :=
  Table.reachable_of_ofJson (parts_of_ofJson h).2.1

end RowStream.FixedValues
