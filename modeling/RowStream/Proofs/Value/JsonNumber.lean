import RowStream.Proofs.Value.WholeNumber

/-!
# Whole numbers in JSON and in digits

A whole number makes the same value as a JSON number and as the text of its digits. The two are
read apart: a JSON number passes through a word of 64 bits, where digits make what the kind asks for
or are tried as a date. Still both refuse the same numbers, those outside the words of the kind.
-/

namespace RowStream

/-- The whole numbers that an exact kind has a value for: those of its words, or all. -/
def ValueKind.Spans (kind : ValueKind) (n : Int) : Prop :=
  match kind with
  | .int32 => -2 ^ 31 ≤ n ∧ n < 2 ^ 31
  | .int64 => -2 ^ 63 ≤ n ∧ n < 2 ^ 63
  | _ => True

namespace Value

section Kinds

variable {kind : ValueKind} {n : Int} {v : Value}

theorem kind_of_ofInt? (h : ofInt? n kind = some v) : v.kind = kind := by
  cases kind with
  | int32 | int64 =>
      obtain ⟨w, -, rfl⟩ := Option.map_eq_some_iff.1 h
      rfl
  | integer | decimal | text =>
      cases h
      rfl
  | bool | binary32 | binary64 => cases h

theorem denotesInt_of_ofInt? (h : ofInt? n kind = some v) : v.DenotesInt n := by
  cases kind with
  | int32 =>
      obtain ⟨w, hw, rfl⟩ := Option.map_eq_some_iff.1 h
      rw [← toInt_of_int32? hw]
      exact .int32 w
  | int64 =>
      obtain ⟨w, hw, rfl⟩ := Option.map_eq_some_iff.1 h
      rw [← toInt_of_int64? hw]
      exact .int64 w
  | integer =>
      cases h
      exact .integer n
  | decimal =>
      cases h
      exact .decimal (Decimal.toRat_ofInt n)
  | text =>
      cases h
      exact .text n
  | bool | binary32 | binary64 => cases h

theorem isSome_ofInt? (hexact : kind.isExact = true) : (ofInt? n kind).isSome ↔ kind.Spans n := by
  cases kind with
  | int32 =>
      rw [ofInt?, Option.isSome_map, isSome_int32?]
      rfl
  | int64 =>
      rw [ofInt?, Option.isSome_map, isSome_int64?]
      rfl
  | integer | decimal | text => exact iff_of_true rfl trivial
  | bool | binary32 | binary64 => cases hexact

end Kinds

/-- In every type but those of truth values and floating-point numbers, a whole number in JSON and
the text of its digits are one value that holds the number, or are both refused. They are refused
when the words of the type's kind do not reach the number. -/
theorem ofJson_and_parse_wholeNumber {type : ColumnType} (hexact : type.kind.isExact = true)
    (scale : Nat) (n : Int) :
    (type.kind.Spans n ∧ ∃ v : Value, v.kind = type.kind ∧ v.DenotesInt n ∧
      ofJson (.ofInt n) type scale = .ok (some v) ∧ parse (toString n) type scale = .ok v) ∨
    (¬ type.kind.Spans n ∧
      ofJson (.ofInt n) type scale =
        .error (.invalidArgument (.inconvertible (toString n) type)) ∧
      parse (toString n) type scale =
        .error (.invalidArgument (.unreadable (toString n) type))) := by
  have hjson := ofJson_ofInt hexact scale n
  have htext := parse_toString hexact scale n
  rw [← isSome_ofInt? hexact]
  cases hvalue : ofInt? n type.kind with
  | some v =>
      rw [hvalue] at hjson htext
      exact .inl ⟨rfl, v, kind_of_ofInt? hvalue, denotesInt_of_ofInt? hvalue, hjson, htext⟩
  | none =>
      rw [hvalue] at hjson htext
      exact .inr ⟨Bool.false_ne_true, hjson, htext⟩

theorem ofJson_and_parse_wholeNumber_ticks :
    ColumnType.dateTime64.kind.isExact = true ∧
      (ofJson (.ofInt (-1)) .dateTime64 3 = .ok (some (int64 (-1))) ∧
        parse "-1" .dateTime64 3 = .ok (int64 (-1))) ∧
      ∃ e e', ofJson (.ofInt 9223372036854775808) .dateTime64 3 = .error e ∧
        parse "9223372036854775808" .dateTime64 3 = .error e' := by
  have hexact : ColumnType.dateTime64.kind.isExact = true := rfl
  refine ⟨hexact, ?_, ?_⟩
  · rcases ofJson_and_parse_wholeNumber hexact 3 (-1) with
      ⟨-, v, -, -, hjson, htext⟩ | ⟨hout, -⟩
    · cases hjson
      exact ⟨rfl, htext⟩
    · exact absurd ⟨by decide, by decide⟩ hout
  · rcases ofJson_and_parse_wholeNumber hexact 3 9223372036854775808 with
      ⟨hin, -⟩ | ⟨-, hjson, htext⟩
    · exact absurd hin.2 (by decide)
    · exact ⟨_, _, hjson, htext⟩

end Value

end RowStream
