import RowStream.Proofs.Number.Rational
import RowStream.Proofs.Value.Parse
import RowStream.Proofs.Value.Write
import RowStream.Proofs.Wire.TwosComplement

/-!
# Whole numbers in columns

However a whole number is held, as a truth value, a word, a number of any size, a decimal or a text,
a column of a whole-number type takes it if it lies in the range of the type, and writes the same
bytes for it.
-/

namespace RowStream

namespace ColumnType

/-- The numbers that a column of the type takes: those of its bits without a sign, with a sign,
or with a sign and also those above that only fit without one. -/
def Accepts (t : ColumnType) (n : Int) : Prop :=
  let bits := 8 * t.byteLength
  match t with
  | uint8 | uint16 | uint32 | uint64 | uint128 | uint256 => 0 ≤ n ∧ n ≤ 2 ^ bits - 1
  | int8 | int16 | int32 | enum | enum8 | enum16 => -2 ^ (bits - 1) ≤ n ∧ n ≤ 2 ^ bits - 1
  | int64 | int128 | int256 => -2 ^ (bits - 1) ≤ n ∧ n ≤ 2 ^ (bits - 1) - 1
  | _ => False

/-- What a column of the type reads back: a number that only fits without a sign comes back less
the number of values that the bits tell apart. -/
def readBack (t : ColumnType) (n : Int) : Int :=
  let bits := 8 * t.byteLength
  match t with
  | uint8 | uint16 | uint32 | uint64 | uint128 | uint256 => n
  | _ => if n < 2 ^ (bits - 1) then n else n - 2 ^ bits

end ColumnType

open Wire

namespace Value

/-- The value holds just this whole number. -/
inductive DenotesInt : Value → Int → Prop
  | bool (b : Bool) : DenotesInt (bool b) (if b then 1 else 0)
  | int32 (w : Int32) : DenotesInt (int32 w) w.toInt
  | int64 (w : Int64) : DenotesInt (int64 w) w.toInt
  | integer (n : Int) : DenotesInt (integer n) n
  | decimal {d : Decimal} {n : Int} (h : d.toRat = n) : DenotesInt (decimal d) n
  | text (n : Int) : DenotesInt (text (toString n)) n

section Conversions

variable {v : Value} {n : Int} (hv : v.DenotesInt n)
include hv

theorem DenotesInt.toInt64? : v.toInt64? = RowStream.int64? n := by
  cases hv with
  | bool b => cases b <;> decide
  | int32 w =>
    have hw := int64?_toInt w.toInt64
    rw [Int32.toInt_toInt64] at hw
    rw [hw]
    rfl
  | int64 w => exact (int64?_toInt w).symm
  | integer => rfl
  | decimal h => simp [Value.toInt64?, Decimal.toInt?_of_toRat h]
  | text =>
    change (Text.Numeral.signed? (Text.trim (toString n).toList)).bind RowStream.int64? = _
    rw [(Text.Numeral.isNumeral_toString n).trim, Text.Numeral.signed?_toString]
    rfl

theorem DenotesInt.toInt? : v.toInt? = some n := by
  cases hv with
  | bool b => cases b <;> decide
  | int32 w => simp [Value.toInt?, Value.toInt64?]
  | int64 w => rfl
  | integer => rfl
  | decimal h => exact Decimal.toInt?_of_toRat h
  | text =>
    change Text.Numeral.big? (Text.trim (toString n).toList) = _
    rw [(Text.Numeral.isNumeral_toString n).trim, Text.Numeral.big?_toString]

theorem DenotesInt.map_toInt64? (hlow : -2 ^ 63 ≤ n) (hhigh : n < 2 ^ 63) :
    v.toInt64?.map Int64.toInt = some n := by
  have hword : RowStream.int64? n = some (Int64.ofInt n) := if_pos (by omega)
  rw [hv.toInt64?, hword, Option.map_some, toInt_of_int64? hword]

theorem DenotesInt.map_toInt32? (hlow : -2 ^ 31 ≤ n) (hhigh : n < 2 ^ 31) :
    v.toInt32?.map Int32.toInt = some n := by
  have hlong : RowStream.int64? n = some (Int64.ofInt n) := if_pos (by omega)
  have hword : RowStream.int32? n = some (Int32.ofInt n) := if_pos (by omega)
  rw [Value.toInt32?, hv.toInt64?, hlong, Option.bind_some, toInt_of_int64? hlong, hword,
    Option.map_some, toInt_of_int32? hword]

/-- The words that a type's numbers pass through hold all that the type accepts. -/
theorem DenotesInt.toColumnInt? {t : ColumnType} (ht : t.Accepts n) :
    v.toColumnInt? t = some n := by
  cases t
  case uint64 | int128 | uint128 | int256 | uint256 => exact hv.toInt?
  case int32 | uint32 | int64 =>
    simp only [ColumnType.Accepts, ColumnType.byteLength] at ht
    exact hv.map_toInt64? (by omega) (by omega)
  case int8 | int16 | uint8 | uint16 | enum | enum8 | enum16 =>
    simp only [ColumnType.Accepts, ColumnType.byteLength] at ht
    exact hv.map_toInt32? (by omega) (by omega)
  all_goals exact ht.elim

theorem DenotesInt.eq_of_toColumnInt? {t : ColumnType} {m : Int} (h : v.toColumnInt? t = some m) :
    m = n := by
  have hlong : ∀ {m}, v.toInt64?.map Int64.toInt = some m → m = n := by
    intro m h
    rw [hv.toInt64?] at h
    obtain ⟨w, hw, rfl⟩ := Option.map_eq_some_iff.1 h
    exact toInt_of_int64? hw
  have hshort : v.toInt32?.map Int32.toInt = some m → m = n := by
    intro h
    obtain ⟨w, hw, rfl⟩ := Option.map_eq_some_iff.1 h
    obtain ⟨x, hx, hword⟩ := Option.bind_eq_some_iff.1 hw
    rw [toInt_of_int32? hword]
    exact hlong (Option.map_eq_some_iff.2 ⟨x, hx, rfl⟩)
  unfold Value.toColumnInt? at h
  split at h
  case h_1 | h_2 | h_3 | h_4 | h_5 =>
    rw [hv.toInt?] at h
    exact (Option.some.inj h).symm
  case h_6 | h_7 | h_8 => exact hlong h
  case h_9 => exact hshort h

end Conversions

/-! ## Formats -/

section Formats

variable {t : ColumnType} {f : IntegerFormat} {n : Int}

theorem accepts_iff (ht : integerFormat? t = some f) : t.Accepts n ↔ f.low ≤ n ∧ n ≤ f.high := by
  cases t <;> cases ht <;> rfl

theorem width_of_integerFormat? (ht : integerFormat? t = some f) : f.width = t.byteLength := by
  cases t <;> cases ht <;> rfl

theorem readBack_eq (ht : integerFormat? t = some f) : t.readBack n = if f.signed then
    (if n < 2 ^ (8 * f.width - 1) then n else n - 2 ^ (8 * f.width)) else n := by
  cases t <;> cases ht <;> rfl

theorem byteLength_pos (ht : integerFormat? t = some f) : 0 < t.byteLength := by
  cases t <;> first | decide | cases ht

theorem consumes_read_of_accepts (ht : integerFormat? t = some f) (hn : t.Accepts n) :
    f.read.Consumes (twosComplement f.width n) (.ok (t.readBack n)) := by
  obtain ⟨hlow, hhigh⟩ := (accepts_iff ht).1 hn
  have hwidth : 0 < f.width := by
    rw [width_of_integerFormat? ht]
    exact byteLength_pos ht
  rw [readBack_eq ht]
  exact IntegerFormat.consumes_read_of_range hwidth hlow hhigh

end Formats

section Zones

variable [Zone.Catalogue] {v : Value} {n : Int} {t : ColumnType} {f : IntegerFormat}

/-- A column of a whole-number type takes a whole number that lies in its range and no other, writes
the number's bits without regard to how the value holds it, and reads the number back. -/
theorem write_wholeNumber (hv : v.DenotesInt n) (ht : integerFormat? t = some f) (l : Layout)
    (scale : Nat) :
    (t.Accepts n → ∃ bytes, bytes.length = t.byteLength ∧
      (ofLittleEndian bytes : Int) = n % 2 ^ (8 * t.byteLength) ∧
      (∀ b : Buffer, (v.write t l scale).run b = (.ok (), { b with bytes := b.bytes ++ bytes })) ∧
      f.read.Consumes bytes (.ok (t.readBack n))) ∧
    (¬ t.Accepts n →
      ∃ fault, ∀ b : Buffer, (v.write t l scale).run b = (.error (.encode fault), b)) := by
  have hputs := v.puts_write t l scale
  have hwidth := width_of_integerFormat? ht
  constructor
  · intro hn
    have hencode : v.encode t l scale = .ok (twosComplement f.width n) := by
      rw [encode_of_integerFormat? ht, hv.toColumnInt? hn]
      exact if_pos ((accepts_iff ht).1 hn)
    rw [hencode] at hputs
    rw [← hwidth]
    exact ⟨_, length_twosComplement _ _, ofLittleEndian_twosComplement _ _, hputs,
      consumes_read_of_accepts ht hn⟩
  · intro hn
    obtain ⟨fault, hencode⟩ : ∃ fault, v.encode t l scale = .error (.encode fault) := by
      rw [encode_of_integerFormat? ht]
      cases hconverted : v.toColumnInt? t with
      | none => exact ⟨_, rfl⟩
      | some m =>
        rw [hv.eq_of_toColumnInt? hconverted]
        exact ⟨_, if_neg (mt (accepts_iff ht).2 hn)⟩
    rw [hencode] at hputs
    exact ⟨fault, hputs⟩

end Zones

theorem write_wholeNumber_promoted :
    (decimal ⟨20000, 2⟩).DenotesInt 200 ∧ ColumnType.int8.Accepts 200 ∧
      ∃ bytes, (ofLittleEndian bytes : Int) = 200 ∧
        (∀ b : Buffer, (write (decimal ⟨20000, 2⟩) .int8 {} 0).run b =
          (.ok (), { b with bytes := b.bytes ++ bytes })) ∧
        IntegerFormat.int8.read.Consumes bytes (.ok (-56)) := by
  have hv : (decimal ⟨20000, 2⟩).DenotesInt 200 := .decimal (by norm_num [Decimal.toRat])
  have hn : ColumnType.int8.Accepts 200 := ⟨by decide, by decide⟩
  obtain ⟨bytes, -, hbits, hrun, hread⟩ := (write_wholeNumber hv (t := .int8) rfl {} 0).1 hn
  exact ⟨hv, hn, bytes, hbits, hrun, hread⟩

end Value

end RowStream
