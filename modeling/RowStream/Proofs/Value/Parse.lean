import RowStream.Value.Parse
import RowStream.Proofs.Calendar.Literal
import RowStream.Proofs.Number.Decimal

/-!
# Values there and back

The text of a value is read as an equal value of its type, floating-point numbers aside; a decimal
may come back at another scale. A whole number is read as the value of the type's kind that holds
it, from its digits or from JSON.
-/

namespace RowStream

/-- Kinds that hold whole numbers digit for digit. A truth value only tells zero from the rest, and
floating-point numbers are rounded. -/
def ValueKind.isExact : ValueKind → Bool
  | .bool | .binary32 | .binary64 => false
  | _ => true

theorem int32?_toInt (n : Int32) : int32? n.toInt = some n := by
  have hlt := n.toInt_lt
  have hge := n.le_toInt
  unfold int32?
  rw [if_pos (by omega), Int32.ofInt_toInt]

theorem int64?_toInt (n : Int64) : int64? n.toInt = some n := by
  have hlt := n.toInt_lt
  have hge := n.le_toInt
  unfold int64?
  rw [if_pos (by omega), Int64.ofInt_toInt]

theorem isSome_int32? (n : Int) : (int32? n).isSome ↔ -2 ^ 31 ≤ n ∧ n < 2 ^ 31 := by
  unfold int32?
  rw [Option.isSome_ite]
  omega

theorem isSome_int64? (n : Int) : (int64? n).isSome ↔ -2 ^ 63 ≤ n ∧ n < 2 ^ 63 := by
  unfold int64?
  rw [Option.isSome_ite]
  omega

theorem int64?_bind_int32? (n : Int) : ((int64? n).bind fun w => int32? w.toInt) = int32? n := by
  cases h : int64? n with
  | some w => rw [Option.bind_some, toInt_of_int64? h]
  | none =>
      have hout := mt (isSome_int64? n).2 (by rw [h]; exact Bool.false_ne_true)
      have hnone : int32? n = none := if_neg (by omega)
      rw [Option.bind_none, hnone]

theorem scaleFits_of_parse? {cs : List Char} {d : Decimal} (h : Decimal.parse? cs = some d) :
    Decimal.scaleFits d.scale = true := by
  unfold Decimal.parse? at h
  dsimp only at h
  split at h
  · cases h
  · split at h
    · next hfits =>
        obtain ⟨n, -, rfl⟩ := Option.map_eq_some_iff.1 h
        exact hfits
    · cases h

namespace Value

open Text.Numeral

def isBinary : Value → Bool
  | binary32 _ | binary64 _ => true
  | _ => false

/-- What a value keeps to that is read from a text or is the zero of its type. -/
structure Readable (v : Value) (type : ColumnType) : Prop where
  kind : v.kind = type.kind
  scale : ∀ d, v = decimal d → Decimal.scaleFits d.scale = true

theorem readable_zero (type : ColumnType) : (zero type).Readable type := by
  refine ⟨kind_zero type, ?_⟩
  intro d h
  unfold zero at h
  split at h <;> cases h
  decide

theorem readable_of_kind {v : Value} {type : ColumnType} (hkind : v.kind = type.kind)
    (hne : type.kind ≠ .decimal) : v.Readable type := by
  refine ⟨hkind, ?_⟩
  rintro d rfl
  exact absurd hkind.symm hne

theorem readable_of_parse? {s : String} {type : ColumnType} {scale : Nat} {v : Value}
    (h : parse? s type scale = some v) : v.Readable type := by
  have hplain : ∀ {k : ValueKind}, type.kind = k → k ≠ .decimal → v.kind = k → v.Readable type :=
    fun hk hne hv => readable_of_kind (hv.trans hk.symm) (by rw [hk]; exact hne)
  unfold parse? at h
  dsimp only at h
  split at h
  case h_1 hk | h_2 hk | h_4 hk | h_5 hk | h_6 hk =>
      obtain ⟨x, -, rfl⟩ := Option.map_eq_some_iff.1 h
      exact hplain hk (by decide) rfl
  case h_3 hk =>
      -- Days, seconds and ticks are read apart from other words of 64 bits.
      rw [← apply_ite (Option.map int64)] at h
      obtain ⟨n, -, rfl⟩ := Option.map_eq_some_iff.1 h
      exact hplain hk (by decide) rfl
  case h_7 hk =>
      obtain ⟨d, hd, rfl⟩ := Option.map_eq_some_iff.1 h
      refine ⟨hk.symm, ?_⟩
      rintro d' ⟨⟩
      exact scaleFits_of_parse? hd
  case h_8 hk =>
      cases h
      exact hplain hk (by decide) rfl

theorem parse_ok_iff {s : String} {type : ColumnType} {scale : Nat} {v : Value} :
    parse s type scale = .ok v ↔ parse? s type scale = some v := by
  unfold parse
  cases parse? s type scale with
  | none => simp
  | some w => simp

theorem equal_self {v : Value} (h : v.isBinary = false) : v.equal v = true := by
  cases v with
  | binary32 x => cases h
  | binary64 x => cases h
  | decimal d => exact Decimal.equal_refl d
  | bool b => exact beq_self_eq_true (bool b)
  | int32 n => exact beq_self_eq_true (int32 n)
  | int64 n => exact beq_self_eq_true (int64 n)
  | integer n => exact beq_self_eq_true (integer n)
  | text s => exact beq_self_eq_true (text s)

theorem equal_zero (type : ColumnType) : (zero type).equal (zero type) = true := by
  cases type <;> decide

/-- Truth values and texts aside, a value is written as a number. -/
theorem toText_cases {v : Value} (hbinary : v.isBinary = false) :
    (∃ b, v = bool b) ∨ (∃ s, v = text s) ∨ IsNumeral v.toText.toList := by
  cases v with
  | binary32 x => cases hbinary
  | binary64 x => cases hbinary
  | bool b => exact .inl ⟨b, rfl⟩
  | int32 n => exact .inr (.inr (isNumeral_toString n.toInt))
  | int64 n => exact .inr (.inr (isNumeral_toString n.toInt))
  | integer n => exact .inr (.inr (isNumeral_toString n))
  | decimal d => exact .inr (.inr (Decimal.isNumeral_text d))
  | text s => exact .inr (.inl ⟨s, rfl⟩)

theorem text_of_parse? {s t : String} {type : ColumnType} {scale : Nat}
    (h : parse? s type scale = some (text t)) : t = s := by
  have hkind := (readable_of_parse? h).kind
  unfold parse? at h
  rw [← hkind] at h
  cases h
  rfl

theorem toText_ne_empty {s : String} {type : ColumnType} {scale : Nat} {v : Value} (hs : s ≠ "")
    (h : parse? s type scale = some v) (hbinary : v.isBinary = false) : v.toText ≠ "" := by
  rcases toText_cases hbinary with ⟨b, rfl⟩ | ⟨t, rfl⟩ | hnumeral
  · cases b
    · decide
    · decide
  · rw [text_of_parse? h]
    exact hs
  · intro hempty
    rw [hempty] at hnumeral
    exact hnumeral.nonempty rfl

def ofInt? (n : Int) : ValueKind → Option Value
  | .int32 => (RowStream.int32? n).map int32
  | .int64 => (RowStream.int64? n).map int64
  | .integer => some (integer n)
  | .decimal => some (decimal (Decimal.ofInt n))
  | .text => some (text (toString n))
  | .bool | .binary32 | .binary64 => none

theorem ofInt?_toInt32 (n : Int32) : ofInt? n.toInt .int32 = some (int32 n) :=
  congrArg (Option.map int32) (int32?_toInt n)

theorem ofInt?_toInt64 (n : Int64) : ofInt? n.toInt .int64 = some (int64 n) :=
  congrArg (Option.map int64) (int64?_toInt n)

theorem temporal?_toString (n : Int) (type : ColumnType) (scale : Nat) :
    temporal? (toString n).toList type scale = RowStream.int64? n := by
  unfold temporal?
  rw [signed?_toString, Option.bind_some, Literal.instant?_toString]
  cases RowStream.int64? n <;> rfl

section WholeNumbers

variable {type : ColumnType} (hexact : type.kind.isExact = true) (scale : Nat) (n : Int)
include hexact

theorem parse?_toString : parse? (toString n) type scale = ofInt? n type.kind := by
  unfold parse?
  rw [(isNumeral_toString n).trim]
  dsimp only
  cases hkind : type.kind with
  | int32 =>
      rw [signed?_toString]
      rfl
  | int64 =>
      dsimp only
      rw [temporal?_toString, signed?_toString, Option.bind_some, ite_self]
      rfl
  | integer =>
      rw [big?_toString]
      rfl
  | decimal =>
      rw [Decimal.parse?_toString]
      rfl
  | text => rfl
  | bool | binary32 | binary64 =>
      rw [hkind] at hexact
      cases hexact

theorem parse_toString : parse (toString n) type scale =
    (ofInt? n type.kind).elim (.error (.invalidArgument (.unreadable (toString n) type))) .ok := by
  unfold parse
  rw [parse?_toString hexact]
  cases ofInt? n type.kind with
  | none => rfl
  | some v => rfl

theorem ofNumber?_integer (hdigits : readsDigits type.kind = false) :
    ofNumber? (.integer n) type = ofInt? n type.kind := by
  unfold ofNumber?
  cases hkind : type.kind with
  | int32 => exact congrArg (Option.map int32) (int64?_bind_int32? n)
  | int64 | text => rfl
  | integer | decimal =>
      rw [hkind] at hdigits
      cases hdigits
  | bool | binary32 | binary64 =>
      rw [hkind] at hexact
      cases hexact

theorem ofJson_ofInt : ofJson (.ofInt n) type scale =
    (ofInt? n type.kind).elim (.error (.invalidArgument (.inconvertible (toString n) type)))
      (.ok <| some ·) := by
  have htext : (Json.num (.integer n)).text = toString n := by
    unfold Json.text
    rfl
  unfold ofJson Json.ofInt
  rw [htext]
  dsimp only
  split
  next hdigits =>
    change (parse (toString n) type scale).map some = _
    rw [parse_toString hexact]
    cases hkind : type.kind with
    | integer | decimal => rfl
    | _ =>
        rw [hkind] at hdigits
        cases hdigits
  next hdigits =>
    rw [ofNumber?_integer hexact n (Bool.eq_false_of_not_eq_true hdigits)]
    cases ofInt? n type.kind with
    | none => rfl
    | some v => rfl

end WholeNumbers

/-- A value is found again in its text. -/
theorem parse_toText {v : Value} {type : ColumnType} (scale : Nat) (hv : v.Readable type)
    (hbinary : v.isBinary = false) :
    ∃ v', parse v.toText type scale = .ok v' ∧ v'.equal v = true ∧
      (type.kind ≠ .decimal → v' = v) := by
  -- A decimal may be held at another scale than its text is read at, any other value is the same.
  have hkind := hv.kind
  have hsame : parse? v.toText type scale = some v → ∃ v', parse v.toText type scale = .ok v' ∧
      v'.equal v = true ∧ (type.kind ≠ .decimal → v' = v) :=
    fun h => ⟨v, parse_ok_iff.2 h, equal_self hbinary, fun _ => rfl⟩
  have hwhole {n : Int} (hexact : v.kind.isExact = true) (hvalue : ofInt? n v.kind = some v) :
      parse? (toString n) type scale = some v := by
    rw [hkind] at hexact hvalue
    rw [parse?_toString hexact, hvalue]
  cases v with
  | binary32 x => cases hbinary
  | binary64 x => cases hbinary
  | bool b =>
      apply hsame
      unfold parse?
      rw [← hkind]
      dsimp only [kind]
      cases b
      · decide
      · decide
  | int32 n => exact hsame (hwhole rfl (ofInt?_toInt32 n))
  | int64 n => exact hsame (hwhole rfl (ofInt?_toInt64 n))
  | integer n => exact hsame (hwhole rfl rfl)
  | decimal d =>
      have hfits := hv.scale d rfl
      obtain ⟨d', hparse, hequal⟩ := Decimal.parse?_text hfits
      refine ⟨decimal d', parse_ok_iff.2 ?_, hequal, fun hne => absurd hkind.symm hne⟩
      unfold parse? toText
      rw [← hkind]
      dsimp only [kind]
      rw [(Decimal.isNumeral_text d).trim, hparse]
      rfl
  | text s =>
      apply hsame
      unfold parse? toText
      rw [← hkind]
      rfl

end Value

end RowStream
