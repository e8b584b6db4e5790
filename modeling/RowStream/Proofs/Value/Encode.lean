import RowStream.Value.Encode

/-!
# Values written and refused

A value is written with the number of bytes that its type and layout ask for, or refused with an
encoding fault and with no other error.
-/

namespace RowStream

theorem Wire.IntegerFormat.length_of_encode {f : IntegerFormat} {n : Int} {bytes : List UInt8}
    (h : f.encode n = .ok bytes) : bytes.length = f.width := by
  unfold IntegerFormat.encode at h
  split at h
  · cases h
    exact length_twosComplement _ _
  · cases h

theorem Wire.length_of_decimal {d : Decimal} {precision scale : Nat} {bytes : List UInt8}
    (h : Wire.decimal d precision scale = .ok bytes) :
    bytes.length = decimalWidth precision := by
  unfold Wire.decimal at h
  dsimp only at h
  split at h
  · cases h
    exact length_twosComplement _ _
  · cases h

theorem Wire.eq_of_text {s : String} {bytes : List UInt8} (h : Wire.text s = .ok bytes) :
    (Utf8.encodeString s).length ≤ maxWord32 ∧
      bytes = Wire.varint (Utf8.encodeString s).length ++ Utf8.encodeString s := by
  unfold Wire.text Wire.sized at h
  split at h
  · rename_i hle
    cases h
    exact ⟨hle, rfl⟩
  · cases h

theorem Wire.IntegerFormat.encode_error {f : IntegerFormat} {n : Int} {e : Error}
    (h : f.encode n = .error e) : ∃ fault, e = .encode fault := by
  unfold IntegerFormat.encode at h
  split at h
  · cases h
  · cases h
    exact ⟨_, rfl⟩

theorem Wire.decimal_error {d : Decimal} {precision scale : Nat} {e : Error}
    (h : Wire.decimal d precision scale = .error e) : ∃ fault, e = .encode fault := by
  unfold Wire.decimal at h
  dsimp only at h
  split at h
  · cases h
  · cases h
    exact ⟨_, rfl⟩

theorem Wire.text_error {s : String} {e : Error} (h : Wire.text s = .error e) :
    ∃ fault, e = .encode fault := by
  unfold Wire.text Wire.sized at h
  split at h
  · cases h
  · cases h
    exact ⟨_, rfl⟩

theorem Wire.padded_of_le {bytes : List UInt8} {length : Nat} (h : bytes.length ≤ length) :
    Wire.padded bytes length = .ok (bytes ++ List.replicate (length - bytes.length) 0) := by
  unfold Wire.padded Wire.fixed
  rw [if_pos h]
  rfl

theorem Wire.padded_of_lt {bytes : List UInt8} {length : Nat} (h : length < bytes.length) :
    Wire.padded bytes length = .error (.encode (.fixedOverflow bytes.length length)) := by
  unfold Wire.padded Wire.fixed
  rw [if_neg (by omega)]
  rfl

theorem Wire.padded_error {bytes : List UInt8} {length : Nat} {e : Error}
    (h : Wire.padded bytes length = .error e) : ∃ fault, e = .encode fault := by
  by_cases hle : bytes.length ≤ length
  · rw [Wire.padded_of_le hle] at h
    cases h
  · rw [Wire.padded_of_lt (by omega)] at h
    cases h
    exact ⟨_, rfl⟩

theorem Wire.length_of_padded {bytes padded : List UInt8} {length : Nat}
    (h : Wire.padded bytes length = .ok padded) : padded.length = length := by
  by_cases hle : bytes.length ≤ length
  · rw [Wire.padded_of_le hle] at h
    cases h
    rw [List.length_append, List.length_replicate]
    omega
  · rw [Wire.padded_of_lt (by omega)] at h
    cases h

namespace Value

theorem writeAs_ok {α : Type} {v : Value} {t : ColumnType} {converted : Option α}
    {write : α → Except Error (List UInt8)} {bytes : List UInt8}
    (h : v.writeAs t converted write = .ok bytes) :
    ∃ a, converted = some a ∧ write a = .ok bytes := by
  cases converted with
  | none => cases h
  | some a => exact ⟨a, rfl, h⟩

theorem length_of_writeAs_pure {α : Type} {v : Value} {t : ColumnType} {converted : Option α}
    {f : α → List UInt8} {length : Nat} {bytes : List UInt8} (hf : ∀ a, (f a).length = length)
    (h : v.writeAs t converted (fun a => .ok (f a)) = .ok bytes) : bytes.length = length := by
  obtain ⟨a, -, ha⟩ := writeAs_ok h
  cases ha
  exact hf a

theorem writeAs_error {α : Type} {v : Value} {t : ColumnType} {converted : Option α}
    {write : α → Except Error (List UInt8)} {e : Error}
    (hwrite : ∀ a e, write a = .error e → ∃ fault, e = .encode fault)
    (h : v.writeAs t converted write = .error e) : ∃ fault, e = .encode fault := by
  cases converted with
  | none =>
      cases h
      exact ⟨_, rfl⟩
  | some a => exact hwrite a e h

theorem writeAs_pure_error {α : Type} {v : Value} {t : ColumnType} {converted : Option α}
    {f : α → List UInt8} {e : Error}
    (h : v.writeAs t converted (fun a => .ok (f a)) = .error e) : ∃ fault, e = .encode fault := by
  apply writeAs_error _ h
  intro a e ha
  cases ha

variable [Zone.Catalogue]

theorem encode_of_integerFormat? {v : Value} {t : ColumnType} {f : Wire.IntegerFormat}
    {layout : Layout} {scale : Nat} (ht : integerFormat? t = some f) :
    v.encode t layout scale = v.writeAs t (v.toColumnInt? t) f.encode := by
  cases t
  case int8 | int16 | int32 | int64 | int128 | int256 | uint8 | uint16 | uint32 | uint64 | uint128
    | uint256 | enum | enum8 | enum16 =>
    cases ht
    rfl
  all_goals cases ht

theorem length_of_encode_integer {v : Value} {t : ColumnType} {f : Wire.IntegerFormat}
    {layout : Layout} {scale : Nat} {bytes : List UInt8} (ht : integerFormat? t = some f)
    (h : v.encode t layout scale = .ok bytes) : bytes.length = f.width := by
  rw [encode_of_integerFormat? ht] at h
  obtain ⟨n, -, hn⟩ := writeAs_ok h
  exact Wire.IntegerFormat.length_of_encode hn

theorem length_of_encode_decimal {v : Value} {t : ColumnType} {layout : Layout} {scale : Nat}
    {bytes : List UInt8} (ht : t.isDecimal = true) (h : v.encode t layout scale = .ok bytes) :
    bytes.length = decimalWidth (layout.precisionFor t) := by
  cases t
  case decimal | decimal32 | decimal64 | decimal128 | decimal256 =>
    obtain ⟨d, -, hd⟩ := writeAs_ok h
    exact Wire.length_of_decimal hd
  all_goals cases ht

theorem length_of_encode {v : Value} {t : ColumnType} {layout : Layout} {scale : Nat}
    {bytes : List UInt8} (ht : t.byteLength ≠ 0) (h : v.encode t layout scale = .ok bytes) :
    bytes.length = t.byteLength := by
  cases t
  case int8 | int16 | int32 | int64 | int128 | int256 | uint8 | uint16 | uint32 | uint64 | uint128
    | uint256 | enum | enum8 | enum16 =>
    exact length_of_encode_integer rfl h
  case decimal32 | decimal64 | decimal128 | decimal256 =>
    exact length_of_encode_decimal rfl h
  case decimal | fixedString | string => exact absurd rfl ht
  case bool => exact length_of_writeAs_pure (fun _ => rfl) h
  case float32 | float64 | ipv4 =>
    exact length_of_writeAs_pure (fun _ => Wire.length_littleEndian _ _) h
  case date | dateTime | dateTime64 =>
    exact length_of_writeAs_pure (fun _ => Wire.length_twosComplement _ _) h
  case ipv6 | uuid =>
    refine length_of_writeAs_pure (fun a => ?_) h
    simp [Wire.ipv6, Wire.uuid, ColumnType.byteLength]

/-- The only errors of encoding are encoding faults. -/
theorem encode_error {v : Value} {t : ColumnType} {layout : Layout} {scale : Nat} {e : Error}
    (h : v.encode t layout scale = .error e) : ∃ fault, e = .encode fault := by
  cases t
  case fixedString => exact Wire.padded_error h
  case string => exact Wire.text_error h
  case decimal | decimal32 | decimal64 | decimal128 | decimal256 =>
    exact writeAs_error (fun _ _ => Wire.decimal_error) h
  case int8 | int16 | int32 | int64 | int128 | int256 | uint8 | uint16 | uint32 | uint64 | uint128
    | uint256 | enum | enum8 | enum16 =>
    exact writeAs_error (fun _ _ => Wire.IntegerFormat.encode_error) h
  all_goals exact writeAs_pure_error h

theorem encode_outcome (v : Value) (t : ColumnType) (layout : Layout) (scale : Nat) :
    (∃ bytes, v.encode t layout scale = .ok bytes) ∨
      ∃ fault, v.encode t layout scale = .error (.encode fault) := by
  cases h : v.encode t layout scale with
  | ok bytes => exact .inl ⟨bytes, rfl⟩
  | error e =>
      obtain ⟨fault, rfl⟩ := encode_error h
      exact .inr ⟨fault, rfl⟩

end Value

end RowStream
