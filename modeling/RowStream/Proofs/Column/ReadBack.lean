import RowStream.Column.Bytes
import RowStream.Proofs.Column.Reachable
import RowStream.Proofs.Text.Utf8
import RowStream.Proofs.Value.Encode
import RowStream.Proofs.Wire.Varint
import RowStream.Stream.Resolve

/-!
# Cells read back

A column reads exactly the bytes that it has written, whatever stands behind them, and comes to a
text. Only ticks of an instant outside of the calendar have no text; they are consumed all the same.
-/

namespace RowStream

open Wire

namespace Wire

theorem consumes_readText {s : String} {bytes : List UInt8} (h : Wire.text s = .ok bytes) :
    readText.Consumes bytes (.ok s) := by
  obtain ⟨hlength, rfl⟩ := eq_of_text h
  refine (consumes_readSized hlength).bind_nil ?_
  rw [Utf8.decode_encodeString]
  dsimp only
  rw [String.ofList_toList]
  exact Reader.consumes_pure _

theorem varint_ne_nil (n : Nat) : varint n ≠ [] := by
  rw [varint]
  split <;> exact List.cons_ne_nil _ _

theorem consumes_readDecimal {precision : Nat} (scale : Nat) {bytes : List UInt8}
    (h : bytes.length = decimalWidth precision) :
    (readDecimal precision scale).Consumes bytes (.ok ⟨ofTwosComplement bytes, scale⟩) :=
  (Reader.consumes_take_of_length h).bind_nil (Reader.consumes_pure _)

theorem consumes_readUuid {bytes : List UInt8} (h : bytes.length = 16) :
    ∃ u, readUuid.Consumes bytes (.ok u) := by
  have hhigh : (bytes.take 8).length = 8 := by
    rw [List.length_take]
    omega
  have hlow : (bytes.drop 8).length = 8 := by
    rw [List.length_drop]
    omega
  have hread : readUuid.Consumes (bytes.take 8 ++ bytes.drop 8) (.ok
      ⟨UInt64.ofNat (ofLittleEndian (bytes.take 8)), UInt64.ofNat (ofLittleEndian (bytes.drop 8))⟩) :=
    (consumes_readUnsigned hhigh).bind ((consumes_readUnsigned hlow).bind_nil
      (Reader.consumes_pure _))
  rw [List.take_append_drop] at hread
  exact ⟨_, hread⟩

theorem consumes_readDateTime64_some {bytes : List UInt8} {scale : Nat} {t : Instant}
    (h : bytes.length = 8) (ht : instantOfTicks? (ofLittleEndian bytes) scale = some t) :
    (readDateTime64 scale).Consumes bytes (.ok t) := by
  refine (consumes_readUnsigned h).bind_nil ?_
  rw [ht]
  exact Reader.consumes_pure t

theorem consumes_readDateTime64_none {bytes : List UInt8} {scale : Nat}
    (h : bytes.length = 8) (ht : instantOfTicks? (ofLittleEndian bytes) scale = none) :
    (readDateTime64 scale).Consumes bytes
      (.error (.decode (.invalidDateTime (ofLittleEndian bytes)))) := by
  refine (consumes_readUnsigned h).bind_nil ?_
  rw [ht]
  exact Reader.consumes_malformed _

end Wire

namespace Column

theorem ne_nil_of_length {bytes : List UInt8} {n : Nat} (h : bytes.length = n) (hn : 0 < n) :
    bytes ≠ [] := by
  rintro rfl
  rw [List.length_nil] at h
  omega

theorem eq_of_byteLength_eq_zero {t : ColumnType} (h : t.byteLength = 0)
    (hdecimal : t.isDecimal = false) : t = .fixedString ∨ t = .string := by
  revert h hdecimal
  cases t <;> decide

theorem decimalWidth_pos (precision : Nat) : 0 < decimalWidth precision := by
  unfold decimalWidth
  split
  · decide
  · split
    · decide
    · split <;> decide

variable [Zone.Catalogue]

/-- The bytes are ticks of an instant that lies outside of the calendar. -/
structure OutsideCalendar (c : Column) (bytes : List UInt8) : Prop where
  type : c.type = .dateTime64
  length : bytes.length = 8
  instant : instantOfTicks? (ofLittleEndian bytes) c.scale = none

/-- The column reads the bytes as one value. It fails to only when they lie outside of
the calendar. -/
structure ReadsValue (c : Column) (bytes : List UInt8) (result : Except Error String) : Prop where
  consumes : c.readValue.Consumes bytes result
  nonempty : bytes ≠ []
  failure : ∀ e, result = .error e →
    c.OutsideCalendar bytes ∧ e = .decode (.invalidDateTime (ofLittleEndian bytes))

section Values

variable {c : Column} {bytes : List UInt8}

theorem readsValue_ok {s : String} (hread : c.readValue.Consumes bytes (.ok s))
    (hbytes : bytes ≠ []) : ∃ result, c.ReadsValue bytes result := by
  refine ⟨.ok s, hread, hbytes, ?_⟩
  intro e he
  cases he

theorem readsValue_map {α : Type} {r : Reader α} {f : α → String} {a : α}
    (hreader : c.readValue = f <$> r) (hr : r.Consumes bytes (.ok a)) (hbytes : bytes ≠ []) :
    ∃ result, c.ReadsValue bytes result := by
  apply readsValue_ok _ hbytes
  · exact f a
  · rw [hreader]
    exact hr.map f

theorem readsValue_ticks (ht : c.type = .dateTime64) (h : bytes.length = 8) :
    ∃ result, c.ReadsValue bytes result := by
  have hreader : c.readValue = Instant.textWithFraction <$> readDateTime64 c.scale := by
    unfold readValue
    rw [ht]
  have hbytes := ne_nil_of_length h (by decide)
  cases hinstant : instantOfTicks? (ofLittleEndian bytes) c.scale with
  | some t => exact readsValue_map hreader (consumes_readDateTime64_some h hinstant) hbytes
  | none =>
      refine ⟨.error (.decode (.invalidDateTime (ofLittleEndian bytes))), ?_, hbytes, ?_⟩
      · rw [hreader]
        exact (consumes_readDateTime64_none h hinstant).map _
      · intro e he
        cases he
        exact ⟨⟨ht, h, hinstant⟩, rfl⟩

theorem consumes_readValue_of_byteLength (ht : c.type.byteLength ≠ 0)
    (h : bytes.length = c.type.byteLength) (hdecimal : c.type.isDecimal = false)
    (hticks : c.type ≠ .dateTime64) : ∃ s, c.readValue.Consumes bytes (.ok s) := by
  unfold readValue
  cases htype : c.type <;> rw [htype] at h ht hdecimal hticks
  case bool => exact ⟨_, (consumes_readFlag_of_length h).map _⟩
  case float32 | float64 => exact ⟨_, (consumes_readUnsigned h).map _⟩
  case date => exact ⟨_, (consumes_readDate h).map _⟩
  case dateTime => exact ⟨_, (consumes_readDateTime h).map _⟩
  case ipv4 => exact ⟨_, (consumes_readIpv4 h).map _⟩
  case ipv6 => exact ⟨_, (consumes_readIpv6 h).map _⟩
  case uuid =>
    obtain ⟨u, hread⟩ := consumes_readUuid h
    exact ⟨_, hread.map _⟩
  case enum | enum8 | enum16 | int8 | uint8 | int16 | uint16 | int32 | uint32 | int64 | uint64
    | int128 | uint128 | int256 | uint256 =>
    exact ⟨_, (IntegerFormat.consumes_read _ h).map _⟩
  case dateTime64 => exact absurd rfl hticks
  case decimal | decimal32 | decimal64 | decimal128 | decimal256 => cases hdecimal
  case fixedString | string => exact absurd rfl ht

theorem readsValue_of_byteLength (ht : c.type.byteLength ≠ 0)
    (h : bytes.length = c.type.byteLength) (hdecimal : c.type.isDecimal = false) :
    ∃ result, c.ReadsValue bytes result := by
  by_cases hticks : c.type = .dateTime64
  · rw [hticks] at h
    exact readsValue_ticks hticks h
  · obtain ⟨s, hread⟩ := consumes_readValue_of_byteLength ht h hdecimal hticks
    exact readsValue_ok hread (ne_nil_of_length h (Nat.pos_of_ne_zero ht))

/-- Whatever a column writes it reads back. -/
theorem readsValue_of_encode {v : Value} {zone : Option Zone} {scale : Nat} (hc : c.Fits)
    (h : v.encode c.type (StreamRequest.layoutIn zone c) scale = .ok bytes) :
    ∃ result, c.ReadsValue bytes result := by
  by_cases hdecimal : c.type.isDecimal = true
  · have hlength : bytes.length = decimalWidth c.precision := by
      rw [Value.length_of_encode_decimal hdecimal h, ← hc.precision]
      rfl
    have hreader : c.readValue = Decimal.text <$> readDecimal c.precision c.scale := by
      unfold readValue
      cases ht : c.type <;> rw [ht] at hdecimal <;> first | rfl | cases hdecimal
    exact readsValue_map hreader (consumes_readDecimal c.scale hlength)
      (ne_nil_of_length hlength (decimalWidth_pos _))
  · rw [Bool.not_eq_true] at hdecimal
    by_cases hfixed : c.type.byteLength = 0
    · rcases eq_of_byteLength_eq_zero hfixed hdecimal with ht | ht
      · -- A fixed text is padded up to its length, and no longer one has been written.
        have hlength : bytes.length = c.length := by
          have hpos := hc.length ht
          rw [ht] at h
          have hall : bytes.length = max c.length 1 := by
            rw [length_of_padded h]
            simp [StreamRequest.layoutIn, layout, ht]
          omega
        have hread : c.readValue = fixedText <$> take c.length := by
          unfold readValue
          rw [ht]
        exact readsValue_map hread (Reader.consumes_take_of_length hlength)
          (ne_nil_of_length hlength (hc.length ht))
      · rw [ht] at h
        have hread : c.readValue = Wire.readText := by
          unfold readValue
          rw [ht]
        have htext : c.readValue.Consumes bytes (.ok v.toText) := by
          rw [hread]
          exact consumes_readText h
        apply readsValue_ok htext
        rw [(eq_of_text h).2]
        exact List.append_ne_nil_of_left_ne_nil (varint_ne_nil _) _
    · exact readsValue_of_byteLength hfixed (Value.length_of_encode hfixed h) hdecimal

end Values

end Column

end RowStream
