import RowStream.Proofs.Stream.ReadBack
import RowStream.Proofs.Wire.Writing
import RowStream.Value.Write

/-!
# Values are put whole or not at all

A value that is refused leaves no byte behind, whatever its type and the buffer are, and one that is
put adds just the bytes that its type and layout ask for. A column takes as many of them as it has
put.
-/

namespace RowStream

open Wire

namespace Value

variable [Zone.Catalogue]

/-- A value of several parts is refused before the first of them. -/
theorem puts_writeBy (v : Value) (clocks : Zone.Clocks) (t : ColumnType) (layout : Layout)
    (scale : Nat) :
    (v.writeBy clocks t layout scale).Puts (v.encodeBy clocks t layout scale) := by
  cases t
  case fixedString => exact puts_writePadded _ _
  case string => exact puts_writeText _
  case uuid =>
    unfold writeBy encodeBy writeAs
    cases v.toUuid? with
    | none => exact Writer.puts_throw _
    | some u => exact puts_writeUuid u
  all_goals exact Writer.puts_offer _

theorem puts_write (v : Value) (t : ColumnType) (layout : Layout) (scale : Nat) :
    (v.write t layout scale).Puts (v.encode t layout scale) :=
  v.puts_writeBy Zone.offset t layout scale

/-- The bytes that a type and a layout ask for. -/
structure Laid (v : Value) (t : ColumnType) (l : Layout) (bytes : List UInt8) : Prop where
  fixed : t.byteLength ≠ 0 → bytes.length = t.byteLength
  decimal : t = .decimal → bytes.length = decimalWidth (l.precisionFor t)
  padded : t = .fixedString →
    bytes.length = max (l.length.getD (Utf8.encodeString v.toText).length) 1 ∧
      ∃ zeros, bytes = Utf8.encodeString v.toText ++ List.replicate zeros 0
  sized : t = .string → ∃ groups, bytes = groups ++ Utf8.encodeString v.toText ∧
    ShortestGroups (Utf8.encodeString v.toText).length groups

omit [Zone.Catalogue] in
theorem exists_zeros_of_padded {bytes padded : List UInt8} {length : Nat}
    (h : Wire.padded bytes length = .ok padded) :
    ∃ zeros, padded = bytes ++ List.replicate zeros 0 := by
  by_cases hle : bytes.length ≤ length
  · rw [padded_of_le hle] at h
    cases h
    exact ⟨_, rfl⟩
  · rw [padded_of_lt (by omega)] at h
    cases h

theorem laid_of_encode {v : Value} {t : ColumnType} {l : Layout} {scale : Nat}
    {bytes : List UInt8} (h : v.encode t l scale = .ok bytes) : v.Laid t l bytes := by
  refine ⟨fun hfixed => length_of_encode hfixed h, ?_, ?_, ?_⟩
  · rintro rfl
    exact length_of_encode_decimal rfl h
  · rintro rfl
    exact ⟨length_of_padded h, exists_zeros_of_padded h⟩
  · rintro rfl
    exact ⟨_, (eq_of_text h).2, shortestGroups_varint _⟩

end Value

theorem Column.readsCell_of_encode [Zone.Catalogue] {c : Column} (hc : c.Reachable) {v : Value}
    {scale : Nat} {bytes : List UInt8} (h : v.encode c.type c.layout scale = .ok bytes) :
    c.ReadsCell (notNullFlag c ++ bytes) := by
  have hlayout : StreamRequest.layoutIn none c = c.layout := by
    simp [StreamRequest.layoutIn]
  rw [← hlayout] at h
  obtain ⟨result, hreads⟩ := readsValue_of_encode hc.fits h
  exact readsCell_value hreads

namespace Value

section Zones

variable [Zone.Catalogue]

/-- A value is refused and leaves the buffer as it was, or its bytes stand at the end of it and
nothing else has changed; and what a column has put it reads as one cell. -/
theorem write_whole_or_nothing (v : Value) (scale : Nat) :
    (∀ (t : ColumnType) (l : Layout),
      (∃ fault, ∀ b : Buffer, (v.write t l scale).run b = (.error (.encode fault), b)) ∨
        ∃ bytes, v.Laid t l bytes ∧ ∀ b : Buffer,
          (v.write t l scale).run b = (.ok (), { b with bytes := b.bytes ++ bytes })) ∧
    ∀ c : Column, c.Reachable → ∀ b b' : Buffer,
      (v.write c.type c.layout scale).run b = (.ok (), b') →
        ∃ bytes, b' = { b with bytes := b.bytes ++ bytes } ∧
          c.ReadsCell (notNullFlag c ++ bytes) := by
  constructor
  · intro t l
    have hputs := v.puts_write t l scale
    rcases encode_outcome v t l scale with ⟨bytes, hencode⟩ | ⟨fault, hencode⟩
    · rw [hencode] at hputs
      exact .inr ⟨bytes, laid_of_encode hencode, hputs⟩
    · rw [hencode] at hputs
      exact .inl ⟨fault, hputs⟩
  · intro c hc b b' hrun
    have hputs := v.puts_write c.type c.layout scale b
    rw [hrun] at hputs
    rcases encode_outcome v c.type c.layout scale with ⟨bytes, hencode⟩ | ⟨fault, hencode⟩
    · rw [hencode] at hputs
      cases hputs
      exact ⟨bytes, rfl, Column.readsCell_of_encode hc hencode⟩
    · rw [hencode] at hputs
      cases hputs

end Zones

def codeColumn : Column :=
  { name := "code"
    type := .fixedString
    nullable := true
    length := 4
    precision := 0
    scale := 0
    zone := none
    options := []
    cell := Cell.new "code" .fixedString
    declared := false
    index := none }

theorem write_whole_or_nothing_code :
    Column.ofDeclaration "code Nullable(FixedString(4))" = .ok codeColumn ∧
      (write (text "ab") .fixedString codeColumn.layout 0).run ⟨[7], 1⟩ =
        (.ok (), ⟨[7, 97, 98, 0, 0], 1⟩) ∧ codeColumn.ReadsCell [0, 97, 98, 0, 0] := by
  have hdeclared : Column.ofDeclaration "code Nullable(FixedString(4))" = .ok codeColumn :=
    ok_of_toOption (by decide +kernel)
  have hrun : (write (text "ab") .fixedString codeColumn.layout 0).run ⟨[7], 1⟩ =
      (.ok (), ⟨[7, 97, 98, 0, 0], 1⟩) := rfl
  obtain ⟨bytes, hbuffer, hreads⟩ := (write_whole_or_nothing (text "ab") 0).2 codeColumn
    (Column.reachable_of_ofDeclaration hdeclared) _ _ hrun
  have hbytes : [7, 97, 98, 0, 0] = 7 :: bytes := congrArg Buffer.bytes hbuffer
  rw [← (List.cons.inj hbytes).2] at hreads
  exact ⟨hdeclared, hrun, hreads⟩

end Value

end RowStream
