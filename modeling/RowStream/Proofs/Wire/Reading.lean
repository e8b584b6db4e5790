import RowStream.Wire.Bytes
import RowStream.Wire.Temporal

/-!
# Where readers stop

A reader consumes bytes when it reads just these, wherever they stand in a buffer and whatever
stands around them. Readers made of readers consume the bytes of their parts one after the other.
-/

namespace RowStream.Wire

/-- The reader reads the bytes, comes to the result, and stops behind them. -/
def Reader.Consumes {α : Type} (r : Reader α) (bytes : List UInt8) (result : Except Error α) :
    Prop :=
  ∀ before after, r.run ⟨before ++ bytes ++ after, before.length⟩ =
    (result, ⟨before ++ bytes ++ after, (before ++ bytes).length⟩)

namespace Reader

variable {α β : Type}

theorem run_bind (r : Reader α) (f : α → Reader β) (b : Buffer) :
    (r >>= f).run b =
      match r.run b with
      | (.ok a, b') => (f a).run b'
      | (.error e, b') => (.error e, b') := by
  rcases h : r.run b with ⟨result, b'⟩
  have hr : r b = (result, b') := h
  change (ExceptT.bindCont f (r b).1) (r b).2 = _
  rw [hr]
  cases result <;> rfl

theorem run_map (f : α → β) (r : Reader α) (b : Buffer) :
    (f <$> r).run b = ((r.run b).1.map f, (r.run b).2) := by
  rw [map_eq_pure_bind, run_bind]
  rcases r.run b with ⟨_ | a, b'⟩ <;> rfl

theorem run_take_of_le {n : Nat} {b : Buffer} (h : n ≤ b.remaining) :
    (take n).run b =
      (.ok ((b.bytes.drop b.position).take n), { b with position := b.position + n }) := by
  unfold take
  rw [run_bind]
  change (if b.remaining < n then _ else _ : Reader (List UInt8)).run b = _
  rw [if_neg (by omega)]
  rfl

theorem run_take_of_lt {n : Nat} {b : Buffer} (h : b.remaining < n) :
    (take n).run b = (.error (.decode (.endOfBuffer n b.position b.remaining)), b) := by
  unfold take
  rw [run_bind]
  change (if b.remaining < n then _ else _ : Reader (List UInt8)).run b = _
  rw [if_pos h]
  rfl

theorem consumes_pure (a : α) : (pure a : Reader α).Consumes [] (.ok a) := by
  intro before after
  rw [List.append_nil]
  rfl

theorem consumes_malformed (fault : DecodeFault) :
    (malformed fault : Reader α).Consumes [] (.error (.decode fault)) := by
  intro before after
  rw [List.append_nil]
  rfl

theorem consumes_take (bytes : List UInt8) : (take bytes.length).Consumes bytes (.ok bytes) := by
  intro before after
  have hleft : bytes.length ≤ Buffer.remaining ⟨before ++ bytes ++ after, before.length⟩ := by
    simp only [Buffer.remaining, Buffer.size, List.length_append]
    omega
  rw [run_take_of_le hleft]
  simp

theorem consumes_take_of_length {bytes : List UInt8} {n : Nat} (h : bytes.length = n) :
    (take n).Consumes bytes (.ok bytes) := by
  rw [← h]
  exact consumes_take bytes

variable {r : Reader α} {bytes more : List UInt8}

theorem Consumes.bind {f : α → Reader β} {a : α} {result : Except Error β}
    (h : r.Consumes bytes (.ok a)) (hf : (f a).Consumes more result) :
    (r >>= f).Consumes (bytes ++ more) result := by
  intro before after
  have hfirst := h before (more ++ after)
  have hsecond := hf (before ++ bytes) after
  simp only [List.append_assoc] at hfirst hsecond ⊢
  rw [run_bind, hfirst]
  exact hsecond

theorem Consumes.bind_nil {f : α → Reader β} {a : α} {result : Except Error β}
    (h : r.Consumes bytes (.ok a)) (hf : (f a).Consumes [] result) :
    (r >>= f).Consumes bytes result := by
  have hall := h.bind hf
  rw [List.append_nil] at hall
  exact hall

theorem Consumes.map {result : Except Error α} (f : α → β) (h : r.Consumes bytes result) :
    (f <$> r).Consumes bytes (result.map f) := by
  intro before after
  rw [run_map, h before after]

/-- A reader stops behind its bytes wherever they stand before the end of a buffer. -/
theorem Consumes.run_of_drop {result : Except Error α} {b : Buffer} (h : r.Consumes bytes result)
    (hbytes : bytes ≠ []) (hdrop : b.bytes.drop b.position = bytes ++ more) :
    r.run b = (result, { b with position := b.position + bytes.length }) := by
  have hle : b.position ≤ b.bytes.length := by
    have hlength := congrArg List.length hdrop
    have hpos := List.length_pos_iff.2 hbytes
    simp only [List.length_drop, List.length_append] at hlength
    omega
  have hrun := h (b.bytes.take b.position) more
  rwa [List.append_assoc, ← hdrop, List.take_append_drop, List.length_append, List.length_take,
    Nat.min_eq_left hle] at hrun

theorem Consumes.run_ofBytes {result : Except Error α} (h : r.Consumes bytes result) :
    r.run (Buffer.ofBytes bytes) = (result, ⟨bytes, bytes.length⟩) := by
  have hall := h [] []
  rw [List.append_nil, List.nil_append] at hall
  exact hall

end Reader

open Reader

theorem consumes_readUnsigned {bytes : List UInt8} {width : Nat} (h : bytes.length = width) :
    (readUnsigned width).Consumes bytes (.ok (ofLittleEndian bytes)) :=
  (consumes_take_of_length h).bind_nil (consumes_pure _)

theorem IntegerFormat.consumes_read (f : IntegerFormat) {bytes : List UInt8}
    (h : bytes.length = f.width) :
    f.read.Consumes bytes
      (.ok (if f.signed then ofTwosComplement bytes else ofLittleEndian bytes)) :=
  (consumes_take_of_length h).bind_nil (consumes_pure _)

theorem consumes_readFlag_of_length {bytes : List UInt8} (h : bytes.length = 1) :
    readFlag.Consumes bytes (.ok (bytes != [0])) :=
  (consumes_take_of_length h).bind_nil (consumes_pure _)

theorem consumes_readFlag (b : Bool) : readFlag.Consumes (flag b) (.ok b) := by
  have h : readFlag.Consumes (flag b) (.ok (flag b != [0])) := consumes_readFlag_of_length rfl
  cases b <;> exact h

theorem consumes_readDate {bytes : List UInt8} (h : bytes.length = 2) :
    readDate.Consumes bytes (.ok (Date.ofDays (ofLittleEndian bytes))) :=
  (consumes_readUnsigned h).bind_nil (consumes_pure _)

theorem consumes_readDateTime {bytes : List UInt8} (h : bytes.length = 4) :
    readDateTime.Consumes bytes (.ok ⟨ofLittleEndian bytes, 0⟩) :=
  (consumes_readUnsigned h).bind_nil (consumes_pure _)

theorem consumes_readIpv4 {bytes : List UInt8} (h : bytes.length = 4) :
    readIpv4.Consumes bytes (.ok ⟨UInt32.ofNat (ofLittleEndian bytes)⟩) :=
  (consumes_readUnsigned h).bind_nil (consumes_pure _)

theorem consumes_readIpv6 {bytes : List UInt8} (h : bytes.length = 16) :
    readIpv6.Consumes bytes (.ok (Ipv6.ofNat (ofLittleEndian bytes.reverse))) :=
  (consumes_take_of_length h).bind_nil (consumes_pure _)

theorem consumes_readGroups_cons {b : UInt8} {more : List UInt8} {value weight groups : Nat}
    {result : Except Error Nat}
    (h : (if b.toNat < 128 then
        if value + b.toNat % 128 * weight ≤ maxWord32 then
          pure (value + b.toNat % 128 * weight)
        else malformed (.varintOverflow (value + b.toNat % 128 * weight))
      else readGroups (value + b.toNat % 128 * weight) (weight * 128) groups).Consumes
        more result) :
    (readGroups value weight (groups + 1)).Consumes (b :: more) result :=
  (consumes_take [b]).bind h

end RowStream.Wire
