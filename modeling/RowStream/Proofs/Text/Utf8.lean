import RowStream.Text.Utf8

/-!
# UTF-8 there and back

Decoding undoes encoding. The bytes of one character are taken apart by their number; the ranges of
the second byte hold for characters because surrogates are none. A byte of seven bits is met in the
bytes of one character only, so that bytes can be searched for such characters.
-/

namespace RowStream.Utf8

/-- The byte of a character of seven bits. -/
def byteOf (c : Char) : UInt8 := UInt8.ofNat c.toNat

/-- A tail byte that carries the six bits `x % 64`. -/
def tailByte (x : Nat) : UInt8 := UInt8.ofNat (x % 64 + 0x80)

theorem toNat_tailByte (x : Nat) : (tailByte x).toNat = x % 64 + 0x80 := by
  exact UInt8.toNat_ofNat_of_lt (show x % 64 + 0x80 < 256 by omega)

theorem tails_tailByte (owed value size x : Nat) (rest : List UInt8) :
    tails (owed + 1) value size (tailByte x :: rest) =
      tails owed (value * 64 + x % 64) (size + 1) rest := by
  have htail : isTail (tailByte x).toNat = true := by
    rw [toNat_tailByte]
    simp only [isTail, Bool.and_eq_true, decide_eq_true_eq]
    omega
  have hbits : (x % 64 + 0x80) % 64 = x % 64 := by omega
  rw [tails, if_pos htail, toNat_tailByte, hbits]

theorem lead?_two {k : Nat} (hlow : 2 ≤ k) (hhigh : k < 32) :
    lead? (k + 0xC0) = some (1, 0x80, 0xBF) := by
  have h : ∀ k < 32, 2 ≤ k → lead? (k + 0xC0) = some (1, 0x80, 0xBF) := by decide
  exact h k hhigh hlow

theorem lead?_three {k : Nat} (h : k < 16) :
    lead? (k + 0xE0) = some (2, if k = 0 then 0xA0 else 0x80, if k = 13 then 0x9F else 0xBF) := by
  have hall : ∀ k < 16, lead? (k + 0xE0) =
      some (2, if k = 0 then 0xA0 else 0x80, if k = 13 then 0x9F else 0xBF) := by decide
  exact hall k h

theorem lead?_four {k : Nat} (h : k < 5) :
    lead? (k + 0xF0) = some (3, if k = 0 then 0x90 else 0x80, if k = 4 then 0x8F else 0xBF) := by
  have hall : ∀ k < 5, lead? (k + 0xF0) =
      some (3, if k = 0 then 0x90 else 0x80, if k = 4 then 0x8F else 0xBF) := by decide
  exact hall k h

theorem front_of_lead {b : UInt8} {owed low high x : Nat} {rest : List UInt8}
    (hb : 0x80 ≤ b.toNat) (hlead : lead? b.toNat = some (owed, low, high))
    (hlow : low ≤ x % 64 + 0x80) (hhigh : x % 64 + 0x80 ≤ high) :
    front b (tailByte x :: rest) =
      tails (owed - 1) ((if owed == 1 then b.toNat % 32 else if owed == 2 then b.toNat % 16
        else b.toNat % 8) * 64 + x % 64) 2 rest := by
  have hbits : (x % 64 + 0x80) % 64 = x % 64 := by omega
  have hrange : (decide (low ≤ (tailByte x).toNat) && decide ((tailByte x).toNat ≤ high)) = true := by
    rw [toNat_tailByte]
    simp only [Bool.and_eq_true, decide_eq_true_eq]
    exact ⟨hlow, hhigh⟩
  unfold front
  dsimp only
  rw [if_neg (by omega), hlead]
  dsimp only
  rw [if_pos hrange, toNat_tailByte, hbits]

section Characters

variable (c : Char) (rest : List UInt8)

theorem front_one (h : c.toNat ≤ 0x7F) : front (UInt8.ofNat c.toNat) rest = .char c 1 := by
  have hbyte : (UInt8.ofNat c.toNat).toNat = c.toNat :=
    UInt8.toNat_ofNat_of_lt (show c.toNat < 256 by omega)
  unfold front
  dsimp only
  rw [hbyte, if_pos (by omega), Char.ofNat_toNat]

theorem front_two (hlow : 0x7F < c.toNat) (hhigh : c.toNat ≤ 0x7FF) :
    front (UInt8.ofNat (c.toNat / 64 % 32 + 0xC0)) (tailByte c.toNat :: rest) = .char c 2 := by
  have hbyte : (UInt8.ofNat (c.toNat / 64 % 32 + 0xC0)).toNat = c.toNat / 64 % 32 + 0xC0 :=
    UInt8.toNat_ofNat_of_lt (show c.toNat / 64 % 32 + 0xC0 < 256 by omega)
  have hlead : lead? (c.toNat / 64 % 32 + 0xC0) = some (1, 0x80, 0xBF) :=
    lead?_two (by omega) (by omega)
  have hvalue : (c.toNat / 64 % 32 + 0xC0) % 32 * 64 + c.toNat % 64 = c.toNat := by omega
  rw [← hbyte] at hlead
  rw [front_of_lead (by omega) hlead (by omega) (by omega), hbyte, if_pos (beq_self_eq_true 1),
    hvalue, tails, Char.ofNat_toNat]

theorem not_surrogate (h : c.toNat / 4096 = 13) : c.toNat / 64 % 64 < 32 := by
  have hvalid : c.toNat < 0xD800 ∨ 0xDFFF < c.toNat ∧ c.toNat < 0x110000 := c.valid
  omega

theorem front_three (hlow : 0x7FF < c.toNat) (hhigh : c.toNat ≤ 0xFFFF) :
    front (UInt8.ofNat (c.toNat / 4096 % 16 + 0xE0))
      (tailByte (c.toNat / 64) :: tailByte c.toNat :: rest) = .char c 3 := by
  have hbyte : (UInt8.ofNat (c.toNat / 4096 % 16 + 0xE0)).toNat = c.toNat / 4096 % 16 + 0xE0 :=
    UInt8.toNat_ofNat_of_lt (show c.toNat / 4096 % 16 + 0xE0 < 256 by omega)
  have hlead : lead? (c.toNat / 4096 % 16 + 0xE0) =
      some (2, if c.toNat / 4096 % 16 = 0 then 0xA0 else 0x80,
        if c.toNat / 4096 % 16 = 13 then 0x9F else 0xBF) := lead?_three (by omega)
  have hsurrogate : c.toNat / 4096 % 16 = 13 → c.toNat / 64 % 64 < 32 := by
    intro h
    exact not_surrogate c (by omega)
  have hvalue : ((c.toNat / 4096 % 16 + 0xE0) % 16 * 64 + c.toNat / 64 % 64) * 64 +
      c.toNat % 64 = c.toNat := by omega
  rw [← hbyte] at hlead
  rw [front_of_lead (by omega) hlead (by split <;> omega) (by split <;> omega), hbyte,
    if_neg (by decide), if_pos (beq_self_eq_true 2), tails_tailByte, hvalue, tails, Char.ofNat_toNat]

theorem front_four (hlow : 0xFFFF < c.toNat) :
    front (UInt8.ofNat (c.toNat / 262144 % 8 + 0xF0))
      (tailByte (c.toNat / 4096) :: tailByte (c.toNat / 64) :: tailByte c.toNat :: rest) =
        .char c 4 := by
  have hvalid : c.toNat < 0xD800 ∨ 0xDFFF < c.toNat ∧ c.toNat < 0x110000 := c.valid
  have hbyte : (UInt8.ofNat (c.toNat / 262144 % 8 + 0xF0)).toNat = c.toNat / 262144 % 8 + 0xF0 :=
    UInt8.toNat_ofNat_of_lt (show c.toNat / 262144 % 8 + 0xF0 < 256 by omega)
  have hlead : lead? (c.toNat / 262144 % 8 + 0xF0) =
      some (3, if c.toNat / 262144 % 8 = 0 then 0x90 else 0x80,
        if c.toNat / 262144 % 8 = 4 then 0x8F else 0xBF) := lead?_four (by omega)
  have hvalue : (((c.toNat / 262144 % 8 + 0xF0) % 8 * 64 + c.toNat / 4096 % 64) * 64 +
      c.toNat / 64 % 64) * 64 + c.toNat % 64 = c.toNat := by omega
  rw [← hbyte] at hlead
  rw [front_of_lead (by omega) hlead (by split <;> omega) (by split <;> omega), hbyte,
    if_neg (by decide), if_neg (by decide), tails_tailByte, tails_tailByte, hvalue, tails,
    Char.ofNat_toNat]

theorem utf8EncodeChar_cases :
    (c.toNat ≤ 0x7F ∧ String.utf8EncodeChar c = [UInt8.ofNat c.toNat]) ∨
    (0x7F < c.toNat ∧ c.toNat ≤ 0x7FF ∧
      String.utf8EncodeChar c = [UInt8.ofNat (c.toNat / 64 % 32 + 0xC0), tailByte c.toNat]) ∨
    (0x7FF < c.toNat ∧ c.toNat ≤ 0xFFFF ∧
      String.utf8EncodeChar c = [UInt8.ofNat (c.toNat / 4096 % 16 + 0xE0),
        tailByte (c.toNat / 64), tailByte c.toNat]) ∨
    (0xFFFF < c.toNat ∧
      String.utf8EncodeChar c = [UInt8.ofNat (c.toNat / 262144 % 8 + 0xF0),
        tailByte (c.toNat / 4096), tailByte (c.toNat / 64), tailByte c.toNat]) := by
  -- The tests of the encoder are on words; `heq` puts them as tests on numbers.
  have heq : String.utf8EncodeChar c =
      if c.toNat ≤ 0x7F then [UInt8.ofNat c.toNat]
      else if c.toNat ≤ 0x7FF then [UInt8.ofNat (c.toNat / 64 % 32 + 0xC0), tailByte c.toNat]
      else if c.toNat ≤ 0xFFFF then [UInt8.ofNat (c.toNat / 4096 % 16 + 0xE0),
        tailByte (c.toNat / 64), tailByte c.toNat]
      else [UInt8.ofNat (c.toNat / 262144 % 8 + 0xF0),
        tailByte (c.toNat / 4096), tailByte (c.toNat / 64), tailByte c.toNat] := rfl
  rw [heq]
  by_cases hone : c.toNat ≤ 0x7F
  · exact .inl ⟨hone, if_pos hone⟩
  rw [if_neg hone]
  by_cases htwo : c.toNat ≤ 0x7FF
  · exact .inr (.inl ⟨by omega, htwo, if_pos htwo⟩)
  rw [if_neg htwo]
  by_cases hthree : c.toNat ≤ 0xFFFF
  · exact .inr (.inr (.inl ⟨by omega, hthree, if_pos hthree⟩))
  · exact .inr (.inr (.inr ⟨by omega, if_neg hthree⟩))

theorem front_utf8EncodeChar : ∃ b tail, String.utf8EncodeChar c = b :: tail ∧
    front b (tail ++ rest) = .char c (tail.length + 1) := by
  rcases utf8EncodeChar_cases c with ⟨hone, h⟩ | ⟨hlow, hhigh, h⟩ | ⟨hlow, hhigh, h⟩ | ⟨hlow, h⟩
  · exact ⟨_, _, h, front_one c rest hone⟩
  · exact ⟨_, _, h, front_two c rest hlow hhigh⟩
  · exact ⟨_, _, h, front_three c rest hlow hhigh⟩
  · exact ⟨_, _, h, front_four c rest hlow⟩

theorem utf8EncodeChar_ascii_or_not :
    (c.toNat ≤ 0x7F ∧ String.utf8EncodeChar c = [byteOf c]) ∨
    (0x7F < c.toNat ∧ ∀ b ∈ String.utf8EncodeChar c, 0x7F < b.toNat) := by
  have hlead : ∀ {n : Nat}, 0x7F < n → n < 256 → 0x7F < (UInt8.ofNat n).toNat := by
    intro n hlow hhigh
    have hn : (UInt8.ofNat n).toNat = n := UInt8.toNat_ofNat_of_lt hhigh
    rw [hn]
    exact hlow
  have htail : ∀ x, 0x7F < (tailByte x).toNat := by
    intro x
    rw [toNat_tailByte]
    omega
  rcases utf8EncodeChar_cases c with ⟨hone, h⟩ | ⟨hlow, -, h⟩ | ⟨hlow, -, h⟩ | ⟨hlow, h⟩
  · exact .inl ⟨hone, h⟩
  all_goals
    refine .inr ⟨by omega, ?_⟩
    rw [h]
    simp only [List.forall_mem_cons, List.not_mem_nil, false_implies, implies_true, and_true]
  · exact ⟨hlead (by omega) (by omega), htail _⟩
  · exact ⟨hlead (by omega) (by omega), htail _, htail _⟩
  · exact ⟨hlead (by omega) (by omega), htail _, htail _, htail _⟩

theorem toNat_byteOf (h : c.toNat ≤ 0x7F) : (byteOf c).toNat = c.toNat :=
  UInt8.toNat_ofNat_of_lt (Nat.lt_of_le_of_lt h (by decide))

theorem byteOf_mem_utf8EncodeChar_iff {d : Char} (hd : d.toNat ≤ 0x7F) :
    byteOf d ∈ String.utf8EncodeChar c ↔ d = c := by
  rcases utf8EncodeChar_ascii_or_not c with ⟨hone, h⟩ | ⟨hmore, h⟩
  · rw [h, List.mem_singleton]
    constructor
    · intro heq
      have hnumber := congrArg UInt8.toNat heq
      rw [toNat_byteOf d hd, toNat_byteOf c hone] at hnumber
      exact Char.toNat_inj.1 hnumber
    · rintro rfl
      rfl
  · constructor
    · intro hmem
      have hhigh := h _ hmem
      rw [toNat_byteOf d hd] at hhigh
      omega
    · rintro rfl
      omega

theorem utf8EncodeChar_of_le (h : c.toNat ≤ 0x7F) : String.utf8EncodeChar c = [byteOf c] := by
  rcases utf8EncodeChar_ascii_or_not c with ⟨-, hone⟩ | ⟨hmore, -⟩
  · exact hone
  · omega

/-- Behind its first byte a character has no byte of seven bits. -/
theorem exists_utf8EncodeChar : ∃ b tail, String.utf8EncodeChar c = b :: tail ∧
    ∀ d : Char, d.toNat ≤ 0x7F → byteOf d ∉ tail := by
  obtain ⟨b, tail, hbytes, -⟩ := front_utf8EncodeChar c []
  refine ⟨b, tail, hbytes, fun d hd hmem => ?_⟩
  rcases utf8EncodeChar_ascii_or_not c with ⟨-, hone⟩ | ⟨-, hmore⟩
  · rw [hbytes] at hone
    cases hone
    cases hmem
  · have hhigh := hmore (byteOf d) (hbytes ▸ List.mem_cons_of_mem _ hmem)
    rw [toNat_byteOf d hd] at hhigh
    omega

end Characters

theorem byteOf_inj {c d : Char} (hc : c.toNat ≤ 0x7F) (hd : d.toNat ≤ 0x7F) :
    byteOf c = byteOf d ↔ c = d := by
  rw [← byteOf_mem_utf8EncodeChar_iff d hc, utf8EncodeChar_of_le d hd, List.mem_singleton]

theorem encode_cons (c : Char) (cs : List Char) :
    encode (c :: cs) = String.utf8EncodeChar c ++ encode cs := List.flatMap_cons

theorem encode_append (cs ds : List Char) : encode (cs ++ ds) = encode cs ++ encode ds :=
  List.flatMap_append

theorem decodeFrom_skip (offset : Nat) (skipped rest : List UInt8) :
    decodeFrom offset skipped.length (skipped ++ rest) =
      decodeFrom (offset + skipped.length) 0 rest := by
  induction skipped generalizing offset with
  | nil => rfl
  | cons b skipped ih =>
      rw [List.length_cons, List.cons_append, decodeFrom, ih, Nat.add_assoc, Nat.add_comm 1]

theorem decodeFrom_encode (offset : Nat) (cs : List Char) :
    decodeFrom offset 0 (encode cs) = .ok cs := by
  induction cs generalizing offset with
  | nil => rfl
  | cons c cs ih =>
      obtain ⟨b, tail, hbytes, hfront⟩ := front_utf8EncodeChar c (encode cs)
      rw [encode_cons, hbytes, List.cons_append, decodeFrom, hfront]
      dsimp only
      rw [Nat.add_sub_cancel, decodeFrom_skip, ih]
      rfl

/-- Decoding undoes encoding. -/
theorem decode_encode (cs : List Char) : decode (encode cs) = .ok cs := decodeFrom_encode 0 cs

theorem decode_encodeString (s : String) : decode (encodeString s) = .ok s.toList :=
  decode_encode s.toList

end RowStream.Utf8
