import Mathlib.Algebra.Group.Nat.Defs
import RowStream.Proofs.Wire.Reading

/-!
# Groups of seven bits

Bytes are the groups of a number when the high bit says of every byte but the last that another one
follows. A number has many groups and `varint` are the fewest of them; any five or fewer that stand
at the cursor are read, as long as their number fits a word of 32 bits.
-/

namespace RowStream.Wire

/-- The high bit is set in every byte but the last. -/
inductive IsGroups : List UInt8 → Prop
  | last {b : UInt8} (h : b.toNat < 128) : IsGroups [b]
  | more {b : UInt8} {bytes : List UInt8} (h : 128 ≤ b.toNat) (hbytes : IsGroups bytes) :
      IsGroups (b :: bytes)

/-- The number whose groups of seven bits are the bytes without their high bits, lowest first. -/
def ofGroups : List UInt8 → Nat
  | [] => 0
  | b :: bytes => b.toNat % 128 + 128 * ofGroups bytes

theorem IsGroups.length_pos {bytes : List UInt8} (h : IsGroups bytes) : 0 < bytes.length := by
  cases h <;> simp

/-! ## Writing -/

theorem toNat_group {n : Nat} (h : n < 256) : (UInt8.ofNat n).toNat = n :=
  UInt8.toNat_ofNat_of_lt h

theorem isGroups_varint (n : Nat) : IsGroups (varint n) := by
  induction n using Nat.strongRecOn with
  | ind n ih =>
    rw [varint]
    split
    · exact .last (by rw [toNat_group (by omega)]; omega)
    · exact .more (by rw [toNat_group (by omega)]; omega) (ih _ (by omega))

@[simp] theorem ofGroups_varint (n : Nat) : ofGroups (varint n) = n := by
  induction n using Nat.strongRecOn with
  | ind n ih =>
    rw [varint]
    split
    · simp only [ofGroups, toNat_group (show n < 256 by omega)]
      omega
    · simp only [ofGroups, toNat_group (show n % 128 + 128 < 256 by omega),
        ih _ (show n / 128 < n by omega)]
      omega

theorem length_varint_le {bytes : List UInt8} (h : IsGroups bytes) :
    (varint (ofGroups bytes)).length ≤ bytes.length := by
  induction h with
  | last h =>
    rw [varint, dif_pos (by simp only [ofGroups]; omega)]
    simp
  | @more b bytes h hbytes ih =>
    have hpos := hbytes.length_pos
    have hrest : ofGroups (b :: bytes) / 128 = ofGroups bytes := by
      simp only [ofGroups]
      omega
    rw [varint]
    split
    · simp
    · simpa [hrest] using ih

/-- The bytes are groups of the number, and no others are fewer. -/
structure ShortestGroups (n : Nat) (bytes : List UInt8) : Prop where
  groups : IsGroups bytes
  value : ofGroups bytes = n
  least : ∀ other, IsGroups other → ofGroups other = n → bytes.length ≤ other.length

theorem shortestGroups_varint (n : Nat) : ShortestGroups n (varint n) := by
  refine ⟨isGroups_varint n, ofGroups_varint n, ?_⟩
  rintro other hother rfl
  exact length_varint_le hother

theorem length_varint_le_of_lt {n groups : Nat} (h : n < 128 ^ (groups + 1)) :
    (varint n).length ≤ groups + 1 := by
  induction groups generalizing n with
  | zero =>
    rw [varint, dif_pos (by simpa using h)]
    simp
  | succ groups ih =>
    rw [varint]
    split
    · simp
    · have hrest : n / 128 < 128 ^ (groups + 1) := by
        rw [Nat.div_lt_iff_lt_mul (by decide), ← Nat.pow_succ]
        exact h
      simpa using ih hrest

theorem length_varint_le_maxGroups {n : Nat} (h : n ≤ maxWord32) :
    (varint n).length ≤ maxGroups :=
  length_varint_le_of_lt (Nat.lt_of_le_of_lt h (by decide))

/-! ## Reading -/

open Reader

theorem IsGroups.consumes_readGroups {bytes : List UInt8} (h : IsGroups bytes)
    {value weight groups : Nat} (hlength : bytes.length ≤ groups) :
    (readGroups value weight groups).Consumes bytes
      (if value + ofGroups bytes * weight ≤ maxWord32 then .ok (value + ofGroups bytes * weight)
        else .error (.decode (.varintOverflow (value + ofGroups bytes * weight)))) := by
  induction h generalizing value weight groups with
  | @last b h =>
    obtain ⟨groups, rfl⟩ : ∃ k, groups = k + 1 := ⟨groups - 1, by simp at hlength; omega⟩
    have hvalue : ofGroups [b] = b.toNat % 128 := by simp [ofGroups]
    apply consumes_readGroups_cons
    rw [if_pos h, hvalue]
    split
    · exact consumes_pure _
    · exact consumes_malformed _
  | @more b bytes h hbytes ih =>
    obtain ⟨groups, rfl⟩ : ∃ k, groups = k + 1 := ⟨groups - 1, by simp at hlength; omega⟩
    have hsum : value + ofGroups (b :: bytes) * weight =
        value + b.toNat % 128 * weight + ofGroups bytes * (weight * 128) := by
      simp only [ofGroups]
      grind
    apply consumes_readGroups_cons
    rw [if_neg (by omega), hsum]
    exact ih (by simpa using hlength)

theorem IsGroups.consumes_readVarint {bytes : List UInt8} (h : IsGroups bytes)
    (hlength : bytes.length ≤ maxGroups) :
    readVarint.Consumes bytes (if ofGroups bytes ≤ maxWord32 then .ok (ofGroups bytes)
      else .error (.decode (.varintOverflow (ofGroups bytes)))) := by
  have hread : (readGroups 0 1 maxGroups).Consumes bytes _ := h.consumes_readGroups hlength
  rwa [Nat.zero_add, Nat.mul_one] at hread

theorem consumes_readVarint {n : Nat} (h : n ≤ maxWord32) :
    readVarint.Consumes (varint n) (.ok n) := by
  have hread := (isGroups_varint n).consumes_readVarint (length_varint_le_maxGroups h)
  rwa [ofGroups_varint, if_pos h] at hread

theorem consumes_readSized {bytes : List UInt8} (h : bytes.length ≤ maxWord32) :
    readSized.Consumes (varint bytes.length ++ bytes) (.ok bytes) :=
  (consumes_readVarint h).bind (consumes_take bytes)

theorem run_take_one (b : Buffer) :
    (∃ x rest, b.bytes.drop b.position = x :: rest ∧
        (take 1).run b = (.ok [x], { b with position := b.position + 1 })) ∨
      (b.bytes.drop b.position = [] ∧ (take 1).run b =
        (.error (.decode (.endOfBuffer 1 b.position b.remaining)), b)) := by
  cases hdrop : b.bytes.drop b.position with
  | nil =>
    have hnone : b.remaining = 0 := by
      simpa [Buffer.remaining, Buffer.size, Nat.sub_eq_zero_iff_le] using hdrop
    exact .inr ⟨rfl, run_take_of_lt (by omega)⟩
  | cons x rest =>
    have hsome : 1 ≤ b.remaining := by
      have hlength := congrArg List.length hdrop
      simp only [List.length_drop, List.length_cons] at hlength
      simp only [Buffer.remaining, Buffer.size]
      omega
    refine .inl ⟨x, rest, rfl, ?_⟩
    rw [run_take_of_le hsome, hdrop]
    rfl

theorem readGroups_unterminated {value weight groups : Nat} {b : Buffer}
    (h : ∀ x ∈ (b.bytes.drop b.position).take groups, 128 ≤ x.toNat) :
    ∃ fault, ((readGroups value weight groups).run b).1 = .error (.decode fault) := by
  induction groups generalizing value weight b with
  | zero => exact ⟨_, rfl⟩
  | succ groups ih =>
    rw [readGroups, run_bind]
    rcases run_take_one b with ⟨x, rest, hdrop, htake⟩ | ⟨-, htake⟩
    · have hrest : b.bytes.drop (b.position + 1) = rest := by
        rw [← List.drop_drop, hdrop, List.drop_succ_cons, List.drop_zero]
      rw [hdrop, List.take_succ_cons, List.forall_mem_cons] at h
      rw [htake]
      change ∃ fault, ((if x.toNat < 128 then _ else _ : Reader Nat).run _).1 = _
      rw [if_neg (by omega)]
      exact ih (by simpa only [hrest] using h.2)
    · rw [htake]
      exact ⟨_, rfl⟩

/-- Among the first bytes one ends the groups that stand before it, or all of them continue. -/
theorem groups_or_unterminated (bytes : List UInt8) (count : Nat) :
    (∃ groups more, bytes = groups ++ more ∧ IsGroups groups ∧ groups.length ≤ count) ∨
      ∀ x ∈ bytes.take count, 128 ≤ x.toNat := by
  induction count generalizing bytes with
  | zero => simp
  | succ count ih =>
    cases bytes with
    | nil => simp
    | cons b bytes =>
      by_cases hb : b.toNat < 128
      · exact .inl ⟨[b], bytes, rfl, .last hb, by simp⟩
      · rcases ih bytes with ⟨groups, more, rfl, hgroups, hlength⟩ | hall
        · exact .inl ⟨b :: groups, more, rfl, .more (by omega) hgroups, by simpa using hlength⟩
        · refine .inr ?_
          rw [List.take_succ_cons, List.forall_mem_cons]
          exact ⟨by omega, hall⟩

end RowStream.Wire
