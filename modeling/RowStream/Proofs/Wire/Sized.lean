import RowStream.Proofs.Wire.Varint
import RowStream.Proofs.Wire.Writing

/-!
# Numbers and sized bytes through a buffer

What is written as a number or behind its length is read back as it was, one piece after the other.
Of the bytes that no writer puts, those are read as a number that are at most five groups of a word
of 32 bits.
-/

namespace RowStream.Wire

open Reader Writer

variable {b b' : Buffer} {n : Nat}

theorem run_readVarint_of_groups {groups more : List UInt8} (h : IsGroups groups)
    (hlength : groups.length ≤ maxGroups) (hfits : ofGroups groups ≤ maxWord32)
    (hdrop : b.bytes.drop b.position = groups ++ more) :
    readVarint.run b = (.ok (ofGroups groups), { b with position := b.position + groups.length }) := by
  have hread := h.consumes_readVarint hlength
  rw [if_pos hfits] at hread
  exact hread.run_of_drop (List.length_pos_iff.1 h.length_pos) hdrop

/-- Whatever the bytes at the cursor are, they are groups of a word of 32 bits or no number. -/
theorem readVarint_outcome (b : Buffer) :
    (∃ groups more, b.bytes.drop b.position = groups ++ more ∧ IsGroups groups ∧
        groups.length ≤ maxGroups ∧ ofGroups groups ≤ maxWord32 ∧ readVarint.run b =
          (.ok (ofGroups groups), { b with position := b.position + groups.length })) ∨
      ∃ fault, (readVarint.run b).1 = .error (.decode fault) := by
  rcases groups_or_unterminated (b.bytes.drop b.position) maxGroups with
    ⟨groups, more, hdrop, hgroups, hlength⟩ | hall
  · by_cases hfits : ofGroups groups ≤ maxWord32
    · exact .inl ⟨groups, more, hdrop, hgroups, hlength, hfits,
        run_readVarint_of_groups hgroups hlength hfits hdrop⟩
    · have hread := hgroups.consumes_readVarint hlength
      rw [if_neg hfits] at hread
      have hrun := hread.run_of_drop (List.length_pos_iff.1 hgroups.length_pos) hdrop
      exact .inr ⟨_, congrArg Prod.fst hrun⟩
  · exact .inr (readGroups_unterminated hall)

theorem run_readVarint_ok_iff :
    readVarint.run b = (.ok n, b') ↔
      ∃ groups more, b.bytes.drop b.position = groups ++ more ∧ IsGroups groups ∧
        groups.length ≤ 5 ∧ n = ofGroups groups ∧ n < 2 ^ 32 ∧
        b' = { b with position := b.position + groups.length } := by
  constructor
  · intro h
    rcases readVarint_outcome b with ⟨groups, more, hdrop, hgroups, hlength, hfits, hrun⟩ | ⟨e, hrun⟩
    · rw [h] at hrun
      cases hrun
      exact ⟨groups, more, hdrop, hgroups, hlength, rfl, Nat.lt_succ_of_le hfits, rfl⟩
    · rw [h] at hrun
      cases hrun
  · rintro ⟨groups, more, hdrop, hgroups, hlength, rfl, hfits, rfl⟩
    exact run_readVarint_of_groups hgroups hlength (Nat.le_of_lt_succ hfits) hdrop

def sizedAll (rows : List (List UInt8)) : List UInt8 :=
  rows.flatMap fun bytes => varint bytes.length ++ bytes

section Rows

variable {rows : List (List UInt8)} (h : ∀ bytes ∈ rows, bytes.length ≤ maxWord32)
include h

theorem puts_forM_writeSized : Puts (rows.forM writeSized) (.ok (sizedAll rows)) := by
  induction rows with
  | nil => exact puts_pure
  | cons bytes rows ih =>
    rw [List.forall_mem_cons] at h
    have hfirst : (writeSized bytes).Puts (.ok (varint bytes.length ++ bytes)) := by
      have hputs := puts_writeSized bytes
      rwa [sized, if_pos h.1] at hputs
    exact hfirst.andThen (ih h.2)

theorem consumes_mapM_readSized :
    (rows.mapM fun _ => readSized).Consumes (sizedAll rows) (.ok rows) := by
  induction rows with
  | nil => exact consumes_pure []
  | cons bytes rows ih =>
    rw [List.forall_mem_cons] at h
    rw [List.mapM_cons]
    exact (consumes_readSized h.1).bind ((ih h.2).bind_nil (consumes_pure _))

end Rows

/-- Numbers are written as the fewest groups and read back from them, wherever they stand; of other
bytes, up to five groups are read as their number when that fits 32 bits, and all else is refused.
So rows of bytes come back from behind their lengths, and nothing is left. -/
theorem varint_readBack :
    (∀ (v : UInt32) (b : Buffer) (after : List UInt8), ∃ bytes,
      (writeVarint v.toNat).run b = (.ok (), { b with bytes := b.bytes ++ bytes }) ∧
      ShortestGroups v.toNat bytes ∧ 1 ≤ bytes.length ∧ bytes.length ≤ 5 ∧
      readVarint.run ⟨b.bytes ++ bytes ++ after, b.bytes.length⟩ =
        (.ok v.toNat, ⟨b.bytes ++ bytes ++ after, b.bytes.length + bytes.length⟩)) ∧
    (∀ (b b' : Buffer) (n : Nat), readVarint.run b = (.ok n, b') ↔
      ∃ groups more, b.bytes.drop b.position = groups ++ more ∧ IsGroups groups ∧
        groups.length ≤ 5 ∧ n = ofGroups groups ∧ n < 2 ^ 32 ∧
        b' = { b with position := b.position + groups.length }) ∧
    (∀ b : Buffer, (∃ n, (readVarint.run b).1 = .ok n) ∨
      ∃ fault, (readVarint.run b).1 = .error (.decode fault)) ∧
    ∀ rows : List (List UInt8), (∀ bytes ∈ rows, bytes.length < 2 ^ 32) →
      ∀ before, ∃ bytes,
        (rows.forM writeSized).run ⟨before, before.length⟩ =
          (.ok (), ⟨before ++ bytes, before.length⟩) ∧
        (rows.mapM fun _ => readSized).run ⟨before ++ bytes, before.length⟩ =
          (.ok rows, ⟨before ++ bytes, (before ++ bytes).length⟩) := by
  refine ⟨?_, fun _ _ _ => run_readVarint_ok_iff, ?_, ?_⟩
  · intro v b after
    have hfits : v.toNat ≤ maxWord32 := Nat.le_of_lt_succ v.toNat_lt
    have hread := consumes_readVarint hfits b.bytes after
    rw [List.length_append] at hread
    exact ⟨varint v.toNat, puts_put _ b, shortestGroups_varint _,
      (isGroups_varint _).length_pos, length_varint_le_maxGroups hfits, hread⟩
  · intro b
    rcases readVarint_outcome b with ⟨groups, more, -, -, -, -, hrun⟩ | hfails
    · exact .inl ⟨_, congrArg Prod.fst hrun⟩
    · exact .inr hfails
  · intro rows hrows before
    have hfits : ∀ bytes ∈ rows, bytes.length ≤ maxWord32 :=
      fun bytes hbytes => Nat.le_of_lt_succ (hrows bytes hbytes)
    have hread := consumes_mapM_readSized hfits before []
    rw [List.append_nil] at hread
    exact ⟨sizedAll rows, puts_forM_writeSized hfits ⟨before, before.length⟩, hread⟩

theorem varint_readBack_rows :
    (([[], [1, 2, 3]] : List (List UInt8)).forM writeSized).run ⟨[9], 1⟩ =
      (.ok (), ⟨[9, 0, 3, 1, 2, 3], 1⟩) ∧
    (([[], [1, 2, 3]] : List (List UInt8)).mapM fun _ => readSized).run ⟨[9, 0, 3, 1, 2, 3], 1⟩ =
      (.ok [[], [1, 2, 3]], ⟨[9, 0, 3, 1, 2, 3], 6⟩) := by
  have hempty : varint 0 = [0] := by
    rw [varint]
    rfl
  have hthree : varint 3 = [3] := by
    rw [varint]
    rfl
  have hsized : sizedAll [[], [1, 2, 3]] = [0, 3, 1, 2, 3] := by
    simp [sizedAll, hempty, hthree]
  have hfits : ∀ bytes ∈ ([[], [1, 2, 3]] : List (List UInt8)), bytes.length ≤ maxWord32 := by
    decide
  have hwritten := puts_forM_writeSized hfits ⟨[9], 1⟩
  rw [hsized] at hwritten
  obtain ⟨bytes, hwrite, hread⟩ := varint_readBack.2.2.2 [[], [1, 2, 3]] (by decide) [9]
  have hbytes : [9] ++ bytes = [9, 0, 3, 1, 2, 3] :=
    congrArg (fun result => result.2.bytes) (hwrite.symm.trans hwritten)
  rw [hbytes] at hread
  exact ⟨hwritten, hread⟩

end RowStream.Wire
