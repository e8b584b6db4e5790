import Mathlib.Algebra.Group.Nat.Defs
import RowStream.Text.Numeral
import RowStream.Proofs.Text.Blank

/-!
# Numerals there and back

A row of digits is read as its number, behind a sign or without, with or without groups; so a
number that is written is read back, and the blanks around its text are none.
-/

namespace RowStream.Text.Numeral

def signed (negative : Bool) (ds : List Char) : List Char := if negative then '-' :: ds else ds

def signedValue (negative : Bool) (n : Nat) : Int := if negative then -(n : Int) else n

theorem signedValue_natAbs (n : Int) : signedValue (decide (n < 0)) n.natAbs = n := by
  unfold signedValue
  by_cases h : n < 0
  · rw [if_pos (decide_eq_true h)]
    omega
  · rw [if_neg (by simpa using h)]
    omega

/-- A row of ASCII digits that is not empty. -/
structure IsDigits (ds : List Char) : Prop where
  nonempty : ds ≠ []
  digits : ∀ c ∈ ds, c.isDigit = true

theorem isDigits_toDigits (n : Nat) : IsDigits (Nat.toDigits 10 n) :=
  ⟨Nat.toDigits_ne_nil, fun _ hc => Nat.isDigit_of_mem_toDigits (by decide) (by decide) hc⟩

variable {ds : List Char}

theorem IsDigits.ne {c d : Char} (h : IsDigits ds) (hd : d ∈ ds) (hc : c.isDigit = false) :
    d ≠ c := by
  rintro rfl
  rw [h.digits d hd] at hc
  cases hc

theorem IsDigits.exists_cons (h : IsDigits ds) : ∃ c cs, ds = c :: cs ∧ c.isDigit = true := by
  obtain ⟨c, cs, rfl⟩ := List.exists_cons_of_ne_nil h.nonempty
  exact ⟨c, cs, rfl, h.digits c List.mem_cons_self⟩

theorem IsDigits.nat? (h : IsDigits ds) : nat? ds = some (Nat.ofDigitChars 10 ds 0) := by
  have hne : ds.isEmpty = false := by simpa using h.nonempty
  have hall : ds.all Char.isDigit = true := List.all_eq_true.2 h.digits
  unfold Numeral.nat?
  rw [hne, hall]
  rfl

theorem IsDigits.unsigned? (h : IsDigits ds) : unsigned? ds = some (Nat.ofDigitChars 10 ds 0) := by
  unfold Numeral.unsigned?
  split
  · exact absurd rfl (h.ne List.mem_cons_self (by decide))
  · exact h.nat?

structure IsGrouped (ds : List Char) : Prop where
  nonempty : ds ≠ []
  first : ds.head? ≠ some '_'
  chars : ∀ c ∈ ds, c.isDigit = true ∨ c = '_'

def ungrouped (ds : List Char) : List Char := ds.filter (· != '_')

/-- The number of the digits, without regard to what sets them apart. -/
def groupedValue (ds : List Char) : Nat := Nat.ofDigitChars 10 (ungrouped ds) 0

theorem IsDigits.isGrouped (h : IsDigits ds) : IsGrouped ds :=
  ⟨h.nonempty, fun heq => h.ne (List.mem_of_head? heq) (by decide) rfl,
    fun c hc => .inl (h.digits c hc)⟩

theorem IsDigits.ungrouped (h : IsDigits ds) : ungrouped ds = ds :=
  List.filter_eq_self.2 fun _ hc => bne_iff_ne.2 (h.ne hc (by decide))

theorem IsDigits.groupedValue (h : IsDigits ds) : groupedValue ds = Nat.ofDigitChars 10 ds 0 := by
  rw [Numeral.groupedValue, h.ungrouped]

theorem IsGrouped.ne {c d : Char} (h : IsGrouped ds) (hd : d ∈ ds) (hc : c.isDigit = false)
    (hgroup : c ≠ '_') : d ≠ c := by
  rintro rfl
  rcases h.chars d hd with hdigit | heq
  · rw [hdigit] at hc
    cases hc
  · exact hgroup heq

theorem IsGrouped.grouped? (h : IsGrouped ds) : grouped? ds = some (groupedValue ds) := by
  have hne : ds.isEmpty = false := by simpa using h.nonempty
  have hall : ds.all (fun c => c.isDigit || c == '_') = true :=
    List.all_eq_true.2 fun c hc => by simpa using h.chars c hc
  unfold Numeral.grouped?
  rw [if_neg h.first, hne, hall]
  rfl

theorem IsGrouped.positive? (h : IsGrouped ds) : positive? ds = some (groupedValue ds) := by
  unfold Numeral.positive?
  split
  · exact absurd rfl (h.ne List.mem_cons_self (by decide) (by decide))
  · exact h.grouped?

inductive Sign where
  | none
  | plus
  | minus
deriving DecidableEq

namespace Sign

def chars : Sign → List Char
  | none => []
  | plus => ['+']
  | minus => ['-']

def factor : Sign → Int
  | minus => -1
  | _ => 1

def ofNegative (negative : Bool) : Sign := if negative then minus else none

theorem forall_mem_chars {P : Char → Prop} (s : Sign) (hplus : P '+') (hminus : P '-') :
    ∀ c ∈ s.chars, P c := by
  cases s with
  | none => exact fun c hc => by cases hc
  | plus => exact List.forall_mem_singleton.2 hplus
  | minus => exact List.forall_mem_singleton.2 hminus

end Sign

theorem signed_eq (negative : Bool) (ds : List Char) :
    signed negative ds = (Sign.ofNegative negative).chars ++ ds := by
  cases negative <;> rfl

theorem signedValue_eq (negative : Bool) (n : Nat) :
    signedValue negative n = (Sign.ofNegative negative).factor * n := by
  cases negative <;> simp [signedValue, Sign.ofNegative, Sign.factor]

theorem signed?_chars (s : Sign) (h : IsDigits ds) :
    signed? (s.chars ++ ds) = some (s.factor * (Nat.ofDigitChars 10 ds 0 : Nat)) := by
  cases s with
  | none =>
      obtain ⟨c, cs, rfl, hc⟩ := h.exists_cons
      have hplus : c ≠ '+' := h.ne List.mem_cons_self (by decide)
      have hminus : c ≠ '-' := h.ne List.mem_cons_self (by decide)
      have hread : signed? (c :: cs) = (Numeral.nat? (c :: cs)).map Int.ofNat := by
        unfold signed?
        split
        · next heq => exact absurd (List.cons.inj heq).1 hplus
        · next heq => exact absurd (List.cons.inj heq).1 hminus
        · rfl
      change signed? (c :: cs) = _
      rw [hread, h.nat?]
      simp [Sign.factor]
  | plus =>
      change (Numeral.nat? ds).map Int.ofNat = _
      rw [h.nat?]
      simp [Sign.factor]
  | minus =>
      change (Numeral.nat? ds).map (fun n => -(n : Int)) = _
      rw [h.nat?]
      simp [Sign.factor]

theorem big?_chars (s : Sign) (h : IsGrouped ds) :
    big? (s.chars ++ ds) = some (s.factor * groupedValue ds) := by
  obtain ⟨c, cs, rfl⟩ := List.exists_cons_of_ne_nil h.nonempty
  have hplus : c ≠ '+' := h.ne List.mem_cons_self (by decide) (by decide)
  have hminus : c ≠ '-' := h.ne List.mem_cons_self (by decide) (by decide)
  cases s with
  | none =>
      have hread : big? (c :: cs) = (Numeral.positive? (c :: cs)).map Int.ofNat := by
        unfold big?
        split
        · next heq => exact absurd (List.cons.inj heq).1 hminus
        · next heq => exact absurd (List.cons.inj heq).1 hminus
        · rfl
      change big? (c :: cs) = _
      rw [hread, h.positive?]
      simp [Sign.factor]
  | plus =>
      change (Numeral.grouped? (c :: cs)).map Int.ofNat = _
      rw [h.grouped?]
      simp [Sign.factor]
  | minus =>
      have hread : big? ('-' :: c :: cs) = (Numeral.positive? (c :: cs)).map fun n => -(n : Int) := by
        unfold big?
        split
        · next heq => exact absurd (List.cons.inj (List.cons.inj heq).2).1 hplus
        · next heq => rw [(List.cons.inj heq).2]
        · next hother => exact absurd rfl (hother (c :: cs))
      change big? ('-' :: c :: cs) = _
      rw [hread, h.positive?]
      simp [Sign.factor]

theorem signed?_signed (negative : Bool) (h : IsDigits ds) :
    signed? (signed negative ds) = some (signedValue negative (Nat.ofDigitChars 10 ds 0)) := by
  rw [signed_eq, signedValue_eq, signed?_chars _ h]

theorem big?_signed (negative : Bool) (h : IsDigits ds) :
    big? (signed negative ds) = some (signedValue negative (Nat.ofDigitChars 10 ds 0)) := by
  rw [signed_eq, signedValue_eq, big?_chars _ h.isGrouped, h.groupedValue]

theorem toList_toString_nat (n : Nat) : (toString n).toList = Nat.toDigits 10 n := by
  rw [Nat.toString_eq_repr, Nat.toList_repr]

theorem toList_toString (n : Int) :
    (toString n).toList = signed (decide (n < 0)) (Nat.toDigits 10 n.natAbs) := by
  rw [Int.toString_eq_repr, Int.repr_eq_if]
  by_cases h : n < 0
  · have habs : (-n).toNat = n.natAbs := by omega
    rw [if_neg (by omega), decide_eq_true h, String.toList_append, habs, Nat.toList_repr]
    rfl
  · have habs : n.toNat = n.natAbs := by omega
    rw [if_pos (by omega), decide_eq_false h, habs, Nat.toList_repr]
    rfl

theorem signed?_toString (n : Int) : signed? (toString n).toList = some n := by
  rw [toList_toString, signed?_signed _ (isDigits_toDigits _), Nat.ofDigitChars_ten_toDigits,
    signedValue_natAbs]

theorem big?_toString (n : Int) : big? (toString n).toList = some n := by
  rw [toList_toString, big?_signed _ (isDigits_toDigits _), Nat.ofDigitChars_ten_toDigits,
    signedValue_natAbs]

theorem unsignedUpTo?_toString {n max : Nat} (h : n ≤ max) :
    unsignedUpTo? max (toString n).toList = some n := by
  unfold unsignedUpTo?
  rw [toList_toString_nat, (isDigits_toDigits n).unsigned?, Nat.ofDigitChars_ten_toDigits,
    Option.filter_some, if_pos (decide_eq_true h)]

theorem le_of_unsignedUpTo? {cs : List Char} {n max : Nat} (h : unsignedUpTo? max cs = some n) :
    n ≤ max := by
  unfold unsignedUpTo? at h
  exact of_decide_eq_true (Option.filter_eq_some_iff.1 h).2

theorem signed_append (negative : Bool) (whole frac : List Char) :
    signed negative whole ++ frac = signed negative (whole ++ frac) := by
  cases negative <;> rfl

theorem IsDigits.append {es : List Char} (hd : IsDigits ds) (he : IsDigits es) :
    IsDigits (ds ++ es) := by
  refine ⟨List.append_ne_nil_of_left_ne_nil hd.nonempty es, ?_⟩
  intro c hc
  rcases List.mem_append.1 hc with hc | hc
  · exact hd.digits c hc
  · exact he.digits c hc

theorem ofDigitChars_zeros (k : Nat) (ds : List Char) :
    Nat.ofDigitChars 10 (List.replicate k '0' ++ ds) 0 = Nat.ofDigitChars 10 ds 0 := by
  rw [Nat.ofDigitChars_append, Nat.ofDigitChars_replicate_zero, Nat.mul_zero]

theorem isDigits_zero : IsDigits ['0'] := isDigits_toDigits 0

theorem IsDigits.zeros_append (h : IsDigits ds) (k : Nat) :
    IsDigits (List.replicate k '0' ++ ds) := by
  refine ⟨List.append_ne_nil_of_right_ne_nil _ h.nonempty, ?_⟩
  intro c hc
  rcases List.mem_append.1 hc with hc | hc
  · rw [List.eq_of_mem_replicate hc]
    decide
  · exact h.digits c hc

theorem IsDigits.append_zeros (h : IsDigits ds) (k : Nat) :
    IsDigits (ds ++ List.replicate k '0') := by
  refine ⟨List.append_ne_nil_of_left_ne_nil h.nonempty _, ?_⟩
  intro c hc
  rcases List.mem_append.1 hc with hc | hc
  · exact h.digits c hc
  · rw [List.eq_of_mem_replicate hc]
    decide

theorem IsDigits.take (h : IsDigits ds) {k : Nat} (hk : 0 < k) :
    IsDigits (ds.take k) := by
  refine ⟨?_, fun c hc => h.digits c (List.mem_of_mem_take hc)⟩
  intro heq
  have hnil := List.take_eq_nil_iff.1 heq
  rcases hnil with hnil | hnil
  · omega
  · exact h.nonempty hnil

theorem IsDigits.drop (h : IsDigits ds) {k : Nat} (hk : k < ds.length) :
    IsDigits (ds.drop k) := by
  refine ⟨?_, fun c hc => h.digits c (List.mem_of_mem_drop hc)⟩
  intro heq
  have hnil := List.drop_eq_nil_iff.1 heq
  omega

/-- The characters that numbers are written with. -/
def isNumeralChar (c : Char) : Bool :=
  c.isDigit || c == '-' || c == '+' || c == '.' || c == 'e' || c == 'E'

/-- A text that only numbers have. -/
structure IsNumeral (cs : List Char) : Prop where
  nonempty : cs ≠ []
  chars : ∀ c ∈ cs, isNumeralChar c = true

theorem isNumeralChar_of_isDigit {c : Char} (h : c.isDigit = true) : isNumeralChar c = true := by
  unfold isNumeralChar
  rw [h]
  rfl

theorem isNumeralChar_cases {c : Char} (h : isNumeralChar c = true) :
    c.isDigit = true ∨ c ∈ ['-', '+', '.', 'e', 'E'] := by
  unfold isNumeralChar at h
  simp only [Bool.or_eq_true, beq_iff_eq] at h
  simp only [List.mem_cons, List.not_mem_nil, or_false]
  tauto

theorem isBlank_of_isNumeralChar {c : Char} (h : isNumeralChar c = true) : isBlank c = false := by
  rcases isNumeralChar_cases h with hdigit | hmark
  · apply isBlank_of_isAlphanum
    unfold Char.isAlphanum
    rw [hdigit, Bool.or_true]
  · have hmarks : (['-', '+', '.', 'e', 'E'].all fun d => !isBlank d) = true := by decide
    simpa using List.all_eq_true.1 hmarks c hmark

theorem IsNumeral.trim {cs : List Char} (h : IsNumeral cs) : Text.trim cs = cs :=
  trim_of_no_blank fun c hc => isBlank_of_isNumeralChar (h.chars c hc)

theorem isNumeral_signed (negative : Bool) (h : IsDigits ds) : IsNumeral (signed negative ds) := by
  cases negative with
  | true =>
      refine ⟨List.cons_ne_nil _ _, ?_⟩
      intro c hc
      rcases List.mem_cons.1 hc with rfl | hc
      · decide
      · exact isNumeralChar_of_isDigit (h.digits c hc)
  | false => exact ⟨h.nonempty, fun c hc => isNumeralChar_of_isDigit (h.digits c hc)⟩

theorem IsDigits.isNumeral (h : IsDigits ds) : IsNumeral ds := isNumeral_signed false h

theorem IsNumeral.append {cs : List Char} (hcs : IsNumeral cs)
    (hds : ∀ c ∈ ds, isNumeralChar c = true) : IsNumeral (cs ++ ds) :=
  ⟨List.append_ne_nil_of_left_ne_nil hcs.nonempty ds, List.forall_mem_append.2 ⟨hcs.chars, hds⟩⟩

theorem IsNumeral.cons {c : Char} (hc : isNumeralChar c = true)
    (hds : ∀ c ∈ ds, isNumeralChar c = true) : IsNumeral (c :: ds) :=
  ⟨List.cons_ne_nil c ds, List.forall_mem_cons.2 ⟨hc, hds⟩⟩

theorem IsDigits.isNumeral_point (h : IsDigits ds) (k : Nat) :
    IsNumeral (ds.take k ++ '.' :: ds.drop k) := by
  have hchars : ∀ c ∈ ds, isNumeralChar c = true := h.isNumeral.chars
  refine ⟨List.append_ne_nil_of_right_ne_nil _ (List.cons_ne_nil _ _), ?_⟩
  rw [List.forall_mem_append, List.forall_mem_cons]
  exact ⟨fun c hc => hchars c (List.mem_of_mem_take hc), by decide,
    fun c hc => hchars c (List.mem_of_mem_drop hc)⟩

theorem IsDigits.isNumeral_fraction (h : IsDigits ds) (k : Nat) :
    IsNumeral ('0' :: '.' :: List.replicate k '0' ++ ds) := by
  have hzeros : IsNumeral (List.replicate k '0' ++ ds) := (h.zeros_append k).isNumeral
  exact .cons (by decide) (IsNumeral.cons (by decide) hzeros.chars).chars

theorem isNumeral_toString (n : Int) : IsNumeral (toString n).toList := by
  rw [toList_toString]
  exact isNumeral_signed _ (isDigits_toDigits _)

theorem isNumeralChar_toLower {c : Char} (h : isNumeralChar c = true) :
    isNumeralChar c.toLower = true := by
  rcases isNumeralChar_cases h with hdigit | hmark
  · have hsame : c.toLower = c := by
      have hnine : '9'.val.toNat = 57 := rfl
      have hupper : 'A'.val.toNat = 65 := rfl
      unfold Char.isDigit at hdigit
      simp only [Bool.and_eq_true, decide_eq_true_eq, UInt32.le_iff_toNat_le] at hdigit
      unfold Char.toLower
      rw [dif_neg]
      simp only [ge_iff_le, UInt32.le_iff_toNat_le]
      omega
    rw [hsame, h]
  · have hmarks : (['-', '+', '.', 'e', 'E'].all fun d => isNumeralChar d.toLower) = true := by
      decide
    exact List.all_eq_true.1 hmarks c hmark

theorem IsNumeral.sameLetters_cons {cs : List Char} (h : IsNumeral cs) {c : Char}
    (hc : isNumeralChar c.toLower = false) (ds : List Char) : sameLetters cs (c :: ds) = false := by
  obtain ⟨d, rest, rfl⟩ := List.exists_cons_of_ne_nil h.nonempty
  have hd : d.toLower ≠ c.toLower := by
    intro heq
    have hlower := isNumeralChar_toLower (h.chars d List.mem_cons_self)
    rw [heq, hc] at hlower
    cases hlower
  exact sameLetters_cons_of_ne hd rest ds

section Padded

theorem toList_padded (width n : Nat) : (padded width n).toList =
    List.replicate (width - (Nat.toDigits 10 n).length) '0' ++ Nat.toDigits 10 n := by
  unfold padded
  rw [String.toList_append, String.toList_ofList, ← String.length_toList, toList_toString_nat]

theorem isDigits_padded (width n : Nat) : IsDigits (padded width n).toList := by
  rw [toList_padded]
  exact (isDigits_toDigits n).zeros_append _

theorem ofDigitChars_padded (width n : Nat) :
    Nat.ofDigitChars 10 (padded width n).toList 0 = n := by
  rw [toList_padded, ofDigitChars_zeros, Nat.ofDigitChars_ten_toDigits]

theorem length_padded {width n : Nat} (hwidth : 0 < width) (h : n < 10 ^ width) :
    (padded width n).toList.length = width := by
  have hle := (Nat.length_toDigits_le_iff (by decide) hwidth).2 h
  rw [toList_padded, List.length_append, List.length_replicate]
  omega

end Padded

theorem signed?_append_of_not_digit (h : IsDigits ds) {c : Char} (hc : c.isDigit = false)
    (rest : List Char) : signed? (ds ++ c :: rest) = none := by
  obtain ⟨d, more, rfl, hd⟩ := h.exists_cons
  have hall : (d :: more ++ c :: rest).all Char.isDigit = false := by
    rw [List.all_eq_false]
    exact ⟨c, by simp, by simp [hc]⟩
  have hread : Numeral.nat? (d :: more ++ c :: rest) = none := by
    unfold Numeral.nat?
    rw [hall, if_pos (by simp)]
  unfold signed?
  split
  · next heq => exact absurd (List.cons.inj heq).1 (h.ne List.mem_cons_self (by decide))
  · next heq => exact absurd (List.cons.inj heq).1 (h.ne List.mem_cons_self (by decide))
  · rw [hread, Option.map_none]

end RowStream.Text.Numeral
