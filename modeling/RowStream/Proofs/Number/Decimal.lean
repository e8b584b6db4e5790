import RowStream.Number.Decimal
import RowStream.Proofs.Text.Numeral

/-!
# Decimals there and back

The text of a decimal is read as a decimal that equals it. The scale is kept too, unless the number
is zero or its zeros are written out.
-/

namespace RowStream.Decimal

open Text.Numeral

theorem equal_refl (d : Decimal) : d.equal d = true := by
  unfold equal
  rw [if_pos rfl, beq_self_eq_true]

def isMark (c : Char) : Bool := c == 'e' || c == 'E'

/-- What the part of a literal before its exponent says: the digits and how many of them stand
behind the point. -/
structure ReadsAs (base : List Char) (unscaled : Int) (places : Nat) : Prop where
  noMark : ∀ c ∈ base, isMark c = false
  digits : big? (mantissa base).1 = some unscaled
  places : (mantissa base).2 = places

/-- The exponent that is written behind the base of a literal. -/
def exponent? : List Char → Option Int
  | [] => some 0
  | _ :: e => signed? e

section Literals

variable {base : List Char} {unscaled : Int} {places : Nat}

/-- A literal is read as its base says, shifted by the exponent that stands behind it. -/
theorem ReadsAs.parse?_append (h : ReadsAs base unscaled places) (tail : List Char) {n : Int}
    (htail : tail.head?.any (!isMark ·) = false) (hn : exponent? tail = some n) :
    Decimal.parse? (base ++ tail) =
      if scaleFits (places - n) then some ⟨unscaled, places - n⟩ else none := by
  have hin : ∀ c ∈ base, (!isMark c) = true := fun c hc => by rw [h.noMark c hc]; rfl
  have htake := Text.takeWhile_append hin htail
  have hdrop := Text.dropWhile_append hin htail
  unfold isMark at htake hdrop
  unfold Decimal.parse?
  dsimp only
  rw [htake, hdrop]
  cases tail with
  | nil =>
      cases hn
      dsimp only
      rw [h.places, h.digits]
      rfl
  | cons mark e =>
      change signed? e = some n at hn
      dsimp only
      rw [hn]
      dsimp only
      rw [h.places, h.digits]
      rfl

theorem ReadsAs.parse? (h : ReadsAs base unscaled places) (hfits : scaleFits places = true) :
    parse? base = some ⟨unscaled, places⟩ := by
  have hparse := h.parse?_append [] rfl rfl
  rwa [List.append_nil, Int.sub_zero, if_pos hfits] at hparse

theorem ReadsAs.parse?_exponent (h : ReadsAs base unscaled places) (mark : Char) {e : List Char}
    {n : Int} (hmark : isMark mark = true) (he : signed? e = some n)
    (hfits : scaleFits (places - n) = true) :
    Decimal.parse? (base ++ mark :: e) = some ⟨unscaled, places - n⟩ := by
  have htail : (mark :: e).head?.any (!isMark ·) = false := by
    change (!isMark mark) = false
    rw [hmark]
    rfl
  rw [h.parse?_append _ htail he, if_pos hfits]

end Literals

theorem isMark_of_digit {c : Char} (h : c.isDigit = true ∨ c = '_') : isMark c = false := by
  have hne : ∀ mark, ¬ (mark.isDigit = true ∨ mark = '_') → c ≠ mark := by
    rintro mark hmark rfl
    exact hmark h
  unfold isMark
  rw [beq_false_of_ne (hne 'e' (by decide)), beq_false_of_ne (hne 'E' (by decide))]
  rfl

/-- A point and the digits behind it, or nothing at all. -/
def fraction (frac : Option (List Char)) : List Char := frac.elim [] ('.' :: ·)

section Base

variable (s : Sign) (whole : List Char) (frac : Option (List Char))
  (h : IsGrouped (whole ++ frac.getD []))
include h

theorem ne_of_mem_whole {c d : Char} (hd : d ∈ s.chars ++ whole) (hc : c.isDigit = false)
    (hgroup : c ≠ '_') (hsign : c ∉ s.chars) : d ≠ c := by
  rcases List.mem_append.1 hd with hd | hd
  · rintro rfl
    exact hsign hd
  · exact h.ne (List.mem_append_left _ hd) hc hgroup

theorem forall_mem_base {P : Char → Prop} (hplus : P '+') (hminus : P '-') (hpoint : P '.')
    (hdigit : ∀ c, c.isDigit = true ∨ c = '_' → P c) :
    ∀ c ∈ s.chars ++ whole ++ fraction frac, P c := by
  have hdigits : ∀ c ∈ whole ++ frac.getD [], P c := fun c hc => hdigit c (h.chars c hc)
  rw [List.forall_mem_append] at hdigits
  rw [List.forall_mem_append, List.forall_mem_append]
  refine ⟨⟨s.forall_mem_chars hplus hminus, hdigits.1⟩, ?_⟩
  cases frac with
  | none => exact fun c hc => by cases hc
  | some frac => exact List.forall_mem_cons.2 ⟨hpoint, hdigits.2⟩

theorem mantissa_base : mantissa (s.chars ++ whole ++ fraction frac) =
    (s.chars ++ (whole ++ frac.getD []), (ungrouped (frac.getD [])).length) := by
  have hin : ∀ c ∈ s.chars ++ whole, (c != '.') = true := fun c hc =>
    bne_iff_ne.2 (ne_of_mem_whole s whole frac h hc (by decide) (by decide) (by cases s <;> decide))
  have hout : ∀ ds, ('.' :: ds).head?.any (· != '.') = false := fun _ => rfl
  cases frac with
  | none =>
      unfold mantissa fraction
      dsimp only [Option.elim, Option.getD]
      rw [List.append_nil, List.dropWhile_eq_nil_iff.2 hin, List.append_nil]
      rfl
  | some frac =>
      unfold mantissa fraction
      dsimp only [Option.elim, Option.getD]
      rw [Text.dropWhile_append hin (hout frac), Text.takeWhile_append hin (hout frac)]
      cases frac with
      | nil =>
          rw [List.append_nil]
          rfl
      | cons f fs =>
          dsimp only
          rw [← List.append_assoc]
          rfl

/-- Digits with a sign and a point stand for the number of all of them, as many places down as
digits are behind the point. -/
theorem readsAs_base : ReadsAs (s.chars ++ whole ++ fraction frac)
    (s.factor * groupedValue (whole ++ frac.getD [])) (ungrouped (frac.getD [])).length := by
  have hmantissa := mantissa_base s whole frac h
  have hmark := forall_mem_base s whole frac h (by decide) (by decide) (by decide)
    fun _ hc => isMark_of_digit hc
  exact ⟨hmark, by rw [hmantissa]; exact big?_chars s h, by rw [hmantissa]⟩

end Base

theorem readsAs_whole (negative : Bool) {ds : List Char} (h : IsDigits ds) :
    ReadsAs (signed negative ds) (signedValue negative (Nat.ofDigitChars 10 ds 0)) 0 := by
  have hbase := readsAs_base (Sign.ofNegative negative) ds none
    (by simpa using h.isGrouped)
  simpa [fraction, ungrouped, signed_eq, signedValue_eq, h.groupedValue] using hbase

theorem parse?_toString (n : Int) : parse? (toString n).toList = some (ofInt n) := by
  have hparse := (readsAs_whole (decide (n < 0)) (isDigits_toDigits n.natAbs)).parse? (by decide)
  rwa [Nat.ofDigitChars_ten_toDigits, signedValue_natAbs, ← toList_toString] at hparse

theorem readsAs_point (negative : Bool) {whole frac : List Char} (hw : IsDigits whole)
    (hf : IsDigits frac) :
    ReadsAs (signed negative whole ++ '.' :: frac)
      (signedValue negative (Nat.ofDigitChars 10 (whole ++ frac) 0)) frac.length := by
  have hbase := readsAs_base (Sign.ofNegative negative) whole (some frac)
    (hw.append hf).isGrouped
  simpa [fraction, hf.ungrouped, signed_eq, signedValue_eq, (hw.append hf).groupedValue] using hbase

section Magnitudes

variable (negative : Bool) {n places zeros : Nat}

theorem parse?_zeros : parse? (signed negative (Nat.toDigits 10 n ++ List.replicate zeros '0')) =
    some ⟨signedValue negative (n * tenPow zeros), 0⟩ := by
  have hvalue : Nat.ofDigitChars 10 (Nat.toDigits 10 n ++ List.replicate zeros '0') 0 =
      n * tenPow zeros := by
    rw [Nat.ofDigitChars_append, Nat.ofDigitChars_ten_toDigits, Nat.ofDigitChars_replicate_zero,
      Nat.mul_comm]
    rfl
  have h := readsAs_whole negative ((isDigits_toDigits n).append_zeros zeros)
  rw [hvalue] at h
  exact h.parse? (by decide)

theorem parse?_trailing (hfits : scaleFits (-(zeros : Int)) = true) :
    parse? (signed negative (Nat.toDigits 10 n) ++ 'e' :: '+' :: (toString zeros).toList) =
      some ⟨signedValue negative n, -(zeros : Int)⟩ := by
  have h := readsAs_whole negative (isDigits_toDigits n)
  have he : signed? ('+' :: (toString zeros).toList) = some (zeros : Int) := by
    change (nat? (toString zeros).toList).map Int.ofNat = _
    rw [toList_toString_nat, nat?_toDigits]
    rfl
  rw [Nat.ofDigitChars_ten_toDigits] at h
  have hparse := h.parse?_exponent 'e' rfl he (by simpa using hfits)
  rw [hparse]
  simp

theorem parse?_inside (hpos : 0 < places) (hlt : places < (Nat.toDigits 10 n).length)
    (hfits : scaleFits places = true) :
    parse? (signed negative ((Nat.toDigits 10 n).take ((Nat.toDigits 10 n).length - places)) ++
        '.' :: (Nat.toDigits 10 n).drop ((Nat.toDigits 10 n).length - places)) =
      some ⟨signedValue negative n, places⟩ := by
  have hn := isDigits_toDigits n
  have hlength : ((Nat.toDigits 10 n).drop ((Nat.toDigits 10 n).length - places)).length =
      places := by
    rw [List.length_drop]
    omega
  have h := readsAs_point negative
    (hn.take (show 0 < (Nat.toDigits 10 n).length - places by omega))
    (hn.drop (show (Nat.toDigits 10 n).length - places < _ by omega))
  rw [List.take_append_drop, Nat.ofDigitChars_ten_toDigits, hlength] at h
  exact h.parse? hfits

theorem parse?_leading (hle : (Nat.toDigits 10 n).length ≤ places)
    (hfits : scaleFits places = true) :
    parse? (signed negative ['0'] ++ '.' :: (List.replicate (places - (Nat.toDigits 10 n).length)
        '0' ++ Nat.toDigits 10 n)) =
      some ⟨signedValue negative n, places⟩ := by
  have hfrac := (isDigits_toDigits n).zeros_append (places - (Nat.toDigits 10 n).length)
  have hvalue : Nat.ofDigitChars 10 (['0'] ++ (List.replicate (places -
      (Nat.toDigits 10 n).length) '0' ++ Nat.toDigits 10 n)) 0 = n := by
    rw [← List.append_assoc]
    change Nat.ofDigitChars 10 (List.replicate (_ + 1) '0' ++ Nat.toDigits 10 n) 0 = n
    rw [ofDigitChars_zeros, Nat.ofDigitChars_ten_toDigits]
  have hlength : (List.replicate (places - (Nat.toDigits 10 n).length) '0' ++
      Nat.toDigits 10 n).length = places := by
    rw [List.length_append, List.length_replicate]
    omega
  have h := readsAs_point negative isDigits_zero hfrac
  rw [hvalue, hlength] at h
  exact h.parse? hfits

/-- The digits of a number with a point behind the first one, unless that is the only one. -/
def pointed (ds : List Char) : List Char :=
  if ds.length = 1 then ds else ds.take 1 ++ '.' :: ds.drop 1

theorem readsAs_pointed : ReadsAs (signed negative (pointed (Nat.toDigits 10 n)))
    (signedValue negative n) ((Nat.toDigits 10 n).length - 1) := by
  have hn := isDigits_toDigits n
  have hpos : 0 < (Nat.toDigits 10 n).length := Nat.length_toDigits_pos
  unfold pointed
  split
  · next hone =>
      have h := readsAs_whole negative hn
      rw [Nat.ofDigitChars_ten_toDigits] at h
      rw [hone]
      exact h
  · next hmany =>
      have h := readsAs_point negative (hn.take Nat.one_pos)
        (hn.drop (show 1 < _ by omega))
      rw [List.take_append_drop, Nat.ofDigitChars_ten_toDigits, List.length_drop,
        signed_append] at h
      exact h

theorem signed?_withSign (n : Int) : signed? (withSign n).toList = some n := by
  unfold withSign
  split
  · exact signed?_toString n
  · next h =>
      obtain ⟨m, rfl⟩ := Int.eq_ofNat_of_zero_le (Int.not_lt.1 h)
      rw [String.toList_append]
      change (nat? (toString (m : Int)).toList).map Int.ofNat = _
      rw [toList_toString, decide_eq_false h]
      change (nat? (Nat.toDigits 10 m)).map Int.ofNat = _
      rw [nat?_toDigits]
      rfl

theorem parse?_scientific (hfits : scaleFits places = true) :
    parse? (signed negative (pointed (Nat.toDigits 10 n)) ++
        'E' :: (withSign (((Nat.toDigits 10 n).length : Int) - places - 1)).toList) =
      some ⟨signedValue negative n, places⟩ := by
  have hpos : 0 < (Nat.toDigits 10 n).length := Nat.length_toDigits_pos
  have hscale : (((Nat.toDigits 10 n).length - 1 : Nat) : Int) -
      (((Nat.toDigits 10 n).length : Int) - places - 1) = places := by omega
  have h := (readsAs_pointed negative (n := n)).parse?_exponent 'E' rfl
    (signed?_withSign (((Nat.toDigits 10 n).length : Int) - places - 1)) (by rw [hscale, hfits])
  rw [h, hscale]

theorem parse?_magnitude {scale : Int} (hfits : scaleFits scale = true) :
    (parse? (signed negative (magnitudeText n scale).toList) =
        some ⟨signedValue negative n, scale⟩) ∨
      (scale ≤ 0 ∧ parse? (signed negative (magnitudeText n scale).toList) =
        some ⟨signedValue negative (n * tenPow (-scale).toNat), 0⟩) := by
  -- Of the five ways in which a magnitude is written, only written-out zeros lose the scale.
  unfold magnitudeText
  dsimp only
  split
  · next hscale =>
      have hzeros : -(((-scale).toNat : Nat) : Int) = scale := by omega
      split
      · have hfits' : scaleFits (-(((-scale).toNat : Nat) : Int)) = true := by rw [hzeros, hfits]
        have h := parse?_trailing negative (n := n) hfits'
        left
        rw [hzeros, signed_append] at h
        rw [String.toList_append, String.toList_append, String.toList_ofList, List.append_assoc]
        exact h
      · right
        rw [String.toList_ofList]
        exact ⟨hscale, parse?_zeros negative⟩
  · next hscale =>
      have hplaces : ((scale.toNat : Nat) : Int) = scale := by omega
      have hfits' : scaleFits (scale.toNat : Nat) = true := by rw [hplaces, hfits]
      left
      split
      · next hlt =>
          have h := parse?_inside negative (show 0 < scale.toNat by omega) hlt hfits'
          rw [hplaces, signed_append] at h
          rw [String.toList_ofList]
          exact h
      · next hle =>
          split
          · have h := parse?_scientific negative (n := n) hfits'
            rw [hplaces, signed_append] at h
            rw [String.toList_append, String.toList_append, String.toList_ofList,
              List.append_assoc, hplaces]
            exact h
          · have h := parse?_leading negative (Nat.not_lt.1 hle) hfits'
            rw [hplaces, signed_append] at h
            rw [String.toList_ofList]
            exact h

end Magnitudes

theorem toList_text {d : Decimal} (h : d.unscaled ≠ 0) : d.text.toList =
    signed (decide (d.unscaled < 0)) (magnitudeText d.unscaled.natAbs d.scale).toList := by
  unfold text
  rw [if_neg h]
  by_cases hneg : d.unscaled < 0
  · rw [if_pos hneg, decide_eq_true hneg, String.toList_append]
    rfl
  · rw [if_neg hneg, decide_eq_false hneg]
    rfl

theorem signedValue_mul (negative : Bool) (n m : Nat) :
    signedValue negative (n * m) = signedValue negative n * m := by
  cases negative with
  | true => exact (Int.neg_mul n m).symm
  | false => simp [signedValue]

theorem equal_zeros (n : Int) {scale : Int} (h : scale ≤ 0) :
    (⟨n * tenPow (-scale).toNat, 0⟩ : Decimal).equal ⟨n, scale⟩ = true := by
  unfold equal
  dsimp only
  split
  · next heq =>
      subst heq
      simp [tenPow]
  · next hne =>
      split
      · next hzero =>
          rw [Bool.or_eq_true, decide_eq_true_eq, decide_eq_true_eq] at hzero
          have hpos : (tenPow (-scale).toNat : Int) ≠ 0 := by
            have := tenPow_pos (-scale).toNat
            omega
          have hn : n = 0 := by
            rcases hzero with hzero | hzero
            · exact (Int.mul_eq_zero.1 hzero).resolve_right hpos
            · exact hzero
          rw [hn, Int.zero_mul]
          rfl
      · rw [if_neg (by omega), Int.zero_sub, beq_self_eq_true]

/-- The text of a decimal is read as a decimal that equals it. -/
theorem parse?_text {d : Decimal} (hfits : scaleFits d.scale = true) :
    ∃ d', parse? d.text.toList = some d' ∧ d'.equal d = true := by
  by_cases hzero : d.unscaled = 0
  · refine ⟨⟨0, 0⟩, ?_, ?_⟩
    · have htext : d.text = "0" := by
        unfold text
        rw [if_pos hzero]
      rw [htext]
      decide
    · unfold equal
      rw [hzero]
      split
      · rfl
      · rfl
  · rw [toList_text hzero]
    rcases parse?_magnitude (decide (d.unscaled < 0)) hfits with h | ⟨hscale, h⟩
    · rw [signedValue_natAbs] at h
      exact ⟨d, h, equal_refl d⟩
    · rw [signedValue_mul, signedValue_natAbs] at h
      exact ⟨_, h, equal_zeros d.unscaled hscale⟩

theorem isNumeralChar_withSign (n : Int) : ∀ c ∈ (withSign n).toList, isNumeralChar c = true := by
  unfold withSign
  split
  · exact (isNumeral_toString n).chars
  · rw [String.toList_append, List.forall_mem_append]
    exact ⟨List.all_eq_true.1 (by decide), (isNumeral_toString n).chars⟩

theorem isNumeral_magnitude (n : Nat) (scale : Int) :
    IsNumeral (magnitudeText n scale).toList := by
  have hdigits := isDigits_toDigits n
  have hcount : ∀ k : Nat, ∀ c ∈ (toString k).toList, isNumeralChar c = true := by
    intro k
    rw [toList_toString_nat]
    exact (isDigits_toDigits k).isNumeral.chars
  unfold magnitudeText
  dsimp only
  split
  · split
    · rw [String.toList_append, String.toList_append, String.toList_ofList]
      exact (hdigits.isNumeral.append (List.all_eq_true.1 (by decide))).append (hcount _)
    · rw [String.toList_ofList]
      exact (hdigits.append_zeros _).isNumeral
  · split
    · rw [String.toList_ofList]
      exact hdigits.isNumeral_point _
    · split
      · have hmantissa : IsNumeral (if (Nat.toDigits 10 n).length = 1 then Nat.toDigits 10 n else
            (Nat.toDigits 10 n).take 1 ++ '.' :: (Nat.toDigits 10 n).drop 1) := by
          split
          · exact hdigits.isNumeral
          · exact hdigits.isNumeral_point 1
        rw [String.toList_append, String.toList_append, String.toList_ofList]
        exact (hmantissa.append (List.all_eq_true.1 (by decide))).append
          (isNumeralChar_withSign _)
      · rw [String.toList_ofList]
        exact hdigits.isNumeral_fraction _

theorem isNumeral_text (d : Decimal) : IsNumeral d.text.toList := by
  unfold text
  split
  · exact isDigits_zero.isNumeral
  · dsimp only
    split
    · rw [String.toList_append]
      exact .cons (by decide) (isNumeral_magnitude _ _).chars
    · exact isNumeral_magnitude _ _

end RowStream.Decimal
