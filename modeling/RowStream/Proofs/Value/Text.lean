import RowStream.Proofs.Number.Decimal
import RowStream.Value.Basic

/-!
# Texts of values

Texts aside, values are written with letters, digits, signs and a point. So a value needs no quotes
around it, and nothing in its text is taken for a separator.
-/

namespace RowStream

open Text.Numeral

namespace Text

def isBareChar (c : Char) : Bool := c.isAlphanum || c == '-' || c == '+' || c == '.'

/-- A word that stands for itself without quotes. -/
structure IsBare (cs : List Char) : Prop where
  nonempty : cs ≠ []
  chars : ∀ c ∈ cs, isBareChar c = true

theorem isBareChar_cases {c : Char} (h : isBareChar c = true) :
    c.isAlphanum = true ∨ c ∈ ['-', '+', '.'] := by
  unfold isBareChar at h
  simp only [Bool.or_eq_true, beq_iff_eq] at h
  simp only [List.mem_cons, List.not_mem_nil, or_false]
  tauto

theorem isBlank_of_isBareChar {c : Char} (h : isBareChar c = true) : isBlank c = false := by
  rcases isBareChar_cases h with halphanum | hmark
  · exact isBlank_of_isAlphanum halphanum
  · have hmarks : (['-', '+', '.'].all fun d => !isBlank d) = true := by decide
    simpa using List.all_eq_true.1 hmarks c hmark

theorem isBareChar_of_isNumeralChar {c : Char} (h : isNumeralChar c = true) :
    isBareChar c = true := by
  rcases isNumeralChar_cases h with hdigit | hmark
  · unfold isBareChar Char.isAlphanum
    rw [hdigit, Bool.or_true]
    rfl
  · have hmarks : (['-', '+', '.', 'e', 'E'].all isBareChar) = true := by decide
    exact List.all_eq_true.1 hmarks c hmark

theorem IsBare.trim {cs : List Char} (h : IsBare cs) : trim cs = cs :=
  trim_of_no_blank fun c hc => isBlank_of_isBareChar (h.chars c hc)

theorem Numeral.IsNumeral.isBare {cs : List Char} (h : IsNumeral cs) : IsBare cs :=
  ⟨h.nonempty, fun c hc => isBareChar_of_isNumeralChar (h.chars c hc)⟩

end Text

open Text

theorem Digits.isNumeral_positional (d : Digits) : IsNumeral d.positional.toList := by
  have hdigits := isDigits_toDigits d.digits
  unfold positional
  dsimp only
  split
  · rw [String.toList_ofList]
    exact (hdigits.append_zeros _).isNumeral
  · split
    · rw [String.toList_ofList]
      exact hdigits.isNumeral_point _
    · rw [String.toList_ofList]
      exact hdigits.isNumeral_fraction _

theorem BinaryParts.isBare_text (f : BinaryFormat) (parts : BinaryParts) :
    IsBare (parts.text f).toList := by
  have hwords : ∀ s ∈ ["NaN", "inf", "-inf"], IsBare s.toList := by
    have hchars : ∀ s ∈ ["NaN", "inf", "-inf"],
        s.toList ≠ [] ∧ s.toList.all isBareChar = true := by decide
    exact fun s hs => ⟨(hchars s hs).1, List.all_eq_true.1 (hchars s hs).2⟩
  cases parts with
  | nan negative payload => exact hwords "NaN" (by decide)
  | infinite negative =>
      cases negative
      · exact hwords "inf" (by decide)
      · exact hwords "-inf" (by decide)
  | finite negative m q =>
      have hmagnitude :
          IsNumeral (if m == 0 then "0" else (f.shortest m q).positional).toList := by
        split
        · exact isDigits_zero.isNumeral
        · exact Digits.isNumeral_positional _
      apply IsNumeral.isBare
      unfold text
      dsimp only
      split
      · rw [String.toList_append]
        exact .cons (by decide) hmagnitude.chars
      · exact hmagnitude

theorem Value.isBare_toText {v : Value} (h : v.text? = none) : IsBare v.toText.toList := by
  cases v with
  | bool b =>
      cases b
      · exact ⟨by decide, List.all_eq_true.1 (by decide)⟩
      · exact ⟨by decide, List.all_eq_true.1 (by decide)⟩
  | int32 n => exact (isNumeral_toString n.toInt).isBare
  | int64 n => exact (isNumeral_toString n.toInt).isBare
  | binary32 x => exact BinaryParts.isBare_text _ _
  | binary64 x => exact BinaryParts.isBare_text _ _
  | integer n => exact (isNumeral_toString n).isBare
  | decimal d => exact (Decimal.isNumeral_text d).isBare
  | text s => cases h

end RowStream
