import RowStream.Proofs.Number.Decimal
import RowStream.Proofs.Number.Rational

/-!
# Decimal literals

A literal is a number written in decimal digits: a sign, digits with a point among them, a power of
ten behind a mark. What it stands for is said of these parts alone. It is read as a decimal that
stands for the same number, unless no decimal has its scale.
-/

namespace RowStream.Decimal

open Text.Numeral

structure Exponent where
  mark : Char
  sign : Sign
  digits : List Char
  isMark : isMark mark = true
  isDigits : IsDigits digits

namespace Exponent

def chars (e : Exponent) : List Char := e.mark :: (e.sign.chars ++ e.digits)

def power (e : Exponent) : Int := e.sign.factor * (Nat.ofDigitChars 10 e.digits 0 : Nat)

end Exponent

/-- The parts of a number that is written in decimal digits. -/
structure Literal where
  sign : Sign
  whole : List Char
  frac : Option (List Char)
  exponent : Option Exponent
  isGrouped : IsGrouped (whole ++ frac.getD [])

namespace Literal

variable (x : Literal)

def chars : List Char :=
  x.sign.chars ++ x.whole ++ fraction x.frac ++ x.exponent.elim [] Exponent.chars

def places : Nat := (ungrouped (x.frac.getD [])).length

def power : Int := x.exponent.elim 0 Exponent.power

def toRat : Rat :=
  x.sign.factor * (groupedValue x.whole + groupedValue (x.frac.getD []) / 10 ^ x.places) *
    10 ^ x.power

def scale : Int := x.places - x.power

def toDecimal : Decimal := ⟨x.sign.factor * groupedValue (x.whole ++ x.frac.getD []), x.scale⟩

theorem groupedValue_append (ds es : List Char) :
    groupedValue (ds ++ es) = 10 ^ (ungrouped es).length * groupedValue ds + groupedValue es := by
  have hfilter : ungrouped (ds ++ es) = ungrouped ds ++ ungrouped es := List.filter_append ds es
  unfold groupedValue
  rw [hfilter, Nat.ofDigitChars_append, Nat.ofDigitChars_eq_ofDigitChars_zero]

theorem toRat_toDecimal : x.toDecimal.toRat = x.toRat := by
  have hten : (10 : Rat) ≠ 0 := by norm_num
  have hplaces : (10 : Rat) ^ x.places ≠ 0 := pow_ne_zero _ hten
  have hscale : (10 : Rat) ^ (-x.scale) = 10 ^ x.power / 10 ^ x.places := by
    rw [scale, neg_sub, zpow_sub₀ hten, zpow_natCast]
  have hdigits : (groupedValue (x.whole ++ x.frac.getD []) : Rat) =
      10 ^ x.places * (groupedValue x.whole + groupedValue (x.frac.getD []) / 10 ^ x.places) := by
    rw [groupedValue_append, mul_add, mul_div_cancel₀ _ hplaces]
    push_cast
    rfl
  rw [Decimal.toRat, toDecimal, hscale, toRat]
  push_cast
  rw [hdigits, mul_left_comm, mul_comm (10 ^ x.places), mul_assoc, mul_div_cancel₀ _ hplaces]

theorem exponent?_power : exponent? (x.exponent.elim [] Exponent.chars) = some x.power := by
  unfold power
  cases x.exponent with
  | none => rfl
  | some e => exact signed?_chars e.sign e.isDigits

theorem parse?_chars :
    parse? x.chars = if scaleFits x.scale then some x.toDecimal else none := by
  have htail : (x.exponent.elim [] Exponent.chars).head?.any (!Decimal.isMark ·) = false := by
    cases x.exponent with
    | none => rfl
    | some e =>
        change (!Decimal.isMark e.mark) = false
        rw [e.isMark]
        rfl
  exact (readsAs_base x.sign x.whole x.frac x.isGrouped).parse?_append _ htail x.exponent?_power

theorem isBlank_of_digit {c : Char} (h : c.isDigit = true ∨ c = '_') : Text.isBlank c = false := by
  rcases h with hdigit | rfl
  · exact isBlank_of_isNumeralChar (isNumeralChar_of_isDigit hdigit)
  · decide

theorem isBlank_of_isMark {c : Char} (h : Decimal.isMark c = true) : Text.isBlank c = false := by
  unfold Decimal.isMark at h
  rw [Bool.or_eq_true, beq_iff_eq, beq_iff_eq] at h
  rcases h with rfl | rfl <;> decide

theorem isBlank_of_mem_chars : ∀ c ∈ x.chars, Text.isBlank c = false := by
  have hbase := forall_mem_base x.sign x.whole x.frac x.isGrouped (by decide) (by decide)
    (by decide) fun _ hc => isBlank_of_digit hc
  have hexponent : ∀ c ∈ x.exponent.elim [] Exponent.chars, Text.isBlank c = false := by
    cases x.exponent with
    | none => exact fun c hc => by cases hc
    | some e =>
        have hdigits : ∀ c ∈ e.digits, Text.isBlank c = false :=
          fun c hc => isBlank_of_digit (.inl (e.isDigits.digits c hc))
        exact List.forall_mem_cons.2 ⟨isBlank_of_isMark e.isMark,
          List.forall_mem_append.2 ⟨e.sign.forall_mem_chars (by decide) (by decide), hdigits⟩⟩
  exact List.forall_mem_append.2 ⟨hbase, hexponent⟩

/-- The text is the literal, with blanks around it or without. -/
def Spells (s : String) : Prop :=
  ∃ front back : List Char, s.toList = front ++ x.chars ++ back ∧
    (∀ c ∈ front, Text.isBlank c = true) ∧ ∀ c ∈ back, Text.isBlank c = true

variable {x}

theorem spells_of_toList {s : String} (h : s.toList = x.chars) : x.Spells s :=
  ⟨[], [], by simpa using h, by simp, by simp⟩

theorem Spells.trim {s : String} (h : x.Spells s) : Text.trim s.toList = x.chars := by
  obtain ⟨front, back, hs, hfront, hback⟩ := h
  rw [hs, Text.trim_append_blanks _ hback, Text.trim_blanks_append hfront,
    Text.trim_of_no_blank x.isBlank_of_mem_chars]

end Literal

end RowStream.Decimal
