import Mathlib.Data.List.DropRight
import RowStream.Text.Blank

/-!
# Fronts and ends of texts

A front whose characters have a property is cut off where that ends. What is not blank at its ends
is not changed by trimming, and letters and digits are not blank.
-/

namespace RowStream.Text

section Prefixes

variable {p : Char → Bool} {front rest : List Char}

theorem takeWhile_append (hfront : ∀ c ∈ front, p c = true) (hrest : rest.head?.any p = false) :
    (front ++ rest).takeWhile p = front := by
  rw [List.takeWhile_append_of_pos hfront]
  cases rest with
  | nil => rw [List.takeWhile_nil, List.append_nil]
  | cons c rest =>
      have hc : ¬p c = true := by simpa using hrest
      rw [List.takeWhile_cons_of_neg hc, List.append_nil]

theorem dropWhile_append (hfront : ∀ c ∈ front, p c = true) (hrest : rest.head?.any p = false) :
    (front ++ rest).dropWhile p = rest := by
  rw [List.dropWhile_append_of_pos hfront]
  cases rest with
  | nil => rfl
  | cons c rest => exact List.dropWhile_cons_of_neg (by simpa using hrest)

end Prefixes

theorem trimStart_trimStart (cs : List Char) : trimStart (trimStart cs) = trimStart cs := by
  unfold trimStart
  exact List.dropWhile_idempotent isBlank cs

theorem trimStart_cons_of_blank {c : Char} (h : isBlank c = true) (cs : List Char) :
    trimStart (c :: cs) = trimStart cs := by
  unfold trimStart
  exact List.dropWhile_cons_of_pos h

theorem trimEnd_of_getLast?_not_blank {cs : List Char} (h : cs.getLast?.any isBlank = false) :
    trimEnd cs = cs := by
  rcases List.eq_nil_or_concat cs with rfl | ⟨init, last, rfl⟩
  · rfl
  · rw [List.concat_eq_append] at h ⊢
    rw [List.getLast?_append] at h
    exact trimEnd_append_singleton_of_not_blank (by simpa using h) init

theorem trimStart_of_head?_not_blank {cs : List Char} (h : cs.head?.any isBlank = false) :
    trimStart cs = cs := by
  cases cs with
  | nil => rfl
  | cons c cs => exact trimStart_cons_of_not_blank (by simpa using h) cs

theorem trim_of_ends_not_blank {cs : List Char} (hfirst : cs.head?.any isBlank = false)
    (hlast : cs.getLast?.any isBlank = false) : trim cs = cs := by
  unfold trim
  rw [trimStart_of_head?_not_blank hfirst, trimEnd_of_getLast?_not_blank hlast]

theorem head?_not_blank {cs : List Char} (h : ∀ c ∈ cs, isBlank c = false) :
    cs.head?.any isBlank = false := by
  cases hfirst : cs.head? with
  | none => rfl
  | some c => exact h c (List.mem_of_head? hfirst)

theorem getLast?_not_blank {cs : List Char} (h : ∀ c ∈ cs, isBlank c = false) :
    cs.getLast?.any isBlank = false := by
  cases hlast : cs.getLast? with
  | none => rfl
  | some c => exact h c (List.mem_of_getLast? hlast)

theorem trim_of_no_blank {cs : List Char} (h : ∀ c ∈ cs, isBlank c = false) : trim cs = cs :=
  trim_of_ends_not_blank (head?_not_blank h) (getLast?_not_blank h)

theorem trimStart_not_blank (cs : List Char) : (trimStart cs).head?.any isBlank = false := by
  have hfirst := List.head?_dropWhile_not isBlank cs
  unfold trimStart
  cases h : (cs.dropWhile isBlank).head? with
  | none => rfl
  | some c =>
      rw [h] at hfirst
      exact hfirst

theorem trimEnd_not_blank (cs : List Char) : (trimEnd cs).getLast?.any isBlank = false := by
  unfold trimEnd
  rw [List.getLast?_reverse]
  exact trimStart_not_blank cs.reverse

theorem getLast?_not_blank_of_trim {cs : List Char} (h : trim cs = cs) :
    cs.getLast?.any isBlank = false := by
  rw [← h]
  exact trimEnd_not_blank (trimStart cs)

theorem getLast?_append_not_blank (front : List Char) {cs : List Char} (hne : cs ≠ [])
    (h : cs.getLast?.any isBlank = false) : (front ++ cs).getLast?.any isBlank = false := by
  rw [List.getLast?_append_of_ne_nil front hne]
  exact h

theorem length_trimEnd_le (cs : List Char) : (trimEnd cs).length ≤ cs.length := by
  unfold trimEnd
  have hdrop := (List.dropWhile_sublist isBlank (l := cs.reverse)).length_le
  rw [List.length_reverse] at hdrop ⊢
  exact hdrop

theorem head?_not_blank_of_trim {cs : List Char} (h : trim cs = cs) :
    cs.head?.any isBlank = false := by
  cases cs with
  | nil => rfl
  | cons c cs =>
      change isBlank c = false
      rw [Bool.eq_false_iff]
      intro hc
      have hend := length_trimEnd_le (trimStart cs)
      have hstart := (List.dropWhile_sublist isBlank (l := cs)).length_le
      unfold trim at h
      rw [trimStart_cons_of_blank hc] at h
      rw [h, List.length_cons] at hend
      unfold trimStart at hend
      omega

theorem trimEnd_append_blank {c : Char} (h : isBlank c = true) (cs : List Char) :
    trimEnd (cs ++ [c]) = trimEnd cs := by
  unfold trimEnd
  rw [List.reverse_append, List.reverse_singleton, List.singleton_append,
    List.dropWhile_cons_of_pos h]

theorem trim_append_blank {c : Char} (h : isBlank c = true) (cs : List Char) :
    trim (cs ++ [c]) = trim cs := by
  unfold trim trimStart
  rw [List.dropWhile_append]
  split
  · next hempty =>
      rw [List.dropWhile_cons_of_pos h, List.dropWhile_nil, List.isEmpty_iff.1 hempty]
  · exact trimEnd_append_blank h _

theorem trim_append_blanks (cs : List Char) {blanks : List Char}
    (h : ∀ c ∈ blanks, isBlank c = true) : trim (cs ++ blanks) = trim cs := by
  induction blanks generalizing cs with
  | nil => rw [List.append_nil]
  | cons c blanks ih =>
      rw [List.forall_mem_cons] at h
      rw [List.append_cons, ih _ h.2, trim_append_blank h.1]

theorem trim_blanks_append {blanks : List Char} (h : ∀ c ∈ blanks, isBlank c = true)
    (cs : List Char) : trim (blanks ++ cs) = trim cs := by
  unfold trim trimStart
  rw [List.dropWhile_append_of_pos h]

theorem exists_trimEnd_append (cs : List Char) :
    ∃ blanks, trimEnd cs ++ blanks = cs ∧ ∀ c ∈ blanks, isBlank c = true := by
  refine ⟨(cs.reverse.takeWhile isBlank).reverse, ?_, ?_⟩
  · unfold trimEnd
    rw [← List.reverse_append, List.takeWhile_append_dropWhile, List.reverse_reverse]
  · intro c hc
    exact List.mem_takeWhile_imp (List.mem_reverse.1 hc)

theorem trim_trim (cs : List Char) : trim (trim cs) = trim cs := by
  apply trim_of_ends_not_blank
  · obtain ⟨blanks, happend, -⟩ := exists_trimEnd_append (trimStart cs)
    have hfirst := trimStart_not_blank cs
    unfold trim
    cases hcs : trimEnd (trimStart cs) with
    | nil => rfl
    | cons c rest =>
        rw [← happend, hcs] at hfirst
        exact hfirst
  · exact trimEnd_not_blank (trimStart cs)

theorem trimEnd_cons_of_not_blank {c : Char} (h : isBlank c = false) (cs : List Char) :
    trimEnd (c :: cs) = c :: trimEnd cs := by
  have hc : ([c].dropWhile isBlank) = [c] := List.dropWhile_cons_of_neg (by simp [h])
  unfold trimEnd
  rw [List.reverse_cons, List.dropWhile_append]
  split
  · next hempty =>
      rw [hc, List.isEmpty_iff.1 hempty]
      rfl
  · rw [List.reverse_append]
    rfl

theorem head?_intercalate (separator : List Char) {x : List Char} (hx : x ≠ [])
    (xs : List (List Char)) : (separator.intercalate (x :: xs)).head? = x.head? := by
  obtain ⟨c, cs, rfl⟩ := List.exists_cons_of_ne_nil hx
  cases xs with
  | nil => rw [List.intercalate_singleton]
  | cons y ys =>
      rw [List.intercalate_cons_cons]
      rfl

theorem trim_intercalate (separator : List Char) {xs : List (List Char)}
    (htrim : ∀ x ∈ xs, trim x = x) (hne : ∀ x ∈ xs, x ≠ []) :
    trim (separator.intercalate xs) = separator.intercalate xs := by
  apply trim_of_ends_not_blank
  · cases xs with
    | nil => rfl
    | cons x xs =>
        rw [head?_intercalate separator (hne x List.mem_cons_self)]
        exact head?_not_blank_of_trim (htrim x List.mem_cons_self)
  · induction xs with
    | nil => rfl
    | cons x xs ih =>
        rw [List.forall_mem_cons] at htrim hne
        cases xs with
        | nil =>
            rw [List.intercalate_singleton]
            exact getLast?_not_blank_of_trim htrim.1
        | cons y ys =>
            have hrest : separator.intercalate (y :: ys) ≠ [] := by
              obtain ⟨c, cs, hy⟩ := List.exists_cons_of_ne_nil (hne.2 y List.mem_cons_self)
              cases ys <;> simp [hy]
            rw [List.intercalate_cons_cons]
            exact getLast?_append_not_blank _ hrest (ih htrim.2 hne.2)

theorem sameLetters_cons_of_ne {c d : Char} (h : c.toLower ≠ d.toLower) (cs ds : List Char) :
    sameLetters (c :: cs) (d :: ds) = false := by
  unfold sameLetters
  rw [List.map_cons, List.map_cons, List.cons_beq_cons, beq_false_of_ne h, Bool.false_and]

theorem isBlank_of_isAlphanum {c : Char} (h : c.isAlphanum = true) : isBlank c = false := by
  have hval : c.toNat = c.val.toNat := rfl
  have hdigit : '0'.val.toNat = 48 ∧ '9'.val.toNat = 57 := ⟨rfl, rfl⟩
  have hupper : 'A'.val.toNat = 65 ∧ 'Z'.val.toNat = 90 := ⟨rfl, rfl⟩
  have hlower : 'a'.val.toNat = 97 ∧ 'z'.val.toNat = 122 := ⟨rfl, rfl⟩
  unfold Char.isAlphanum Char.isAlpha Char.isUpper Char.isLower Char.isDigit at h
  simp only [Bool.or_eq_true, Bool.and_eq_true, decide_eq_true_eq, ge_iff_le,
    UInt32.le_iff_toNat_le] at h
  unfold isBlank
  simp only [Bool.or_eq_false_iff, Bool.and_eq_false_iff, decide_eq_false_iff_not,
    beq_eq_false_iff_ne]
  omega

end RowStream.Text
