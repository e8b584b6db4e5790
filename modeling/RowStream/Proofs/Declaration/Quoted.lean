import RowStream.Declaration.Quoted
import RowStream.Proofs.Text.Blank

/-!
# Quoted text there and back

The section of a literal or an identifier ends at its own closing quote, whatever follows but the
same quote again, and its inner text is read back as the text that was written.
-/

namespace RowStream

namespace Quoted

section Sections

variable {quote c d : Char} {rest : List Char}

theorem section?_close (h : rest.head? ≠ some quote) (hq : quote ≠ '\\') :
    (section? quote (quote :: rest)) = some ([], rest) := by
  cases rest with
  | nil =>
      unfold section?
      rw [if_pos rfl]
  | cons d rest =>
      have hd : d ≠ quote := by
        intro heq
        exact h (congrArg some heq)
      unfold section?
      rw [if_neg (by simp [hq]), if_pos rfl, if_neg hd]

theorem section?_cons_of_ne {cs : List Char} (hcs : cs ≠ []) (hquote : c ≠ quote)
    (hslash : c = '\\' → quote = '`') :
    (section? quote (c :: cs)) =
      (section? quote cs).map fun (inner, rest) => (c :: inner, rest) := by
  cases cs with
  | nil => exact absurd rfl hcs
  | cons d cs =>
      have hpair : (decide (c = '\\') && quote != '`') = false := by
        by_cases hc : c = '\\'
        · rw [hslash hc]
          simp
        · simp [hc]
      rw [section?, if_neg (by simp [hpair]), if_neg hquote]

theorem section?_slash (hquote : quote ≠ '`') (d : Char) (cs : List Char) :
    (section? quote ('\\' :: d :: cs)) =
      (section? quote cs).map fun (inner, rest) => ('\\' :: d :: inner, rest) := by
  rw [section?, if_pos (by simp [hquote])]

theorem section?_twice (hquote : quote ≠ '\\') (cs : List Char) :
    (section? quote (quote :: quote :: cs)) =
      (section? quote cs).map fun (inner, rest) => (quote :: quote :: inner, rest) := by
  rw [section?, if_neg (by simp [hquote]), if_pos rfl, if_pos rfl]

end Sections

theorem escape_cases (c : Char) :
    (escape c = [c] ∧ c ≠ '\\' ∧ c ≠ '\'') ∨ ∃ d, escape c = ['\\', d] ∧ escaped d = c := by
  by_cases hslash : c = '\\'
  · exact .inr ⟨'\\', by subst hslash; decide, by subst hslash; decide⟩
  by_cases hquote : c = '\''
  · exact .inr ⟨'\'', by subst hquote; decide, by subst hquote; decide⟩
  by_cases hn : c = '\n'
  · exact .inr ⟨'n', by subst hn; decide, by subst hn; decide⟩
  by_cases hr : c = '\r'
  · exact .inr ⟨'r', by subst hr; decide, by subst hr; decide⟩
  by_cases ht : c = '\t'
  · exact .inr ⟨'t', by subst ht; decide, by subst ht; decide⟩
  by_cases hzero : c = '\x00'
  · exact .inr ⟨'0', by subst hzero; decide, by subst hzero; decide⟩
  · refine .inl ⟨?_, hslash, hquote⟩
    unfold escape
    rw [if_neg hslash, if_neg hquote, if_neg hn, if_neg hr, if_neg ht, if_neg hzero]

theorem section?_escape (cs : List Char) {rest : List Char} (h : rest.head? ≠ some '\'') :
    (section? '\'' (cs.flatMap escape ++ '\'' :: rest)) = some (cs.flatMap escape, rest) := by
  induction cs with
  | nil => exact section?_close h (by decide)
  | cons c cs ih =>
      rw [List.flatMap_cons, List.append_assoc]
      rcases escape_cases c with ⟨hc, hslash, hquote⟩ | ⟨d, hc, -⟩
      · rw [hc, List.singleton_append, section?_cons_of_ne (by simp) hquote
          (fun h => absurd h hslash), ih]
        rfl
      · rw [hc]
        change section? '\'' ('\\' :: d :: (cs.flatMap escape ++ '\'' :: rest)) = _
        rw [section?_slash (by decide), ih]
        rfl

theorem unescape_cons_of_ne {c : Char} (hslash : c ≠ '\\') (hquote : c ≠ '\'') (cs : List Char) :
    unescape (c :: cs) = c :: unescape cs := by
  cases cs with
  | nil => rfl
  | cons d cs => rw [unescape, if_neg hslash, if_neg (by simp [hquote])]

theorem unescape_escape (cs : List Char) : unescape (cs.flatMap escape) = cs := by
  induction cs with
  | nil => rfl
  | cons c cs ih =>
      rw [List.flatMap_cons]
      rcases escape_cases c with ⟨hc, hslash, hquote⟩ | ⟨d, hc, hd⟩
      · rw [hc, List.singleton_append, unescape_cons_of_ne hslash hquote, ih]
      · rw [hc]
        change unescape ('\\' :: d :: cs.flatMap escape) = _
        rw [unescape, if_pos rfl, ih, hd]

theorem section?_double (cs : List Char) {rest : List Char} (h : rest.head? ≠ some '`') :
    (section? '`' (double cs ++ '`' :: rest)) = some (double cs, rest) := by
  induction cs with
  | nil => exact section?_close h (by decide)
  | cons c cs ih =>
      by_cases hc : c = '`'
      · rw [double, if_pos hc]
        change section? '`' ('`' :: '`' :: (double cs ++ '`' :: rest)) = _
        rw [section?_twice (by decide), ih]
        rfl
      · rw [double, if_neg hc, List.cons_append, section?_cons_of_ne (by simp) hc (fun _ => rfl), ih]
        rfl

theorem section?_double_open (cs : List Char) : section? '`' (double cs) = none := by
  induction cs with
  | nil => rfl
  | cons c cs ih =>
      by_cases hc : c = '`'
      · rw [double, if_pos hc, section?_twice (by decide), ih]
        rfl
      · rw [double, if_neg hc]
        by_cases hcs : double cs = []
        · rw [hcs, section?, if_neg hc]
        · rw [section?_cons_of_ne hcs hc (fun _ => rfl), ih]
          rfl

theorem double_append (cs ds : List Char) : double (cs ++ ds) = double cs ++ double ds := by
  induction cs with
  | nil => rfl
  | cons c cs ih =>
      by_cases hc : c = '`'
      · rw [List.cons_append, double, if_pos hc, ih, double, if_pos hc]
        rfl
      · rw [List.cons_append, double, if_neg hc, ih, double, if_neg hc]
        rfl

theorem mem_double {c : Char} {cs : List Char} : c ∈ double cs ↔ c ∈ cs := by
  induction cs with
  | nil => rfl
  | cons d cs ih =>
      by_cases hd : d = '`'
      · rw [double, if_pos hd, List.mem_cons, List.mem_cons, List.mem_cons, ih, hd, ← or_assoc,
          or_self]
      · rw [double, if_neg hd, List.mem_cons, List.mem_cons, ih]

theorem not_mem_literal (cs : List Char) : '\n' ∉ literal cs := by
  have hescape : ∀ c, '\n' ∉ escape c := by
    intro c h
    by_cases hn : c = '\n'
    · subst hn
      exact absurd h (by decide)
    rcases escape_cases c with ⟨hc, -, -⟩ | ⟨d, hc, hd⟩
    · rw [hc] at h
      exact hn (List.mem_singleton.1 h).symm
    · rw [hc] at h
      rcases List.mem_cons.1 h with h | h
      · cases h
      · rw [← List.mem_singleton.1 h] at hd
        exact hn hd.symm
  unfold literal
  intro h
  rcases List.mem_append.1 h with h | h
  · rcases List.mem_cons.1 h with h | h
    · cases h
    · obtain ⟨c, -, hc⟩ := List.mem_flatMap.1 h
      exact hescape c hc
  · cases List.mem_singleton.1 h

theorem undouble_cons_of_ne {c : Char} (h : c ≠ '`') (cs : List Char) :
    undouble (c :: cs) = c :: undouble cs := by
  cases cs with
  | nil => rfl
  | cons d cs => rw [undouble, if_neg (by simp [h])]

theorem undouble_double (cs : List Char) : undouble (double cs) = cs := by
  induction cs with
  | nil => rfl
  | cons c cs ih =>
      by_cases hc : c = '`'
      · rw [double, if_pos hc, undouble, if_pos (by decide), ih, hc]
      · rw [double, if_neg hc, undouble_cons_of_ne hc, ih]

theorem getLast?_literal (cs : List Char) : (literal cs).getLast? = some '\'' := by
  unfold literal
  rw [List.getLast?_append]
  rfl

theorem unquote_literal (cs : List Char) : unquote (literal cs) = cs := by
  have htrim : Text.trim (literal cs) = literal cs := by
    apply Text.trim_of_ends_not_blank
    · rfl
    · rw [getLast?_literal]
      rfl
  have hlast : (cs.flatMap escape ++ ['\'']).getLast? = some '\'' := by
    rw [List.getLast?_append]
    rfl
  unfold unquote
  dsimp only
  rw [htrim]
  change (if (cs.flatMap escape ++ ['\'']).getLast? = some '\'' then _ else _) = cs
  rw [if_pos hlast]
  change unescape (cs.flatMap escape ++ ['\'']).dropLast = cs
  rw [List.dropLast_concat, unescape_escape]

end Quoted

end RowStream
