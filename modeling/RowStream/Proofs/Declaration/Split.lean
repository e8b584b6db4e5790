import RowStream.Proofs.Declaration.Token
import RowStream.Proofs.Text.Blank

/-!
# Texts cut at separators

A text is cut into pieces that can stand between separators: each of them walks from no open
parenthesis to no open parenthesis without a separator on its way, and is cut into itself alone.
Such pieces are found again when they are joined, whatever blanks are put around them.
-/

namespace RowStream

namespace Quoted

variable {quote : Char} {cs inner rest : List Char}

theorem head?_ne_of_section? (h : section? quote cs = some (inner, rest)) :
    rest.head? ≠ some quote := by
  fun_induction section? quote cs generalizing inner rest with
  | case1 => cases h
  | case2 =>
      cases h
      simp
  | case3 => cases h
  | case4 _ _ _ _ ih | case5 _ _ ih | case7 _ _ _ _ _ ih =>
      obtain ⟨⟨i, r⟩, hs, he⟩ := Option.map_eq_some_iff.1 h
      cases he
      exact ih hs
  | case6 d cs hne _ =>
      cases h
      intro heq
      exact hne (Option.some.inj heq)

theorem section?_before (hquote : quote ≠ '\\') (h : section? quote cs = some (inner, rest))
    {more : List Char} (hmore : more.head? ≠ some quote) :
    (section? quote (inner ++ quote :: more)) = some (inner, more) := by
  fun_induction section? quote cs generalizing inner rest with
  | case1 => cases h
  | case2 | case6 =>
      cases h
      exact section?_close hmore hquote
  | case3 => cases h
  | case4 c d cs hslash ih =>
      obtain ⟨⟨i, r⟩, hs, he⟩ := Option.map_eq_some_iff.1 h
      cases he
      rw [List.cons_append, List.cons_append, section?, if_pos hslash, ih hs]
      rfl
  | case5 cs _ ih =>
      obtain ⟨⟨i, r⟩, hs, he⟩ := Option.map_eq_some_iff.1 h
      cases he
      rw [List.cons_append, List.cons_append, section?_twice hquote, ih hs]
      rfl
  | case7 c d cs hslash hne ih =>
      obtain ⟨⟨i, r⟩, hs, he⟩ := Option.map_eq_some_iff.1 h
      cases he
      rw [List.cons_append, section?_cons_of_ne (by simp) hne (by simpa using hslash), ih hs]
      rfl

end Quoted

namespace Token

open Quoted

theorem isPlain_of_isBlank {c : Char} : Text.isBlank c = true → isPlain c = true :=
  isPlain_of_class (by decide)

section Walks

variable {stop : Char → Bool} {c : Char} {depth behind : Nat}

theorem exists_walk_char {ts : List Token} (h : walk stop depth (char c :: ts) = some behind) :
    ∃ next, walk stop next ts = some behind ∧ (isPlain c = true → next = depth) ∧
      ∀ us, walk stop depth (char c :: us) = walk stop next us := by
  by_cases hopen : c = '('
  · subst hopen
    rw [walk_open] at h
    exact ⟨depth + 1, h, fun hplain => absurd hplain (by decide), walk_open⟩
  by_cases hclose : c = ')'
  · subst hclose
    cases depth with
    | zero => simp [walk] at h
    | succ depth =>
        rw [walk_close] at h
        exact ⟨depth, h, fun hplain => absurd hplain (by decide), walk_close⟩
  by_cases hstop : (stop c && decide (depth = 0)) = true
  · rw [walk.eq_def] at h
    dsimp only at h
    rw [if_neg hopen, if_neg hclose, if_pos hstop] at h
    cases h
  · rw [walk_other hopen hclose hstop] at h
    exact ⟨depth, h, fun _ => rfl, walk_other hopen hclose hstop⟩

theorem walk_of_walk_plain (hc : isPlain c = true) {ts : List Token}
    (h : walk stop depth (char c :: ts) = some behind) : walk stop depth ts = some behind := by
  obtain ⟨next, hnext, hplain, -⟩ := exists_walk_char h
  rw [hplain hc] at hnext
  exact hnext

theorem exists_section?_of_walk {quote : Char} (hq : isQuote quote = true) {cs : List Char}
    (h : walk stop depth (tokens (quote :: cs)) = some behind) :
    ∃ inner rest, section? quote cs = some (inner, rest) ∧
      walk stop depth (tokens rest) = some behind := by
  rcases hs : section? quote cs with _ | ⟨inner, rest⟩
  · rw [tokens_cons_unclosed hq hs] at h
    cases h
  · rw [walk_quoted hq hs] at h
    exact ⟨inner, rest, rfl, h⟩

theorem walk_section {quote : Char} (hq : isQuote quote = true) {cs inner rest front : List Char}
    (h : section? quote cs = some (inner, rest)) (hfront : front <+: rest) :
    walk stop depth (tokens (quote :: (inner ++ quote :: front))) =
      walk stop depth (tokens front) := by
  have hclosed : front.head? ≠ some quote := by
    intro hc
    obtain ⟨more, rfl⟩ := hfront
    apply head?_ne_of_section? h
    rw [List.head?_append, hc]
    rfl
  exact walk_quoted hq (section?_before (ne_slash_of_isQuote hq) h hclosed) depth

theorem walk_of_walk_append_plain (hc : isPlain c = true) {cs : List Char}
    (h : walk stop depth (tokens (cs ++ [c])) = some behind) :
    walk stop depth (tokens cs) = some behind := by
  -- On the length of the text, as in `tokens_append`.
  induction hlength : cs.length using Nat.strongRecOn generalizing cs depth with
  | ind n ih =>
      cases cs with
      | nil =>
          rw [List.nil_append, tokens_cons_char (isQuote_of_isPlain hc)] at h
          exact walk_of_walk_plain hc h
      | cons d cs =>
          rw [List.length_cons] at hlength
          rw [List.cons_append] at h
          by_cases hq : isQuote d = true
          · obtain ⟨inner, rest, hs, hrest⟩ := exists_section?_of_walk hq h
            have hend := section?_append hs
            rcases List.eq_nil_or_concat rest with rfl | ⟨front, last, rfl⟩
            · obtain ⟨-, hlast⟩ := List.append_inj' hend rfl
              rw [← List.singleton_inj.1 hlast, isQuote_of_isPlain hc] at hq
              cases hq
            · rw [List.concat_eq_append] at hs hend hrest
              rw [← List.cons_append, ← List.append_assoc] at hend
              obtain ⟨rfl, hlast⟩ := List.append_inj' hend rfl
              rw [← List.singleton_inj.1 hlast] at hrest
              rw [walk_section hq hs (List.prefix_append front [last])]
              rw [List.length_append, List.length_cons] at hlength
              exact ih front.length (by omega) hrest rfl
          · rw [Bool.not_eq_true] at hq
            rw [tokens_cons_char hq] at h
            obtain ⟨next, hnext, -, hstep⟩ := exists_walk_char h
            rw [tokens_cons_char hq, hstep]
            exact ih cs.length (by omega) hnext rfl

theorem walk_of_walk_append_blanks {blanks : List Char} (h : ∀ c ∈ blanks, Text.isBlank c = true)
    {cs : List Char} (hwalk : walk stop depth (tokens (cs ++ blanks)) = some behind) :
    walk stop depth (tokens cs) = some behind := by
  induction blanks generalizing cs with
  | nil =>
      rw [List.append_nil] at hwalk
      exact hwalk
  | cons c blanks ih =>
      rw [List.forall_mem_cons] at h
      rw [List.append_cons] at hwalk
      exact walk_of_walk_append_plain (isPlain_of_isBlank h.1) (ih h.2 hwalk)

theorem walk_trimStart {cs : List Char} (h : walk stop depth (tokens cs) = some behind) :
    walk stop depth (tokens (Text.trimStart cs)) = some behind := by
  induction cs with
  | nil => exact h
  | cons c cs ih =>
      by_cases hc : Text.isBlank c = true
      · rw [tokens_cons_char (isQuote_of_isPlain (isPlain_of_isBlank hc))] at h
        rw [Text.trimStart_cons_of_blank hc]
        exact ih (walk_of_walk_plain (isPlain_of_isBlank hc) h)
      · rw [Text.trimStart_cons_of_not_blank (by simpa using hc)]
        exact h

theorem walk_trim {cs : List Char} (h : walk stop depth (tokens cs) = some behind) :
    walk stop depth (tokens (Text.trim cs)) = some behind := by
  have hstart := walk_trimStart h
  obtain ⟨blanks, happend, hblanks⟩ := Text.exists_trimEnd_append (Text.trimStart cs)
  rw [← happend] at hstart
  exact walk_of_walk_append_blanks hblanks hstart

theorem walk_blanks_append {blanks : List Char} (h : ∀ c ∈ blanks, Text.isBlank c = true)
    (hstop : ∀ c, Text.isBlank c = true → stop c = false) (cs : List Char) :
    walk stop depth (tokens (blanks ++ cs)) = walk stop depth (tokens cs) :=
  walk_plain_append (fun c hc => isPlain_of_isBlank (h c hc)) (fun c hc => hstop c (h c hc))
    depth cs

theorem walk_blanks {blanks : List Char} (h : ∀ c ∈ blanks, Text.isBlank c = true)
    (hstop : ∀ c, Text.isBlank c = true → stop c = false) :
    walk stop depth (tokens blanks) = some depth :=
  walk_plain (fun c hc => isPlain_of_isBlank (h c hc)) (fun c hc => hstop c (h c hc)) depth

end Walks

section Pieces

variable {separator c : Char} {depth : Nat}

/-- What a character adds to pieces: it ends the first one, or is the first of its characters. -/
theorem pieces_char_cases {ts : List Token} {ps : List (List Char)}
    (h : pieces separator depth (char c :: ts) = .ok ps) :
    (depth = 0 ∧ ∃ ps', pieces separator 0 ts = .ok ps' ∧ ps = [] :: ps') ∨
    ∃ next ps', pieces separator next ts = .ok ps' ∧ ps = extend [c] ps' ∧
      ∀ us, walk (· == separator) depth (char c :: us) = walk (· == separator) next us := by
  by_cases hopen : c = '('
  · subst hopen
    rw [pieces_open] at h
    obtain ⟨ps', hps, rfl⟩ := map_ok h
    exact .inr ⟨depth + 1, ps', hps, rfl, walk_open⟩
  by_cases hclose : c = ')'
  · subst hclose
    cases depth with
    | zero => simp [pieces] at h
    | succ depth =>
        rw [pieces_close] at h
        obtain ⟨ps', hps, rfl⟩ := map_ok h
        exact .inr ⟨depth, ps', hps, rfl, walk_close⟩
  by_cases hend : (decide (c = separator) && decide (depth = 0)) = true
  · simp only [Bool.and_eq_true, decide_eq_true_eq] at hend
    obtain ⟨rfl, rfl⟩ := hend
    rw [pieces_end hopen hclose] at h
    obtain ⟨ps', hps, rfl⟩ := map_ok h
    exact .inl ⟨rfl, ps', hps, rfl⟩
  · rw [pieces_other hopen hclose hend] at h
    obtain ⟨ps', hps, rfl⟩ := map_ok h
    exact .inr ⟨depth, ps', hps, rfl, walk_other hopen hclose (by simpa using hend)⟩

theorem exists_section?_of_pieces {quote : Char} (hq : isQuote quote = true) {cs : List Char}
    {ps : List (List Char)} (h : pieces separator depth (tokens (quote :: cs)) = .ok ps) :
    ∃ inner rest ps', section? quote cs = some (inner, rest) ∧
      pieces separator depth (tokens rest) = .ok ps' ∧
      ps = extend (quote :: inner ++ [quote]) ps' := by
  rcases hs : section? quote cs with _ | ⟨inner, rest⟩
  · rw [tokens_cons_unclosed hq hs] at h
    cases h
  · rw [tokens_cons_quote hq hs, pieces] at h
    obtain ⟨ps', hps, rfl⟩ := map_ok h
    exact ⟨inner, rest, ps', rfl, hps, rfl⟩

/-- The first piece goes on from the parentheses that are open, and closes them; every other piece
closes what it opens. -/
theorem walk_of_pieces {cs : List Char} {ps : List (List Char)}
    (h : pieces separator depth (tokens cs) = .ok ps) :
    ∃ first others, ps = first :: others ∧ first <+: cs ∧
      walk (· == separator) depth (tokens first) = some 0 ∧
      ∀ x ∈ others, walk (· == separator) 0 (tokens x) = some 0 := by
  -- On the length of the text, as in `tokens_append`.
  induction hlength : cs.length using Nat.strongRecOn generalizing cs depth ps with
  | ind n ih =>
      cases cs with
      | nil =>
          change (if depth = 0 then Except.ok [[]] else Except.error _) = _ at h
          split at h
          · next hdepth =>
              cases h
              subst hdepth
              exact ⟨[], [], rfl, List.prefix_rfl, rfl, by simp⟩
          · cases h
      | cons c cs =>
          rw [List.length_cons] at hlength
          by_cases hq : isQuote c = true
          · obtain ⟨inner, rest, ps', hs, hps, rfl⟩ := exists_section?_of_pieces hq h
            have hcs := section?_append hs
            have hrest : rest.length < n := by
              rw [hcs, List.length_append, List.length_cons] at hlength
              omega
            obtain ⟨first, others, rfl, hprefix, hfirst, hothers⟩ := ih _ hrest hps rfl
            refine ⟨c :: inner ++ [c] ++ first, others, rfl, ?_, ?_, hothers⟩
            · rw [hcs]
              simpa using hprefix
            · rw [List.append_assoc, List.singleton_append, List.cons_append,
                walk_section hq hs hprefix]
              exact hfirst
          · rw [Bool.not_eq_true] at hq
            rw [tokens_cons_char hq] at h
            rcases pieces_char_cases h with ⟨rfl, ps', hps, rfl⟩ | ⟨next, ps', hps, rfl, hstep⟩
            · obtain ⟨first, others, rfl, -, hfirst, hothers⟩ := ih cs.length (by omega) hps rfl
              refine ⟨[], first :: others, rfl, List.nil_prefix, rfl, ?_⟩
              rw [List.forall_mem_cons]
              exact ⟨hfirst, hothers⟩
            · obtain ⟨first, others, rfl, hprefix, hfirst, hothers⟩ :=
                ih cs.length (by omega) hps rfl
              refine ⟨c :: first, others, rfl, ?_, ?_, hothers⟩
              · simpa using hprefix
              · rw [tokens_cons_char hq, hstep]
                exact hfirst

/-- What a text is cut into can stand between separators. -/
theorem isPiece_of_splitTopLevel {cs : List Char} {xs : List (List Char)}
    (h : splitTopLevel separator cs = .ok xs) : ∀ x ∈ xs, IsPiece separator x := by
  obtain ⟨ps, hps, rfl⟩ := map_ok h
  obtain ⟨first, others, rfl, -, hfirst, hothers⟩ := walk_of_pieces hps
  intro x hx
  obtain ⟨hx, hne⟩ := List.mem_filter.1 hx
  obtain ⟨p, hp, rfl⟩ := List.mem_map.1 hx
  refine ⟨?_, Text.trim_trim p, by simpa using hne⟩
  rcases List.mem_cons.1 hp with rfl | hp
  · exact walk_trim hfirst
  · exact walk_trim (hothers p hp)

theorem pieces_intercalate (hsep : isPlain separator = true) {texts : List (List Char)}
    (hne : texts ≠ []) (h : ∀ x ∈ texts, walk (· == separator) 0 (tokens x) = some 0) :
    pieces separator 0 (tokens ([separator].intercalate texts)) = .ok texts := by
  induction texts with
  | nil => exact absurd rfl hne
  | cons x texts ih =>
      rw [List.forall_mem_cons] at h
      cases texts with
      | nil =>
          rw [List.intercalate_singleton]
          exact pieces_of_walk h.1
      | cons y texts =>
          rw [List.intercalate_cons_cons, List.append_assoc, List.singleton_append,
            pieces_separator hsep h.1, ih (List.cons_ne_nil _ _) h.2]
          rfl

end Pieces

/-- A text with nothing but blanks around another one. -/
def IsPadded (x text : List Char) : Prop :=
  ∃ before after, text = before ++ x ++ after ∧ (∀ c ∈ before, Text.isBlank c = true) ∧
    ∀ c ∈ after, Text.isBlank c = true

section Padded

variable {separator : Char} {x text : List Char}

theorem IsPadded.trim (h : IsPadded x text) : Text.trim text = Text.trim x := by
  obtain ⟨before, after, rfl, hbefore, hafter⟩ := h
  rw [Text.trim_append_blanks _ hafter, Text.trim_blanks_append hbefore]

theorem IsPadded.walk {stop : Char → Bool} (h : IsPadded x text)
    (hstop : ∀ c, Text.isBlank c = true → stop c = false)
    (hx : Token.walk stop 0 (tokens x) = some 0) : Token.walk stop 0 (tokens text) = some 0 := by
  obtain ⟨before, after, rfl, hbefore, hafter⟩ := h
  have hquote : ∀ c, after.head? = some c → isQuote c = false := fun c hc =>
    isQuote_of_isPlain (isPlain_of_isBlank (hafter c (List.mem_of_head? hc)))
  rw [List.append_assoc, walk_blanks_append hbefore hstop, walk_append_text hx hquote]
  exact walk_blanks hafter hstop

variable {xs texts : List (List Char)}

theorem beq_separator (hblank : Text.isBlank separator = false) (c : Char)
    (hc : Text.isBlank c = true) : (c == separator) = false := by
  rw [beq_eq_false_iff_ne]
  rintro rfl
  rw [hc] at hblank
  cases hblank

theorem map_trim_padded (h : List.Forall₂ IsPadded xs texts)
    (hxs : ∀ x ∈ xs, IsPiece separator x) : texts.map Text.trim = xs := by
  induction h with
  | nil => rfl
  | cons hpadded _ ih =>
      rw [List.forall_mem_cons] at hxs
      rw [List.map_cons, hpadded.trim, hxs.1.trimmed, ih hxs.2]

theorem walk_padded (hblank : Text.isBlank separator = false)
    (h : List.Forall₂ IsPadded xs texts) (hxs : ∀ x ∈ xs, IsPiece separator x) :
    ∀ text ∈ texts, Token.walk (· == separator) 0 (tokens text) = some 0 := by
  induction h with
  | nil => simp
  | cons hpadded _ ih =>
      rw [List.forall_mem_cons] at hxs ⊢
      exact ⟨hpadded.walk (beq_separator hblank) hxs.1.walks, ih hxs.2⟩

theorem splitTopLevel_padded (hsep : isPlain separator = true)
    (hblank : Text.isBlank separator = false) (h : List.Forall₂ IsPadded xs texts)
    (hxs : ∀ x ∈ xs, IsPiece separator x) :
    splitTopLevel separator ([separator].intercalate texts) = .ok xs := by
  cases texts with
  | nil =>
      cases h
      rfl
  | cons text texts =>
      have hpieces := pieces_intercalate hsep (List.cons_ne_nil text texts)
        (walk_padded hblank h hxs)
      unfold splitTopLevel
      rw [hpieces]
      change Except.ok (((text :: texts).map Text.trim).filter fun piece => !piece.isEmpty) = _
      rw [map_trim_padded h hxs, List.filter_eq_self.2]
      intro x hx
      simpa using (hxs x hx).nonempty

theorem splitTopLevel_blanks (hblank : Text.isBlank separator = false) {blanks : List Char}
    (h : ∀ c ∈ blanks, Text.isBlank c = true) : splitTopLevel separator blanks = .ok [] := by
  have hwalk : Token.walk (· == separator) 0 (tokens blanks) = some 0 :=
    walk_blanks h (beq_separator hblank)
  have htrim : Text.trim blanks = [] := by
    rw [← List.nil_append blanks, Text.trim_append_blanks [] h]
    rfl
  unfold splitTopLevel
  rw [pieces_of_walk hwalk]
  change Except.ok ([Text.trim blanks].filter fun piece => !piece.isEmpty) = _
  rw [htrim]
  rfl

end Padded

/-- Pieces that are joined by a separator, with any blanks around each, are what the text is cut
into, and blanks alone are cut into none. Whatever a text is cut into, each piece is trimmed, not
empty and cut into itself alone. -/
theorem splitTopLevel_joined (separator : Char) :
    (isPlain separator = true → Text.isBlank separator = false →
      (∀ xs texts : List (List Char), (∀ x ∈ xs, IsPiece separator x) →
        List.Forall₂ IsPadded xs texts →
        splitTopLevel separator ([separator].intercalate texts) = .ok xs) ∧
      ∀ blanks : List Char, (∀ c ∈ blanks, Text.isBlank c = true) →
        splitTopLevel separator blanks = .ok []) ∧
    ∀ (cs : List Char) (xs : List (List Char)), splitTopLevel separator cs = .ok xs →
      ∀ x ∈ xs, Text.trim x = x ∧ x ≠ [] ∧ splitTopLevel separator x = .ok [x] := by
  refine ⟨fun hsep hblank => ⟨fun xs texts hxs hpadded => ?_, fun blanks hblanks => ?_⟩,
    fun cs xs h x hx => ?_⟩
  · exact splitTopLevel_padded hsep hblank hpadded hxs
  · exact splitTopLevel_blanks hblank hblanks
  · have hpiece := isPiece_of_splitTopLevel h x hx
    exact ⟨hpiece.trimmed, hpiece.nonempty, splitTopLevel_piece hpiece⟩

theorem splitTopLevel_joined_options :
    splitTopLevel ',' "'a,(' = 1 ,\t`b``,` (c, d)".toList =
        .ok ["'a,(' = 1".toList, "`b``,` (c, d)".toList] ∧
      splitTopLevel ',' "`b``,` (c, d)".toList = .ok ["`b``,` (c, d)".toList] := by
  obtain ⟨hjoined, hcut⟩ := splitTopLevel_joined ','
  have hfound := (hjoined (by decide) (by decide)).1
    ["'a,(' = 1".toList, "`b``,` (c, d)".toList]
    ["'a,(' = 1 ".toList, "\t`b``,` (c, d)".toList]
    (by
      rw [List.forall_mem_cons, List.forall_mem_singleton]
      exact ⟨⟨by decide, by decide, by decide⟩, ⟨by decide, by decide, by decide⟩⟩)
    (.cons ⟨[], [' '], rfl, List.forall_mem_nil _, List.forall_mem_singleton.2 rfl⟩
      (.cons ⟨['\t'], [], rfl, List.forall_mem_singleton.2 rfl, List.forall_mem_nil _⟩ .nil))
  exact ⟨hfound, (hcut _ _ hfound _ (by simp)).2.2⟩

end Token

end RowStream
