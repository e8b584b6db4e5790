import RowStream.Declaration.Token
import RowStream.Proofs.Declaration.Quoted
import RowStream.Proofs.Result

/-!
# Tokens of joined texts

Text whose quotes are closed keeps its tokens when more text follows, unless that begins with a
quote. `walk` follows the parentheses of such tokens; a group ends at the parenthesis that closes
it, and a text is cut at the separators between pieces and nowhere else.
-/

namespace RowStream.Token

open Quoted

def isClosed : Token → Bool
  | unclosed .. => false
  | _ => true

theorem section?_append_of_some {quote : Char} {cs inner rest more : List Char}
    (hquote : quote ≠ '\\') (h : section? quote cs = some (inner, rest))
    (hmore : more.head? ≠ some quote) :
    (section? quote (cs ++ more)) = some (inner, rest ++ more) := by
  fun_induction section? quote cs generalizing inner rest with
  | case1 => cases h
  | case2 =>
      cases h
      exact section?_close hmore hquote
  | case3 => cases h
  | case4 c d cs hslash ih =>
      obtain ⟨⟨i, r⟩, hs, he⟩ := Option.map_eq_some_iff.1 h
      cases he
      rw [List.cons_append, List.cons_append, section?, if_pos hslash, ih hs]
      rfl
  | case5 cs hslash ih =>
      obtain ⟨⟨i, r⟩, hs, he⟩ := Option.map_eq_some_iff.1 h
      cases he
      rw [List.cons_append, List.cons_append, section?_twice hquote, ih hs]
      rfl
  | case6 d cs hne hslash =>
      cases h
      apply section?_close _ hquote
      intro heq
      exact hne (Option.some.inj heq)
  | case7 c d cs hslash hne ih =>
      obtain ⟨⟨i, r⟩, hs, he⟩ := Option.map_eq_some_iff.1 h
      cases he
      rw [List.cons_append, List.cons_append, section?, if_neg hslash, if_neg hne]
      rw [← List.cons_append, ih hs]
      rfl

theorem tokens_cons_char {c : Char} (h : isQuote c = false) (cs : List Char) :
    tokens (c :: cs) = char c :: tokens cs := by
  unfold tokens
  rw [tokensFrom, if_neg (by simp [h])]

theorem tokens_cons_quote {quote : Char} {cs inner rest : List Char} (hq : isQuote quote = true)
    (h : section? quote cs = some (inner, rest)) :
    tokens (quote :: cs) = quoted quote inner :: tokens rest := by
  have hcs := section?_append h
  unfold tokens
  rw [tokensFrom, if_pos hq, h]
  dsimp only
  rw [tokensFrom_eq, hcs]
  simp

theorem tokens_cons_unclosed {quote : Char} {cs : List Char} (hq : isQuote quote = true)
    (h : section? quote cs = none) : tokens (quote :: cs) = [unclosed quote cs] := by
  unfold tokens
  rw [tokensFrom, if_pos hq, h]

theorem ne_slash_of_isQuote {quote : Char} (hq : isQuote quote = true) : quote ≠ '\\' := by
  rintro rfl
  exact absurd hq (by decide)

theorem tokens_append {cs more : List Char} (hclosed : ∀ t ∈ tokens cs, t.isClosed = true)
    (hmore : ∀ c, more.head? = some c → isQuote c = false) :
    tokens (cs ++ more) = tokens cs ++ tokens more := by
  -- Not by induction on the text: what is left behind a section is shorter, but no tail of it.
  induction hlength : cs.length using Nat.strongRecOn generalizing cs with
  | ind n ih =>
      cases cs with
      | nil => rfl
      | cons c cs =>
          by_cases hq : isQuote c = true
          · rcases hs : section? c cs with _ | ⟨inner, rest⟩
            · rw [tokens_cons_unclosed hq hs] at hclosed
              cases hclosed _ List.mem_cons_self
            · have hne : more.head? ≠ some c := by
                intro heq
                rw [hmore c heq] at hq
                cases hq
              have hshort : rest.length < n := by
                have hcs := congrArg List.length (section?_append hs)
                rw [List.length_append, List.length_cons] at hcs
                rw [List.length_cons] at hlength
                omega
              rw [tokens_cons_quote hq hs] at hclosed ⊢
              rw [List.cons_append,
                tokens_cons_quote hq (section?_append_of_some (ne_slash_of_isQuote hq) hs hne),
                ih rest.length hshort (fun t ht => hclosed t (List.mem_cons_of_mem _ ht)) rfl]
              rfl
          · rw [Bool.not_eq_true] at hq
            rw [tokens_cons_char hq] at hclosed ⊢
            rw [List.length_cons] at hlength
            rw [List.cons_append, tokens_cons_char hq,
              ih cs.length (by omega) (fun t ht => hclosed t (List.mem_cons_of_mem _ ht)) rfl]
            rfl

/-- The parentheses that are open behind tokens. There is no such number when a quote is open, a
parenthesis is closed too many, or `stop` holds of a character outside of parentheses. -/
def walk (stop : Char → Bool) (depth : Nat) : List Token → Option Nat
  | [] => some depth
  | unclosed .. :: _ => none
  | quoted .. :: rest => walk stop depth rest
  | char c :: rest =>
    if c = '(' then walk stop (depth + 1) rest
    else if c = ')' then
      match depth with
      | 0 => none
      | depth + 1 => walk stop depth rest
    else if stop c && depth = 0 then none
    else walk stop depth rest

section Steps

variable {stop : Char → Bool} {separator c : Char} {depth : Nat}

theorem walk_open (ts : List Token) :
    walk stop depth (char '(' :: ts) = walk stop (depth + 1) ts := by
  rw [walk.eq_def]
  dsimp only
  rw [if_pos rfl]

theorem walk_close (ts : List Token) :
    walk stop (depth + 1) (char ')' :: ts) = walk stop depth ts := by
  rw [walk.eq_def]
  dsimp only
  rw [if_neg (by decide), if_pos rfl]

theorem walk_other (hopen : c ≠ '(') (hclose : c ≠ ')')
    (hstop : ¬(stop c && decide (depth = 0)) = true) (ts : List Token) :
    walk stop depth (char c :: ts) = walk stop depth ts := by
  rw [walk.eq_def]
  dsimp only
  rw [if_neg hopen, if_neg hclose, if_neg hstop]

theorem group_open (ts : List Token) : group depth (char '(' :: ts) =
    (group (depth + 1) ts).map fun (text, after) => ('(' :: text, after) := by
  rw [group.eq_def]
  dsimp only
  rw [if_pos rfl]

theorem group_close (ts : List Token) : group (depth + 1) (char ')' :: ts) =
    (group depth ts).map fun (text, after) => (')' :: text, after) := by
  rw [group.eq_def]
  dsimp only
  rw [if_neg (by decide), if_pos rfl]

theorem group_end (ts : List Token) : group 0 (char ')' :: ts) = .ok ([], textOf ts) := by
  rw [group.eq_def]
  dsimp only
  rw [if_neg (by decide), if_pos rfl]

theorem group_other (hopen : c ≠ '(') (hclose : c ≠ ')') (ts : List Token) :
    group depth (char c :: ts) =
      (group depth ts).map fun (text, after) => (c :: text, after) := by
  rw [group.eq_def]
  dsimp only
  rw [if_neg hopen, if_neg hclose]

theorem pieces_open (ts : List Token) : pieces separator depth (char '(' :: ts) =
    (pieces separator (depth + 1) ts).map (extend ['(']) := by
  rw [pieces.eq_def]
  dsimp only
  rw [if_pos rfl]

theorem pieces_close (ts : List Token) : pieces separator (depth + 1) (char ')' :: ts) =
    (pieces separator depth ts).map (extend [')']) := by
  rw [pieces.eq_def]
  dsimp only
  rw [if_neg (by decide), if_pos rfl]

theorem pieces_end (hopen : separator ≠ '(') (hclose : separator ≠ ')') (ts : List Token) :
    pieces separator 0 (char separator :: ts) = (pieces separator 0 ts).map ([] :: ·) := by
  rw [pieces.eq_def]
  dsimp only
  rw [if_neg hopen, if_neg hclose, if_pos (by simp)]

theorem pieces_other (hopen : c ≠ '(') (hclose : c ≠ ')')
    (hend : ¬(decide (c = separator) && decide (depth = 0)) = true) (ts : List Token) :
    pieces separator depth (char c :: ts) = (pieces separator depth ts).map (extend [c]) := by
  rw [pieces.eq_def]
  dsimp only
  rw [if_neg hopen, if_neg hclose, if_neg hend]

end Steps

theorem isClosed_of_walk {stop : Char → Bool} {depth behind : Nat} {ts : List Token}
    (h : walk stop depth ts = some behind) : ∀ t ∈ ts, t.isClosed = true := by
  fun_induction walk stop depth ts with
  | case1 => simp
  | case2 => cases h
  | case3 _ _ _ _ ih => simpa [isClosed] using ih h
  | case4 _ _ ih => simpa [isClosed] using ih h
  | case5 => cases h
  | case6 _ _ _ ih => simpa [isClosed] using ih h
  | case7 => cases h
  | case8 _ _ _ _ _ _ ih => simpa [isClosed] using ih h

theorem textOf_cons (t : Token) (ts : List Token) : textOf (t :: ts) = t.text ++ textOf ts := rfl

theorem group_append_of_walk {stop : Char → Bool} {depth behind : Nat} {ts : List Token}
    (us : List Token) (h : walk stop depth ts = some behind) :
    group depth (ts ++ us) =
      (group behind us).map fun (text, after) => (textOf ts ++ text, after) := by
  -- Along the walk, which fails wherever the group would end or be refused before its last token.
  have hmap : ∀ {x : Except SchemaFault (List Char × List Char)} {front front' : List Char},
      (x.map fun (text, after) => (front' ++ text, after)).map
        (fun (text, after) => (front ++ text, after)) =
      x.map fun (text, after) => (front ++ front' ++ text, after) := by
    intro x front front'
    cases x with
    | error e => rfl
    | ok p => exact congrArg (fun text => Except.ok (text, p.2)) (List.append_assoc ..).symm
  fun_induction walk stop depth ts with
  | case1 =>
      cases h
      rw [List.nil_append]
      cases group behind us <;> rfl
  | case2 => cases h
  | case3 depth quote inner rest ih =>
      have htext : (quoted quote inner).text = quote :: inner ++ [quote] := rfl
      rw [textOf_cons, ← hmap, ← ih h, htext, List.cons_append, group]
      simp
  | case4 depth rest ih =>
      rw [textOf_cons, ← hmap, ← ih h, List.cons_append, group_open]
      rfl
  | case5 => cases h
  | case6 rest depth hopen ih =>
      rw [textOf_cons, ← hmap, ← ih h, List.cons_append, group_close]
      rfl
  | case7 => cases h
  | case8 depth c rest hopen hclose _ ih =>
      rw [textOf_cons, ← hmap, ← ih h, List.cons_append, group_other hopen hclose]
      rfl

theorem extend_ne_nil (front : List Char) (ps : List (List Char)) : extend front ps ≠ [] := by
  cases ps <;> exact List.cons_ne_nil _ _

theorem pieces_ne_nil {separator : Char} {depth : Nat} {ts : List Token} {ps : List (List Char)}
    (h : pieces separator depth ts = .ok ps) : ps ≠ [] := by
  fun_induction pieces separator depth ts generalizing ps with
  | case1 =>
      cases h
      exact List.cons_ne_nil _ _
  | case2 => cases h
  | case3 => cases h
  | case4 | case5 | case7 | case9 =>
      obtain ⟨ps', -, rfl⟩ := map_ok h
      exact extend_ne_nil _ _
  | case6 => cases h
  | case8 =>
      obtain ⟨ps', -, rfl⟩ := map_ok h
      exact List.cons_ne_nil _ _

theorem extend_extend {ps : List (List Char)} (hps : ps ≠ []) (front front' : List Char) :
    extend front (extend front' ps) = extend (front ++ front') ps := by
  cases ps with
  | nil => exact absurd rfl hps
  | cons p ps =>
      change (front ++ (front' ++ p)) :: ps = (front ++ front' ++ p) :: ps
      rw [List.append_assoc]

theorem map_extend_extend {x : Except SchemaFault (List (List Char))}
    (hx : ∀ ps, x = .ok ps → ps ≠ []) (front front' : List Char) :
    (x.map (extend front')).map (extend front) = x.map (extend (front ++ front')) := by
  cases x with
  | error e => rfl
  | ok ps => exact congrArg Except.ok (extend_extend (hx ps rfl) front front')

theorem pieces_append_of_walk {separator : Char} {depth behind : Nat} {ts : List Token}
    (us : List Token) (h : walk (· == separator) depth ts = some behind) :
    pieces separator depth (ts ++ us) = (pieces separator behind us).map (extend (textOf ts)) := by
  have hne : ∀ ps, pieces separator behind us = .ok ps → ps ≠ [] := fun ps => pieces_ne_nil
  fun_induction walk (· == separator) depth ts with
  | case1 =>
      cases h
      rw [List.nil_append]
      rcases hp : pieces separator behind us with e | ps
      · rfl
      · cases ps with
        | nil => exact absurd rfl (hne [] hp)
        | cons p ps => rfl
  | case2 => cases h
  | case3 depth quote inner rest ih =>
      rw [textOf_cons, ← map_extend_extend hne, ← ih h, List.cons_append, pieces]
      rfl
  | case4 depth rest ih =>
      rw [textOf_cons, ← map_extend_extend hne, ← ih h, List.cons_append, pieces_open]
      rfl
  | case5 => cases h
  | case6 rest depth hopen ih =>
      rw [textOf_cons, ← map_extend_extend hne, ← ih h, List.cons_append, pieces_close]
      rfl
  | case7 => cases h
  | case8 depth c rest hopen hclose hstop ih =>
      rw [textOf_cons, ← map_extend_extend hne, ← ih h, List.cons_append,
        pieces_other hopen hclose (by simpa using hstop)]
      rfl

theorem walk_append {stop : Char → Bool} {depth behind : Nat} {ts : List Token} (us : List Token)
    (h : walk stop depth ts = some behind) : walk stop depth (ts ++ us) = walk stop behind us := by
  fun_induction walk stop depth ts with
  | case1 =>
      cases h
      rfl
  | case2 => cases h
  | case3 _ _ _ _ ih =>
      rw [List.cons_append, walk]
      exact ih h
  | case4 depth rest ih =>
      rw [List.cons_append, walk_open]
      exact ih h
  | case5 => cases h
  | case6 rest depth hopen ih =>
      rw [List.cons_append, walk_close]
      exact ih h
  | case7 => cases h
  | case8 depth c rest hopen hclose hstop ih =>
      rw [List.cons_append, walk_other hopen hclose hstop]
      exact ih h

/-- Tokens are walked alike when more parentheses are open around them. What stops between those
does not matter inside. -/
theorem walk_around {stop stop' : Char → Bool} {depth behind : Nat} {ts : List Token} {around : Nat}
    (hstop' : ∀ c, stop' c = true → 0 < around) (h : walk stop depth ts = some behind) :
    walk stop' (depth + around) ts = some (behind + around) := by
  fun_induction walk stop depth ts with
  | case1 =>
      cases h
      rfl
  | case2 => cases h
  | case3 _ _ _ _ ih =>
      rw [walk]
      exact ih h
  | case4 depth rest ih =>
      rw [walk_open, Nat.add_right_comm]
      exact ih h
  | case5 => cases h
  | case6 rest depth hopen ih =>
      rw [Nat.succ_add, walk_close]
      exact ih h
  | case7 => cases h
  | case8 depth c rest hopen hclose hstop ih =>
      have hinside : ¬(stop' c && decide (depth + around = 0)) = true := by
        rw [Bool.and_eq_true, decide_eq_true_eq]
        rintro ⟨hc, hzero⟩
        have hpos := hstop' c hc
        omega
      rw [walk_other hopen hclose hinside]
      exact ih h

/-- Tokens are walked alike when nothing stops and more parentheses are open around them. -/
theorem walk_inside {stop : Char → Bool} {depth behind : Nat} {ts : List Token} (around : Nat)
    (h : walk stop depth ts = some behind) :
    walk (fun _ => false) (depth + around) ts = some (behind + around) :=
  walk_around (fun _ hc => by cases hc) h

/-- A character that is neither a quote nor a parenthesis. -/
def isPlain (c : Char) : Bool := !isQuote c && c != '(' && c != ')'

theorem isQuote_of_isPlain {c : Char} (h : isPlain c = true) : isQuote c = false := by
  unfold isPlain at h
  simp only [Bool.and_eq_true, Bool.not_eq_true'] at h
  exact h.1.1

theorem isPlain_of_class {p : Char → Bool}
    (hp : (['\'', '`', '"', '(', ')'].all fun d => !p d) = true) {c : Char} (h : p c = true) :
    isPlain c = true := by
  have hne : ∀ d ∈ ['\'', '`', '"', '(', ')'], c ≠ d := by
    rintro d hd rfl
    have hclass := List.all_eq_true.1 hp c hd
    rw [h] at hclass
    cases hclass
  simp [isPlain, isQuote, hne '\'' (by decide), hne '`' (by decide), hne '"' (by decide),
    hne '(' (by decide), hne ')' (by decide)]

theorem walk_char {stop : Char → Bool} {c : Char} (h : isPlain c = true) (hstop : stop c = false)
    (depth : Nat) (ts : List Token) : walk stop depth (char c :: ts) = walk stop depth ts := by
  unfold isPlain at h
  simp only [Bool.and_eq_true, bne_iff_ne, ne_eq] at h
  exact walk_other h.1.2 h.2 (by simp [hstop]) ts

theorem tokens_append_of_walk {stop : Char → Bool} {behind : Nat} {cs more : List Char}
    (h : walk stop 0 (tokens cs) = some behind)
    (hmore : ∀ c, more.head? = some c → isQuote c = false) :
    tokens (cs ++ more) = tokens cs ++ tokens more :=
  tokens_append (isClosed_of_walk h) hmore

theorem walk_append_text {stop : Char → Bool} {behind : Nat} {cs more : List Char}
    (h : walk stop 0 (tokens cs) = some behind)
    (hmore : ∀ c, more.head? = some c → isQuote c = false) :
    walk stop 0 (tokens (cs ++ more)) = walk stop behind (tokens more) := by
  rw [tokens_append_of_walk h hmore, walk_append _ h]

theorem walk_plain_append {stop : Char → Bool} {cs : List Char}
    (h : ∀ c ∈ cs, isPlain c = true) (hstop : ∀ c ∈ cs, stop c = false) (depth : Nat)
    (more : List Char) : walk stop depth (tokens (cs ++ more)) = walk stop depth (tokens more) := by
  induction cs with
  | nil => rfl
  | cons c cs ih =>
      have hc := h c List.mem_cons_self
      rw [List.cons_append, tokens_cons_char (isQuote_of_isPlain hc),
        walk_char hc (hstop c List.mem_cons_self)]
      exact ih (fun d hd => h d (List.mem_cons_of_mem _ hd))
        (fun d hd => hstop d (List.mem_cons_of_mem _ hd))

theorem walk_plain {stop : Char → Bool} {cs : List Char} (h : ∀ c ∈ cs, isPlain c = true)
    (hstop : ∀ c ∈ cs, stop c = false) (depth : Nat) : walk stop depth (tokens cs) = some depth := by
  have happend := walk_plain_append h hstop depth []
  rw [List.append_nil] at happend
  rw [happend]
  rfl

theorem walk_quoted {stop : Char → Bool} {quote : Char} {cs inner rest : List Char}
    (hq : isQuote quote = true) (h : section? quote cs = some (inner, rest)) (depth : Nat) :
    walk stop depth (tokens (quote :: cs)) = walk stop depth (tokens rest) := by
  rw [tokens_cons_quote hq h, walk]

/-- The parenthesis behind a text that leaves none open closes the group that the text is in. -/
theorem group_of_walk {inner : List Char} (h : walk (fun _ => false) 0 (tokens inner) = some 0)
    (after : List Char) : group 0 (tokens (inner ++ ')' :: after)) = .ok (inner, after) := by
  have hquote : ∀ c, (')' :: after).head? = some c → isQuote c = false := by
    rintro c ⟨⟩
    decide
  rw [tokens_append_of_walk h hquote, group_append_of_walk _ h, text_tokens,
    tokens_cons_char (by decide), group_end, text_tokens]
  change Except.ok (inner ++ [], after) = Except.ok (inner, after)
  rw [List.append_nil]

theorem walk_parentheses {stop : Char → Bool} {inner : List Char}
    (h : walk (fun _ => false) 0 (tokens inner) = some 0) :
    walk stop 0 (tokens ('(' :: inner ++ [')'])) = some 0 := by
  have hquote : ∀ c, [')'].head? = some c → isQuote c = false := by
    rintro c ⟨⟩
    decide
  have hinside : walk stop (0 + 1) (tokens inner) = some (0 + 1) :=
    walk_around (fun _ _ => Nat.one_pos) h
  rw [List.cons_append, tokens_cons_char (by decide), walk_open, tokens_append_of_walk h hquote,
    walk_append _ hinside, tokens_cons_char (by decide), walk_close]
  rfl

section Splitting

variable {separator : Char}

theorem pieces_of_walk {x : List Char} (h : walk (· == separator) 0 (tokens x) = some 0) :
    pieces separator 0 (tokens x) = .ok [x] := by
  have hp := pieces_append_of_walk [] h
  rw [List.append_nil, text_tokens] at hp
  rw [hp]
  change Except.ok [x ++ []] = Except.ok [x]
  rw [List.append_nil]

theorem pieces_separator (hsep : isPlain separator = true) {x : List Char}
    (h : walk (· == separator) 0 (tokens x) = some 0) (cs : List Char) :
    pieces separator 0 (tokens (x ++ separator :: cs)) =
      (pieces separator 0 (tokens cs)).map (x :: ·) := by
  have hquote : ∀ c, (separator :: cs).head? = some c → isQuote c = false := by
    rintro c ⟨⟩
    exact isQuote_of_isPlain hsep
  have hopen : separator ≠ '(' := by
    rintro rfl
    exact absurd hsep (by decide)
  have hclose : separator ≠ ')' := by
    rintro rfl
    exact absurd hsep (by decide)
  rw [tokens_append_of_walk h hquote, pieces_append_of_walk _ h, text_tokens,
    tokens_cons_char (isQuote_of_isPlain hsep), pieces_end hopen hclose]
  cases pieces separator 0 (tokens cs) with
  | error e => rfl
  | ok ps =>
      change Except.ok ((x ++ []) :: ps) = Except.ok (x :: ps)
      rw [List.append_nil]

/-- A text that can stand between separators and is found there as it is. -/
structure IsPiece (separator : Char) (x : List Char) : Prop where
  walks : walk (· == separator) 0 (tokens x) = some 0
  trimmed : Text.trim x = x
  nonempty : x ≠ []

theorem filter_trim_cons {x : List Char} (hx : IsPiece separator x) (ps : List (List Char)) :
    (((x :: ps).map Text.trim).filter fun piece => !piece.isEmpty) =
      x :: (ps.map Text.trim).filter fun piece => !piece.isEmpty := by
  rw [List.map_cons, hx.trimmed, List.filter_cons_of_pos]
  simpa using hx.nonempty

theorem splitTopLevel_piece {x : List Char} (hx : IsPiece separator x) :
    splitTopLevel separator x = .ok [x] := by
  unfold splitTopLevel
  rw [pieces_of_walk hx.walks]
  exact congrArg Except.ok (filter_trim_cons hx [])

theorem splitTopLevel_separator (hsep : isPlain separator = true) {x : List Char}
    (hx : IsPiece separator x) (cs : List Char) :
    splitTopLevel separator (x ++ separator :: cs) =
      (splitTopLevel separator cs).map (x :: ·) := by
  unfold splitTopLevel
  rw [pieces_separator hsep hx.walks]
  cases pieces separator 0 (tokens cs) with
  | error e => rfl
  | ok ps => exact congrArg Except.ok (filter_trim_cons hx ps)

theorem splitTopLevel_blank (hsep : separator ≠ ' ') (cs : List Char) :
    splitTopLevel separator (' ' :: cs) = splitTopLevel separator cs := by
  unfold splitTopLevel
  rw [tokens_cons_char (by decide),
    pieces_other (by decide) (by decide) (by simp [hsep.symm])]
  rcases hp : pieces separator 0 (tokens cs) with e | ps
  · rfl
  · cases ps with
    | nil => exact absurd rfl (pieces_ne_nil hp)
    | cons p ps => rfl

/-- Pieces are found between separators, each with a blank behind it. -/
theorem splitTopLevel_intercalate (hsep : isPlain separator = true) (hblank : separator ≠ ' ')
    {xs : List (List Char)} (h : ∀ x ∈ xs, IsPiece separator x) :
    splitTopLevel separator ([separator, ' '].intercalate xs) = .ok xs := by
  induction xs with
  | nil => rfl
  | cons x xs ih =>
      have hx := h x List.mem_cons_self
      cases xs with
      | nil =>
          rw [List.intercalate_singleton]
          exact splitTopLevel_piece hx
      | cons y ys =>
          have htail := ih fun z hz => h z (List.mem_cons_of_mem _ hz)
          rw [List.intercalate_cons_cons, List.append_assoc]
          change splitTopLevel separator
            (x ++ separator :: ' ' :: [separator, ' '].intercalate (y :: ys)) = _
          rw [splitTopLevel_separator hsep hx, splitTopLevel_blank hblank, htail]
          rfl

end Splitting

end RowStream.Token
