import RowStream.Proofs.Declaration.Quoted
import RowStream.Proofs.Text.Utf8

/-!
# Quoted text in bytes

Quotes and backslashes are characters of seven bits, so whoever walks the bytes of a text byte by
byte finds the end of a quoted section where it is among the characters. A literal or an identifier
that is followed by anything but its own quote is such a section, and is read back from it.
-/

namespace RowStream

namespace Quoted

open Utf8 (byteOf byteOf_inj byteOf_mem_utf8EncodeChar_iff utf8EncodeChar_of_le
  exists_utf8EncodeChar)

/-- The number of bytes behind an opening quote up to the quote that closes the section, that one
included. -/
def closing? (quote : UInt8) : List UInt8 → Option Nat
  | [] => none
  | [b] => if b = quote then some 1 else none
  | b :: d :: rest =>
    if b = byteOf '\\' && quote != byteOf '`' then (closing? quote rest).map (· + 2)
    else if b = quote then
      if d = quote then (closing? quote rest).map (· + 2) else some 1
    else (closing? quote (d :: rest)).map (· + 1)

/-- The number of bytes of the section that bytes begin with, its two quotes included. -/
def sectionLength? : List UInt8 → Option Nat
  | [] => none
  | quote :: rest => (closing? quote rest).map (· + 1)

section Bytes

variable {quote b : UInt8}

theorem closing?_slash (hquote : quote ≠ byteOf '`') (d : UInt8) (rest : List UInt8) :
    closing? quote (byteOf '\\' :: d :: rest) = (closing? quote rest).map (· + 2) := by
  rw [closing?, if_pos (by simp [hquote])]

theorem closing?_twice (hquote : quote ≠ byteOf '\\') (rest : List UInt8) :
    closing? quote (quote :: quote :: rest) = (closing? quote rest).map (· + 2) := by
  rw [closing?, if_neg (by simp [hquote]), if_pos rfl, if_pos rfl]

theorem closing?_close (hquote : quote ≠ byteOf '\\') {rest : List UInt8}
    (h : rest.head? ≠ some quote) : closing? quote (quote :: rest) = some 1 := by
  cases rest with
  | nil => exact if_pos rfl
  | cons d rest =>
      have hd : d ≠ quote := by
        rintro rfl
        exact h rfl
      rw [closing?, if_neg (by simp [hquote]), if_pos rfl, if_neg hd]

theorem closing?_cons_of_ne (hquote : b ≠ quote) (hslash : b = byteOf '\\' → quote = byteOf '`')
    (rest : List UInt8) : closing? quote (b :: rest) = (closing? quote rest).map (· + 1) := by
  cases rest with
  | nil => exact if_neg hquote
  | cons d rest =>
      have hpair : ¬(decide (b = byteOf '\\') && quote != byteOf '`') = true := by
        rw [Bool.and_eq_true, decide_eq_true_eq, bne_iff_ne]
        rintro ⟨hb, hne⟩
        exact hne (hslash hb)
      rw [closing?, if_neg hpair, if_neg hquote]

theorem closing?_append_of_ne {front : List UInt8} (hquote : quote ∉ front)
    (hslash : byteOf '\\' ∈ front → quote = byteOf '`') (rest : List UInt8) :
    closing? quote (front ++ rest) = (closing? quote rest).map (· + front.length) := by
  induction front with
  | nil => simp
  | cons b front ih =>
      rw [List.mem_cons, not_or] at hquote
      rw [List.cons_append,
        closing?_cons_of_ne (Ne.symm hquote.1) fun hb => hslash (hb ▸ List.mem_cons_self),
        ih hquote.2 fun hmem => hslash (List.mem_cons_of_mem _ hmem), Option.map_map]
      rfl

end Bytes

section Characters

variable {quote : Char}

theorem toNat_le_of_isQuote (hq : isQuote quote = true) : quote.toNat ≤ 0x7F := by
  simp only [isQuote, Bool.or_eq_true, decide_eq_true_eq] at hq
  rcases hq with (rfl | rfl) | rfl <;> decide

theorem byteOf_ne_slash (hq : isQuote quote = true) : byteOf quote ≠ byteOf '\\' := by
  intro heq
  rw [byteOf_inj (toNat_le_of_isQuote hq) (by decide)] at heq
  subst heq
  exact absurd hq (by decide)

theorem map_length_encode (front : List Char) (found : Option (List Char × List Char)) :
    (found.map fun (inner, _) => (Utf8.encode inner).length + 1).map
        (· + (Utf8.encode front).length) =
      (found.map fun (inner, rest) => (front ++ inner, rest)).map fun (inner, _) =>
        (Utf8.encode inner).length + 1 := by
  cases found with
  | none => rfl
  | some p =>
      simp only [Option.map_some, Utf8.encode_append, List.length_append, Option.some.injEq]
      omega

theorem closing?_encode_of_ne (hq : isQuote quote = true) {c : Char} (hne : c ≠ quote)
    (hslash : c = '\\' → quote = '`') (cs : List Char) :
    closing? (byteOf quote) (Utf8.encode (c :: cs)) =
      (closing? (byteOf quote) (Utf8.encode cs)).map (· + (Utf8.encode [c]).length) := by
  have hquote : byteOf quote ∉ String.utf8EncodeChar c :=
    mt (byteOf_mem_utf8EncodeChar_iff c (toNat_le_of_isQuote hq)).1 hne.symm
  have hescape : byteOf '\\' ∈ String.utf8EncodeChar c → byteOf quote = byteOf '`' := by
    intro hmem
    rw [hslash ((byteOf_mem_utf8EncodeChar_iff c (by decide)).1 hmem).symm]
  rw [Utf8.encode_cons, closing?_append_of_ne hquote hescape]
  simp [Utf8.encode]

theorem closing?_encode_slash (hq : isQuote quote = true) (hbacktick : quote ≠ '`') (d : Char)
    (cs : List Char) :
    closing? (byteOf quote) (Utf8.encode ('\\' :: d :: cs)) =
      (closing? (byteOf quote) (Utf8.encode cs)).map (· + (Utf8.encode ['\\', d]).length) := by
  have hquote := toNat_le_of_isQuote hq
  have hslash : '\\'.toNat ≤ 0x7F := by decide
  have hne : byteOf quote ≠ byteOf '`' := by
    rw [ne_eq, byteOf_inj hquote (by decide)]
    exact hbacktick
  obtain ⟨b, tail, hbytes, htail⟩ := exists_utf8EncodeChar d
  rw [Utf8.encode_cons, utf8EncodeChar_of_le _ hslash, Utf8.encode_cons, hbytes,
    List.singleton_append, List.cons_append, closing?_slash hne,
    closing?_append_of_ne (htail quote hquote) fun hmem => absurd hmem (htail _ hslash),
    Option.map_map]
  have hlength : (Utf8.encode ['\\', d]).length = tail.length + 2 := by
    rw [Utf8.encode_cons, utf8EncodeChar_of_le _ hslash, Utf8.encode_cons, hbytes]
    simp [Utf8.encode]
  rw [hlength]
  rfl

theorem closing?_encode_twice (hq : isQuote quote = true) (cs : List Char) :
    closing? (byteOf quote) (Utf8.encode (quote :: quote :: cs)) =
      (closing? (byteOf quote) (Utf8.encode cs)).map (· + (Utf8.encode [quote, quote]).length) := by
  have hone := utf8EncodeChar_of_le quote (toNat_le_of_isQuote hq)
  have hlength : (Utf8.encode [quote, quote]).length = 2 := by
    rw [Utf8.encode_cons, Utf8.encode_cons, hone]
    rfl
  rw [hlength, Utf8.encode_cons, Utf8.encode_cons, hone, List.singleton_append,
    List.singleton_append, closing?_twice (byteOf_ne_slash hq)]

theorem closing?_encode_close (hq : isQuote quote = true) {cs : List Char}
    (h : cs.head? ≠ some quote) : closing? (byteOf quote) (Utf8.encode (quote :: cs)) = some 1 := by
  have hquote := toNat_le_of_isQuote hq
  rw [Utf8.encode_cons, utf8EncodeChar_of_le quote hquote, List.singleton_append]
  apply closing?_close (byteOf_ne_slash hq)
  cases cs with
  | nil => exact (Option.some_ne_none _).symm
  | cons d cs =>
      obtain ⟨b, tail, hbytes, -⟩ := exists_utf8EncodeChar d
      rw [Utf8.encode_cons, hbytes]
      intro hb
      have hmem : byteOf quote ∈ String.utf8EncodeChar d := by
        rw [hbytes, ← Option.some.inj hb]
        exact List.mem_cons_self
      rw [(byteOf_mem_utf8EncodeChar_iff d hquote).1 hmem] at h
      exact h rfl

/-- The bytes of a text and its characters have the end of a quoted section at the same place. -/
theorem closing?_encode (hq : isQuote quote = true) (cs : List Char) :
    closing? (byteOf quote) (Utf8.encode cs) =
      (section? quote cs).map fun (inner, _) => (Utf8.encode inner).length + 1 := by
  fun_induction section? quote cs with
  | case1 => rfl
  | case2 => exact closing?_encode_close hq (by simp)
  | case3 c hne =>
      -- A backslash is the last character here, with nothing to take along.
      by_cases hslash : c = '\\'
      · rw [hslash, Utf8.encode_cons, utf8EncodeChar_of_le _ (by decide)]
        exact if_neg (byteOf_ne_slash hq).symm
      · rw [closing?_encode_of_ne hq hne (absurd · hslash)]
        rfl
  | case4 c d cs hpair ih =>
      simp only [Bool.and_eq_true, decide_eq_true_eq, bne_iff_ne] at hpair
      obtain ⟨rfl, hbacktick⟩ := hpair
      rw [closing?_encode_slash hq hbacktick, ih]
      exact map_length_encode ['\\', d] _
  | case5 cs _ ih =>
      rw [closing?_encode_twice hq, ih]
      exact map_length_encode [quote, quote] _
  | case6 d cs hne =>
      refine closing?_encode_close hq ?_
      simpa using hne
  | case7 c d cs hpair hne ih =>
      have hslash : c = '\\' → quote = '`' := by simpa using hpair
      rw [closing?_encode_of_ne hq hne hslash, ih]
      exact map_length_encode [c] _

theorem sectionLength?_encode (hq : isQuote quote = true) {cs inner rest : List Char}
    (h : section? quote cs = some (inner, rest)) :
    sectionLength? (Utf8.encode (quote :: cs)) =
      some (Utf8.encode (quote :: inner ++ [quote])).length := by
  have hone := utf8EncodeChar_of_le quote (toNat_le_of_isQuote hq)
  have hclosing : closing? (byteOf quote) (Utf8.encode cs) =
      some ((Utf8.encode inner).length + 1) := by
    rw [closing?_encode hq, h]
    rfl
  rw [Utf8.encode_append, Utf8.encode_cons, Utf8.encode_cons, hone, List.length_append,
    List.length_append, List.singleton_append, sectionLength?, hclosing, Option.map_some,
    Utf8.encode_cons, hone]
  simp only [Utf8.encode, List.flatMap_nil, List.append_nil, List.length_singleton,
    Option.some.injEq]
  omega

end Characters

/-- A literal and an identifier are one section each, whatever follows but their own quote: who
walks the characters and who walks the bytes stop just behind it. Both are read back as the text
that they were made of. -/
theorem section_literal_identifier (cs rest : List Char) :
    (rest.head? ≠ some '\'' →
      (section? '\'' ((literal cs ++ rest).drop 1)) = some (cs.flatMap escape, rest) ∧
      sectionLength? (Utf8.encode (literal cs ++ rest)) = some (Utf8.encode (literal cs)).length) ∧
    unquote (literal cs) = cs ∧
    (rest.head? ≠ some '`' →
      (section? '`' ((identifier cs ++ rest).drop 1)) = some (double cs, rest) ∧
      sectionLength? (Utf8.encode (identifier cs ++ rest)) =
        some (Utf8.encode (identifier cs)).length) ∧
    undouble (double cs) = cs := by
  refine ⟨fun hrest => ?_, unquote_literal cs, fun hrest => ?_, undouble_double cs⟩
  · have hsection := section?_escape cs hrest
    have hliteral : literal cs ++ rest = '\'' :: (cs.flatMap escape ++ '\'' :: rest) := by
      simp [literal]
    rw [hliteral]
    exact ⟨hsection, sectionLength?_encode (by decide) hsection⟩
  · have hsection := section?_double cs hrest
    have hidentifier : identifier cs ++ rest = '`' :: (double cs ++ '`' :: rest) := by
      simp [identifier]
    rw [hidentifier]
    exact ⟨hsection, sectionLength?_encode (by decide) hsection⟩

theorem section_literal_identifier_mixed :
    (section? '\'' ((literal ['é', '`', '\'', '\\'] ++ [',']).drop 1)) =
      some (['é', '`', '\\', '\'', '\\', '\\'], [',']) ∧
    sectionLength? (Utf8.encode (literal ['é', '`', '\'', '\\'] ++ [','])) = some 9 ∧
    (section? '`' ((identifier ['é', '`', '\'', '\\'] ++ [',']).drop 1)) =
      some (['é', '`', '`', '\'', '\\'], [',']) ∧
    sectionLength? (Utf8.encode (identifier ['é', '`', '\'', '\\'] ++ [','])) = some 8 := by
  obtain ⟨hliteral, -, hidentifier, -⟩ :=
    section_literal_identifier ['é', '`', '\'', '\\'] [',']
  obtain ⟨hcharacters, hbytes⟩ := hliteral (by decide)
  obtain ⟨hcharacters', hbytes'⟩ := hidentifier (by decide)
  exact ⟨hcharacters, hbytes, hcharacters', hbytes'⟩

end Quoted

end RowStream
