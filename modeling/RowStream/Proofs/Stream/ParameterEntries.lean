import Mathlib.Data.List.Nodup
import RowStream.Proofs.Result
import RowStream.Proofs.Text.Numeral
import RowStream.Stream.Parameters

/-!
# Parameters and their entries

An entry with a known name changes one parameter, and entries of different names change different
ones. The entries of a request may therefore come in any order, and so may those into which the
text of parameters is split: wherever they are merged they give these parameters back.
-/

namespace RowStream.Parameters

/-! ## Changes -/

inductive Change where
  | batchSize (rows : Nat)
  | offset (rows : Nat)
  | position (row : Nat)
  | nullAsDefault (b : Bool)
  | withSourceColumn (b : Bool)
  | withCustomColumns (b : Bool)
  | debug (b : Bool)
  | mutation (b : Bool)
  | noCache (b : Bool)
  /-- 0 lifts the limit. -/
  | timeout (seconds : Nat)
deriving DecidableEq, Repr

namespace Change

def name : Change → String
  | batchSize _ => "batch_size"
  | offset _ => "offset"
  | position _ => "position"
  | nullAsDefault _ => "null_as_default"
  | withSourceColumn _ => "datasource_column"
  | withCustomColumns _ => "custom_columns"
  | debug _ => "debug"
  | mutation _ => "mutation"
  | noCache _ => "no_cache"
  | timeout _ => "timeout"

def text : Change → String
  | batchSize n | offset n | position n | timeout n => toString n
  | nullAsDefault b | withSourceColumn b | withCustomColumns b | debug b | mutation b
  | noCache b => if b then "true" else "false"

def entry (c : Change) : String × String := (c.name, c.text)

def apply (p : Parameters) : Change → Parameters
  | batchSize n => { p with batchSize := clampBatchSize n }
  | offset n => { p with offset := n }
  | position n => { p with position := n }
  | nullAsDefault b => { p with nullAsDefault := b }
  | withSourceColumn b => { p with withSourceColumn := b }
  | withCustomColumns b => { p with withCustomColumns := b }
  | debug b => { p with debug := b }
  | mutation b => { p with mutation := b }
  | noCache b => { p with noCache := b }
  | timeout n => { p with timeout := if 0 < n then some n else none }

def Fits : Change → Prop
  | batchSize n | offset n | position n | timeout n => n ≤ maxWord64
  | _ => True

theorem apply_comm {c d : Change} (h : c.name ≠ d.name) (p : Parameters) :
    apply (apply p c) d = apply (apply p d) c := by
  cases c <;> cases d <;> first | rfl | exact absurd rfl h

end Change

/-- The change that an entry asks for; there is none when its name is not known. -/
def change? (entry : String × String) : Except Error (Option Change) :=
  let withNumber (f : Nat → Change) := (number entry.1 entry.2).map fun n => some (f n)
  let withFlag (f : Bool → Change) := (flag entry.1 entry.2).map fun b => some (f b)
  match entry.1 with
  | "batch_size" => withNumber .batchSize
  | "offset" => withNumber .offset
  | "position" => withNumber .position
  | "null_as_default" => withFlag .nullAsDefault
  | "datasource_column" => withFlag .withSourceColumn
  | "custom_columns" => withFlag .withCustomColumns
  | "debug" => withFlag .debug
  | "mutation" => withFlag .mutation
  | "no_cache" => withFlag .noCache
  | "timeout" => withNumber .timeout
  | _ => .ok none

theorem merge_eq (p : Parameters) (entry : String × String) :
    p.merge entry.1 entry.2 = (change? entry).map fun c => c.elim p (Change.apply p) := by
  obtain ⟨key, value⟩ := entry
  unfold merge change?
  dsimp only
  split
  case h_11 => simp [Except.map, *]
  case h_1 | h_2 | h_3 | h_10 => cases number _ value <;> rfl
  all_goals cases flag _ value <;> rfl

theorem le_of_number {key value : String} {n : Nat} (h : number key value = .ok n) :
    n ≤ maxWord64 := by
  unfold number at h
  split at h
  · next hn =>
    cases h
    exact Text.Numeral.le_of_unsignedUpTo? hn
  · cases h

theorem change?_ok {entry : String × String} {c : Change} (h : change? entry = .ok (some c)) :
    c.name = entry.1 ∧ c.Fits := by
  unfold change? at h
  dsimp only at h
  split at h
  case h_11 => cases h
  case h_1 hname | h_2 hname | h_3 hname | h_10 hname =>
    obtain ⟨n, hn, hc⟩ := map_ok h
    cases hc
    exact ⟨hname.symm, le_of_number hn⟩
  all_goals
    next hname =>
    obtain ⟨b, -, hc⟩ := map_ok h
    cases hc
    exact ⟨hname.symm, trivial⟩

/-- What an entry makes of parameters; one that is refused leaves them. -/
def enter (p : Parameters) (entry : String × String) : Parameters :=
  match change? entry with
  | .ok (some c) => c.apply p
  | _ => p

theorem mergeAll_cons (p : Parameters) (entry : String × String) (rest : List (String × String)) :
    p.mergeAll (entry :: rest) =
      match change? entry with
      | .ok _ => (p.enter entry).mergeAll rest
      | .error e => (p, .error e) := by
  rw [mergeAll, merge_eq]
  unfold enter
  rcases change? entry with e | _ | c <;> rfl

/-- Merging succeeds when every entry by itself is accepted, and then enters them all. -/
theorem mergeAll_ok_iff {p p' : Parameters} {entries : List (String × String)} :
    p.mergeAll entries = (p', .ok ()) ↔
      (∀ entry ∈ entries, ∃ c, change? entry = .ok c) ∧ p' = entries.foldl enter p := by
  induction entries generalizing p with
  | nil => simp [mergeAll, eq_comm]
  | cons entry rest ih =>
    rw [mergeAll_cons, List.forall_mem_cons, List.foldl_cons]
    cases hentry : change? entry with
    | error e => simp
    | ok c => simp [ih]

/-- Entries of different names are entered in any order. -/
theorem enter_comm {first second : String × String} (h : first.1 ≠ second.1) (p : Parameters) :
    (p.enter first).enter second = (p.enter second).enter first := by
  unfold enter
  split
  · next c hfirst =>
    split
    · next d hsecond =>
      refine Change.apply_comm ?_ p
      rwa [(change?_ok hfirst).1, (change?_ok hsecond).1]
    · rfl
  · rfl

theorem foldl_enter_perm {entries order : List (String × String)}
    (hnames : (entries.map Prod.fst).Nodup) (hperm : order.Perm entries) (p : Parameters) :
    order.foldl enter p = entries.foldl enter p := by
  refine (hperm.symm.foldl_eq' ?_ p).symm
  intro first hfirst second hsecond p
  -- Entries of one name are one entry.
  by_cases h : first.1 = second.1
  · rw [List.inj_on_of_nodup_map hnames hfirst hsecond h]
  · exact enter_comm h p

theorem mergeAll_perm {p p' : Parameters} {entries order : List (String × String)}
    (hnames : (entries.map Prod.fst).Nodup) (hperm : order.Perm entries) :
    p.mergeAll order = (p', .ok ()) ↔ p.mergeAll entries = (p', .ok ()) := by
  rw [mergeAll_ok_iff, mergeAll_ok_iff, foldl_enter_perm hnames hperm]
  simp only [hperm.mem_iff]

/-! ## Parameters within their limits -/

/-- Parameters that come from settings and from entries, of which the last ones may have failed. -/
inductive Reachable : Parameters → Prop
  | ofSettings {s : QuerySettings} (h : s.timeoutSeconds ≤ maxWord64) : Reachable (ofSettings s)
  | mergeAll {p : Parameters} (h : Reachable p) (entries : List (String × String)) :
      Reachable (p.mergeAll entries).1

structure InRange (p : Parameters) : Prop where
  batchSize_pos : 1 ≤ p.batchSize
  batchSize_le : p.batchSize ≤ maxBatchSize
  offset_le : p.offset ≤ maxWord64
  position_le : p.position ≤ maxWord64
  timeout_pos : ∀ n, p.timeout = some n → 0 < n
  timeout_le : ∀ n, p.timeout = some n → n ≤ maxWord64

theorem clampBatchSize_pos (n : Nat) : 1 ≤ clampBatchSize n := Nat.le_max_left _ _

theorem clampBatchSize_le (n : Nat) : clampBatchSize n ≤ maxBatchSize :=
  Nat.max_le.2 ⟨by decide, Nat.min_le_right _ _⟩

theorem clampBatchSize_of_range {n : Nat} (hpos : 1 ≤ n) (hle : n ≤ maxBatchSize) :
    clampBatchSize n = n := by
  rw [clampBatchSize, Nat.min_eq_left hle, Nat.max_eq_right hpos]

theorem inRange_ofSettings {s : QuerySettings} (h : s.timeoutSeconds ≤ maxWord64) :
    (ofSettings s).InRange where
  batchSize_pos := clampBatchSize_pos _
  batchSize_le := clampBatchSize_le _
  offset_le := Nat.zero_le _
  position_le := Nat.zero_le _
  timeout_pos n hn := by
    simp only [ofSettings, QuerySettings.timeout] at hn
    grind
  timeout_le n hn := by
    simp only [ofSettings, QuerySettings.timeout] at hn
    grind

theorem InRange.apply {p : Parameters} (h : p.InRange) {c : Change} (hc : c.Fits) :
    (c.apply p).InRange := by
  cases c with
  | batchSize n => exact { h with
      batchSize_pos := clampBatchSize_pos n
      batchSize_le := clampBatchSize_le n }
  | offset n => exact { h with offset_le := hc }
  | position n => exact { h with position_le := hc }
  | timeout n => exact { h with
      timeout_pos := by simp only [Change.apply]; grind
      timeout_le := by simp only [Change.apply]; grind [Change.Fits] }
  | _ => exact { h with }

theorem InRange.enter {p : Parameters} (h : p.InRange) (entry : String × String) :
    (p.enter entry).InRange := by
  unfold Parameters.enter
  split
  · next c hc => exact h.apply (change?_ok hc).2
  · exact h

theorem InRange.mergeAll {p : Parameters} (h : p.InRange) (entries : List (String × String)) :
    (p.mergeAll entries).1.InRange := by
  induction entries generalizing p with
  | nil => exact h
  | cons entry rest ih =>
    rw [mergeAll_cons]
    split
    · exact ih (h.enter entry)
    · exact h

theorem Reachable.inRange {p : Parameters} (h : p.Reachable) : p.InRange := by
  induction h with
  | ofSettings h => exact inRange_ofSettings h
  | mergeAll _ entries ih => exact ih.mergeAll entries

/-! ## The text of parameters -/

/-- The changes that give parameters whatever they are made to. -/
def changes (p : Parameters) : List Change :=
  [.batchSize p.batchSize, .offset p.offset, .position p.position, .nullAsDefault p.nullAsDefault,
   .withSourceColumn p.withSourceColumn, .withCustomColumns p.withCustomColumns, .debug p.debug,
   .mutation p.mutation, .noCache p.noCache, .timeout (p.timeout.getD 0)]

theorem entries_eq (p : Parameters) : p.entries = p.changes.map Change.entry := rfl

theorem nodup_entries (p : Parameters) : (p.entries.map Prod.fst).Nodup := by
  have hnames : p.entries.map Prod.fst = (default : Parameters).entries.map Prod.fst := rfl
  rw [hnames]
  decide

theorem InRange.fits {p : Parameters} (h : p.InRange) : ∀ c ∈ p.changes, c.Fits := by
  have hbatch : p.batchSize ≤ maxWord64 := Nat.le_trans h.batchSize_le (by decide)
  have htimeout : p.timeout.getD 0 ≤ maxWord64 := by
    cases hlimit : p.timeout with
    | none => exact Nat.zero_le _
    | some n => exact h.timeout_le n hlimit
  simp [changes, Change.Fits, hbatch, h.offset_le, h.position_le, htimeout]

theorem number_toString {key : String} {n : Nat} (h : n ≤ maxWord64) :
    number key (toString n) = .ok n := by
  have htrim : Text.trim (toString n).toList = (toString n).toList := by
    rw [Text.Numeral.toList_toString_nat]
    exact (Text.Numeral.isDigits_toDigits n).isNumeral.trim
  unfold number
  rw [htrim, Text.Numeral.unsignedUpTo?_toString h]

theorem flag_truth (key : String) (b : Bool) :
    flag key (if b then "true" else "false") = .ok b := by
  cases b <;> rfl

theorem change?_entry {c : Change} (h : c.Fits) : change? c.entry = .ok (some c) := by
  cases c with
  | batchSize n | offset n | position n | timeout n =>
    simp only [change?, Change.entry, Change.name, Change.text, number_toString h, Except.map]
  | nullAsDefault b | withSourceColumn b | withCustomColumns b | debug b | mutation b
  | noCache b => exact congrArg (Except.map _) (flag_truth _ b)

theorem InRange.foldl_changes {p : Parameters} (h : p.InRange) (q : Parameters) :
    p.changes.foldl Change.apply q = { p with sourceColumn := q.sourceColumn } := by
  have hbatch : clampBatchSize p.batchSize = p.batchSize :=
    clampBatchSize_of_range h.batchSize_pos h.batchSize_le
  have htimeout : (if 0 < p.timeout.getD 0 then some (p.timeout.getD 0) else none) = p.timeout := by
    cases hlimit : p.timeout with
    | none => rfl
    | some n => exact if_pos (h.timeout_pos n hlimit)
  simp only [changes, List.foldl_cons, List.foldl_nil, Change.apply, hbatch, htimeout]

theorem InRange.mergeAll_entries {p : Parameters} (h : p.InRange) (q : Parameters) :
    q.mergeAll p.entries = ({ p with sourceColumn := q.sourceColumn }, .ok ()) := by
  have hread : ∀ c ∈ p.changes, change? c.entry = .ok (some c) :=
    fun c hc => change?_entry (h.fits c hc)
  rw [mergeAll_ok_iff, entries_eq]
  constructor
  · rintro entry hentry
    obtain ⟨c, hc, rfl⟩ := List.mem_map.1 hentry
    exact ⟨some c, hread c hc⟩
  · rw [List.foldl_map, ← h.foldl_changes q]
    refine (List.foldl_ext _ _ _ ?_)
    intro q c hc
    rw [Parameters.enter, hread c hc]

def parts (separator : Char) (s : String) : List String := (s.split separator).toList.map (·.copy)

/-- The entries of a text such as `offset=3&debug=true`. -/
def entriesOfText (s : String) : List (String × String) :=
  (parts '&' s).filterMap fun part =>
    match parts '=' part with
    | [key, value] => some (key, value)
    | _ => none

theorem parts_intercalate {separator : Char} {ss : List String} (hne : ss ≠ [])
    (h : ∀ s ∈ ss, separator ∉ s.toList) :
    parts separator ((String.singleton separator).intercalate ss) = ss := by
  rw [parts, String.toList_split_intercalate h, if_neg hne]

theorem not_mem_toString {c : Char} (hc : c.isDigit = false) (n : Nat) :
    c ∉ (toString n).toList := by
  rw [Text.Numeral.toList_toString_nat]
  exact fun hmem => (Text.Numeral.isDigits_toDigits n).ne hmem hc rfl

theorem Change.separator_not_mem (c : Change) {separator : Char}
    (h : separator = '&' ∨ separator = '=') :
    separator ∉ c.name.toList ∧ separator ∉ c.text.toList := by
  constructor
  · unfold Change.name
    rcases h with rfl | rfl <;> cases c <;> dsimp only <;> decide
  · have hdigit : separator.isDigit = false := by rcases h with rfl | rfl <;> rfl
    have htruth (b : Bool) : separator ∉ (if b then "true" else "false").toList := by
      rcases h with rfl | rfl <;> cases b <;> decide
    cases c with
    | batchSize n | offset n | position n | timeout n => exact not_mem_toString hdigit n
    | nullAsDefault b | withSourceColumn b | withCustomColumns b | debug b | mutation b
    | noCache b => exact htruth b

theorem Change.parts_entry (c : Change) :
    parts '=' (c.name ++ "=" ++ c.text) = [c.name, c.text] := by
  have hplain := c.separator_not_mem (.inr rfl)
  have hjoined : c.name ++ "=" ++ c.text = (String.singleton '=').intercalate [c.name, c.text] := by
    simp
  rw [hjoined]
  refine parts_intercalate (List.cons_ne_nil _ _) ?_
  simp [hplain]

theorem entriesOfText_text (p : Parameters) : entriesOfText p.text = p.entries := by
  have htext : p.text =
      (String.singleton '&').intercalate (p.changes.map fun c => c.name ++ "=" ++ c.text) := by
    rw [text, entries_eq, List.map_map]
    rfl
  have hparts : parts '&' p.text = p.changes.map fun c => c.name ++ "=" ++ c.text := by
    rw [htext]
    refine parts_intercalate (List.cons_ne_nil _ _) ?_
    intro part hpart
    obtain ⟨c, -, rfl⟩ := List.mem_map.1 hpart
    have hplain := c.separator_not_mem (.inl rfl)
    simp [hplain]
  rw [entriesOfText, hparts, entries_eq, List.filterMap_map]
  simp only [Function.comp_def, Change.parts_entry]
  rfl

/-- Parameters that are reached have batches within the limits, and their text is split into entries
that give them back over any others, in whichever order they are merged; the name of the source
column alone is not among them. Whatever the entries are, their order neither decides whether they
are accepted nor what they make of the parameters. -/
theorem mergeAll_any_order (p : Parameters) :
    (p.Reachable →
      (1 ≤ p.batchSize ∧ p.batchSize ≤ maxBatchSize) ∧
      ((entriesOfText p.text).map Prod.fst).Nodup ∧
      ∀ (q : Parameters) (order : List (String × String)), order.Perm (entriesOfText p.text) →
        q.mergeAll order = ({ p with sourceColumn := q.sourceColumn }, .ok ())) ∧
    ∀ entries : List (String × String), (entries.map Prod.fst).Nodup →
      ∀ order : List (String × String), order.Perm entries →
        ∀ p', p.mergeAll order = (p', .ok ()) ↔ p.mergeAll entries = (p', .ok ()) := by
  refine ⟨fun hp => ?_, fun entries hnames order hperm p' => mergeAll_perm hnames hperm⟩
  have hrange := hp.inRange
  rw [entriesOfText_text]
  refine ⟨⟨hrange.batchSize_pos, hrange.batchSize_le⟩, nodup_entries p, ?_⟩
  intro q order hperm
  rw [mergeAll_perm (nodup_entries p) hperm]
  exact hrange.mergeAll_entries q

/-- A failed request has left a batch of the greatest size behind, a time limit and an offset. -/
theorem mergeAll_any_order_left :
    let p := ((ofSettings { timeoutSeconds := 30 }).mergeAll
      [("batch_size", "5000000"), ("offset", " 7 "), ("debug", ""), ("position", "first"),
       ("no_cache", "yes")]).1
    p.batchSize = maxBatchSize ∧ p.offset = 7 ∧ p.debug = true ∧ p.noCache = false ∧
    (default : Parameters).mergeAll (entriesOfText p.text).reverse =
      ({ p with sourceColumn := "" }, .ok ()) ∧
    p.mergeAll [("mutation", "no"), ("timeout", "0"), ("colour", "red")] =
      ({ p with timeout := none }, .ok ()) := by
  intro p
  have hp : p.Reachable := .mergeAll (.ofSettings (by decide)) _
  obtain ⟨hback, horder⟩ := mergeAll_any_order p
  refine ⟨by decide, by decide, by decide, by decide, ?_, ?_⟩
  · exact (hback hp).2.2 default _ (List.reverse_perm _)
  · exact (horder [("colour", "red"), ("timeout", "0"), ("mutation", "no")] (by decide) _
      (by decide) _).2 (by decide)

end RowStream.Parameters
