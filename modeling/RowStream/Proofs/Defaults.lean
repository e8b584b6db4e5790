import RowStream.Defaults
import RowStream.Proofs.Column.WellFormed

/-!
# Defaults as configuration leaves them

Merging changes the values of the cells and nothing else, so defaults are told by one value for each
type. An entry offers a value to the type that its key names and passes all others by; what comes of
a type follows from the entries that name it, in their order.
-/

namespace RowStream

namespace ColumnType

/-- The key is the name of the type or one of its further names, whatever its case and the blanks
around it. -/
def IsNamed (t : ColumnType) (key : String) : Prop :=
  let word := Text.lowerAscii (Text.trimmed key)
  word = Text.lowerAscii t.name ∨ (word, t) ∈ aliases

instance (t : ColumnType) (key : String) : Decidable (t.IsNamed key) :=
  inferInstanceAs (Decidable (_ ∨ _))

theorem lookup?_eq_some_iff {key : String} {t : ColumnType} :
    lookup? key = some t ↔ t.IsNamed key := by
  unfold lookup? IsNamed
  generalize Text.lowerAscii (Text.trimmed key) = word
  dsimp only
  constructor
  · intro h
    split at h
    · next found hfound =>
      cases h
      have hword : Text.lowerAscii t.name = word := by simpa using List.find?_some hfound
      exact .inl hword.symm
    · obtain ⟨named, hnamed, rfl⟩ := Option.map_eq_some_iff.1 h
      have hword : named.1 = word := by simpa using List.find?_some hnamed
      exact .inr (hword ▸ List.mem_of_find?_eq_some hnamed)
  · rintro (rfl | h)
    · have hname : ∀ t ∈ all,
          all.find? (fun u => Text.lowerAscii u.name == Text.lowerAscii t.name) = some t := by
        decide +kernel
      rw [hname t (mem_all t)]
    · simp only [aliases, List.mem_cons, Prod.mk.injEq, List.not_mem_nil, or_false] at h
      obtain ⟨rfl, rfl⟩ | ⟨rfl, rfl⟩ := h <;> rfl

theorem IsNamed.unique {t u : ColumnType} {key : String} (ht : t.IsNamed key)
    (hu : u.IsNamed key) : u = t :=
  Option.some.inj ((lookup?_eq_some_iff.2 hu).symm.trans (lookup?_eq_some_iff.2 ht))

end ColumnType

namespace Cell

/-- What is taken over of a value; a failure counts for numbers only. -/
def heeded (type : ColumnType) : Except Error (Option Value) → Except Error (Option Value)
  | .ok v => .ok v
  | .error e => if type.kind.isNumeric then .error e else .ok none

/-- The value that a piece of JSON offers to cells of a type, `none` when they keep theirs. -/
def offered (type : ColumnType) (scale : Nat) : Json → Except Error (Option Value)
  | .str s =>
    if s.isEmpty then .ok none else heeded type ((Value.parse s type scale).map some)
  | json => heeded type (Value.ofJson json type scale)

theorem take_eq (c : Cell) (x : Except Error (Option Value)) :
    c.take x = (heeded c.type x).map fun v => { c with value := v.getD c.value } := by
  unfold take heeded
  split
  · rfl
  · rfl
  · split <;> rfl

theorem mergeJson_eq (c : Cell) (json : Json) :
    c.mergeJson json =
      (offered c.type c.scale json).map fun v => { c with value := v.getD c.value } := by
  unfold mergeJson offered
  cases json with
  | str s =>
    unfold mergeText
    dsimp only
    split
    · rfl
    · exact take_eq c _
  | _ => exact take_eq c _

end Cell

namespace Defaults

def slot (t : ColumnType) (v : Value) : Cell := { Cell.new t.name t with value := v }

/-- The defaults that hold a value for each type. -/
def holding (values : ColumnType → Value) : Defaults :=
  ⟨ColumnType.all.map fun t => slot t (values t)⟩

theorem cell_holding (values : ColumnType → Value) (t : ColumnType) :
    (holding values).cell t = slot t (values t) := by
  have hfind : ColumnType.all.find? (fun u => u == t) = some t := by cases t <;> rfl
  unfold cell holding
  rw [List.find?_map]
  change ((ColumnType.all.find? fun u => u == t).map _).getD _ = _
  rw [hfind]
  rfl

theorem put_holding (values : ColumnType → Value) (t : ColumnType) (v : Value) :
    (holding values).put (slot t v) = holding fun u => if u = t then v else values u := by
  unfold put holding
  rw [List.map_map]
  congr 1
  refine List.map_congr_left ?_
  intro u _
  change (if u = t then slot t v else slot u (values u)) = slot u (if u = t then v else values u)
  split
  · next h => rw [h]
  · rfl

/-- What a value becomes by an entry for its type. -/
def settle (t : ColumnType) (v : Value) (entry : String × Json) : Value :=
  match Cell.offered t t.defaultScale entry.2 with
  | .ok (some offered) => offered
  | _ => v

def enter (values : ColumnType → Value) (entry : String × Json) (t : ColumnType) : Value :=
  if t.IsNamed entry.1 then settle t (values t) entry else values t

/-- The type that an entry names, if any, can read its value or do without it. -/
def Accepted (entry : String × Json) : Prop :=
  ∀ t : ColumnType, t.IsNamed entry.1 → ∃ v, Cell.offered t t.defaultScale entry.2 = .ok v

theorem kind_settle {t : ColumnType} {v : Value} (hv : v.kind = t.kind) (entry : String × Json) :
    (settle t v entry).kind = t.kind := by
  unfold settle
  split
  · next offered hoffered =>
    have hmerged : (slot t v).mergeJson entry.2 = .ok (slot t offered) := by
      rw [Cell.mergeJson_eq]
      exact congrArg (Except.map _) hoffered
    exact Cell.kind_of_mergeJson hmerged hv
  · exact hv

theorem accepted_iff {t : ColumnType} {entry : String × Json} (h : t.IsNamed entry.1) :
    Accepted entry ↔ ∃ v, Cell.offered t t.defaultScale entry.2 = .ok v := by
  constructor
  · intro haccepted
    exact haccepted t h
  · rintro ⟨v, hv⟩ u hu
    rw [h.unique hu]
    exact ⟨v, hv⟩

theorem enter_of_isNamed {t : ColumnType} {entry : String × Json} (h : t.IsNamed entry.1)
    (values : ColumnType → Value) :
    enter values entry = fun u => if u = t then settle t (values t) entry else values u := by
  funext u
  unfold enter
  by_cases hu : u = t
  · rw [hu, if_pos h, if_pos rfl]
  · rw [if_neg hu, if_neg fun hnamed => hu (h.unique hnamed)]

theorem mergeEntry_of_isNamed {t : ColumnType} {entry : String × Json} (h : t.IsNamed entry.1)
    (values : ColumnType → Value) :
    (holding values).mergeEntry entry.1 entry.2 =
      (Cell.offered t t.defaultScale entry.2).map fun _ => holding (enter values entry) := by
  unfold mergeEntry
  rw [ColumnType.lookup?_eq_some_iff.2 h, enter_of_isNamed h]
  dsimp only
  rw [cell_holding, Cell.mergeJson_eq]
  unfold settle
  -- Where nothing is offered the cell is put back as it was.
  change ((Cell.offered t t.defaultScale entry.2).map _).map _ = _
  rcases Cell.offered t t.defaultScale entry.2 with e | _ | v
  · rfl
  · exact congrArg Except.ok (put_holding values t (values t))
  · exact congrArg Except.ok (put_holding values t v)

theorem mergeEntry_holding_ok_iff {values : ColumnType → Value} {entry : String × Json}
    {d : Defaults} :
    (holding values).mergeEntry entry.1 entry.2 = .ok d ↔
      Accepted entry ∧ d = holding (enter values entry) := by
  by_cases hnamed : ∃ t : ColumnType, t.IsNamed entry.1
  · obtain ⟨t, ht⟩ := hnamed
    rw [mergeEntry_of_isNamed ht, accepted_iff ht]
    cases Cell.offered t t.defaultScale entry.2 <;> simp [Except.map, eq_comm]
  · rw [not_exists] at hnamed
    have hunknown : ColumnType.lookup? entry.1 = none := by
      rw [Option.eq_none_iff_forall_ne_some]
      exact fun t ht => hnamed t (ColumnType.lookup?_eq_some_iff.1 ht)
    have henter : enter values entry = values := funext fun t => if_neg (hnamed t)
    have haccepted : Accepted entry := fun t ht => absurd ht (hnamed t)
    unfold mergeEntry
    simp [hunknown, henter, haccepted, eq_comm]

/-- Merging succeeds when every entry is accepted, and then enters them all. -/
theorem mergeEntries_holding_ok_iff {values : ColumnType → Value}
    {entries : List (String × Json)} {d : Defaults} :
    (holding values).mergeEntries entries = (d, .ok ()) ↔
      (∀ entry ∈ entries, Accepted entry) ∧ d = holding (entries.foldl enter values) := by
  induction entries generalizing values with
  | nil => simp [mergeEntries, eq_comm]
  | cons entry rest ih =>
    have hfirst := @mergeEntry_holding_ok_iff values entry
    rw [mergeEntries, List.forall_mem_cons, List.foldl_cons]
    cases hentry : (holding values).mergeEntry entry.1 entry.2 with
    | error e =>
      have hrefused : ¬ Accepted entry := by
        intro h
        have hmerged := hfirst.2 ⟨h, rfl⟩
        rw [hentry] at hmerged
        cases hmerged
      simp [hrefused]
    | ok next =>
      obtain ⟨haccepted, rfl⟩ := hfirst.1 hentry
      simp [haccepted, ih]

/-- The entries whose keys name a type. -/
def entriesOf (t : ColumnType) (entries : List (String × Json)) : List (String × Json) :=
  entries.filter fun entry => t.IsNamed entry.1

/-- The value of a type is settled by the entries that name it. -/
theorem foldl_enter (values : ColumnType → Value) (entries : List (String × Json))
    (t : ColumnType) :
    entries.foldl enter values t = (entriesOf t entries).foldl (settle t) (values t) := by
  unfold entriesOf
  induction entries generalizing values with
  | nil => rfl
  | cons entry rest ih =>
    rw [List.foldl_cons, ih]
    unfold enter
    by_cases h : t.IsNamed entry.1
    · simp only [h, if_true, List.filter_cons, decide_true, List.foldl_cons]
    · simp only [h, if_false, List.filter_cons, decide_false, Bool.false_eq_true]

theorem accepted_of_entriesOf {entries others : List (String × Json)}
    (h : ∀ t, entriesOf t others = entriesOf t entries)
    (haccepted : ∀ entry ∈ entries, Accepted entry) : ∀ entry ∈ others, Accepted entry := by
  intro entry hentry t ht
  have hmem : entry ∈ entriesOf t entries := by
    rw [← h t]
    exact List.mem_filter.2 ⟨hentry, decide_eq_true ht⟩
  exact haccepted entry (List.mem_of_mem_filter hmem) t ht

/-! ## Merging on -/

theorem mergeEntries_append {d d' : Defaults} {entries : List (String × Json)}
    (h : d.mergeEntries entries = (d', .ok ())) (more : List (String × Json)) :
    d.mergeEntries (entries ++ more) = d'.mergeEntries more := by
  induction entries generalizing d with
  | nil =>
    cases h
    rfl
  | cons entry rest ih =>
    rw [List.cons_append, mergeEntries]
    rw [mergeEntries] at h
    split at h
    · exact ih h
    · cases h

theorem mergeEntries_error {d d' : Defaults} {entries : List (String × Json)} {e : Error}
    (h : d.mergeEntries entries = (d', .error e)) :
    ∃ before entry after, entries = before ++ entry :: after ∧
      d.mergeEntries before = (d', .ok ()) ∧ d'.mergeEntry entry.1 entry.2 = .error e := by
  induction entries generalizing d with
  | nil => cases h
  | cons entry rest ih =>
    rw [mergeEntries] at h
    split at h
    · next next hnext =>
      obtain ⟨before, refused, after, rfl, hbefore, hrefused⟩ := ih h
      refine ⟨entry :: before, refused, after, rfl, ?_, hrefused⟩
      rw [mergeEntries, hnext]
      exact hbefore
    · next hrefused =>
      cases h
      exact ⟨[], entry, rest, rfl, rfl, hrefused⟩

/-- Defaults that come of merging into the initial ones, whether it succeeded or not. -/
inductive Reachable : Defaults → Prop
  | initial : Reachable initial
  | merge {d : Defaults} (h : Reachable d) (json : Json) : Reachable (d.merge json).1

theorem exists_holding_mergeEntries {values : ColumnType → Value}
    (h : ∀ t, (values t).kind = t.kind) (entries : List (String × Json)) :
    ∃ values', ((holding values).mergeEntries entries).1 = holding values' ∧
      ∀ t, (values' t).kind = t.kind := by
  induction entries generalizing values with
  | nil => exact ⟨values, rfl, h⟩
  | cons entry rest ih =>
    rw [mergeEntries]
    split
    · next next hnext =>
      obtain ⟨-, rfl⟩ := mergeEntry_holding_ok_iff.1 hnext
      apply ih
      intro t
      unfold enter
      split
      · exact kind_settle (h t) entry
      · exact h t
    · exact ⟨values, rfl, h⟩

theorem Reachable.exists_holding {d : Defaults} (hd : d.Reachable) :
    ∃ values, d = holding values ∧ ∀ t, (values t).kind = t.kind := by
  induction hd with
  | initial => exact ⟨Value.zero, rfl, Value.kind_zero⟩
  | merge _ json ih =>
    obtain ⟨values, rfl, hkind⟩ := ih
    cases json with
    | obj members => exact exists_holding_mergeEntries hkind members
    | _ => exact ⟨values, rfl, hkind⟩

/-- Every registry that is reached has one cell for each type, which is as it was made except for a
value of the type's kind. Where merging fails, just the entries before the one that is refused are
merged. Where it succeeds, the cell of a type depends on the entries that name the type, in their
order; other entries may stand anywhere among them, and more entries are merged as if they were the
members of another object. -/
theorem merge_of_reachable {d : Defaults} (hd : d.Reachable) :
    (d.cells = ColumnType.all.map d.cell ∧
      ∀ t, ∃ v : Value, d.cell t = { Cell.new t.name t with value := v } ∧ v.kind = t.kind) ∧
    (∀ entries d' e, d.merge (.obj entries) = (d', .error e) →
      ∃ before entry after, entries = before ++ entry :: after ∧
        d.merge (.obj before) = (d', .ok ()) ∧ d'.mergeEntry entry.1 entry.2 = .error e) ∧
    ∀ entries d', d.merge (.obj entries) = (d', .ok ()) →
      (∀ t others d'', entriesOf t others = entriesOf t entries →
        d.merge (.obj others) = (d'', .ok ()) → d''.cell t = d'.cell t) ∧
      (∀ others, (∀ t, entriesOf t others = entriesOf t entries) →
        d.merge (.obj others) = (d', .ok ())) ∧
      ∀ more, d.merge (.obj (entries ++ more)) = d'.merge (.obj more) := by
  obtain ⟨values, rfl, hkind⟩ := hd.exists_holding
  refine ⟨⟨?_, fun t => ⟨values t, cell_holding values t, hkind t⟩⟩, ?_, ?_⟩
  · exact List.map_congr_left fun t _ => (cell_holding values t).symm
  · intro entries d' e h
    exact mergeEntries_error h
  · intro entries d' h
    obtain ⟨haccepted, rfl⟩ := mergeEntries_holding_ok_iff.1 h
    refine ⟨?_, ?_, fun more => mergeEntries_append h more⟩
    · intro t others d'' hsame hothers
      obtain ⟨-, rfl⟩ := mergeEntries_holding_ok_iff.1 hothers
      rw [cell_holding, cell_holding, foldl_enter, foldl_enter, hsame]
    · intro others hsame
      refine mergeEntries_holding_ok_iff.2 ⟨accepted_of_entriesOf hsame haccepted, ?_⟩
      congr 1
      funext t
      rw [foldl_enter, foldl_enter, hsame]

/-- Merging has failed at a text that is no number, behind a truth value and before a default that
is left out. Later entries come in another order, one of them for no type. -/
theorem merge_of_reachable_failed :
    let d := (initial.merge (.obj [("BOOLEAN", .str "yes"), ("UInt8", .str "lots"),
      ("Int8", .num (.integer 7))])).1
    let entries := [(" int8 ", Json.num (.integer (-1))), ("fixed_string", .str "n/a"),
      ("Int8", .null)]
    let others := [("FixedString", Json.str "n/a"), ("Colour", .bool true),
      (" int8 ", .num (.integer (-1))), ("Int8", .null)]
    (d.cell .bool).value = .bool true ∧ (d.cell .int8).value = .int32 0 ∧
    (((d.merge (.obj entries)).1.cell .int8).value = .int32 (-1)) ∧
      (d.merge (.obj others)).1.cell .int8 = (d.merge (.obj entries)).1.cell .int8 := by
  intro d entries others
  have hd : d.Reachable := .merge .initial _
  obtain ⟨-, -, hmerge⟩ := merge_of_reachable hd
  refine ⟨by decide, by decide, by decide, ?_⟩
  exact (hmerge entries _ rfl).1 .int8 others _ rfl rfl

end Defaults

end RowStream
