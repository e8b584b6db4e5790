import RowStream.Column.Bytes
import RowStream.Proofs.Column.Reachable
import RowStream.Proofs.Text.Numeral
import RowStream.Table

/-!
# Columns of tables

The columns of a table that is read can come about, and stay so when defaults are merged into them
and their places are fixed. Neither changes how a column reads its cells.
-/

namespace RowStream

variable [Zone.Catalogue]

namespace Column

theorem readText_withValue (c : Column) (v : Value) (declared : Bool) (index : Option Nat) :
    ({ c.withValue v with declared := declared, index := index } : Column).readText =
      c.readText := rfl

end Column

namespace Table

variable {t u : Table}

theorem position?_eq_some_iff {name : String} {j : Nat} : t.position? name = some j ↔
    ∃ hj : j < t.columns.length, t.columns[j].name = name ∧
      ∀ k (hk : k < j), t.columns[k].name ≠ name := by
  unfold position?
  rw [List.findIdx?_eq_some_iff_getElem]
  simp only [beq_iff_eq]

theorem declared_of_ofText {s : String} (h : ofText s = .ok t) :
    t.version ≤ maxWord32 ∧ ∃ declarations, columnsOf declarations = .ok t.columns := by
  have hcurrent : currentVersion ≤ maxWord32 := by decide
  unfold ofText at h
  dsimp only at h
  split at h
  · cases h
    exact ⟨hcurrent, [], rfl⟩
  · split at h
    · -- Only the last branch has columns: the lines before them and their count are in order.
      unfold ofLines at h
      dsimp only at h
      split at h
      · cases h
      · next version hversion =>
          split at h
          · cases h
          · split at h
            · cases h
            · split at h
              · cases h
              · next hcolumns =>
                  split at h
                  · cases h
                    exact ⟨Text.Numeral.le_of_unsignedUpTo? hversion, _, hcolumns⟩
                  · cases h
    · unfold ofInline at h
      split at h
      · cases h
      · obtain ⟨columns, hcolumns, rfl⟩ := map_ok h
        exact ⟨hcurrent, _, hcolumns⟩

theorem configured_of_ofJson {json : Json} (h : ofJson json = .ok t) :
    t.version ≤ maxWord32 ∧ ∃ items : List Json, items.mapM Column.ofJson = .ok t.columns := by
  have hcurrent : currentVersion ≤ maxWord32 := by decide
  have hversion : ∀ version : Option Json,
      (version.bind Json.word32?).getD currentVersion ≤ maxWord32 := by
    intro version
    cases hword : version.bind Json.word32? with
    | none => exact hcurrent
    | some n =>
        obtain ⟨value, -, hvalue⟩ := Option.bind_eq_some_iff.1 hword
        exact of_decide_eq_true (Option.filter_eq_some_iff.1 hvalue).2
  unfold ofJson at h
  split at h
  · cases h
    exact ⟨hcurrent, [], rfl⟩
  · obtain ⟨columns, hcolumns, rfl⟩ := map_ok h
    exact ⟨hcurrent, _, hcolumns⟩
  · split at h
    · obtain ⟨columns, hcolumns, rfl⟩ := map_ok h
      exact ⟨hversion _, _, hcolumns⟩
    · cases h
  · cases h

theorem reachable_of_ofText {s : String} (h : ofText s = .ok t) : ∀ c ∈ t.columns, c.Reachable := by
  obtain ⟨-, declarations, hcolumns⟩ := declared_of_ofText h
  intro c hc
  obtain ⟨cs, -, hcs⟩ := exists_of_mem_mapM_ok hcolumns hc
  exact Column.reachable_of_ofDeclaration hcs

theorem reachable_of_ofJson {json : Json} (h : ofJson json = .ok t) :
    ∀ c ∈ t.columns, c.Reachable := by
  obtain ⟨-, items, hcolumns⟩ := configured_of_ofJson h
  intro c hc
  obtain ⟨json, -, hjson⟩ := exists_of_mem_mapM_ok hcolumns hc
  exact Column.reachable_of_ofJson hjson

/-- The columns `ds` read their cells as the columns `cs` do, and can come about if these can. -/
structure ReadsAlike (cs ds : List Column) : Prop where
  readers : ds.map Column.readText = cs.map Column.readText
  reachable : (∀ c ∈ cs, c.Reachable) → ∀ d ∈ ds, d.Reachable

theorem ReadsAlike.refl (cs : List Column) : ReadsAlike cs cs := ⟨rfl, id⟩

theorem ReadsAlike.trans {cs ds es : List Column} (h : ReadsAlike cs ds) (h' : ReadsAlike ds es) :
    ReadsAlike cs es :=
  ⟨h'.readers.trans h.readers, fun hc => h'.reachable (h.reachable hc)⟩

theorem ReadsAlike.cons {c d : Column} {cs ds : List Column} (hreader : d.readText = c.readText)
    (hreach : c.Reachable → d.Reachable) (h : ReadsAlike cs ds) :
    ReadsAlike (c :: cs) (d :: ds) := by
  refine ⟨?_, ?_⟩
  · rw [List.map_cons, List.map_cons, hreader, h.readers]
  · intro hc
    rw [List.forall_mem_cons] at hc ⊢
    exact ⟨hreach hc.1, h.reachable hc.2⟩

theorem ReadsAlike.ne_nil_iff {cs ds : List Column} (h : ReadsAlike cs ds) :
    ds ≠ [] ↔ cs ≠ [] := by
  rw [ne_eq, ne_eq, ← List.map_eq_nil_iff (f := Column.readText), h.readers, List.map_eq_nil_iff]

theorem readsAlike_mergeColumn (value : Column) (columns : List Column) :
    ReadsAlike columns (mergeColumn value columns).1 := by
  induction columns with
  | nil => exact .refl _
  | cons c rest ih =>
      unfold mergeColumn
      split
      · split
        · exact .refl _
        · split
          · next merged hmerged =>
              refine .cons ?_ (fun hc => .mergedValue hc hmerged) (.refl rest)
              obtain ⟨v, rfl⟩ := Column.mergeValue?_frame hmerged
              exact c.readText_withValue v true c.index
          · exact .refl _
      · exact .cons rfl id ih

theorem readsAlike_mergeAll (columns : List Column) (merged : Nat) (values : List Column) :
    ReadsAlike columns (mergeAll columns merged values).1 := by
  induction values generalizing columns merged with
  | nil => exact .refl _
  | cons value rest ih =>
      unfold mergeAll
      split
      · exact (readsAlike_mergeColumn value columns).trans (ih _ _)
      · exact ih _ _

theorem readsAlike_mergeValues (t : Table) (values : List Column) :
    ReadsAlike t.columns (t.mergeValues values).1.columns :=
  readsAlike_mergeAll t.columns 0 values

theorem readsAlike_placeFrom {start : Nat} {columns placed : List Column}
    (h : placeFrom start columns = .ok placed) : ReadsAlike columns placed := by
  induction columns generalizing start placed with
  | nil =>
      cases h
      exact .refl _
  | cons c rest ih =>
      obtain ⟨c', hc', h⟩ := bind_ok h
      obtain ⟨rest', hrest', h⟩ := bind_ok h
      cases h
      refine .cons ?_ (fun hc => .placed hc hc') (ih hrest')
      rw [Column.setIndex_frame hc']
      exact c.readText_withValue c.cell.value c.declared _

theorem readsAlike_finalize (h : t.finalize = .ok u) :
    t.columns ≠ [] ∧ ReadsAlike t.columns u.columns := by
  unfold finalize at h
  split at h
  · cases h
  · next hsome =>
      obtain ⟨placed, hplaced, rfl⟩ := map_ok h
      exact ⟨by simpa using hsome, readsAlike_placeFrom hplaced⟩

end Table

end RowStream
