import Mathlib.Data.List.Forall2
import RowStream.Proofs.Column.WellFormed
import RowStream.Proofs.Table

/-!
# Defaults filled in

Of the columns that offer a default to a column of a table the first one gives it, and what has a
default of its own or stands behind another column of its name receives none. A column that has
received a default declares it, so that no later one takes its place and filling in once more
changes nothing.
-/

namespace RowStream

namespace Column

variable [Zone.Catalogue]

/-- The column with the default of another one, which it declares from then on. -/
def takeDefault (c v : Column) : Column := { c.withValue v.cell.value with declared := true }

/-- The column `v` declares a default for columns of its name, type and scale. -/
structure Offers (v c : Column) : Prop where
  name : v.name = c.name
  declares : v.declaresDefault = true
  type : v.type = c.type
  scale : v.scale = c.scale

instance (v c : Column) : Decidable (v.Offers c) :=
  decidable_of_iff (v.name = c.name ∧ v.declaresDefault = true ∧ v.type = c.type ∧ v.scale = c.scale)
    ⟨fun ⟨hname, hdeclares, htype, hscale⟩ => ⟨hname, hdeclares, htype, hscale⟩,
      fun h => ⟨h.name, h.declares, h.type, h.scale⟩⟩

/-- The first column that has a default for the column. -/
def donor? (vs : List Column) (c : Column) : Option Column := vs.find? fun v => v.Offers c

/-- What becomes of a column that is the first of its name. -/
def filled (vs : List Column) (c : Column) : Column :=
  if c.declaresDefault then c else ((donor? vs c).map c.takeDefault).getD c

def offered (v c : Column) : Column :=
  if c.declaresDefault then c else (c.mergeValue? v).getD c

variable {c v : Column} {vs : List Column}

@[simp] theorem declaresDefault_takeDefault (c v : Column) :
    (c.takeDefault v).declaresDefault = true := rfl

theorem mergeValue?_eq (hc : c.cell.name = c.name) (hv : v.cell.name = v.name)
    (hname : v.name = c.name) : c.mergeValue? v =
      if v.type = c.type ∧ v.scale = c.scale then some (c.takeDefault v) else none := by
  have hcell : v.cell.name = c.cell.name := by rw [hv, hname, hc]
  unfold mergeValue? Cell.merge?
  rw [if_pos hcell]
  rfl

/-- Two columns that differ at most in their default and in whether it is declared. -/
def Redefaulted (c d : Column) : Prop :=
  ∃ v declared, d = { c.withValue v with declared := declared }

theorem Redefaulted.refl (c : Column) : c.Redefaulted c := ⟨c.cell.value, c.declared, rfl⟩

theorem Redefaulted.name {d : Column} (h : c.Redefaulted d) : d.name = c.name := by
  obtain ⟨v, declared, rfl⟩ := h
  rfl

theorem Redefaulted.cellName {d : Column} (h : c.Redefaulted d) : d.cell.name = c.cell.name := by
  obtain ⟨v, declared, rfl⟩ := h
  rfl

theorem Redefaulted.ite {d : Column} (h : c.Redefaulted d) (p : Prop) [Decidable p] :
    c.Redefaulted (if p then d else c) := by
  split
  · exact h
  · exact .refl c

theorem redefaulted_offered (v c : Column) : c.Redefaulted (offered v c) := by
  unfold offered
  split
  · exact .refl c
  · cases hmerge : c.mergeValue? v with
    | none => exact .refl c
    | some d =>
        obtain ⟨w, rfl⟩ := mergeValue?_frame hmerge
        exact ⟨w, true, rfl⟩

theorem donor?_cons_of_not_offers (h : ¬v.Offers c) (vs : List Column) :
    donor? (v :: vs) c = donor? vs c :=
  List.find?_cons_of_neg (by simpa using h)

theorem filled_cons_of_not_offers (h : ¬v.Offers c) (vs : List Column) :
    filled (v :: vs) c = filled vs c := by
  unfold filled
  rw [donor?_cons_of_not_offers h]

theorem filled_of_declaresDefault (h : c.declaresDefault = true) (vs : List Column) :
    filled vs c = c :=
  if_pos h

/-- A default that is held out to a column of its name comes before those that follow it. -/
theorem filled_offered (hc : c.cell.name = c.name) (hv : v.cell.name = v.name)
    (hname : v.name = c.name) (hdeclares : v.declaresDefault = true) (vs : List Column) :
    filled vs (offered v c) = filled (v :: vs) c := by
  unfold offered
  cases hown : c.declaresDefault with
  | true =>
      rw [if_pos rfl, filled_of_declaresDefault hown, filled_of_declaresDefault hown]
  | false =>
      rw [if_neg Bool.false_ne_true, mergeValue?_eq hc hv hname]
      by_cases hsame : v.type = c.type ∧ v.scale = c.scale
      · have hoffers : v.Offers c := ⟨hname, hdeclares, hsame.1, hsame.2⟩
        have hdonor : donor? (v :: vs) c = some v := List.find?_cons_of_pos (decide_eq_true hoffers)
        rw [if_pos hsame, Option.getD_some, filled_of_declaresDefault rfl]
        unfold filled
        rw [hown, hdonor]
        rfl
      · rw [if_neg hsame, Option.getD_none]
        exact (filled_cons_of_not_offers (fun h => hsame ⟨h.type, h.scale⟩) vs).symm

theorem filled_cases (vs : List Column) (c : Column) :
    filled vs c = c ∨ c.declaresDefault = false ∧ ∃ v, filled vs c = c.takeDefault v := by
  unfold filled
  cases hown : c.declaresDefault with
  | true => exact .inl rfl
  | false =>
      cases donor? vs c with
      | none => exact .inl rfl
      | some v => exact .inr ⟨rfl, v, rfl⟩

theorem redefaulted_filled (vs : List Column) (c : Column) : c.Redefaulted (filled vs c) := by
  rcases filled_cases vs c with h | ⟨-, v, h⟩
  · rw [h]
    exact .refl c
  · rw [h]
    exact ⟨v.cell.value, true, rfl⟩

theorem filled_filled (vs : List Column) (c : Column) : filled vs (filled vs c) = filled vs c := by
  rcases filled_cases vs c with h | ⟨-, v, h⟩
  · rw [h, h]
  · rw [h]
    exact filled_of_declaresDefault rfl vs

end Column

namespace Table

section Zones

variable [Zone.Catalogue]

open Column

def firstPlace (columns : List Column) (name : String) : Option Nat :=
  columns.findIdx? fun c => c.name == name

variable {columns : List Column}

theorem name_of_firstPlace {name : String} {i : Nat} {c : Column}
    (h : firstPlace columns name = some i) (hc : columns[i]? = some c) : c.name = name := by
  obtain ⟨hi, hname, -⟩ := List.findIdx?_eq_some_iff_getElem.1 h
  rw [List.getElem?_eq_getElem hi] at hc
  rw [← Option.some.inj hc]
  exact beq_iff_eq.1 hname

theorem mergeColumn_cons_of_eq {v c : Column} (hname : c.name = v.name) (columns : List Column) :
    (mergeColumn v (c :: columns)).1 = offered v c :: columns := by
  unfold mergeColumn offered
  rw [if_pos hname]
  split
  · rfl
  · cases c.mergeValue? v <;> rfl

theorem mergeColumn_cons_of_ne {v c : Column} (hname : c.name ≠ v.name) (columns : List Column) :
    mergeColumn v (c :: columns) =
      (c :: (mergeColumn v columns).1, (mergeColumn v columns).2) := by
  rw [mergeColumn, if_neg hname]

theorem getElem?_mergeColumn (v : Column) (columns : List Column) (i : Nat) :
    (mergeColumn v columns).1[i]? = columns[i]?.map fun c =>
      if firstPlace columns v.name = some i then offered v c else c := by
  induction columns generalizing i with
  | nil => rfl
  | cons c columns ih =>
      by_cases hname : c.name = v.name
      · have hplace : firstPlace (c :: columns) v.name = some 0 := by
          unfold firstPlace
          rw [List.findIdx?_cons, hname, beq_self_eq_true, if_pos rfl]
        rw [mergeColumn_cons_of_eq hname, hplace]
        cases i with
        | zero => rfl
        | succ i => simp
      · have hplace : firstPlace (c :: columns) v.name = (firstPlace columns v.name).map (· + 1) := by
          unfold firstPlace
          rw [List.findIdx?_cons, beq_false_of_ne hname, if_neg Bool.false_ne_true]
        rw [mergeColumn_cons_of_ne hname, hplace]
        cases i with
        | zero => simp
        | succ i => simpa using ih i

theorem firstPlace_eq (columns : List Column) (name : String) :
    firstPlace columns name = (columns.map Column.name).findIdx? fun n => n == name := by
  unfold firstPlace
  rw [List.findIdx?_map]
  rfl

section Places

variable {changed : List Column} {f : Nat → Column → Column}
  (hf : ∀ (i : Nat) (c : Column), c.Redefaulted (f i c)) (h : ∀ i, changed[i]? = columns[i]?.map (f i))
include hf h

theorem firstPlace_of_redefaulted (name : String) :
    firstPlace changed name = firstPlace columns name := by
  have hnames : changed.map Column.name = columns.map Column.name := by
    apply List.ext_getElem?
    intro i
    rw [List.getElem?_map, List.getElem?_map, h, Option.map_map]
    congr 1
    funext c
    exact (hf i c).name
  rw [firstPlace_eq, hnames, ← firstPlace_eq]

theorem cellName_of_redefaulted (hcolumns : ∀ c ∈ columns, c.cell.name = c.name) :
    ∀ c ∈ changed, c.cell.name = c.name := by
  intro d hd
  obtain ⟨i, hi⟩ := List.mem_iff_getElem?.1 hd
  rw [h] at hi
  obtain ⟨c, hc, rfl⟩ := Option.map_eq_some_iff.1 hi
  rw [(hf i c).cellName, (hf i c).name, hcolumns c (List.mem_of_getElem? hc)]

end Places

theorem firstPlace_mergeColumn (v : Column) (columns : List Column) (name : String) :
    firstPlace (mergeColumn v columns).1 name = firstPlace columns name :=
  firstPlace_of_redefaulted (fun _ c => (redefaulted_offered v c).ite _)
    (getElem?_mergeColumn v columns) name

theorem cellName_mergeColumn (v : Column) (h : ∀ c ∈ columns, c.cell.name = c.name) :
    ∀ c ∈ (mergeColumn v columns).1, c.cell.name = c.name :=
  cellName_of_redefaulted (fun _ c => (redefaulted_offered v c).ite _)
    (getElem?_mergeColumn v columns) h

/-- The columns with those filled in that are the first of their names. -/
def fillIn (vs columns : List Column) : List Column :=
  columns.mapIdx fun i c => if firstPlace columns c.name = some i then filled vs c else c

theorem getElem?_fillIn (vs columns : List Column) (i : Nat) : (fillIn vs columns)[i]? =
    columns[i]?.map fun c => if firstPlace columns c.name = some i then filled vs c else c :=
  List.getElem?_mapIdx

theorem length_fillIn (vs columns : List Column) : (fillIn vs columns).length = columns.length :=
  List.length_mapIdx

theorem firstPlace_fillIn (vs columns : List Column) (name : String) :
    firstPlace (fillIn vs columns) name = firstPlace columns name :=
  firstPlace_of_redefaulted (fun _ c => (redefaulted_filled vs c).ite _)
    (getElem?_fillIn vs columns) name

theorem cellName_fillIn (vs : List Column) (h : ∀ c ∈ columns, c.cell.name = c.name) :
    ∀ c ∈ fillIn vs columns, c.cell.name = c.name :=
  cellName_of_redefaulted (fun _ c => (redefaulted_filled vs c).ite _)
    (getElem?_fillIn vs columns) h

theorem fillIn_fillIn (vs columns : List Column) :
    fillIn vs (fillIn vs columns) = fillIn vs columns := by
  apply List.ext_getElem?
  intro i
  rw [getElem?_fillIn, getElem?_fillIn, Option.map_map]
  congr 1
  funext c
  rw [Function.comp_apply, firstPlace_fillIn]
  by_cases hfirst : firstPlace columns c.name = some i
  · rw [if_pos hfirst, (redefaulted_filled vs c).name, if_pos hfirst, filled_filled]
  · rw [if_neg hfirst, if_neg hfirst]

/-- Every column that is the first of its name is filled in, and the others are kept. -/
theorem mergeAll_eq_fillIn {values : List Column} (hvalues : ∀ v ∈ values, v.cell.name = v.name)
    (hcolumns : ∀ c ∈ columns, c.cell.name = c.name) (merged : Nat) :
    (mergeAll columns merged values).1 = fillIn values columns := by
  induction values generalizing columns merged with
  | nil =>
      apply List.ext_getElem?
      intro i
      have hkept : ∀ c, filled [] c = c := fun c => ite_self c
      simp [mergeAll, getElem?_fillIn, hkept]
  | cons v values ih =>
      rw [List.forall_mem_cons] at hvalues
      unfold mergeAll
      by_cases hdeclares : v.declaresDefault = true
      · rw [if_pos hdeclares]
        refine (ih hvalues.2 (cellName_mergeColumn v hcolumns) _).trans ?_
        apply List.ext_getElem?
        intro i
        rw [getElem?_fillIn, getElem?_fillIn, getElem?_mergeColumn]
        cases hc : columns[i]? with
        | none => rfl
        | some c =>
            have hcell := hcolumns c (List.mem_of_getElem? hc)
            simp only [Option.map_some, Option.some.injEq, firstPlace_mergeColumn]
            by_cases hplace : firstPlace columns v.name = some i
            · have hname := name_of_firstPlace hplace hc
              rw [if_pos hplace, (redefaulted_offered v c).name, hname, if_pos hplace, if_pos hplace]
              exact filled_offered hcell hvalues.1 hname.symm hdeclares values
            · rw [if_neg hplace]
              by_cases hfirst : firstPlace columns c.name = some i
              · have hother : ¬v.Offers c := fun h => hplace (h.name ▸ hfirst)
                rw [if_pos hfirst, if_pos hfirst, filled_cons_of_not_offers hother]
              · rw [if_neg hfirst, if_neg hfirst]
      · have hother : ∀ c, ¬v.Offers c := fun c h => hdeclares h.declares
        rw [if_neg hdeclares]
        refine (ih hvalues.2 hcolumns merged).trans ?_
        unfold fillIn
        simp only [filled_cons_of_not_offers (hother _)]

def declaring (columns : List Column) : Nat := columns.countP Column.declaresDefault

theorem declaring_mergeColumn (v : Column) (columns : List Column) :
    declaring (mergeColumn v columns).1 =
      declaring columns + if (mergeColumn v columns).2 then 1 else 0 := by
  induction columns with
  | nil => rfl
  | cons c columns ih =>
      unfold declaring at ih ⊢
      by_cases hname : c.name = v.name
      · unfold mergeColumn
        rw [if_pos hname]
        split
        · rfl
        · next hown =>
            cases hmerge : c.mergeValue? v with
            | none => rfl
            | some d =>
                obtain ⟨w, rfl⟩ := mergeValue?_frame hmerge
                have hdeclares : ({ c.withValue w with declared := true } : Column).declaresDefault =
                    true := rfl
                rw [List.countP_cons_of_pos hdeclares, List.countP_cons_of_neg hown]
                rfl
      · rw [mergeColumn_cons_of_ne hname, List.countP_cons, List.countP_cons, ih]
        dsimp only
        omega

theorem declaring_mergeAll (columns : List Column) (merged : Nat) (values : List Column) :
    merged + declaring (mergeAll columns merged values).1 =
      (mergeAll columns merged values).2 + declaring columns := by
  induction values generalizing columns merged with
  | nil => rfl
  | cons v values ih =>
      unfold mergeAll
      split
      · have hstep := declaring_mergeColumn v columns
        have hrest := ih (mergeColumn v columns).1
          (if (mergeColumn v columns).2 then merged + 1 else merged)
        dsimp only
        split at hrest
        · next htaken =>
            rw [if_pos htaken] at hstep ⊢
            omega
        · next htaken =>
            rw [if_neg htaken] at hstep ⊢
            omega
      · exact ih columns merged

/-- How many places the columns differ at. -/
def changes (columns changed : List Column) : Nat :=
  (columns.zip changed).countP fun p => p.1 ≠ p.2

theorem declaring_add_changes {changed : List Column}
    (h : List.Forall₂ (fun c d => d = c ∨ c.declaresDefault = false ∧ d.declaresDefault = true)
      columns changed) : declaring columns + changes columns changed = declaring changed := by
  unfold declaring changes
  induction h with
  | nil => rfl
  | @cons c d _ _ hcd _ ih =>
      rw [List.zip_cons_cons, List.countP_cons, List.countP_cons, List.countP_cons, ← ih]
      rcases hcd with rfl | ⟨hc, hd⟩
      · simp
        omega
      · have hne : c ≠ d := by
          rintro rfl
          rw [hc] at hd
          cases hd
        simp [hne, hc, hd]
        omega

theorem declaring_add_changes_fillIn (vs columns : List Column) :
    declaring columns + changes columns (fillIn vs columns) = declaring (fillIn vs columns) := by
  apply declaring_add_changes
  rw [List.forall₂_iff_get]
  refine ⟨(length_fillIn vs columns).symm, ?_⟩
  intro i hi hi'
  have hget : (fillIn vs columns).get ⟨i, hi'⟩ =
      if firstPlace columns columns[i].name = some i then filled vs columns[i] else columns[i] :=
    List.getElem_mapIdx
  rw [hget, List.get_eq_getElem]
  split
  · rcases filled_cases vs columns[i] with h | ⟨hown, v, h⟩
    · exact .inl h
    · exact .inr ⟨hown, by rw [h, declaresDefault_takeDefault]⟩
  · exact .inl rfl

/-- The column `c` stands at place `i` of the table as the first of its name, declares no default,
and `v` is the first of the columns that have one for it. -/
structure Receives (t : Table) (vs : List Column) (i : Nat) (c v : Column) : Prop where
  place : t.columns[i]? = some c
  first : t.position? c.name = some i
  undeclared : c.declaresDefault = false
  donor : vs.find? (fun v => v.Offers c) = some v

theorem Receives.filled {t : Table} {vs : List Column} {i : Nat} {c v : Column}
    (h : t.Receives vs i c v) : Column.filled vs c = c.takeDefault v := by
  unfold Column.filled donor?
  rw [h.undeclared, h.donor]
  rfl

section Merged

variable {t : Table} {vs : List Column} (ht : ∀ c ∈ t.columns, c.Obtained)
  (hvs : ∀ v ∈ vs, v.Obtained)
include ht hvs

theorem columns_mergeValues : (t.mergeValues vs).1.columns = fillIn vs t.columns :=
  mergeAll_eq_fillIn (fun v hv => (hvs v hv).wellFormed.cellName)
    (fun c hc => (ht c hc).wellFormed.cellName) 0

theorem receives_or_kept {i : Nat} {c : Column} (hc : t.columns[i]? = some c) :
    (∃ v, t.Receives vs i c v ∧ (t.mergeValues vs).1.columns[i]? = some (c.takeDefault v)) ∨
      (∀ v, ¬t.Receives vs i c v) ∧ (t.mergeValues vs).1.columns[i]? = some c := by
  rw [columns_mergeValues ht hvs, getElem?_fillIn, hc, Option.map_some]
  by_cases hfirst : firstPlace t.columns c.name = some i
  · rw [if_pos hfirst]
    cases hown : c.declaresDefault with
    | true =>
        refine .inr ⟨fun v h => ?_, by rw [filled_of_declaresDefault hown]⟩
        rw [h.undeclared] at hown
        cases hown
    | false =>
        cases hdonor : vs.find? (fun v => v.Offers c) with
        | none =>
            refine .inr ⟨fun v h => ?_, ?_⟩
            · rw [h.donor] at hdonor
              cases hdonor
            · unfold Column.filled donor?
              rw [hown, hdonor]
              rfl
        | some v =>
            have hreceives : t.Receives vs i c v := ⟨hc, hfirst, hown, hdonor⟩
            exact .inl ⟨v, hreceives, by rw [hreceives.filled]⟩
  · rw [if_neg hfirst]
    exact .inr ⟨fun v h => hfirst h.first, rfl⟩

theorem count_mergeValues :
    (t.mergeValues vs).2 = changes t.columns (t.mergeValues vs).1.columns := by
  have hcount := declaring_mergeAll t.columns 0 vs
  have hchanges := declaring_add_changes_fillIn vs t.columns
  have hcolumns : (mergeAll t.columns 0 vs).1 = fillIn vs t.columns := columns_mergeValues ht hvs
  rw [hcolumns] at hcount
  rw [columns_mergeValues ht hvs]
  change (mergeAll t.columns 0 vs).2 = _
  omega

theorem mergeValues_mergeValues :
    (t.mergeValues vs).1.mergeValues vs = ((t.mergeValues vs).1, 0) := by
  have hcolumns := columns_mergeValues ht hvs
  have hagain : (mergeAll (fillIn vs t.columns) 0 vs).1 = fillIn vs t.columns := by
    rw [mergeAll_eq_fillIn (fun v hv => (hvs v hv).wellFormed.cellName)
      (cellName_fillIn vs fun c hc => (ht c hc).wellFormed.cellName), fillIn_fillIn]
  have hcount : (mergeAll (fillIn vs t.columns) 0 vs).2 = 0 := by
    have hdeclaring := declaring_mergeAll (fillIn vs t.columns) 0 vs
    rw [hagain] at hdeclaring
    omega
  have htable : (t.mergeValues vs).1 = ⟨t.version, fillIn vs t.columns⟩ :=
    congrArg (Table.mk t.version) hcolumns
  rw [htable]
  change (Table.mk t.version (mergeAll (fillIn vs t.columns) 0 vs).1,
    (mergeAll (fillIn vs t.columns) 0 vs).2) = _
  rw [hagain, hcount]

/-- Filling in defaults changes the columns that receive one and no others, nothing of them but
their default, counts them, and changes nothing when it is done again. -/
theorem mergeValues_fillsIn :
    (t.mergeValues vs).1.version = t.version ∧
      (t.mergeValues vs).1.columns.length = t.columns.length ∧
      (∀ i c v, t.Receives vs i c v →
        (t.mergeValues vs).1.columns[i]? = some (c.takeDefault v)) ∧
      (∀ i, (t.mergeValues vs).1.columns[i]? ≠ t.columns[i]? ↔ ∃ c v, t.Receives vs i c v) ∧
      (t.mergeValues vs).2 = changes t.columns (t.mergeValues vs).1.columns ∧
      (t.mergeValues vs).1.mergeValues vs = ((t.mergeValues vs).1, 0) := by
  have hlength : (t.mergeValues vs).1.columns.length = t.columns.length := by
    rw [columns_mergeValues ht hvs, length_fillIn]
  have htaken : ∀ i c v, t.Receives vs i c v →
      (t.mergeValues vs).1.columns[i]? = some (c.takeDefault v) := by
    intro i c v h
    rcases receives_or_kept ht hvs h.place with ⟨w, hw, hmerged⟩ | ⟨hnone, -⟩
    · have hsame : some w = some v := hw.donor.symm.trans h.donor
      rw [hmerged, Option.some.inj hsame]
    · exact absurd h (hnone v)
  refine ⟨rfl, hlength, htaken, ?_, count_mergeValues ht hvs, mergeValues_mergeValues ht hvs⟩
  intro i
  constructor
  · intro hchanged
    cases hc : t.columns[i]? with
    | none =>
        have hnone : (t.mergeValues vs).1.columns[i]? = none := by
          rw [List.getElem?_eq_none_iff, hlength, ← List.getElem?_eq_none_iff, hc]
        exact absurd (hnone.trans hc.symm) hchanged
    | some c =>
        rcases receives_or_kept ht hvs hc with ⟨v, hv, -⟩ | ⟨-, hkept⟩
        · exact ⟨c, v, hv⟩
        · exact absurd (hkept.trans hc.symm) hchanged
  · rintro ⟨c, v, h⟩ hkept
    rw [htaken i c v h, h.place] at hkept
    have hdeclares := congrArg Column.declaresDefault (Option.some.inj hkept)
    rw [declaresDefault_takeDefault, h.undeclared] at hdeclares
    cases hdeclares

end Merged

end Zones

def counter (type : ColumnType) (default : Option Value) : Column :=
  { name := "n"
    type := type
    nullable := false
    length := 0
    precision := type.maxPrecision
    scale := 0
    zone := none
    options := []
    cell := ⟨"n", type, .zero type, default.getD (.zero type), 0⟩
    declared := default.isSome
    index := none }

/-- The wider column does not stand in the way of the one behind it, and the second column of the
name is kept. -/
theorem mergeValues_fillsIn_counter :
    let t := ofColumns [counter .int32 none, counter .int32 none]
    let vs := [counter .int64 (some (.int64 5)), counter .int32 (some (.int32 0)),
      counter .int32 (some (.int32 7))]
    (∀ v ∈ vs, v.Obtained) ∧
      (t.mergeValues vs).1.columns[0]? = some (counter .int32 (some (.int32 0))) ∧
      (t.mergeValues vs).1.columns[1]? = some (counter .int32 none) ∧
      (t.mergeValues vs).2 = 1 ∧
      (t.mergeValues vs).1.mergeValues vs = ((t.mergeValues vs).1, 0) := by
  intro t vs
  have hnone : Column.ofDeclaration "n Int32" = .ok (counter .int32 none) :=
    ok_of_toOption (by decide +kernel)
  have hwide : Column.ofDeclaration "n Int64 DEFAULT 5" =
      .ok (counter .int64 (some (.int64 5))) := ok_of_toOption (by decide +kernel)
  have hzero : Column.ofDeclaration "n Int32 DEFAULT 0" =
      .ok (counter .int32 (some (.int32 0))) := ok_of_toOption (by decide +kernel)
  have hseven : Column.ofDeclaration "n Int32 DEFAULT 7" =
      .ok (counter .int32 (some (.int32 7))) := ok_of_toOption (by decide +kernel)
  have ht : ∀ c ∈ t.columns, c.Obtained := by
    intro c hc
    obtain rfl : c = counter .int32 none := by simpa [t, ofColumns] using hc
    exact .declared hnone
  have hvs : ∀ v ∈ vs, v.Obtained := by
    intro v hv
    simp only [vs, List.mem_cons, List.not_mem_nil, or_false] at hv
    rcases hv with rfl | rfl | rfl
    · exact .declared hwide
    · exact .declared hzero
    · exact .declared hseven
  obtain ⟨-, -, htaken, hchanged, hcount, hagain⟩ := mergeValues_fillsIn ht hvs
  have hreceives : t.Receives vs 0 (counter .int32 none) (counter .int32 (some (.int32 0))) :=
    ⟨rfl, by decide +kernel, by decide +kernel, by decide +kernel⟩
  have hsecond : (t.mergeValues vs).1.columns[1]? = t.columns[1]? := by
    by_contra hne
    obtain ⟨c, v, h⟩ := (hchanged 1).1 hne
    have hplace : some (counter .int32 none) = some c := h.place
    have hfirst := h.first
    rw [← Option.some.inj hplace] at hfirst
    revert hfirst
    decide +kernel
  exact ⟨hvs, htaken 0 _ _ hreceives, hsecond, hcount.trans (by decide +kernel), hagain⟩

end Table

end RowStream
