import Mathlib.Data.List.Nodup
import RowStream.Proofs.Service.Operation
import RowStream.Proofs.Table
import RowStream.Source.Values

/-!
# Requests for the whole result

A request that names no columns is answered in the columns of the result. The stream finds the cells
of each by the name of the column, and so in the first column of that name. What is delivered are
the columns of the result one by one exactly when no two of them have the same name.
-/

namespace RowStream

namespace Table

variable [Zone.Catalogue] {t : Table}

theorem placeFrom_of_free (start : Nat) {columns : List Column}
    (h : ∀ c ∈ columns, c.index = none) : placeFrom start columns =
      .ok (columns.mapIdx fun i c => { c with index := some (start + i) }) := by
  induction columns generalizing start with
  | nil => rfl
  | cons c rest ih =>
      rw [List.forall_mem_cons] at h
      have hplaced : c.setIndex start = .ok { c with index := some start } := by
        unfold Column.setIndex
        rw [h.1]
      have hshift : ∀ i, start + 1 + i = start + (i + 1) := by omega
      unfold placeFrom
      rw [hplaced, ih (start + 1) h.2, List.mapIdx_cons]
      simp only [hshift]
      rfl

/-- The table with its columns in their places. -/
def placed (t : Table) : Table :=
  { t with columns := t.columns.mapIdx fun i c => { c with index := some i } }

theorem getElem?_placed (t : Table) (i : Nat) :
    t.placed.columns[i]? = t.columns[i]?.map fun c => { c with index := some i } :=
  List.getElem?_mapIdx

theorem finalize_of_free (hsome : t.columns ≠ []) (hfree : ∀ c ∈ t.columns, c.index = none) :
    t.finalize = .ok t.placed := by
  have hempty : t.columns.isEmpty = false := by simpa using hsome
  unfold finalize placed
  rw [hempty, placeFrom_of_free 0 hfree]
  simp only [Nat.zero_add]
  rfl

theorem exists_position? {i : Nat} {c : Column} (h : t.columns[i]? = some c) :
    ∃ j, t.position? c.name = some j ∧ j ≤ i := by
  obtain ⟨hi, hc⟩ := List.getElem?_eq_some_iff.1 h
  have hfound : (t.position? c.name).isSome = true := by
    unfold position?
    rw [List.findIdx?_isSome, List.any_eq_true]
    exact ⟨c, List.mem_of_getElem? h, beq_self_eq_true _⟩
  obtain ⟨j, hj⟩ := Option.isSome_iff_exists.1 hfound
  obtain ⟨_, _, hfirst⟩ := position?_eq_some_iff.1 hj
  refine ⟨j, hj, ?_⟩
  by_contra hlt
  exact hfirst i (Nat.lt_of_not_le hlt) (by rw [hc])

theorem position?_iff_nodup :
    (∀ i c, t.columns[i]? = some c → t.position? c.name = some i) ↔ t.names.Nodup := by
  have hname : ∀ i (hi : i < t.names.length),
      ∃ c, t.columns[i]? = some c ∧ c.name = t.names[i] := by
    intro i hi
    unfold names at hi ⊢
    rw [List.length_map] at hi
    exact ⟨t.columns[i], List.getElem?_eq_getElem hi, (List.getElem_map Column.name).symm⟩
  rw [List.nodup_iff_injective_getElem]
  constructor
  · rintro h ⟨i, hi⟩ ⟨j, hj⟩ hij
    obtain ⟨c, hc, hcname⟩ := hname i hi
    obtain ⟨d, hd, hdname⟩ := hname j hj
    have hsame : c.name = d.name := by rw [hcname, hdname]; exact hij
    have hplace : some i = some j := by rw [← h i c hc, ← h j d hd, hsame]
    exact Fin.ext (Option.some.inj hplace)
  · intro hinj i c hc
    obtain ⟨j, hj, hle⟩ := exists_position? hc
    obtain ⟨hi, rfl⟩ := List.getElem?_eq_some_iff.1 hc
    obtain ⟨hj', hsame, -⟩ := position?_eq_some_iff.1 hj
    have hi' : i < t.names.length := by simpa [names] using hi
    have hj'' : j < t.names.length := by simpa [names] using hj'
    have hfin : (⟨j, hj''⟩ : Fin t.names.length) = ⟨i, hi'⟩ := by
      apply hinj
      simpa [names] using hsame
    rw [hj, Fin.mk.inj hfin]

end Table

namespace QueryService

section Zones

variable [Zone.Catalogue] {request : QueryRequest} {result : Table} {params : Parameters}

omit [Zone.Catalogue] in
theorem requested?_eq_none (h : ∀ text ∈ request.columns, Text.trimmed text = "") :
    request.requested? = none := by
  unfold QueryRequest.requested?
  cases hcolumns : request.columns with
  | none => rfl
  | some text =>
      have hblank : Text.trimmed text = "" := h text hcolumns
      simp [hblank]

section Stream

variable (source : DataSource) {requested : Table}

/-- A column of the result, as the stream resolves it. -/
def wholeColumn (result : Table) (c : Column) : ResolvedColumn :=
  ⟨c, .result ((result.position? c.name).getD 0), StreamRequest.layoutIn source.zone c⟩

theorem resolveColumn_of_result (hsource : params.withSourceColumn = false)
    (hcustom : params.withCustomColumns = false) {c : Column}
    (hc : ∃ j, result.position? c.name = some j) :
    (streamOf source requested result params).resolveColumn c =
      .ok (wholeColumn source result c) := by
  obtain ⟨j, hj⟩ := hc
  have hnone : ((streamOf source requested result params).custom.column? c.name).filter
      (fun _ => (streamOf source requested result params).params.withCustomColumns) = none := by
    change Option.filter (fun _ => params.withCustomColumns) _ = none
    rw [hcustom]
    simp
  have horigin : (streamOf source requested result params).origin? c.name = some (.result j) := by
    unfold StreamRequest.origin?
    rw [hnone]
    change (if params.withSourceColumn && _ then _ else
      (result.position? c.name).map Origin.result) = _
    rw [hsource, hj]
    rfl
  unfold StreamRequest.resolveColumn wholeColumn
  rw [horigin, hj]
  rfl

theorem resolve_placed (hsource : params.withSourceColumn = false)
    (hcustom : params.withCustomColumns = false) :
    (streamOf source result.placed result params).resolve =
      .ok (result.placed.columns.map (wholeColumn source result)) := by
  apply mapM_ok_of_forall
  intro c hc
  obtain ⟨i, hi⟩ := List.mem_iff_getElem?.1 hc
  change result.placed.columns[i]? = some c at hi
  rw [Table.getElem?_placed, Option.map_eq_some_iff] at hi
  obtain ⟨d, hd, rfl⟩ := hi
  obtain ⟨j, hj, -⟩ := Table.exists_position? hd
  exact resolveColumn_of_result source hsource hcustom ⟨j, hj⟩

/-- A request that names no columns is answered in the columns of the result, each with its type
and its layout, and with the cells of the first column of its name. These are the cells of the
column itself, for all columns, exactly when no name stands twice. -/
theorem resolve_whole_result (hrequest : ∀ text ∈ request.columns, Text.trimmed text = "")
    (hsome : result.columns ≠ []) (hfree : ∀ c ∈ result.columns, c.index = none)
    (hsource : params.withSourceColumn = false) (hcustom : params.withCustomColumns = false) :
    ∃ (requested : Table) (resolved : List ResolvedColumn),
      requestedColumns request result = .ok requested ∧
      (streamOf source requested result params).resolve = .ok resolved ∧
      resolved.length = result.columns.length ∧
      (∀ i c, result.columns[i]? = some c → ∃ j, result.position? c.name = some j ∧ j ≤ i ∧
        resolved[i]? = some
          ⟨{ c with index := some i }, .result j, StreamRequest.layoutIn source.zone c⟩) ∧
      ((∀ (i : Nat) (r : ResolvedColumn), resolved[i]? = some r → r.origin = .result i) ↔
        result.names.Nodup) := by
  have hrequested : requestedColumns request result = .ok result.placed := by
    unfold requestedColumns
    rw [requested?_eq_none hrequest]
    exact Table.finalize_of_free hsome hfree
  have hresolved : ∀ i, (result.placed.columns.map (wholeColumn source result))[i]? =
      result.columns[i]?.map fun c =>
        (⟨{ c with index := some i }, .result ((result.position? c.name).getD 0),
          StreamRequest.layoutIn source.zone c⟩ : ResolvedColumn) := by
    intro i
    rw [List.getElem?_map, Table.getElem?_placed, Option.map_map]
    rfl
  refine ⟨result.placed, result.placed.columns.map (wholeColumn source result), hrequested,
    resolve_placed source hsource hcustom, by simp [Table.placed], ?_, ?_⟩
  · intro i c hc
    obtain ⟨j, hj, hle⟩ := Table.exists_position? hc
    refine ⟨j, hj, hle, ?_⟩
    rw [hresolved i, hc, Option.map_some, hj, Option.getD_some]
  · -- The origin of a column is the place of its name, its own when the names are distinct.
    rw [← Table.position?_iff_nodup]
    simp only [hresolved, Option.map_eq_some_iff]
    constructor
    · intro h i c hc
      obtain ⟨j, hj, -⟩ := Table.exists_position? hc
      have horigin := h i _ ⟨c, hc, rfl⟩
      rw [hj, Option.getD_some] at horigin
      rw [hj, Origin.result.inj horigin]
    · rintro h i r ⟨c, hc, rfl⟩
      rw [h i c hc, Option.getD_some]

end Stream

end Zones

def countColumn : Column :=
  { name := "n"
    type := .int32
    nullable := false
    length := 0
    precision := 11
    scale := 0
    zone := none
    options := []
    cell := ⟨"n", .int32, .int32 0, .int32 0, 0⟩
    declared := false
    index := none }

def twins : FixedValues :=
  { id := "twins"
    columns := Table.ofColumns [countColumn, countColumn]
    rows := [[some (.int32 1), some (.int32 2)]]
    custom := Table.empty
    defaults := Defaults.initial
    zone := none }

def twinsService : QueryService :=
  ⟨.builtin, ⟨[("twins", twins.dataSource)]⟩, .ofSettings {}, {}⟩

def twinsRequest : QueryRequest := ⟨"twins", "", none, []⟩

theorem resolve_whole_result_twins :
    ∃ requested resolved, requestedColumns twinsRequest twins.columns = .ok requested ∧
      (streamOf twins.dataSource requested twins.columns (.ofSettings {})).resolve = .ok resolved ∧
      ¬∀ (i : Nat) (r : ResolvedColumn), resolved[i]? = some r → r.origin = .result i := by
  have hrequest : ∀ text ∈ twinsRequest.columns, Text.trimmed text = "" := by
    intro text htext
    cases htext
  obtain ⟨requested, resolved, hrequested, hresolve, -, -, hown⟩ :=
    resolve_whole_result twins.dataSource hrequest
      (show twins.columns.columns ≠ [] by decide) (by decide)
      (show (Parameters.ofSettings {}).withSourceColumn = false from rfl) rfl
  refine ⟨requested, resolved, hrequested, hresolve, ?_⟩
  rw [hown]
  decide

/-- The cells of the second column are nowhere in the answer. -/
theorem execute_twins :
    FixedValues.ofJson "twins" (.obj [("type", .str "values"),
        ("columns", .arr [
          .obj [("name", .str "n"), ("type", .str "Int32"), ("nullable", .bool false)],
          .obj [("name", .str "n"), ("type", .str "Int32"), ("nullable", .bool false)]]),
        ("rows", .arr [.arr [.ofInt 1, .ofInt 2]])]) = .ok twins ∧
      (twinsService.execute twinsRequest Collector.sink (.still 0) {}).2.2.batches =
        [[1, 0, 0, 0, 1, 0, 0, 0]] :=
  ⟨ok_of_toOption (by decide +kernel), by decide +kernel⟩

end QueryService

end RowStream
