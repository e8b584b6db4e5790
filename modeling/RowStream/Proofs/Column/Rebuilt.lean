import RowStream.Proofs.Column.Normal

/-!
# Columns built again

The draft that is made of a column is built into the same column, and under another name into the
column of that name. Every clamp and every default of building is a fixed point on what it has
built, and what is done to a column afterwards changes no more than its value, its mark and its
place.
-/

namespace RowStream

/-- Whether the value is a floating-point NaN, which equals nothing. -/
def Value.isNaN : Value → Bool
  | .binary32 x => x.parts.isNaN
  | .binary64 x => x.parts.isNaN
  | _ => false

theorem Value.equal_of_not_isNaN {v : Value} (h : v.isNaN = false) : v.equal v = true := by
  cases v with
  | binary32 x =>
      change x.parts.isNaN = false at h
      change (!x.parts.isNaN && !x.parts.isNaN && (x == x || _)) = true
      rw [h, beq_self_eq_true]
      rfl
  | binary64 x =>
      change x.parts.isNaN = false at h
      change (!x.parts.isNaN && !x.parts.isNaN && (x == x || _)) = true
      rw [h, beq_self_eq_true]
      rfl
  | bool b | int32 n | int64 n | integer n | decimal d | text s => exact equal_self rfl

namespace Column

variable [Zone.Catalogue]

def withName (c : Column) (name : String) : Column :=
  { c with name := name, cell := { c.cell with name := name } }

end Column

namespace Draft

variable [Zone.Catalogue]

/-- A column of the shape that the draft is built into, with whatever has been done to it since. -/
def filled (d : Draft) (zone : Option Zone) (options : List (String × Int32)) (v : Value)
    (declared : Bool) (index : Option Nat) : Column :=
  { (d.shape zone options).withValue v with declared := declared, index := index }

end Draft

namespace Column

section Zones

variable [Zone.Catalogue] {c : Column}

/-- What is done to a column keeps the shape that it was built with. -/
theorem Reachable.exists_filled (h : c.Reachable) : ∃ d zone options v declared index,
    Draft.columnZone d = .ok zone ∧ d.columnOptions = .ok options ∧
      c = d.filled zone options v declared index := by
  induction h with
  | unspecified =>
      exact ⟨{ name := unnamed, type := .string }, none, [], .text "", false, none, rfl, rfl, rfl⟩
  | built h =>
      obtain ⟨zone, options, v, hzone, hoptions, rfl⟩ := shape_of_build h
      exact ⟨_, zone, options, v, _, _, hzone, hoptions, rfl⟩
  | mergedText _ h ih =>
      obtain ⟨d, zone, options, _, declared, index, hzone, hoptions, rfl⟩ := ih
      obtain ⟨v, rfl⟩ := mergeText_frame h
      exact ⟨d, zone, options, v, declared, index, hzone, hoptions, rfl⟩
  | mergedJson _ h ih =>
      obtain ⟨d, zone, options, _, declared, index, hzone, hoptions, rfl⟩ := ih
      obtain ⟨v, rfl⟩ := mergeJson_frame h
      exact ⟨d, zone, options, v, declared, index, hzone, hoptions, rfl⟩
  | mergedValue _ h ih =>
      obtain ⟨d, zone, options, _, _, index, hzone, hoptions, rfl⟩ := ih
      obtain ⟨v, rfl⟩ := mergeValue?_frame h
      exact ⟨d, zone, options, v, true, index, hzone, hoptions, rfl⟩
  | placed _ h ih =>
      obtain ⟨d, zone, options, v, declared, _, hzone, hoptions, rfl⟩ := ih
      rw [setIndex_frame h]
      exact ⟨d, zone, options, v, declared, _, hzone, hoptions, rfl⟩

theorem Obtained.reachable (h : c.Obtained) : c.Reachable := by
  induction h with
  | unspecified => exact .unspecified
  | built _ h => exact .built h
  | declared h => exact reachable_of_ofDeclaration h
  | configured h => exact reachable_of_ofJson h
  | rebuilt _ _ h _ => exact .built h
  | @performed c op _ _ ih _ =>
      apply perform_cases (motive := fun x => x.2.Reachable) c op (fun _ _ => ih)
      intro c' hresult
      cases op with
      | mergeText s => exact .mergedText ih (ok_of_map_some hresult)
      | mergeJson json => exact .mergedJson ih (ok_of_map_some hresult)
      | mergeValue other => exact .mergedValue ih (Except.ok.inj hresult)
      | rename name => exact reachable_of_renamed (ok_of_map_some hresult)
      | rebuild => exact .built (ok_of_map_some hresult)
      | place index => exact .placed ih (ok_of_map_some hresult)

/-- The name that a column gets: a blank one gives way to that of a column without a name. -/
def givenName (name : String) : String := if Text.allBlank name then unnamed else name

/-- Building the draft of a column under a name gives the column that name and takes its place from
it; nothing else of it changes. -/
theorem renamed_filled {d : Draft} {zone : Option Zone} {options : List (String × Int32)}
    (hzone : d.columnZone = .ok zone) (hoptions : d.columnOptions = .ok options) (v : Value)
    (declared : Bool) (index : Option Nat) (name : String) :
    (d.filled zone options v declared index).renamed name =
      .ok ((d.filled zone options v declared none).withName (givenName name)) := by
  let e : Draft := { (d.filled zone options v declared index).toDraft with name := name }
  have htype : e.type = d.type := rfl
  have hlength : e.columnLength = d.columnLength := Draft.columnLength_of_given htype fun _ => rfl
  have hprecision : e.columnPrecision = d.columnPrecision :=
    Draft.columnPrecision_of_given htype rfl
  have hscale : e.columnScale = d.columnScale := Draft.columnScale_of_given htype hprecision rfl
  have hbuild : e.build = .ok ((e.shape zone options).withValue v) :=
    build_ok_iff.2 ⟨zone, options, Draft.columnZone_of_given htype hzone rfl,
      Draft.columnOptions_of_same htype rfl hoptions, rfl⟩
  have hdeclared : (e.declared || e.default.isSome) = declared := Bool.or_false declared
  change e.build = _
  rw [hbuild]
  unfold Draft.shape
  rw [hlength, hprecision, hscale, hdeclared]
  rfl

theorem Obtained.renamed (h : c.Obtained) {c' : Column} {name : String}
    (hname : c.renamed name = .ok c') : c'.Obtained := by
  have hperformed : ((perform (.rename name)).runFrom c).2 = c' := by
    rw [runFrom_perform]
    simp only [Operation.result, hname, Except.map]
  rw [← hperformed]
  exact .performed h fun _ hop => by cases hop

theorem index_performAll (h : c.index = none) {ops : List Operation}
    (hops : ∀ op ∈ ops, ∀ index, op ≠ .place index) : (performAll c ops).index = none := by
  have hstep : ∀ {c : Column} {op : Operation}, c.index = none → (∀ index, op ≠ .place index) →
      ((perform op).runFrom c).2.index = none := by
    intro c op hc hop
    apply perform_cases (motive := fun x => x.2.index = none) c op (fun _ _ => hc)
    intro c' hresult
    cases op with
    | mergeText s =>
        obtain ⟨v, rfl⟩ := mergeText_frame (ok_of_map_some hresult)
        exact hc
    | mergeJson json =>
        obtain ⟨v, rfl⟩ := mergeJson_frame (ok_of_map_some hresult)
        exact hc
    | mergeValue other =>
        obtain ⟨v, rfl⟩ := mergeValue?_frame (Except.ok.inj hresult)
        exact hc
    | rename name =>
        obtain ⟨zone, options, v, -, -, rfl⟩ := shape_of_build (ok_of_map_some hresult)
        rfl
    | rebuild =>
        obtain ⟨zone, options, v, -, -, rfl⟩ := shape_of_build (ok_of_map_some hresult)
        rfl
    | place index => exact absurd rfl (hop index)
  induction ops generalizing c with
  | nil => exact h
  | cons op ops ih =>
      rw [List.forall_mem_cons] at hops
      exact ih (hstep h hops.1) hops.2

theorem Obtained.performAll (h : c.Obtained) {ops : List Operation}
    (hops : ∀ other, .mergeValue other ∈ ops → other.Obtained) : (performAll c ops).Obtained := by
  induction ops generalizing c with
  | nil => exact h
  | cons op ops ih =>
      refine ih (.performed h fun other hop => hops other (hop ▸ List.mem_cons_self)) ?_
      exact fun other hother => hops other (List.mem_cons_of_mem op hother)

theorem equal_self_of_not_isNaN (h : c.Obtained) (hvalue : c.cell.value.isNaN = false) :
    c.equal c = true := by
  have hvalue := Value.equal_of_not_isNaN hvalue
  obtain ⟨d, zone, options, v, declared, index, -, -, rfl⟩ := h.reachable.exists_filled
  have hdefault := equal_initialValue d.type options
  unfold equal Cell.equal
  simp only [beq_self_eq_true, Bool.true_and, Bool.and_true]
  rw [hvalue, Bool.and_true]
  exact hdefault

/-- Building the draft of a column that has no place gives the column again, equal to itself unless
its default is a NaN; building it under another name changes the name and nothing else, so that the
column comes back under the name that it had. -/
theorem build_toDraft_and_renamed (h : c.Obtained) (hplace : c.index = none) :
    c.toDraft.build = .ok c ∧ (c.cell.value.isNaN = false → c.equal c = true) ∧
      ∀ name, c.renamed name = .ok (c.withName (givenName name)) ∧
        (c.withName (givenName name)).renamed c.name = .ok c := by
  have hformed := h.wellFormed
  have hsame : c.withName (givenName c.name) = c := by
    have hcell : { c.cell with name := c.name } = c.cell := by rw [← hformed.cellName]
    unfold withName givenName
    rw [hformed.name, if_neg Bool.false_ne_true, hcell]
  have hrenamed : ∀ {d : Column}, d.Obtained → d.index = none → ∀ name,
      d.renamed name = .ok (d.withName (givenName name)) := by
    intro d hd hindex name
    obtain ⟨e, zone, options, v, declared, index, hzone, hoptions, rfl⟩ := hd.reachable.exists_filled
    obtain rfl : index = none := hindex
    exact renamed_filled hzone hoptions v declared none name
  refine ⟨?_, equal_self_of_not_isNaN h, fun name => ⟨hrenamed h hplace name, ?_⟩⟩
  · exact (hrenamed h hplace c.name).trans (congrArg Except.ok hsame)
  · have hother := h.renamed (hrenamed h hplace name)
    rw [hrenamed hother hplace]
    exact congrArg Except.ok hsame

end Zones

theorem build_toDraft_and_renamed_signal :
    let ops : List Operation := [.mergeText "off", .mergeValue signal, .rename "lamp"]
    let lamp := performAll signal ops
    lamp.name = "lamp" ∧ lamp.cell.value = .int32 1 ∧ lamp.toDraft.build = .ok lamp ∧
      lamp.renamed " " = .ok (lamp.withName "unknown") ∧
      (lamp.withName "unknown").renamed "lamp" = .ok lamp := by
  intro ops lamp
  have hread : ofDeclaration "signal Enum8('off' = -1, 'on' = 1) DEFAULT on" = .ok signal :=
    ok_of_toOption (by decide +kernel)
  have hsignal : signal.Obtained := .declared hread
  have hobtained : lamp.Obtained := by
    apply hsignal.performAll
    intro other hother
    obtain rfl : other = signal := by simpa [ops] using hother
    exact hsignal
  have hplace : lamp.index = none := by
    apply index_performAll rfl
    intro op hop index
    simp only [ops, List.mem_cons, List.not_mem_nil, or_false] at hop
    rcases hop with rfl | rfl | rfl <;> exact fun h => by cases h
  have hname : lamp.name = "lamp" := by decide +kernel
  obtain ⟨hbuild, -, hrenamed⟩ := build_toDraft_and_renamed hobtained hplace
  obtain ⟨haway, hback⟩ := hrenamed " "
  have hgiven : givenName " " = "unknown" := by decide
  rw [hgiven] at haway hback
  rw [hname] at hback
  exact ⟨hname, by decide +kernel, hbuild, haway, hback⟩

end Column

end RowStream
