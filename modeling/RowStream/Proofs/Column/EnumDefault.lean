import RowStream.Proofs.Column.WellFormed
import RowStream.Stream.Rows

/-!
# Defaults of enums

A default that is read from a text or a number is the number of an option, or it is refused. Two
ways into an enum do not look at the options: a truth value, which is taken for 1 or 0, and the
default of another column. `defaultOffered_iff` says of a column that is worked on that its default
is that of an option all along exactly when nothing else comes in by these two.
-/

namespace RowStream

/-- What a piece of JSON may bring into an enum: a truth value has to be the number of an option. -/
def Json.Offers (options : List (String × Int32)) : Json → Prop
  | .bool b => ∃ o ∈ options, o.2 = if b then 1 else 0
  | _ => True

/-- The default of a draft, if it is a truth value, is the number of an option. -/
def Draft.OffersDefault (d : Draft) : Prop :=
  match d.default with
  | some (.json json) => json.Offers d.options
  | _ => True

namespace Column

section Zones

variable [Zone.Catalogue]

/-- The default is the number of an option. -/
def DefaultOffered (c : Column) : Prop := ∃ o ∈ c.options, c.cell.value = .int32 o.2

/-- A truth value or the default of another column is the number of an option. -/
def Operation.Offers (options : List (String × Int32)) : Operation → Prop
  | .mergeJson json => json.Offers options
  | .mergeValue other => ∃ o ∈ options, other.cell.value = .int32 o.2
  | _ => True

/-- A column is an enum with these options, and its cell is of its type. -/
structure EnumOf (c : Column) (options : List (String × Int32)) : Prop where
  isEnum : c.type.isEnum = true
  cellType : c.cell.type = c.type
  options : c.options = options

section Options

variable {c : Column} {n m : Int32}

theorem mem_of_optionName? {name : String} (h : c.optionName? n = some name) :
    (name, n) ∈ c.options := by
  unfold optionName? at h
  obtain ⟨o, ho, rfl⟩ := Option.map_eq_some_iff.1 h
  have hvalue : o.2 = n := by simpa using List.find?_some ho
  rw [← hvalue]
  exact List.mem_of_find?_eq_some ho

theorem mem_of_requireKnown (h : c.requireKnown n = .ok m) : ∃ o ∈ c.options, o.2 = m := by
  unfold requireKnown at h
  split at h
  · next hname =>
      cases h
      exact ⟨_, mem_of_optionName? hname, rfl⟩
  · cases h

theorem mem_of_optionValue {s : String} (h : c.optionValue s = .ok n) : (s, n) ∈ c.options := by
  unfold optionValue at h
  split at h
  · next o ho =>
      cases h
      have hname : o.1 = s := by simpa using List.find?_some ho
      rw [← hname]
      exact List.mem_of_find?_eq_some ho
  · cases h

theorem mem_of_enumValue {s : String} (h : c.enumValue s = .ok n) : ∃ o ∈ c.options, o.2 = n := by
  unfold enumValue at h
  split at h
  · next hvalue =>
      cases h
      exact ⟨_, mem_of_optionValue hvalue, rfl⟩
  · split at h
    · exact mem_of_requireKnown h
    · cases h

theorem defaultOffered_withValue :
    (c.withValue (.int32 n)).DefaultOffered ↔ ∃ o ∈ c.options, o.2 = n := by
  constructor
  · rintro ⟨o, ho, hvalue⟩
    exact ⟨o, ho, (Value.int32.inj hvalue).symm⟩
  · rintro ⟨o, ho, rfl⟩
    exact ⟨o, ho, rfl⟩

end Options

section Operations

variable {c c' : Column} {options : List (String × Int32)}

theorem EnumOf.mergeText (hc : c.EnumOf options) (hoffered : c.DefaultOffered) {s : String}
    (h : c.mergeText s = .ok c') : c'.DefaultOffered := by
  unfold Column.mergeText at h
  by_cases hs : s.isEmpty = true
  · rw [hs, Bool.not_true, Bool.and_false, if_neg Bool.false_ne_true] at h
    unfold Cell.mergeText at h
    rw [if_pos hs] at h
    cases h
    exact hoffered
  · rw [hc.isEnum, Bool.eq_false_iff.2 hs, if_pos (by decide)] at h
    obtain ⟨n, hn, rfl⟩ := map_ok h
    exact defaultOffered_withValue.2 (mem_of_enumValue hn)

/-- A truth value is taken for a number, whether that is an option or not. -/
theorem EnumOf.mergeJson_bool (hc : c.EnumOf options) (b : Bool) :
    c.mergeJson (.bool b) = .ok (c.withValue (.int32 (if b then 1 else 0))) := by
  have hkind : c.cell.type.kind = .int32 := by rw [hc.cellType, kind_of_isEnum hc.isEnum]
  have hread : Value.ofJson (.bool b) c.cell.type c.cell.scale =
      .ok (some (.int32 (if b then 1 else 0))) := by
    unfold Value.ofJson Value.parse Value.parse?
    dsimp only
    rw [hkind]
    cases b
    · rfl
    · rfl
  unfold Column.mergeJson Cell.mergeJson
  dsimp only
  rw [hread]
  rfl

theorem EnumOf.mergeJson (hc : c.EnumOf options) (hoffered : c.DefaultOffered) {json : Json}
    (h : c.mergeJson json = .ok c') : c'.DefaultOffered ↔ json.Offers options := by
  have hkind : c.cell.type.kind = .int32 := by rw [hc.cellType, kind_of_isEnum hc.isEnum]
  have hrefused : ∀ {e : Error} {x : Cell → Column},
      (c.cell.take (.error e)).map x = .ok c' → False := by
    intro e x h
    unfold Cell.take at h
    rw [hkind] at h
    cases h
  cases json with
  | str s => exact iff_of_true (hc.mergeText hoffered h) trivial
  | bool b =>
      rw [hc.mergeJson_bool] at h
      cases h
      rw [defaultOffered_withValue, hc.options]
      rfl
  | num n =>
      unfold Column.mergeJson at h
      dsimp only at h
      rw [if_pos hc.isEnum] at h
      split at h
      · obtain ⟨m, hm, rfl⟩ := map_ok h
        exact iff_of_true (defaultOffered_withValue.2 (mem_of_requireKnown hm)) trivial
      · cases h
  | null =>
      cases h
      exact iff_of_true hoffered trivial
  | arr items | obj members =>
      unfold Column.mergeJson Cell.mergeJson Value.ofJson at h
      dsimp only at h
      rw [hkind] at h
      exact (hrefused h).elim

theorem mergeValue?_value {other : Column} (h : c.mergeValue? other = some c') :
    c'.options = c.options ∧ c'.cell.value = other.cell.value := by
  unfold mergeValue? at h
  split at h
  · obtain ⟨cell, hcell, rfl⟩ := Option.map_eq_some_iff.1 h
    unfold Cell.merge? at hcell
    split at hcell
    · cases hcell
      exact ⟨rfl, rfl⟩
    · cases hcell
  · cases h

omit [Zone.Catalogue] in
theorem options_of_columnOptions {d : Draft} (henum : d.type.isEnum = true)
    (h : d.columnOptions = .ok options) : options = d.options := by
  unfold Draft.columnOptions at h
  rw [if_pos henum] at h
  dsimp only at h
  split at h
  · cases h
  · exact (Except.ok.inj h).symm

theorem enumOf_shape {d : Draft} (henum : d.type.isEnum = true) (zone : Option Zone) :
    (d.shape zone options).EnumOf options := ⟨henum, rfl, rfl⟩

theorem EnumOf.rebuilt (hc : c.EnumOf options) {d : Draft} (htype : d.type = c.type)
    (hsame : d.options = c.options) (hcurrent : d.current = some c.cell.value)
    (hdefault : d.default = none) (h : d.build = .ok c') :
    c'.EnumOf options ∧ c'.cell.value = c.cell.value := by
  obtain ⟨zone, options', -, hoptions, hfill⟩ := build_ok_iff.1 h
  have henum : d.type.isEnum = true := by rw [htype, hc.isEnum]
  have hoptions' : options' = options := by
    rw [options_of_columnOptions henum hoptions, hsame, hc.options]
  unfold Draft.fill at hfill
  rw [hcurrent, hdefault] at hfill
  cases hfill
  rw [hoptions']
  exact ⟨⟨henum, rfl, rfl⟩, rfl⟩

theorem EnumOf.result (hc : c.EnumOf options) {op : Operation}
    (h : op.result c = .ok (some c')) : c'.EnumOf options := by
  cases op with
  | mergeText s =>
      obtain ⟨v, rfl⟩ := mergeText_frame (ok_of_map_some h)
      exact ⟨hc.isEnum, hc.cellType, hc.options⟩
  | mergeJson json =>
      obtain ⟨v, rfl⟩ := mergeJson_frame (ok_of_map_some h)
      exact ⟨hc.isEnum, hc.cellType, hc.options⟩
  | mergeValue other =>
      obtain ⟨v, rfl⟩ := mergeValue?_frame (Except.ok.inj h)
      exact ⟨hc.isEnum, hc.cellType, hc.options⟩
  | rename name => exact (hc.rebuilt rfl rfl rfl rfl (ok_of_map_some h)).1
  | rebuild => exact (hc.rebuilt rfl rfl rfl rfl (ok_of_map_some h)).1
  | place index =>
      rw [setIndex_frame (ok_of_map_some h)]
      exact ⟨hc.isEnum, hc.cellType, hc.options⟩

theorem DefaultOffered.congr (hoptions : c'.options = c.options)
    (hvalue : c'.cell.value = c.cell.value) : c'.DefaultOffered ↔ c.DefaultOffered := by
  unfold DefaultOffered
  rw [hoptions, hvalue]

theorem EnumOf.offered_result (hc : c.EnumOf options) (hoffered : c.DefaultOffered)
    {op : Operation} (h : op.result c = .ok (some c')) :
    c'.DefaultOffered ↔ op.Offers options := by
  have hkept : ∀ {d : Draft}, d.type = c.type → d.options = c.options →
      d.current = some c.cell.value → d.default = none → d.build = .ok c' → c'.DefaultOffered := by
    intro d htype hoptions hcurrent hdefault hbuild
    obtain ⟨hc', hvalue⟩ := hc.rebuilt htype hoptions hcurrent hdefault hbuild
    exact (DefaultOffered.congr (hc'.options.trans hc.options.symm) hvalue).2 hoffered
  cases op with
  | mergeText s => exact iff_of_true (hc.mergeText hoffered (ok_of_map_some h)) trivial
  | mergeJson json => exact hc.mergeJson hoffered (ok_of_map_some h)
  | mergeValue other =>
      obtain ⟨hoptions, hvalue⟩ := mergeValue?_value (Except.ok.inj h)
      unfold DefaultOffered
      rw [hoptions, hvalue, hc.options]
      rfl
  | rename name => exact iff_of_true (hkept rfl rfl rfl rfl (ok_of_map_some h)) trivial
  | rebuild => exact iff_of_true (hkept rfl rfl rfl rfl (ok_of_map_some h)) trivial
  | place index =>
      rw [setIndex_frame (ok_of_map_some h)]
      exact iff_of_true hoffered trivial

theorem EnumOf.performed (hc : c.EnumOf options) (op : Operation) :
    ((perform op).runFrom c).2.EnumOf options :=
  perform_cases (motive := fun x => x.2.EnumOf options) c op (fun _ _ => hc)
    fun _ hresult => hc.result hresult

theorem EnumOf.offered_performed (hc : c.EnumOf options) (hoffered : c.DefaultOffered)
    (op : Operation) : ((perform op).runFrom c).2.DefaultOffered ↔
      (((perform op).runFrom c).1 = .ok true → op.Offers options) := by
  apply perform_cases (motive := fun x => x.2.DefaultOffered ↔ (x.1 = .ok true → op.Offers options))
  · intro r hr
    exact iff_of_true hoffered fun haccepted => absurd haccepted hr
  · intro c' hresult
    rw [hc.offered_result hoffered hresult]
    exact ⟨fun hoffers _ => hoffers, fun hoffers => hoffers rfl⟩

theorem performAll_take_succ (ops : List Operation) {k : Nat} (hk : k < ops.length) :
    performAll c (ops.take (k + 1)) = ((perform ops[k]).runFrom (performAll c (ops.take k))).2 := by
  unfold performAll
  rw [List.take_succ_eq_append_getElem hk, List.foldl_append]
  rfl

theorem EnumOf.performAll (hc : c.EnumOf options) (ops : List Operation) :
    (performAll c ops).EnumOf options := by
  induction ops generalizing c with
  | nil => exact hc
  | cons op ops ih => exact ih (hc.performed op)

theorem EnumOf.offered_performAll (hc : c.EnumOf options) (ops : List Operation) :
    (∀ k ≤ ops.length, (Column.performAll c (ops.take k)).DefaultOffered) ↔
      c.DefaultOffered ∧ ∀ k (hk : k < ops.length),
        ((perform ops[k]).runFrom (Column.performAll c (ops.take k))).1 = .ok true →
          ops[k].Offers options := by
  have hstep : ∀ k (hk : k < ops.length), (Column.performAll c (ops.take k)).DefaultOffered →
      ((Column.performAll c (ops.take (k + 1))).DefaultOffered ↔
        (((perform ops[k]).runFrom (Column.performAll c (ops.take k))).1 = .ok true →
          ops[k].Offers options)) := by
    intro k hk hoffered
    rw [performAll_take_succ ops hk]
    exact (hc.performAll _).offered_performed hoffered ops[k]
  constructor
  · intro h
    refine ⟨h 0 (Nat.zero_le _), ?_⟩
    intro k hk
    exact (hstep k hk (h k hk.le)).1 (h (k + 1) hk)
  · rintro ⟨hoffered, hoffers⟩ k hk
    induction k with
    | zero => exact hoffered
    | succ k ih => exact (hstep k hk (ih (Nat.le_of_succ_le hk))).2 (hoffers k hk)

theorem defaultOffered_of_build {d : Draft} (hd : d.Fresh) (h : d.build = .ok c)
    (hne : c.options ≠ []) :
    c.EnumOf c.options ∧ (c.DefaultOffered ↔ d.OffersDefault) := by
  have hformed := wellFormed_of_fresh hd h
  have hc : c.EnumOf c.options := ⟨hformed.enum hne, hformed.cellType, rfl⟩
  obtain ⟨zone, options, -, hoptions, hfill⟩ := build_ok_iff.1 h
  obtain ⟨v, hframe⟩ := fill_frame hfill
  have htype : c.type = d.type := by rw [hframe]; rfl
  have hsame : c.options = options := by rw [hframe]; rfl
  have henum : d.type.isEnum = true := by rw [← htype, hc.isEnum]
  have hshape : (d.shape zone options).EnumOf options := enumOf_shape henum zone
  -- Before its default is read the column has the number of its first option.
  have hinitial : (d.shape zone options).DefaultOffered := by
    rw [hsame] at hne
    obtain ⟨o, rest, rfl⟩ := List.exists_cons_of_ne_nil hne
    exact ⟨o, List.mem_cons_self, rfl⟩
  have hgiven : options = d.options := options_of_columnOptions henum hoptions
  refine ⟨hc, ?_⟩
  unfold Draft.OffersDefault
  unfold Draft.fill at hfill
  rw [hd.current] at hfill
  cases hdefault : d.default with
  | none =>
      rw [hdefault] at hfill
      cases hfill
      exact iff_of_true hinitial trivial
  | some raw =>
      rw [hdefault] at hfill
      cases raw with
      | text s => exact iff_of_true (hshape.mergeText hinitial hfill) trivial
      | json json =>
          rw [← hgiven]
          exact hshape.mergeJson hinitial hfill

theorem substitute_of_offered {r : ResolvedColumn} (defaults : Defaults)
    (h : r.column.DefaultOffered) : ∃ o ∈ r.column.options, r.substitute defaults =
      (Value.int32 o.2).encode r.column.type r.layout r.column.cell.scale := by
  obtain ⟨o, ho, hvalue⟩ := h
  have hoptions : r.column.options.isEmpty = false := by
    simpa using List.ne_nil_of_mem ho
  have hdefault : r.column.hasDefault = true := by
    unfold hasDefault
    rw [hoptions]
    simp
  refine ⟨o, ho, ?_⟩
  unfold ResolvedColumn.substitute
  dsimp only
  rw [if_pos hdefault, hvalue]

/-- The default of an enum that is built and worked on is that of an option all along exactly when
no other truth value and no other default of another column is taken over; a null is then written as
an option. -/
theorem defaultOffered_iff {d : Draft} (hd : d.Fresh) (h : d.build = .ok c) (hne : c.options ≠ [])
    (ops : List Operation) :
    ((∀ k ≤ ops.length, (performAll c (ops.take k)).DefaultOffered) ↔
      d.OffersDefault ∧ ∀ k (hk : k < ops.length),
        ((perform ops[k]).runFrom (performAll c (ops.take k))).1 = .ok true →
          ops[k].Offers c.options) ∧
    ∀ (r : ResolvedColumn) (defaults : Defaults), r.column.DefaultOffered →
      ∃ o ∈ r.column.options, r.substitute defaults =
        (Value.int32 o.2).encode r.column.type r.layout r.column.cell.scale := by
  obtain ⟨hc, hoffered⟩ := defaultOffered_of_build hd h hne
  refine ⟨?_, fun _ defaults => substitute_of_offered defaults⟩
  rw [hc.offered_performAll ops, hoffered]

instance : Decidable c.DefaultOffered :=
  inferInstanceAs (Decidable (∃ o ∈ c.options, c.cell.value = .int32 o.2))

end Operations

end Zones

def single (option : String) (n : Int32) : Column :=
  { name := "e"
    type := .enum8
    nullable := false
    length := 0
    precision := 0
    scale := 0
    zone := none
    options := [(option, n)]
    cell := ⟨"e", .enum8, .int32 n, .int32 n, 0⟩
    declared := false
    index := none }

theorem defaultOffered_iff_single :
    (∀ k ≤ 1, (performAll (single "a" 1) ([.mergeText "a"].take k)).DefaultOffered) ∧
      ¬∀ k ≤ 1,
        (performAll (single "a" 1) ([.mergeValue (single "b" 2)].take k)).DefaultOffered := by
  have hbuild : ({ name := "e", type := .enum8, nullable := false, options := [("a", 1)] } :
      Draft).build = .ok (single "a" 1) := ok_of_toOption (by decide +kernel)
  have hiff := fun ops => (defaultOffered_iff ⟨rfl, rfl⟩ hbuild (by decide) ops).1
  have hmerged : ((perform (.mergeValue (single "b" 2))).runFrom (single "a" 1)).1 = .ok true := by
    rw [runFrom_perform]
    rfl
  constructor
  · refine (hiff [.mergeText "a"]).2 ⟨trivial, ?_⟩
    intro k hk _
    obtain rfl : k = 0 := by simpa using hk
    exact trivial
  · intro hall
    have hoffers := ((hiff [.mergeValue (single "b" 2)]).1 hall).2 0 (by decide) hmerged
    obtain ⟨o, ho, hvalue⟩ := hoffers
    rw [List.mem_singleton.1 ho] at hvalue
    exact absurd hvalue (by decide)

/-- The default of a column with other options and a truth value are both taken over. -/
theorem not_defaultOffered_single :
    ofDeclaration "e Enum8('a' = 1)" = .ok (single "a" 1) ∧
      ofDeclaration "e Enum8('b' = 2)" = .ok (single "b" 2) ∧
      ((perform (.mergeValue (single "b" 2))).runFrom (single "a" 1)).1 = .ok true ∧
      ¬((perform (.mergeValue (single "b" 2))).runFrom (single "a" 1)).2.DefaultOffered ∧
      ((perform (.mergeJson (.bool false))).runFrom (single "a" 1)).1 = .ok true ∧
      ¬((perform (.mergeJson (.bool false))).runFrom (single "a" 1)).2.DefaultOffered := by
  refine ⟨ok_of_toOption (by decide +kernel), ok_of_toOption (by decide +kernel), ?_⟩
  rw [runFrom_perform, runFrom_perform]
  decide +kernel

end Column

end RowStream
