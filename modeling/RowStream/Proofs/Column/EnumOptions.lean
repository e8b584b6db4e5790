import RowStream.Proofs.Column.Config

/-!
# Options of enums there and back

Options are written with their numbers, as arguments of the type and as members of an object. The
arguments always give them back. An object has one member for each name, so that it gives back
options of distinct names and no others.
-/

namespace RowStream

open Text.Numeral Token

namespace Draft

theorem writtenOption_eq (o : String × Int32) : writtenOption o =
    (Quoted.literal o.1.toList ++ [' ']) ++ '=' :: ' ' :: (toString o.2.toInt).toList := by
  unfold writtenOption
  rw [List.append_assoc, List.append_assoc]
  rfl

theorem trim_literal_blank (cs : List Char) :
    Text.trim (Quoted.literal cs ++ [' ']) = Quoted.literal cs := by
  rw [Text.trim_append_blank (by decide), trim_literal]

theorem splitTopLevel_writtenOption (o : String × Int32) :
    splitTopLevel '=' (writtenOption o) =
      .ok [Quoted.literal o.1.toList, (toString o.2.toInt).toList] := by
  have hnumeral := isNumeral_toString o.2.toInt
  have hname : walk (· == '=') 0 (tokens (Quoted.literal o.1.toList ++ [' '])) = some 0 := by
    rw [walk_append_text (walk_literal _ _) (by rintro c ⟨⟩; decide)]
    rfl
  have hnumber : splitTopLevel '=' (' ' :: (toString o.2.toInt).toList) =
      .ok [(toString o.2.toInt).toList] := by
    rw [splitTopLevel_blank (by decide)]
    exact splitTopLevel_piece (isPiece_numeral (by decide) hnumeral)
  unfold splitTopLevel at hnumber ⊢
  rw [writtenOption_eq, pieces_separator (by decide) hname]
  obtain ⟨ps, hps, hfilter⟩ := map_ok hnumber
  rw [hps]
  change Except.ok (((Text.trim (Quoted.literal o.1.toList ++ [' ']) :: ps.map Text.trim)).filter
    fun piece => !piece.isEmpty) = _
  rw [trim_literal_blank, List.filter_cons_of_pos (by rfl), ← hfilter]

theorem enumEntry_writtenOption (o : String × Int32) :
    enumEntry (writtenOption o) = .ok (o.1, some o.2) := by
  unfold enumEntry
  rw [splitTopLevel_writtenOption]
  simp only [bind, Except.bind, List.head?_cons, Option.map_some, Option.getD_some,
    Quoted.unquote_literal, String.ofList_toList, List.getElem?_cons_succ, List.getElem?_cons_zero,
    (isNumeral_toString o.2.toInt).trim, signed?_toString, Option.bind_some, int32?_toInt]

theorem numberOptions_of_numbers (next : Int32) (options : List (String × Int32)) :
    numberOptions next (options.map fun o => (o.1, some o.2)) = options := by
  induction options generalizing next with
  | nil => rfl
  | cons o rest ih => simp only [List.map_cons, numberOptions, Option.getD_some, ih]

theorem enumOptions_writtenOption (options : List (String × Int32)) :
    enumOptions (options.map writtenOption) = .ok options := by
  have hread : options.mapM (enumEntry ∘ writtenOption) =
      .ok (options.map fun o => (o.1, some o.2)) :=
    mapM_ok_of_forall fun o _ => enumEntry_writtenOption o
  unfold enumOptions
  rw [List.mapM_map, hread]
  exact congrArg Except.ok (numberOptions_of_numbers 1 options)

end Draft

namespace Json

theorem insert_of_not_mem {key : String} (value : Json) {members : List (String × Json)}
    (h : key ∉ members.map (·.1)) : insert key value members = members ++ [(key, value)] := by
  induction members with
  | nil => rfl
  | cons m rest ih =>
      rw [List.map_cons, List.mem_cons, not_or] at h
      rw [insert, if_neg (Ne.symm h.1), ih h.2, List.cons_append]

theorem keys_insert (key : String) (value : Json) (members : List (String × Json)) :
    (insert key value members).map (·.1) =
      if key ∈ members.map (·.1) then members.map (·.1) else members.map (·.1) ++ [key] := by
  induction members with
  | nil => rfl
  | cons m rest ih =>
      by_cases hkey : m.1 = key
      · simp [insert, hkey]
      · have hne : key ≠ m.1 := Ne.symm hkey
        rw [insert, if_neg hkey, List.map_cons, ih, List.map_cons]
        by_cases hmem : key ∈ rest.map (·.1)
        · rw [if_pos hmem, if_pos (List.mem_cons_of_mem _ hmem)]
        · have hnone : key ∉ m.1 :: rest.map (·.1) := by simp [hne, hmem]
          rw [if_neg hmem, if_neg hnone, List.cons_append]

theorem nodup_keys_insert (key : String) (value : Json) {members : List (String × Json)}
    (h : (members.map (·.1)).Nodup) : ((insert key value members).map (·.1)).Nodup := by
  rw [keys_insert]
  split
  · exact h
  · next hmem =>
      refine List.nodup_append.2 ⟨h, List.pairwise_singleton _ _, ?_⟩
      intro k hk l hl
      rw [List.mem_singleton.1 hl]
      rintro rfl
      exact hmem hk

theorem ofMembers_of_nodup {members : List (String × Json)} (h : (members.map (·.1)).Nodup) :
    ofMembers members = .obj members := by
  have hfold : ∀ (rest front : List (String × Json)), ((front ++ rest).map (·.1)).Nodup →
      rest.foldl (fun acc m => insert m.1 m.2 acc) front = front ++ rest := by
    intro rest
    induction rest with
    | nil => simp
    | cons m rest ih =>
        intro front hnodup
        have hkey : m.1 ∉ front.map (·.1) := by
          rw [List.map_append, List.nodup_append] at hnodup
          exact fun hmem => hnodup.2.2 m.1 hmem m.1 (by simp) rfl
        rw [List.foldl_cons, insert_of_not_mem _ hkey, ih (front ++ [m]) (by simpa using hnodup)]
        simp
  unfold ofMembers
  rw [hfold members [] h, List.nil_append]

theorem exists_ofMembers (members : List (String × Json)) :
    ∃ kept, ofMembers members = .obj kept ∧ (kept.map (·.1)).Nodup := by
  have hfold : ∀ (rest front : List (String × Json)), (front.map (·.1)).Nodup →
      ((rest.foldl (fun acc m => insert m.1 m.2 acc) front).map (·.1)).Nodup := by
    intro rest
    induction rest with
    | nil => exact fun _ h => h
    | cons m rest ih => exact fun front h => ih _ (nodup_keys_insert m.1 m.2 h)
  exact ⟨_, rfl, hfold members [] List.nodup_nil⟩

end Json

namespace Draft

def optionMember (o : String × Int32) : String × Json := (o.1, Json.ofInt o.2.toInt)

theorem optionOfJson_optionMember (o : String × Int32) :
    optionOfJson (optionMember o) = .ok o := by
  have hread : (Json.ofInt o.2.toInt).int32? = some o.2 := by
    unfold Json.int32? Json.ofInt
    dsimp only [JsonNumber.toInt64?]
    rw [int64?_bind_int32?, int32?_toInt]
  unfold optionOfJson optionMember
  dsimp only
  rw [hread]

theorem mapM_optionMember (options : List (String × Int32)) :
    (options.map optionMember).mapM optionOfJson = .ok options := by
  have hread : options.mapM (optionOfJson ∘ optionMember) = .ok (options.map id) :=
    mapM_ok_of_forall fun o _ => optionOfJson_optionMember o
  rw [List.mapM_map, hread, List.map_id]

theorem keys_of_mapM_optionOfJson {members : List (String × Json)}
    {options : List (String × Int32)} (h : members.mapM optionOfJson = .ok options) :
    options.map (·.1) = members.map (·.1) := by
  induction members generalizing options with
  | nil =>
      cases h
      rfl
  | cons m rest ih =>
      rw [List.mapM_cons] at h
      obtain ⟨o, ho, h⟩ := bind_ok h
      obtain ⟨options, hrest, h⟩ := bind_ok h
      cases h
      have hname : o.1 = m.1 := by
        unfold optionOfJson at ho
        split at ho
        · cases ho
          rfl
        · cases ho
      rw [List.map_cons, List.map_cons, hname, ih hrest]

theorem options_of_ofJson {json : Json} {d : Draft} {members : List (String × Json)}
    (hget : json.get? "options" = some (.obj members)) (h : ofJson json = .ok d) :
    members.mapM optionOfJson = .ok d.options := by
  unfold ofJson at h
  obtain ⟨type, -, h⟩ := bind_ok h
  obtain ⟨draft, -, h⟩ := bind_ok h
  obtain ⟨draft', hoptions, h⟩ := bind_ok h
  rw [hget] at hoptions
  obtain ⟨options, hread, rfl⟩ := map_ok hoptions
  rw [hread]
  split at h
  · cases h
    rfl
  · cases h
    rfl
  · cases h
    rfl

end Draft

namespace Column

variable [Zone.Catalogue] {c : Column}

theorem typeArgs_of_enum (henum : c.type.isEnum = true) :
    c.typeArgs = some (c.options.map Draft.writtenOption) := by
  unfold typeArgs
  cases htype : c.type <;> rw [htype] at henum <;> first | rfl | cases henum

theorem ofType_writtenOption (hc : c.Declarable) (henum : c.type.isEnum = true) :
    Draft.ofType c.name ⟨c.type.name, c.typeArgs.getD [], c.nullable⟩ = .ok (c.settled none) := by
  have hzone : c.zone = none := by
    apply hc.zone
    cases htype : c.type <;> rw [htype] at henum <;> first | rfl | cases henum
  rw [typeArgs_of_enum henum, Option.getD_some]
  unfold Draft.ofType settled
  dsimp only
  rw [ofName_name, hzone]
  cases htype : c.type with
  | enum | enum8 | enum16 =>
      dsimp only
      rw [Draft.enumOptions_writtenOption]
      rfl
  | _ =>
      rw [htype] at henum
      cases henum

theorem draft_of_written_enum (hc : c.Declarable) (henum : c.type.isEnum = true)
    {l : Option Literal} (hstand : ∀ x ∈ l, x.CanStand ∧ x.IsDefault) :
    Draft.ofDeclaration (Quoted.identifier c.name.toList ++
        ' ' :: (TypeExpression.writtenIn c.nullable
            (TypeExpression.written c.type.name.toList c.typeArgs) ++
          Declaration.writtenDefault l)) =
      .ok (c.settled (declaredDefault l)) := by
  exact draft_of_parts (ofType_writtenOption hc henum) (fun x hx => (hstand x hx).1)
    fun x hx => (hstand x hx).2

theorem get?_toJson_options_enum (henum : c.type.isEnum = true) : c.toJson.get? "options" =
    some (Json.ofMembers (c.options.map Draft.optionMember)) := by
  unfold toJson
  cases c.zone <;> simp [Json.get?, Json.find?_append, Json.find?, Json.find?_ite, henum] <;> rfl

/-- The text of the default: the name of its option, or the number that has none. -/
def defaultText (c : Column) : String := c.defaultOption?.getD c.cell.value.toText

theorem defaultJson_of_enum (henum : c.type.isEnum = true) : c.defaultJson = .str c.defaultText := by
  unfold defaultJson defaultText
  rw [henum]
  cases c.defaultOption? with
  | some option => rfl
  | none => cases c.cell.value <;> rfl

theorem draft_of_toJson_enum (hc : c.Declarable) (henum : c.type.isEnum = true)
    (hnodup : (c.options.map (·.1)).Nodup) : Draft.ofJson c.toJson =
      .ok (c.settled (if c.declaresDefault then some (.json c.defaultJson) else none)) := by
  have hmembers : Json.ofMembers (c.options.map Draft.optionMember) =
      .obj (c.options.map Draft.optionMember) := by
    apply Json.ofMembers_of_nodup
    rw [List.map_map]
    exact hnodup
  have hread : ∀ d : Draft, d.options = [] →
      d.withOptions (c.toJson.get? "options") = .ok { d with options := c.options } := by
    intro d _
    rw [get?_toJson_options_enum henum, hmembers]
    unfold Draft.withOptions
    dsimp only
    rw [Draft.mapM_optionMember]
    rfl
  have hnull : c.declaresDefault = true → c.defaultJson ≠ .null := by
    intro _
    rw [defaultJson_of_enum henum]
    exact fun h => by cases h
  have hprecision : c.type.isDecimal = false ∧ c.type ≠ .decimal := by
    cases htype : c.type <;> rw [htype] at henum <;> first | decide | cases henum
  rw [draft_of_members hc hread hnull]
  unfold settled
  rw [hprecision.1, if_neg Bool.false_ne_true, if_neg hprecision.2]

/-- The object of an enum gives back options of distinct names only. -/
theorem nodup_of_draft_of_toJson {d : Draft} (henum : c.type.isEnum = true)
    (h : Draft.ofJson c.toJson = .ok d) : (d.options.map (·.1)).Nodup := by
  obtain ⟨kept, hkept, hnodup⟩ := Json.exists_ofMembers (c.options.map Draft.optionMember)
  have hget : c.toJson.get? "options" = some (.obj kept) := by
    rw [get?_toJson_options_enum henum, hkept]
  rw [Draft.keys_of_mapM_optionOfJson (Draft.options_of_ofJson hget h)]
  exact hnodup

end Column

end RowStream
