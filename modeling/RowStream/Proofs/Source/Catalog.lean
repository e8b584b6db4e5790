import RowStream.Proofs.Result
import RowStream.Source.Catalog

/-!
# Catalogs of configurations

A configuration is taken over when each of its entries is, and its catalog then holds the data
source of each entry and no other. `Catalog.Describes` says so; a key that is written twice counts
with its last entry, as in any object.
-/

namespace RowStream

section Entries

variable {α : Type _} {key other : String} {value : α} {entries : List (String × α)}

theorem lookup_putEntry_self (key : String) (value : α) (entries : List (String × α)) :
    (putEntry key value entries).lookup key = some value := by
  induction entries with
  | nil => simp [putEntry]
  | cons entry rest ih =>
      obtain ⟨k, v⟩ := entry
      by_cases hk : k = key
      · simp [putEntry, hk]
      · have hne : (key == k) = false := beq_false_of_ne (Ne.symm hk)
        simp [putEntry, hk, List.lookup_cons, hne, ih]

theorem lookup_putEntry_of_ne (h : other ≠ key) (value : α) (entries : List (String × α)) :
    (putEntry key value entries).lookup other = entries.lookup other := by
  induction entries with
  | nil => simp [putEntry, List.lookup_cons, beq_false_of_ne h]
  | cons entry rest ih =>
      obtain ⟨k, v⟩ := entry
      by_cases hk : k = key
      · subst hk
        simp [putEntry, List.lookup_cons, beq_false_of_ne h]
      · simp only [putEntry, if_neg hk, List.lookup_cons, ih]

theorem mem_keys_putEntry :
    other ∈ (putEntry key value entries).map Prod.fst ↔
      other = key ∨ other ∈ entries.map Prod.fst := by
  induction entries with
  | nil => simp [putEntry]
  | cons entry rest ih =>
      obtain ⟨k, v⟩ := entry
      by_cases hk : k = key
      · subst hk
        simp [putEntry]
      · rw [putEntry, if_neg hk, List.map_cons, List.mem_cons, ih, or_left_comm, List.map_cons,
          List.mem_cons]

theorem nodup_keys_putEntry (h : (entries.map Prod.fst).Nodup) :
    ((putEntry key value entries).map Prod.fst).Nodup := by
  induction entries with
  | nil => simp [putEntry]
  | cons entry rest ih =>
      obtain ⟨k, v⟩ := entry
      rw [List.map_cons, List.nodup_cons] at h
      by_cases hk : k = key
      · subst hk
        simpa [putEntry] using h
      · rw [putEntry, if_neg hk, List.map_cons, List.nodup_cons, mem_keys_putEntry]
        exact ⟨by simp [hk, h.1], ih h.2⟩

theorem mem_keys_iff_lookup : key ∈ entries.map Prod.fst ↔ ∃ v, entries.lookup key = some v := by
  induction entries with
  | nil => simp
  | cons entry rest ih =>
      obtain ⟨k, v⟩ := entry
      by_cases hk : key = k
      · simp [hk]
      · rw [List.map_cons, List.mem_cons, List.lookup_cons, beq_false_of_ne hk, ih]
        simp [hk]

theorem mem_sortedNames {name : String} {names : List String} :
    name ∈ sortedNames names ↔ name ∈ names := List.mem_mergeSort

end Entries

namespace Json

theorem find?_foldl_insert (key : String) (entries acc : List (String × Json)) :
    find? key (entries.foldl (fun acc m => insert m.1 m.2 acc) acc) =
      (find? key (entries.foldl (fun acc m => insert m.1 m.2 acc) [])).or (find? key acc) := by
  induction entries generalizing acc with
  | nil => rfl
  | cons entry rest ih =>
      have hinsert : find? key (insert entry.1 entry.2 acc) =
          (find? key (insert entry.1 entry.2 [])).or (find? key acc) := by
        by_cases hk : key = entry.1
        · subst hk
          rw [find?_insert_self, find?_insert_self, Option.some_or]
        · rw [find?_insert_of_ne hk, find?_insert_of_ne hk]
          rfl
      rw [List.foldl_cons, List.foldl_cons, ih, ih (insert entry.1 entry.2 []), hinsert,
        Option.or_assoc]

theorem get?_ofMembers_cons (key k : String) (v : Json) (rest : List (String × Json)) :
    (ofMembers ((k, v) :: rest)).get? key =
      ((ofMembers rest).get? key).or (if k = key then some v else none) :=
  find?_foldl_insert key rest _

theorem exists_get?_ofMembers_iff {key : String} {members : List (String × Json)} :
    (∃ json, (ofMembers members).get? key = some json) ↔ key ∈ members.map Prod.fst := by
  induction members with
  | nil => simp [ofMembers, get?, find?]
  | cons member rest ih =>
      obtain ⟨k, v⟩ := member
      rw [List.map_cons, List.mem_cons, ← ih, get?_ofMembers_cons]
      by_cases hk : k = key
      · subst hk
        cases (ofMembers rest).get? k <;> simp
      · simp [hk, Ne.symm hk]

theorem mem_of_get?_ofMembers {key : String} {json : Json} {members : List (String × Json)}
    (h : (ofMembers members).get? key = some json) : (key, json) ∈ members := by
  induction members with
  | nil => simp [ofMembers, get?, find?] at h
  | cons member rest ih =>
      obtain ⟨k, v⟩ := member
      rw [get?_ofMembers_cons, Option.or_eq_some_iff] at h
      rcases h with hrest | ⟨-, hfirst⟩
      · exact List.mem_cons_of_mem _ (ih hrest)
      · split at hfirst
        · next hk =>
            cases hfirst
            rw [hk]
            exact List.mem_cons_self
        · cases hfirst

end Json

namespace Catalog

variable [Zone.Catalogue] {registry : Registry} {c c' : Catalog} {entries : List (String × Json)}

theorem mem_ids_iff {id : String} : id ∈ c.ids ↔ ∃ source, c.find? id = some source :=
  mem_sortedNames.trans mem_keys_iff_lookup

@[simp] theorem length_ids (c : Catalog) : c.ids.length = c.sources.length := by
  simp [ids, sortedNames]

theorem require_ok_iff {id : String} {source : DataSource} :
    c.require id = .ok source ↔ c.find? id = some source := by
  unfold require
  cases c.find? id <;> simp

theorem addAll_ok_iff : (∃ c', c.addAll registry entries = .ok c') ↔
    ∀ entry ∈ entries, ∃ source, registry.create entry.1 entry.2 = .ok source := by
  induction entries generalizing c with
  | nil => simp [addAll]
  | cons entry rest ih =>
      obtain ⟨id, json⟩ := entry
      rw [List.forall_mem_cons]
      unfold addAll
      cases hcreate : registry.create id json with
      | ok source => simp [ih]
      | error e => simp

theorem find?_of_addAll (h : c.addAll registry entries = .ok c') (id : String) :
    c'.find? id = match (Json.ofMembers entries).get? id with
      | some json => (registry.create id json).toOption
      | none => c.find? id := by
  induction entries generalizing c with
  | nil =>
      cases h
      rfl
  | cons entry rest ih =>
      obtain ⟨key, json⟩ := entry
      unfold addAll at h
      cases hcreate : registry.create key json with
      | error e =>
          rw [hcreate] at h
          cases h
      | ok source =>
          rw [hcreate] at h
          -- The entry counts for its id unless a later one has replaced it.
          rw [ih h, Json.get?_ofMembers_cons]
          cases (Json.ofMembers rest).get? id with
          | some later => rfl
          | none =>
              by_cases hk : key = id
              · subst hk
                rw [Option.none_or, if_pos rfl]
                exact (lookup_putEntry_self key source c.sources).trans
                  (congrArg Except.toOption hcreate).symm
              · rw [Option.none_or, if_neg hk]
                exact lookup_putEntry_of_ne (Ne.symm hk) source c.sources

theorem nodup_of_addAll (hc : (c.sources.map Prod.fst).Nodup)
    (h : c.addAll registry entries = .ok c') : (c'.sources.map Prod.fst).Nodup := by
  induction entries generalizing c with
  | nil =>
      cases h
      exact hc
  | cons entry rest ih =>
      unfold addAll at h
      split at h
      · exact ih (nodup_keys_putEntry hc) h
      · cases h

/-- The catalog holds the data sources of the entries and no other. -/
structure Describes (c : Catalog) (registry : Registry) (entries : List (String × Json)) :
    Prop where
  ids : ∀ id, id ∈ c.ids ↔ id ∈ entries.map Prod.fst
  nodup : c.ids.Nodup
  source : ∀ id json, (Json.ofMembers entries).get? id = some json →
    ∃ source, registry.create id json = .ok source ∧ c.find? id = some source

theorem Describes.created (h : c.Describes registry entries) {id : String} {source : DataSource}
    (hsource : c.find? id = some source) : ∃ json, registry.create id json = .ok source := by
  have hid := (h.ids id).1 (mem_ids_iff.2 ⟨source, hsource⟩)
  obtain ⟨json, hjson⟩ := Json.exists_get?_ofMembers_iff.2 hid
  obtain ⟨created, hcreate, hfind⟩ := h.source id json hjson
  rw [hsource] at hfind
  cases hfind
  exact ⟨json, hcreate⟩

theorem describes_of_addAll (h : empty.addAll registry entries = .ok c) :
    c.Describes registry entries := by
  have haccepted := addAll_ok_iff.1 ⟨c, h⟩
  have hsource : ∀ id json, (Json.ofMembers entries).get? id = some json →
      ∃ source, registry.create id json = .ok source ∧ c.find? id = some source := by
    intro id json hjson
    obtain ⟨source, hcreate⟩ := haccepted _ (Json.mem_of_get?_ofMembers hjson)
    refine ⟨source, hcreate, ?_⟩
    rw [find?_of_addAll h id, hjson]
    dsimp only
    rw [hcreate]
    rfl
  refine ⟨?_, ?_, hsource⟩
  · intro id
    rw [mem_ids_iff, ← Json.exists_get?_ofMembers_iff]
    constructor
    · rintro ⟨source, hfind⟩
      cases hjson : (Json.ofMembers entries).get? id with
      | some json => exact ⟨json, rfl⟩
      | none =>
          rw [find?_of_addAll h id, hjson] at hfind
          cases hfind
    · rintro ⟨json, hjson⟩
      obtain ⟨source, -, hfind⟩ := hsource id json hjson
      exact ⟨source, hfind⟩
  · have hkeys : (empty.sources.map Prod.fst).Nodup := List.nodup_nil
    exact (List.mergeSort_perm _ _).nodup_iff.2 (nodup_of_addAll hkeys h)

/-- The entries of a configuration: its members, or those of its member `datasources`. -/
def entries? (json : Json) : Option (List (String × Json)) :=
  match (json.get? "datasources").getD json with
  | .obj members => some members
  | _ => none

theorem ofJson_ok_iff {json : Json} : ofJson registry json = .ok c ↔
    ∃ entries, entries? json = some entries ∧ empty.addAll registry entries = .ok c := by
  unfold ofJson entries?
  cases (json.get? "datasources").getD json <;> simp

end Catalog

end RowStream
