import RowStream.Service.SchemaCache

/-!
# What a cache comes to hold

Every operation on a cache is accounted for by its slots: a slot was there before, or it belongs to
the key that was looked up and is empty or filled by the inference that ran. A lookup answers what
the inference would as long as the slots of its key do.
-/

namespace RowStream.SchemaCache

variable [Zone.Catalogue] {c : SchemaCache} {now : Nat} {key : CacheKey} {slot : CacheSlot}
  {inferred : Except Error Table}

theorem mem_of_mem_evict (h : slot ∈ (c.evict now).slots) : slot ∈ c.slots := by
  have hlive : slot ∈ c.slots.filter fun s => !c.expired now s := List.mem_of_mem_drop h
  exact (List.mem_filter.1 hlive).1

theorem mem_of_mem_trim (h : slot ∈ (c.trim now).slots) : slot ∈ c.slots := by
  unfold trim at h
  split at h
  · exact mem_of_mem_evict h
  · exact h

theorem mem_insertSlot (h : slot ∈ (c.insertSlot now key).slots) :
    slot ∈ c.slots ∨ slot = ⟨key, now, none⟩ := by
  rcases List.mem_append.1 h with hold | hnew
  · exact .inl (List.mem_filter.1 hold).1
  · exact .inr (List.mem_singleton.1 hnew)

theorem mem_prepare (h : slot ∈ (c.prepare now key).2.slots) :
    slot ∈ c.slots ∨ slot = ⟨key, now, none⟩ := by
  unfold prepare at h
  split at h
  · exact mem_insertSlot (mem_of_mem_trim h)
  · split at h
    · have hmade : slot ∈ ((c.insertSlot now key).countEvictions 1).slots := mem_of_mem_trim h
      exact mem_insertSlot hmade
    · exact .inl (mem_of_mem_trim h)

theorem mem_of_slot? (h : c.slot? key = some slot) : slot ∈ c.slots ∧ slot.key = key := by
  unfold slot? at h
  have hkey := List.find?_some h
  exact ⟨List.mem_of_find?_eq_some h, eq_of_beq hkey⟩

theorem exists_slot_of_prepare {schema : Table} (h : (c.prepare now key).1 = some schema) :
    ∃ slot ∈ c.slots, slot.key = key ∧ slot.schema = some schema := by
  unfold prepare at h
  split at h
  · cases h
  · next slot hslot =>
      split at h
      · cases h
      · obtain ⟨hmem, hkey⟩ := mem_of_slot? hslot
        exact ⟨slot, hmem, hkey, h⟩

theorem mem_fill {schema : Table} (h : slot ∈ (c.fill key schema).slots) :
    slot ∈ c.slots ∨ slot.key = key ∧ slot.schema = some schema := by
  obtain ⟨old, hold, rfl⟩ := List.mem_map.1 h
  split
  · next hkey => exact .inr ⟨hkey, rfl⟩
  · exact .inl hold

@[simp] theorem mem_invalidate {source : String} :
    slot ∈ (c.invalidate source).slots ↔ slot ∈ c.slots ∧ slot.key.source ≠ source := by
  simp [invalidate]

theorem run_get_pure (c : SchemaCache) (now : Nat) (key : CacheKey) (bypass : Bool)
    (inferred : Except Error Table) :
    Id.run (c.get now key bypass (pure inferred)) =
      if !c.enabled || bypass then (inferred, c.countBypass)
      else
        match c.prepare now key, inferred with
        | (some schema, c), _ => (.ok schema, c.countHit)
        | (none, c), .ok schema => (.ok schema, (c.fill key schema).countMiss)
        | (none, c), .error e => (.error e, c) := by
  unfold get
  split
  · rfl
  · rcases c.prepare now key with ⟨_ | schema, c'⟩
    · cases inferred <;> rfl
    · rfl

theorem mem_get {bypass : Bool}
    (h : slot ∈ (Id.run (c.get now key bypass (pure inferred))).2.slots) :
    slot ∈ c.slots ∨
      slot.key = key ∧ ∀ schema, slot.schema = some schema → inferred = .ok schema := by
  -- The slot was there before the schema was inferred, or the inference has filled it.
  have hprepared : slot ∈ (c.prepare now key).2.slots → slot ∈ c.slots ∨
      slot.key = key ∧ ∀ schema, slot.schema = some schema → inferred = .ok schema := by
    intro h
    rcases mem_prepare h with hold | rfl
    · exact .inl hold
    · exact .inr ⟨rfl, by simp⟩
  rw [run_get_pure] at h
  split at h
  · exact .inl h
  · rcases hprepare : c.prepare now key with ⟨_ | found, c'⟩
    · rw [hprepare] at h hprepared
      cases inferred with
      | error e => exact hprepared h
      | ok schema =>
          have hfilled : slot ∈ (c'.fill key schema).slots := h
          rcases mem_fill hfilled with hold | ⟨hkey, hschema⟩
          · exact hprepared hold
          · refine .inr ⟨hkey, ?_⟩
            intro other hother
            rw [hschema] at hother
            cases hother
            rfl
    · rw [hprepare] at h hprepared
      exact hprepared h

theorem get_answer {bypass : Bool} (hheld : ∀ slot ∈ c.slots, slot.key = key →
    ∀ schema, slot.schema = some schema → inferred = .ok schema) :
    (Id.run (c.get now key bypass (pure inferred))).1 = inferred := by
  rw [run_get_pure]
  split
  · rfl
  · rcases hprepare : c.prepare now key with ⟨_ | found, c'⟩
    · cases inferred <;> rfl
    · obtain ⟨slot, hslot, hkey, hschema⟩ :=
        exists_slot_of_prepare (congrArg Prod.fst hprepare)
      exact (hheld slot hslot hkey found hschema).symm

end RowStream.SchemaCache
