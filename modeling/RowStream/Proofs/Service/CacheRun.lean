import RowStream.Proofs.Service.SchemaCache
import Mathlib.Data.List.Nodup

/-!
# Runs of a cache

A cache is looked up in, forgets a data source or is cleared, one operation after another. A run is
told from its lookups, each taken with the cache that it finds: a lookup goes past the cache, or
finds a schema, or infers one, and in the last case it makes a slot unless its key has one that is
not expired.
-/

namespace RowStream

variable [Zone.Catalogue]

structure Lookup where
  now : Nat
  key : CacheKey
  bypass : Bool
  inferred : Except Error Table

def Lookup.slot (l : Lookup) : CacheSlot := ⟨l.key, l.now, none⟩

inductive CacheOperation where
  | lookup (l : Lookup)
  | invalidate (source : String)
  | clear

/-- A slot as it was made. -/
def CacheSlot.emptied (s : CacheSlot) : CacheSlot := { s with schema := none }

namespace SchemaCache

inductive New : SchemaCache → Prop
  | ofSettings (settings : CacheSettings) : New (ofSettings settings)
  | withLimits (maxEntries ttl : Nat) : New (withLimits maxEntries ttl)
  | disabled : New disabled

def lookUp (c : SchemaCache) (l : Lookup) : Except Error Table × SchemaCache :=
  Id.run (c.get l.now l.key l.bypass (pure l.inferred))

def perform (c : SchemaCache) : CacheOperation → SchemaCache
  | .lookup l => (c.lookUp l).2
  | .invalidate source => c.invalidate source
  | .clear => c.clear

def performAll (c : SchemaCache) (ops : List CacheOperation) : SchemaCache := ops.foldl perform c

/-- The lookups of a run, each with the cache that it finds. -/
def lookups (c : SchemaCache) : List CacheOperation → List (SchemaCache × Lookup)
  | [] => []
  | .lookup l :: ops => (c, l) :: lookups (c.perform (.lookup l)) ops
  | op :: ops => lookups (c.perform op) ops

/-- Whether a lookup goes past the cache. -/
def passes (c : SchemaCache) (l : Lookup) : Bool := !c.enabled || l.bypass

/-- The slot that a lookup finds: an expired one is none. -/
def live? (c : SchemaCache) (l : Lookup) : Option CacheSlot :=
  (c.slot? l.key).filter fun s => !c.expired l.now s

def kept? (c : SchemaCache) (l : Lookup) : Option Table := (c.live? l).bind CacheSlot.schema

def hit (c : SchemaCache) (l : Lookup) : Bool := !c.passes l && (c.kept? l).isSome

/-- Whether a lookup makes a slot: it finds its key absent or expired. -/
def makes (c : SchemaCache) (l : Lookup) : Bool := !c.passes l && (c.live? l).isNone

/-- The slots that are made in a run, in the order in which they are made. -/
def made (c : SchemaCache) (ops : List CacheOperation) : List CacheSlot :=
  ((c.lookups ops).filter fun v => v.1.makes v.2).map fun v => v.2.slot

/-- How many slots an operation takes away without counting them as evicted. -/
def removes (c : SchemaCache) : CacheOperation → Nat
  | .lookup _ => 0
  | .invalidate source => c.slots.countP fun s => s.key.source == source
  | .clear => c.size

def removed (c : SchemaCache) : List CacheOperation → Nat
  | [] => 0
  | op :: ops => c.removes op + removed (c.perform op) ops

variable {c : SchemaCache} {now : Nat} {key : CacheKey} {slot : CacheSlot} {schema : Table}
  {l : Lookup} {op : CacheOperation} {ops : List CacheOperation}

theorem lookups_append (c : SchemaCache) (ops ops' : List CacheOperation) :
    c.lookups (ops ++ ops') = c.lookups ops ++ (c.performAll ops).lookups ops' := by
  induction ops generalizing c with
  | nil => rfl
  | cons op ops ih =>
      cases op with
      | lookup l => exact congrArg ((c, l) :: ·) (ih _)
      | invalidate source => exact ih _
      | clear => exact ih _

theorem lookups_cons (c : SchemaCache) (op : CacheOperation) (ops : List CacheOperation) :
    c.lookups (op :: ops) = c.lookups [op] ++ (c.perform op).lookups ops :=
  c.lookups_append [op] ops

theorem made_append (c : SchemaCache) (ops ops' : List CacheOperation) :
    c.made (ops ++ ops') = c.made ops ++ (c.performAll ops).made ops' := by
  simp [made, lookups_append]

theorem made_cons (c : SchemaCache) (op : CacheOperation) (ops : List CacheOperation) :
    c.made (op :: ops) = c.made [op] ++ (c.perform op).made ops :=
  c.made_append [op] ops

theorem made_lookup (c : SchemaCache) (l : Lookup) :
    c.made [.lookup l] = if c.makes l then [l.slot] else [] := by
  cases hmakes : c.makes l <;> simp [made, lookups, hmakes]

/-! ## The course of a lookup -/

/-- The cache while a schema is inferred: unless the lookup goes past it, the key has a slot. -/
def withSlot (c : SchemaCache) (l : Lookup) : SchemaCache :=
  if c.passes l then c
  else if (c.live? l).isSome then c.trim l.now
  else ((c.insertSlot l.now l.key).countEvictions (if (c.slot? l.key).isSome then 1 else 0)).trim
    l.now

def settle (c : SchemaCache) (key : CacheKey) : Except Error Table → SchemaCache
  | .ok schema => (c.fill key schema).countMiss
  | .error _ => c

theorem prepare_eq (hpasses : c.passes l = false) :
    c.prepare l.now l.key = (c.kept? l, c.withSlot l) := by
  unfold prepare kept? withSlot live?
  rw [hpasses]
  rcases c.slot? l.key with _ | slot
  · rfl
  · cases hexpired : c.expired l.now slot <;> simp [Option.filter, hexpired]

section Get

variable {m : Type → Type} [Monad m] (infer : m (Except Error Table))

theorem get_of_passes [LawfulMonad m] (hpasses : c.passes l = true) :
    c.get l.now l.key l.bypass infer = (fun r => (r, c.countBypass)) <$> infer := by
  unfold get
  rw [if_pos (show (!c.enabled || l.bypass) = true from hpasses), map_eq_pure_bind]

theorem get_of_kept (hpasses : c.passes l = false) (hkept : c.kept? l = some schema) :
    c.get l.now l.key l.bypass infer = pure (.ok schema, (c.withSlot l).countHit) := by
  unfold get
  rw [if_neg (show ¬(!c.enabled || l.bypass) = true from Bool.eq_false_iff.1 hpasses),
    prepare_eq hpasses, hkept]

theorem get_of_not_kept [LawfulMonad m] (hpasses : c.passes l = false)
    (hkept : c.kept? l = none) :
    c.get l.now l.key l.bypass infer =
      (fun r => (r, (c.withSlot l).settle l.key r)) <$> infer := by
  unfold get
  rw [if_neg (show ¬(!c.enabled || l.bypass) = true from Bool.eq_false_iff.1 hpasses),
    prepare_eq hpasses, hkept, map_eq_pure_bind]
  refine bind_congr fun r => ?_
  cases r <;> rfl

theorem lookUp_of_passes (hpasses : c.passes l = true) :
    c.lookUp l = (l.inferred, c.countBypass) := by
  unfold lookUp
  rw [get_of_passes _ hpasses]
  rfl

theorem lookUp_of_kept (hpasses : c.passes l = false) (hkept : c.kept? l = some schema) :
    c.lookUp l = (.ok schema, (c.withSlot l).countHit) := by
  unfold lookUp
  rw [get_of_kept _ hpasses hkept]
  rfl

theorem lookUp_of_not_kept (hpasses : c.passes l = false) (hkept : c.kept? l = none) :
    c.lookUp l = (l.inferred, (c.withSlot l).settle l.key l.inferred) := by
  unfold lookUp
  rw [get_of_not_kept _ hpasses hkept]
  rfl

/-- The inference is run once, unless there is a hit; then it is not run. -/
theorem get_eq [LawfulMonad m] (c : SchemaCache) (l : Lookup) :
    c.get l.now l.key l.bypass infer =
      if c.hit l then pure (c.lookUp l)
      else (fun inferred => c.lookUp { l with inferred }) <$> infer := by
  unfold hit
  cases hpasses : c.passes l with
  | true =>
      have hlookUp (r) : c.lookUp { l with inferred := r } = (r, c.countBypass) :=
        lookUp_of_passes hpasses
      simp only [hlookUp]
      exact get_of_passes infer hpasses
  | false =>
      cases hkept : c.kept? l with
      | some schema =>
          rw [get_of_kept infer hpasses hkept, lookUp_of_kept hpasses hkept]
          rfl
      | none =>
          have hlookUp (r) : c.lookUp { l with inferred := r } =
            (r, (c.withSlot l).settle l.key r) := lookUp_of_not_kept hpasses hkept
          simp only [hlookUp]
          exact get_of_not_kept infer hpasses hkept

end Get

theorem withSlot_of_makes (hmakes : c.makes l = true) :
    c.withSlot l = ((c.insertSlot l.now l.key).countEvictions
      (if (c.slot? l.key).isSome then 1 else 0)).trim l.now := by
  obtain ⟨hpasses, hnone⟩ := Bool.and_eq_true_iff.1 hmakes
  rw [Bool.not_eq_true'] at hpasses
  rw [Option.isNone_iff_eq_none] at hnone
  simp [withSlot, hpasses, hnone]

theorem withSlot_of_not_makes (hsize : c.size ≤ c.capacity) (hmakes : c.makes l = false) :
    c.withSlot l = c := by
  have htrim : c.trim l.now = c := if_neg (Nat.not_lt.2 hsize)
  unfold withSlot
  rw [htrim]
  cases hpasses : c.passes l with
  | true => rfl
  | false =>
      have hsome : (c.live? l).isSome = true := by simpa [makes, hpasses] using hmakes
      simp [hsome]

/-! ## Limits and slots -/

/-- What no operation changes. -/
def limits (c : SchemaCache) : Bool × Nat × Nat := (c.enabled, c.capacity, c.ttl)

theorem limits_trim (c : SchemaCache) (now : Nat) : (c.trim now).limits = c.limits := by
  unfold trim
  split <;> rfl

theorem limits_withSlot (c : SchemaCache) (l : Lookup) : (c.withSlot l).limits = c.limits := by
  unfold withSlot
  split
  · rfl
  · split <;> exact limits_trim _ _

theorem limits_settle (c : SchemaCache) (key : CacheKey) (inferred : Except Error Table) :
    (c.settle key inferred).limits = c.limits := by
  cases inferred <;> rfl

theorem emptied_fill (c : SchemaCache) (key : CacheKey) (schema : Table) :
    (c.fill key schema).slots.map CacheSlot.emptied = c.slots.map CacheSlot.emptied := by
  simp only [fill, List.map_map]
  refine List.map_congr_left fun s _ => ?_
  simp only [Function.comp_apply]
  split <;> rfl

theorem emptied_settle (c : SchemaCache) (key : CacheKey) (inferred : Except Error Table) :
    (c.settle key inferred).slots.map CacheSlot.emptied = c.slots.map CacheSlot.emptied := by
  cases inferred with
  | error e => rfl
  | ok schema => exact emptied_fill c key schema

theorem frame_lookUp (c : SchemaCache) (l : Lookup) :
    (c.lookUp l).2.limits = c.limits ∧
      (c.lookUp l).2.slots.map CacheSlot.emptied = (c.withSlot l).slots.map CacheSlot.emptied := by
  have hlimits := limits_withSlot c l
  cases hpasses : c.passes l with
  | true =>
      have hsame : c.withSlot l = c := if_pos hpasses
      rw [lookUp_of_passes hpasses, hsame]
      exact ⟨rfl, rfl⟩
  | false =>
      cases hkept : c.kept? l with
      | some schema =>
          rw [lookUp_of_kept hpasses hkept]
          exact ⟨hlimits, rfl⟩
      | none =>
          rw [lookUp_of_not_kept hpasses hkept]
          exact ⟨(limits_settle _ _ _).trans hlimits, emptied_settle _ _ _⟩

theorem limits_perform (c : SchemaCache) (op : CacheOperation) :
    (c.perform op).limits = c.limits := by
  cases op with
  | lookup l => exact (frame_lookUp c l).1
  | invalidate source => rfl
  | clear => rfl

theorem limits_performAll (c : SchemaCache) (ops : List CacheOperation) :
    (c.performAll ops).limits = c.limits := by
  induction ops generalizing c with
  | nil => rfl
  | cons op ops ih => exact (ih _).trans (limits_perform c op)

theorem enabled_of_limits {c' : SchemaCache} (h : c'.limits = c.limits) : c'.enabled = c.enabled :=
  congrArg (fun limits => limits.1) h

theorem capacity_of_limits {c' : SchemaCache} (h : c'.limits = c.limits) :
    c'.capacity = c.capacity :=
  congrArg (fun limits => limits.2.1) h

theorem ttl_of_limits {c' : SchemaCache} (h : c'.limits = c.limits) : c'.ttl = c.ttl :=
  congrArg (fun limits => limits.2.2) h

/-- A key has one slot at most, and there are no more slots than the capacity. -/
structure Bounded (c : SchemaCache) : Prop where
  nodup : (c.slots.map CacheSlot.key).Nodup
  size_le : c.size ≤ c.capacity

theorem New.bounded (h : c.New) : c.Bounded := by
  cases h <;> exact ⟨List.nodup_nil, Nat.zero_le _⟩

theorem New.one_le_capacity (h : c.New) : 1 ≤ c.capacity := by
  cases h <;> exact Nat.le_max_left _ _

theorem New.slots (h : c.New) : c.slots = [] := by
  cases h <;> rfl

theorem New.counts (h : c.New) : c.counts = {} := by
  cases h <;> rfl

theorem slot?_eq_none_iff : c.slot? key = none ↔ ∀ s ∈ c.slots, s.key ≠ key := by
  simp [slot?, List.find?_eq_none]

theorem isSome_slot?_iff : (c.slot? key).isSome ↔ key ∈ c.slots.map CacheSlot.key := by
  simp [slot?, List.find?_isSome]

theorem Bounded.slot?_eq_some_iff (h : c.Bounded) :
    c.slot? key = some slot ↔ slot ∈ c.slots ∧ slot.key = key := by
  refine ⟨mem_of_slot?, ?_⟩
  rintro ⟨hmem, hkey⟩
  have hsome : (c.slot? key).isSome := isSome_slot?_iff.2 (hkey ▸ List.mem_map_of_mem hmem)
  obtain ⟨found, hfound⟩ := Option.isSome_iff_exists.1 hsome
  obtain ⟨hmem', hkey'⟩ := mem_of_slot? hfound
  rw [hfound, List.inj_on_of_nodup_map h.nodup hmem' hmem (hkey'.trans hkey.symm)]

theorem slots_evict_sublist (c : SchemaCache) (now : Nat) : (c.evict now).slots.Sublist c.slots :=
  (List.drop_sublist _ _).trans List.filter_sublist

theorem slots_trim_sublist (c : SchemaCache) (now : Nat) : (c.trim now).slots.Sublist c.slots := by
  unfold trim
  split
  · exact slots_evict_sublist c now
  · exact .refl _

theorem size_trim_le (c : SchemaCache) (now : Nat) : (c.trim now).size ≤ c.capacity := by
  unfold trim
  split
  · simp only [size, evict, countEvictions, List.length_drop]
    omega
  · omega

theorem Bounded.trim (hnodup : (c.slots.map CacheSlot.key).Nodup) (now : Nat) :
    (c.trim now).Bounded where
  nodup := ((slots_trim_sublist c now).map _).nodup hnodup
  size_le := by
    rw [capacity_of_limits (limits_trim c now)]
    exact size_trim_le c now

theorem nodup_insertSlot (h : (c.slots.map CacheSlot.key).Nodup) (now : Nat) (key : CacheKey) :
    ((c.insertSlot now key).slots.map CacheSlot.key).Nodup := by
  have hothers : ((c.slots.filter fun s => s.key != key).map CacheSlot.key).Nodup :=
    (List.filter_sublist.map _).nodup h
  simp only [insertSlot, List.map_append, List.map_cons, List.map_nil]
  refine List.nodup_append.2 ⟨hothers, List.nodup_singleton _, ?_⟩
  rintro _ hold _ hnew rfl
  obtain ⟨s, hs, rfl⟩ := List.mem_map.1 hold
  exact bne_iff_ne.1 (List.mem_filter.1 hs).2 (List.mem_singleton.1 hnew)

theorem Bounded.withSlot (h : c.Bounded) (l : Lookup) : (c.withSlot l).Bounded := by
  unfold SchemaCache.withSlot
  split
  · exact h
  split
  · exact .trim h.nodup _
  · refine .trim ?_ _
    exact nodup_insertSlot h.nodup l.now l.key

theorem map_key_emptied (slots : List CacheSlot) :
    (slots.map CacheSlot.emptied).map CacheSlot.key = slots.map CacheSlot.key := by
  simp [CacheSlot.emptied, Function.comp_def]

theorem map_created_emptied (slots : List CacheSlot) :
    (slots.map CacheSlot.emptied).map CacheSlot.created = slots.map CacheSlot.created := by
  simp [CacheSlot.emptied, Function.comp_def]

/-- It does not matter what the slots hold. -/
theorem Bounded.of_emptied {c' : SchemaCache} (h : c.Bounded) (hlimits : c'.limits = c.limits)
    (hslots : c'.slots.map CacheSlot.emptied = c.slots.map CacheSlot.emptied) : c'.Bounded where
  nodup := by
    rw [← map_key_emptied, hslots, map_key_emptied]
    exact h.nodup
  size_le := by
    have hsize := congrArg List.length hslots
    simp only [List.length_map] at hsize
    rw [capacity_of_limits hlimits, size, hsize]
    exact h.size_le

theorem Bounded.perform (h : c.Bounded) (op : CacheOperation) : (c.perform op).Bounded := by
  cases op with
  | lookup l =>
      obtain ⟨hlimits, hslots⟩ := frame_lookUp c l
      exact (h.withSlot l).of_emptied (hlimits.trans (limits_withSlot c l).symm) hslots
  | invalidate source =>
      exact ⟨(List.filter_sublist.map _).nodup h.nodup,
        Nat.le_trans (List.length_filter_le _ _) h.size_le⟩
  | clear => exact ⟨List.nodup_nil, Nat.zero_le _⟩

theorem Bounded.performAll (h : c.Bounded) (ops : List CacheOperation) :
    (c.performAll ops).Bounded := by
  induction ops generalizing c with
  | nil => exact h
  | cons op ops ih => exact ih (h.perform op)

end SchemaCache

end RowStream
