import RowStream.Calendar.Catalogue
import RowStream.Proofs.Service.CacheRun

/-!
# What a cache counts

A lookup is counted as a bypass, as a hit or as a miss, and a slot that is dropped as evicted. The
counters of a run are those of its lookups, and the slots that were made in it are accounted for.
-/

namespace RowStream.SchemaCache

section Zones

variable [Zone.Catalogue] {c : SchemaCache} {key : CacheKey} {l : Lookup} {op : CacheOperation}
  {ops : List CacheOperation}

/-! ## One operation -/

/-- The slots that are there and those that were evicted. -/
def total (c : SchemaCache) : Nat := c.size + c.counts.evictions

theorem counts_trim (c : SchemaCache) (now : Nat) :
    (c.trim now).counts = { c.counts with evictions := (c.trim now).counts.evictions } := by
  unfold trim
  split <;> rfl

theorem counts_withSlot (c : SchemaCache) (l : Lookup) :
    (c.withSlot l).counts = { c.counts with evictions := (c.withSlot l).counts.evictions } := by
  unfold withSlot
  split
  · rfl
  · split <;> exact counts_trim _ _

theorem counts_lookUp (c : SchemaCache) (l : Lookup) :
    (c.lookUp l).2.counts =
      { hits := c.counts.hits + if c.hit l then 1 else 0
        misses := c.counts.misses + if !c.passes l && !c.hit l && (c.lookUp l).1.isOk then 1 else 0
        bypassed := c.counts.bypassed + if c.passes l then 1 else 0
        evictions := (c.withSlot l).counts.evictions } := by
  have hcounts := counts_withSlot c l
  unfold hit
  cases hpasses : c.passes l with
  | true =>
      have hsame : c.withSlot l = c := if_pos hpasses
      rw [lookUp_of_passes hpasses, hsame]
      rfl
  | false =>
      cases hkept : c.kept? l with
      | some schema =>
          rw [lookUp_of_kept hpasses hkept]
          simp only [countHit]
          rw [hcounts]
          rfl
      | none =>
          rw [lookUp_of_not_kept hpasses hkept]
          cases l.inferred with
          | error e => exact hcounts
          | ok schema =>
              simp only [settle, countMiss, fill]
              rw [hcounts]
              rfl

theorem total_evict (c : SchemaCache) (now : Nat) : (c.evict now).total = c.total := by
  have hsize := (slots_evict_sublist c now).length_le
  simp only [total, size, evict, countEvictions] at hsize ⊢
  omega

theorem total_trim (c : SchemaCache) (now : Nat) : (c.trim now).total = c.total := by
  unfold trim
  split
  · exact total_evict c now
  · rfl

theorem Bounded.countP_key (h : c.Bounded) (key : CacheKey) :
    c.slots.countP (fun s => s.key == key) = if (c.slot? key).isSome then 1 else 0 := by
  simp only [isSome_slot?_iff]
  rw [← h.nodup.count, List.count, List.countP_map]
  rfl

theorem length_filter_not_add (slots : List CacheSlot) (p : CacheSlot → Bool) :
    (slots.filter fun s => !p s).length + slots.countP p = slots.length := by
  simpa [List.countP_eq_length_filter, Nat.add_comm] using
    (List.length_eq_countP_add_countP p (l := slots)).symm

theorem size_insertSlot (h : c.Bounded) (now : Nat) (key : CacheKey) :
    (c.insertSlot now key).size + (if (c.slot? key).isSome then 1 else 0) = c.size + 1 := by
  -- The slots of other keys stay, and of this key there was one at most.
  have hothers := length_filter_not_add c.slots fun s => s.key == key
  have hinserted : (c.insertSlot now key).size =
      (c.slots.filter fun s => !s.key == key).length + 1 := List.length_append
  rw [h.countP_key] at hothers
  rw [hinserted, size, ← hothers]
  omega

theorem total_withSlot (h : c.Bounded) (l : Lookup) :
    (c.withSlot l).total = c.total + if c.makes l then 1 else 0 := by
  cases hmakes : c.makes l with
  | true =>
      have hinserted := size_insertSlot h l.now l.key
      rw [withSlot_of_makes hmakes, total_trim, if_pos rfl]
      simp only [total, size, countEvictions, insertSlot] at hinserted ⊢
      omega
  | false =>
      rw [withSlot_of_not_makes h.size_le hmakes]
      rfl

theorem total_lookUp (h : c.Bounded) (l : Lookup) :
    (c.lookUp l).2.total = c.total + if c.makes l then 1 else 0 := by
  -- The inference neither makes nor drops a slot.
  have hsize := congrArg List.length (frame_lookUp c l).2
  simp only [List.length_map] at hsize
  rw [← total_withSlot h l, total, total, size, size, hsize, counts_lookUp]

theorem total_invalidate (c : SchemaCache) (source : String) :
    (c.invalidate source).total + c.removes (.invalidate source) = c.total := by
  have hsplit := length_filter_not_add c.slots fun s => s.key.source == source
  have hsize : (c.invalidate source).size =
      (c.slots.filter fun s => !s.key.source == source).length := rfl
  have hevictions : (c.invalidate source).counts.evictions = c.counts.evictions := rfl
  rw [total, total, hsize, hevictions, removes, size]
  omega

theorem total_clear (c : SchemaCache) : c.clear.total + c.removes .clear = c.total := by
  simp [total, clear, size, removes, Nat.add_comm]

/-! ## Runs -/

/-- What has been counted from one cache to another. -/
structure Tallied (c : SchemaCache) (ops : List CacheOperation) (c' : SchemaCache) : Prop where
  bypassed : c'.counts.bypassed =
    c.counts.bypassed + (c.lookups ops).countP fun v => v.1.passes v.2
  hits : c'.counts.hits = c.counts.hits + (c.lookups ops).countP fun v => v.1.hit v.2
  misses : c'.counts.misses = c.counts.misses +
    (c.lookups ops).countP fun v => !v.1.passes v.2 && !v.1.hit v.2 && (v.1.lookUp v.2).1.isOk
  slots : c'.total + c.removed ops = c.total + (c.made ops).length

theorem length_made (c : SchemaCache) (ops : List CacheOperation) :
    (c.made ops).length = (c.lookups ops).countP fun v => v.1.makes v.2 := by
  simp [made, List.countP_eq_length_filter]

theorem tallied_perform (h : c.Bounded) (op : CacheOperation) : c.Tallied [op] (c.perform op) := by
  cases op with
  | lookup l =>
      have hcounts := counts_lookUp c l
      constructor
      case slots =>
        rw [length_made, lookups, lookups, List.countP_singleton]
        exact total_lookUp h l
      all_goals
        rw [lookups, lookups, List.countP_singleton, perform, hcounts]
  | invalidate source => exact ⟨rfl, rfl, rfl, total_invalidate c source⟩
  | clear => exact ⟨rfl, rfl, rfl, total_clear c⟩

theorem Tallied.cons {c' : SchemaCache} (hfirst : c.Tallied [op] (c.perform op))
    (hrest : (c.perform op).Tallied ops c') : c.Tallied (op :: ops) c' := by
  constructor
  case bypassed =>
    rw [lookups_cons, List.countP_append, hrest.bypassed, hfirst.bypassed, Nat.add_assoc]
  case hits => rw [lookups_cons, List.countP_append, hrest.hits, hfirst.hits, Nat.add_assoc]
  case misses => rw [lookups_cons, List.countP_append, hrest.misses, hfirst.misses, Nat.add_assoc]
  case slots =>
    have hslots := hfirst.slots
    have hslots' := hrest.slots
    simp only [removed] at hslots ⊢
    rw [made_cons, List.length_append]
    omega

theorem tallied_performAll (h : c.Bounded) (ops : List CacheOperation) :
    c.Tallied ops (c.performAll ops) := by
  induction ops generalizing c with
  | nil => exact ⟨rfl, rfl, rfl, rfl⟩
  | cons op ops ih => exact (tallied_perform h op).cons (ih (h.perform op))

/-- An inference that counts how often it is run. -/
def counted (inferred : Except Error Table) : StateM Nat (Except Error Table) := do
  modify (· + 1)
  return inferred

theorem run_counted (c : SchemaCache) (l : Lookup) (n : Nat) :
    (c.get l.now l.key l.bypass (counted l.inferred)).run n =
      (c.lookUp l, if c.hit l then n else n + 1) := by
  rw [get_eq]
  split <;> rfl

theorem not_passes_of_hit (h : c.hit l = true) :
    c.passes l = false ∧ (c.lookUp l).1.isOk = true := by
  obtain ⟨hpasses, hsome⟩ := Bool.and_eq_true_iff.1 h
  obtain ⟨schema, hkept⟩ := Option.isSome_iff_exists.1 hsome
  rw [Bool.not_eq_true'] at hpasses
  rw [lookUp_of_kept hpasses hkept]
  exact ⟨hpasses, rfl⟩

theorem countP_hit_add (visits : List (SchemaCache × Lookup)) :
    visits.countP (fun v => v.1.hit v.2) +
      visits.countP (fun v => !v.1.passes v.2 && !v.1.hit v.2 && (v.1.lookUp v.2).1.isOk) =
      visits.countP fun v => !v.1.passes v.2 && (v.1.lookUp v.2).1.isOk := by
  rw [List.countP_eq_countP_filter_add visits (fun v => !v.1.passes v.2 && (v.1.lookUp v.2).1.isOk)
    (fun v => v.1.hit v.2), List.countP_filter, List.countP_filter]
  congr 1
  · refine List.countP_congr fun v _ => ⟨fun hhit => ?_, fun h => (Bool.and_eq_true_iff.1 h).2⟩
    obtain ⟨hpasses, hok⟩ := not_passes_of_hit hhit
    simp [hpasses, hok, hhit]
  · refine List.countP_congr fun v _ => ?_
    rw [Bool.and_right_comm]

/-- Every lookup of a run is counted as a bypass, as a hit or as a miss, unless its inference
fails; the inference is run once for each but the hits; and the slots that were made are there, were
evicted or were taken away. -/
theorem performAll_counts (hnew : c.New) (ops : List CacheOperation) :
    (c.performAll ops).counts.bypassed = (c.lookups ops).countP (fun v => v.1.passes v.2) ∧
    (c.performAll ops).counts.hits = (c.lookups ops).countP (fun v => v.1.hit v.2) ∧
    (c.performAll ops).counts.hits + (c.performAll ops).counts.misses =
      (c.lookups ops).countP (fun v => !v.1.passes v.2 && (v.1.lookUp v.2).1.isOk) ∧
    (∀ v ∈ c.lookups ops,
      (∀ n, (v.1.get v.2.now v.2.key v.2.bypass (counted v.2.inferred)).run n =
        (v.1.lookUp v.2, if v.1.hit v.2 then n else n + 1)) ∧
      (v.1.hit v.2 = true → v.1.passes v.2 = false ∧ (v.1.lookUp v.2).1.isOk = true)) ∧
    (c.made ops).length =
      (c.performAll ops).size + (c.performAll ops).counts.evictions + c.removed ops := by
  have htally := tallied_performAll hnew.bounded ops
  have hcounts : c.counts = {} := hnew.counts
  refine ⟨?_, ?_, ?_, ?_, ?_⟩
  · rw [htally.bypassed, hcounts, Nat.zero_add]
  · rw [htally.hits, hcounts, Nat.zero_add]
  · rw [htally.hits, htally.misses, hcounts, Nat.zero_add, Nat.zero_add, countP_hit_add]
  · exact fun v _ => ⟨run_counted v.1 v.2, not_passes_of_hit⟩
  · have hslots := htally.slots
    have htotal : c.total = 0 := by rw [total, size, hnew.slots, hcounts]; rfl
    rw [htotal, Nat.zero_add] at hslots
    exact hslots.symm

end Zones

def numbers : Table :=
  .ofColumns [({ name := "a", type := .int32, nullable := false } : Draft).shape none []]

/-- A miss, a hit, an inference that fails in a full cache, a bypass and a data source that is
forgotten. -/
def mixedOperations : List CacheOperation :=
  [.lookup ⟨0, ⟨"db", "q1"⟩, false, .ok numbers⟩, .lookup ⟨1, ⟨"db", "q1"⟩, false, .ok numbers⟩,
    .lookup ⟨2, ⟨"db", "q2"⟩, false, .error (.internal (.reported "driver down"))⟩,
    .lookup ⟨3, ⟨"db", "q2"⟩, true, .ok numbers⟩, .invalidate "db"]

theorem performAll_counts_mixed :
    (withLimits 1 1000).New ∧
    ((withLimits 1 1000).performAll mixedOperations).counts.hits +
      ((withLimits 1 1000).performAll mixedOperations).counts.misses = 2 ∧
    ((withLimits 1 1000).made mixedOperations).length =
      ((withLimits 1 1000).performAll mixedOperations).size +
        ((withLimits 1 1000).performAll mixedOperations).counts.evictions +
        (withLimits 1 1000).removed mixedOperations := by
  obtain ⟨-, -, hanswered, -, hmade⟩ :=
    performAll_counts (.withLimits 1 1000) mixedOperations
  exact ⟨.withLimits 1 1000, hanswered, hmade⟩

end RowStream.SchemaCache
