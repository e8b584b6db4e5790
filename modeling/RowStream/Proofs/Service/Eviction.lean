import RowStream.Proofs.Service.CacheCounts
import Mathlib.Data.List.DropRight
import Mathlib.Data.List.Dedup

/-!
# What a cache keeps

The slots of a cache stand in the order in which they were made. As long as none of them expires,
a slot that is one too many drops the first; so the keys of a cache that is only looked up in are
the last ones that were made, as many as its capacity. The slot is made before its schema is
inferred, and an inference that fails can therefore cost the first schema.
-/

namespace RowStream

/-! ## The end of a list -/

theorem rtake_of_length_le {α : Type} {xs : List α} {n : Nat} (h : xs.length ≤ n) :
    xs.rtake n = xs := by
  rw [List.rtake, Nat.sub_eq_zero_of_le h, List.drop_zero]

theorem map_rtake {α β : Type} (f : α → β) (xs : List α) (n : Nat) :
    (xs.rtake n).map f = (xs.map f).rtake n := by
  simp [List.rtake]

theorem rtake_rtake_append {α : Type} (xs ys : List α) (n : Nat) :
    (xs.rtake n ++ ys).rtake n = (xs ++ ys).rtake n := by
  have hle : xs.length - n ≤ xs.length := Nat.sub_le _ _
  simp only [List.rtake]
  rw [← List.drop_append_of_le_length hle, List.drop_drop, List.length_drop, List.length_append]
  congr 1
  omega

/-- When no element is twice at the end of a list, these are its last distinct elements. -/
theorem rtake_dedup {α : Type} [DecidableEq α] {xs : List α} {n : Nat} (h : (xs.rtake n).Nodup) :
    xs.dedup.rtake n = xs.rtake n := by
  rcases Nat.le_total xs.length n with hshort | hlong
  · rw [rtake_of_length_le hshort] at h ⊢
    rw [h.dedup, rtake_of_length_le hshort]
  · have hsplit : xs = xs.take (xs.length - n) ++ xs.rtake n :=
      (List.take_append_drop (xs.length - n) xs).symm
    have hlength : (xs.rtake n).length = n := by
      simp only [List.rtake, List.length_drop]
      omega
    -- Of the elements before the end, those stay that do not come up in it.
    obtain ⟨others, hothers⟩ :=
      List.suffix_union_right (xs.take (xs.length - n)) (xs.rtake n)
    calc
      xs.dedup.rtake n = (others ++ xs.rtake n).rtake n := by
        rw [hothers]
        nth_rewrite 1 [hsplit]
        rw [List.dedup_append, h.dedup]
      _ = xs.rtake n := by
        have hbefore : (others ++ xs.rtake n).length - n = others.length := by
          rw [List.length_append, hlength, Nat.add_sub_cancel]
        rw [List.rtake, hbefore, List.drop_left]

namespace SchemaCache

section Zones

variable [Zone.Catalogue] {c : SchemaCache} {now : Nat} {key : CacheKey} {slot : CacheSlot}
  {l : Lookup} {op : CacheOperation} {ops : List CacheOperation}

/-! ## The order of the slots -/

theorem emptied_insertSlot_sublist (c : SchemaCache) (l : Lookup) :
    ((c.insertSlot l.now l.key).slots.map CacheSlot.emptied).Sublist
      (c.slots.map CacheSlot.emptied ++ [l.slot]) := by
  have hothers : (c.slots.filter fun s => s.key != l.key).Sublist c.slots := List.filter_sublist
  simp only [insertSlot, List.map_append, List.map_cons, List.map_nil]
  exact (hothers.map _).append_right _

theorem emptied_withSlot_sublist (h : c.Bounded) (l : Lookup) :
    ((c.withSlot l).slots.map CacheSlot.emptied).Sublist
      (c.slots.map CacheSlot.emptied ++ c.made [.lookup l]) := by
  rw [made_lookup]
  cases hmakes : c.makes l with
  | true =>
      rw [withSlot_of_makes hmakes]
      have hinserted := emptied_insertSlot_sublist c l
      exact ((slots_trim_sublist _ l.now).map _).trans hinserted
  | false =>
      rw [withSlot_of_not_makes h.size_le hmakes]
      exact List.sublist_append_left _ _

theorem emptied_perform_sublist (h : c.Bounded) (op : CacheOperation) :
    ((c.perform op).slots.map CacheSlot.emptied).Sublist
      (c.slots.map CacheSlot.emptied ++ c.made [op]) := by
  cases op with
  | lookup l =>
      unfold perform
      rw [(frame_lookUp c l).2]
      exact emptied_withSlot_sublist h l
  | invalidate source =>
      have hslots : (c.invalidate source).slots.Sublist c.slots := List.filter_sublist
      exact (hslots.map _).trans (List.sublist_append_left _ _)
  | clear => exact List.nil_sublist _

theorem emptied_performAll_sublist (h : c.Bounded) (ops : List CacheOperation) :
    ((c.performAll ops).slots.map CacheSlot.emptied).Sublist
      (c.slots.map CacheSlot.emptied ++ c.made ops) := by
  induction ops generalizing c with
  | nil => simp [performAll, made, lookups]
  | cons op ops ih =>
      rw [made_cons, ← List.append_assoc]
      exact (ih (h.perform op)).trans ((emptied_perform_sublist h op).append_right _)

theorem New.emptied_sublist_made (hnew : c.New) (ops : List CacheOperation) :
    ((c.performAll ops).slots.map CacheSlot.emptied).Sublist (c.made ops) := by
  have hslots := emptied_performAll_sublist hnew.bounded ops
  rwa [hnew.slots, List.map_nil, List.nil_append] at hslots

theorem sorted_performAll (hnew : c.New)
    (hclock : ((c.made ops).map CacheSlot.created).Pairwise (· < ·)) :
    ((c.performAll ops).slots.map CacheSlot.created).Pairwise (· < ·) := by
  have hsorted := hclock.sublist ((hnew.emptied_sublist_made ops).map _)
  rwa [map_created_emptied] at hsorted

theorem exists_split_of_mem_lookups {v : SchemaCache × Lookup} (h : v ∈ c.lookups ops) :
    ∃ before after, ops = before ++ .lookup v.2 :: after ∧ v.1 = c.performAll before := by
  induction ops generalizing c with
  | nil => cases h
  | cons op ops ih =>
      -- A lookup comes first, or behind one more operation.
      have hlater : v ∈ (c.perform op).lookups ops → ∃ before after,
          op :: ops = before ++ .lookup v.2 :: after ∧ v.1 = c.performAll before := by
        intro hv
        obtain ⟨before, after, rfl, hbefore⟩ := ih hv
        exact ⟨op :: before, after, rfl, hbefore⟩
      cases op with
      | lookup l =>
          rcases List.mem_cons.1 h with rfl | hv
          · exact ⟨[], ops, rfl, rfl⟩
          · exact hlater hv
      | invalidate source => exact hlater h
      | clear => exact hlater h

theorem limits_of_mem_lookups {v : SchemaCache × Lookup} (h : v ∈ c.lookups ops) :
    v.1.limits = c.limits := by
  obtain ⟨before, -, -, hfound⟩ := exists_split_of_mem_lookups h
  rw [hfound]
  exact limits_performAll c before

theorem emptied_append_sublist_made (hnew : c.New) {v : SchemaCache × Lookup}
    (hv : v ∈ c.lookups ops) (hmakes : v.1.makes v.2 = true) :
    (v.1.slots.map CacheSlot.emptied ++ [v.2.slot]).Sublist (c.made ops) := by
  obtain ⟨before, after, rfl, hfound⟩ := exists_split_of_mem_lookups hv
  have hslots := hnew.emptied_sublist_made before
  rw [← hfound] at hslots
  rw [made_append, ← hfound, made_cons, made_lookup, if_pos hmakes]
  exact hslots.append (List.sublist_append_left _ _)

/-! ## Slots that do not expire -/

def AllLive (c : SchemaCache) (now : Nat) : Prop := ∀ slot ∈ c.slots, c.expired now slot = false

instance (c : SchemaCache) (now : Nat) : Decidable (c.AllLive now) :=
  inferInstanceAs (Decidable (∀ slot ∈ c.slots, c.expired now slot = false))

theorem ttl_pos_of_mem (hlive : c.AllLive now) (hslot : slot ∈ c.slots) : 0 < c.ttl := by
  have hage := of_decide_eq_false (hlive slot hslot)
  omega

theorem slots_trim_of_live (hlive : c.AllLive now) :
    (c.trim now).slots = c.slots.rtake c.capacity := by
  have hfilter : (c.slots.filter fun s => !c.expired now s) = c.slots :=
    List.filter_eq_self.2 fun s hs => by simp [hlive s hs]
  unfold trim
  split
  · simp only [evict, countEvictions, hfilter, List.rtake]
  · next hsize =>
      have hnone : c.slots.length - c.capacity = 0 := Nat.sub_eq_zero_of_le (Nat.not_lt.1 hsize)
      rw [List.rtake, hnone, List.drop_zero]

theorem slot?_eq_none_of_makes (hlive : c.AllLive l.now) (hmakes : c.makes l = true) :
    c.slot? l.key = none := by
  have hnone := (Bool.and_eq_true_iff.1 hmakes).2
  rw [live?, Option.isNone_iff_eq_none] at hnone
  cases hslot : c.slot? l.key with
  | none => rfl
  | some slot =>
      rw [hslot] at hnone
      have := hlive slot (mem_of_slot? hslot).1
      simp [Option.filter, this] at hnone

theorem slots_withSlot_of_makes (httl : 0 < c.ttl) (hlive : c.AllLive l.now)
    (hmakes : c.makes l = true) :
    (c.withSlot l).slots = (c.slots ++ [l.slot]).rtake c.capacity := by
  have habsent := slot?_eq_none_iff.1 (slot?_eq_none_of_makes hlive hmakes)
  have hslots : (c.insertSlot l.now l.key).slots = c.slots ++ [l.slot] := by
    have hothers : (c.slots.filter fun s => s.key != l.key) = c.slots :=
      List.filter_eq_self.2 fun s hs => bne_iff_ne.2 (habsent s hs)
    rw [insertSlot, hothers]
    rfl
  have hlive' (n) : ((c.insertSlot l.now l.key).countEvictions n).AllLive l.now := by
    intro s hs
    rcases mem_insertSlot hs with hold | rfl
    · exact hlive s hold
    · simp [expired, countEvictions, insertSlot, Nat.pos_iff_ne_zero.1 httl]
  rw [withSlot_of_makes hmakes, slots_trim_of_live (hlive' _)]
  exact congrArg (List.rtake · c.capacity) hslots

theorem slots_settle {others : List CacheSlot} {inferred : Except Error Table}
    (hslots : c.slots = others ++ [⟨key, now, none⟩]) (hothers : ∀ s ∈ others, s.key ≠ key) :
    (c.settle key inferred).slots = others ++ [⟨key, now, inferred.toOption⟩] := by
  cases inferred with
  | error e => exact hslots
  | ok schema =>
      have hkept : (others.map fun s =>
          if s.key = key then { s with schema := some schema } else s) = others :=
        (List.map_congr_left fun s hs => if_neg (hothers s hs)).trans (List.map_id' others)
      simp only [settle, countMiss, fill, hslots, List.map_append, hkept]
      simp [Except.toOption]

theorem kept?_eq_none_of_makes (hmakes : c.makes l = true) : c.kept? l = none := by
  have hnone := (Bool.and_eq_true_iff.1 hmakes).2
  rw [Option.isNone_iff_eq_none] at hnone
  rw [kept?, hnone]
  rfl

theorem slots_lookUp_of_makes (hcapacity : 1 ≤ c.capacity) (httl : 0 < c.ttl)
    (hlive : c.AllLive l.now) (hmakes : c.makes l = true) :
    (c.lookUp l).2.slots =
      (c.slots ++ [CacheSlot.mk l.key l.now l.inferred.toOption]).rtake c.capacity := by
  obtain ⟨n, hn⟩ := Nat.exists_eq_add_of_le' hcapacity
  have habsent := slot?_eq_none_iff.1 (slot?_eq_none_of_makes hlive hmakes)
  have hpasses := Bool.not_eq_true' _ ▸ (Bool.and_eq_true_iff.1 hmakes).1
  have hslots := slots_withSlot_of_makes httl hlive hmakes
  -- The slots that stay are of other keys, so that the inference fills the new one only.
  rw [hn, List.rtake_concat_succ] at hslots ⊢
  rw [lookUp_of_not_kept hpasses (kept?_eq_none_of_makes hmakes)]
  exact slots_settle hslots fun s hs => habsent s (List.mem_of_mem_drop hs)

theorem Bounded.rtake_emptied (h : c.Bounded) :
    (c.slots.map CacheSlot.emptied).rtake c.capacity = c.slots.map CacheSlot.emptied := by
  refine rtake_of_length_le ?_
  rw [List.length_map]
  exact h.size_le

theorem emptied_lookUp (h : c.Bounded) (httl : 0 < c.ttl) (hlive : c.AllLive l.now) :
    (c.lookUp l).2.slots.map CacheSlot.emptied =
      (c.slots.map CacheSlot.emptied ++ c.made [.lookup l]).rtake c.capacity := by
  rw [(frame_lookUp c l).2, made_lookup]
  cases hmakes : c.makes l with
  | true =>
      rw [slots_withSlot_of_makes httl hlive hmakes, map_rtake, List.map_append]
      rfl
  | false =>
      rw [withSlot_of_not_makes h.size_le hmakes]
      simp [h.rtake_emptied]

/-- No lookup of a run finds a slot that has expired, nor makes one. -/
structure NothingExpires (c : SchemaCache) (ops : List CacheOperation) : Prop where
  ttl_pos : 0 < c.ttl
  allLive : ∀ v ∈ c.lookups ops, v.1.AllLive v.2.now

theorem nothingExpires_of_ttl (hnew : c.New) (httl : 0 < c.ttl)
    (hrun : ∀ v ∈ c.lookups ops, ∀ w ∈ c.lookups ops, w.2.now < v.2.now + c.ttl) :
    c.NothingExpires ops := by
  refine ⟨httl, fun w hw slot hslot => ?_⟩
  obtain ⟨before, after, rfl, hfound⟩ := exists_split_of_mem_lookups hw
  have hslots := hnew.emptied_sublist_made before
  rw [← hfound] at hslots
  obtain ⟨v, hv, hmade⟩ := List.mem_map.1 (hslots.subset (List.mem_map_of_mem hslot))
  have hcreated : slot.created = v.2.now := (congrArg CacheSlot.created hmade).symm
  have hv' : v ∈ c.lookups (before ++ .lookup w.2 :: after) := by
    rw [lookups_append]
    exact List.mem_append_left _ (List.mem_filter.1 hv).1
  have hnow := hrun v hv' w hw
  rw [expired, hcreated, ttl_of_limits (limits_of_mem_lookups hw)]
  exact decide_eq_false (by omega)

/-- The slots of a cache that is only looked up in are the last ones that were made. -/
theorem emptied_performAll (h : c.Bounded) (hlive : c.NothingExpires ops)
    (hops : ∀ op ∈ ops, ∃ l, op = .lookup l) :
    (c.performAll ops).slots.map CacheSlot.emptied =
      (c.slots.map CacheSlot.emptied ++ c.made ops).rtake c.capacity := by
  induction ops generalizing c with
  | nil => simp [performAll, made, lookups, h.rtake_emptied]
  | cons op ops ih =>
      -- Of the slots that the first lookup drops none is among the last ones of the run.
      obtain ⟨l, rfl⟩ := hops op List.mem_cons_self
      have hlimits := limits_perform c (.lookup l)
      have hcapacity : (c.perform (.lookup l)).capacity = c.capacity := capacity_of_limits hlimits
      have httl : (c.perform (.lookup l)).ttl = c.ttl := ttl_of_limits hlimits
      have hrest : (c.perform (.lookup l)).NothingExpires ops :=
        ⟨httl ▸ hlive.ttl_pos, fun v hv => hlive.allLive v (List.mem_cons_of_mem _ hv)⟩
      have hfirst := emptied_lookUp h hlive.ttl_pos (hlive.allLive (c, l) List.mem_cons_self)
      have hlast := ih (h.perform _) hrest fun op hop => hops op (List.mem_cons_of_mem _ hop)
      calc
        (c.performAll (.lookup l :: ops)).slots.map CacheSlot.emptied
          = ((c.perform (.lookup l)).slots.map CacheSlot.emptied ++
              (c.perform (.lookup l)).made ops).rtake c.capacity := by
          rw [← hcapacity]
          exact hlast
        _ = ((c.slots.map CacheSlot.emptied ++ c.made [.lookup l]).rtake c.capacity ++
              (c.perform (.lookup l)).made ops).rtake c.capacity := by rw [perform, hfirst]
        _ = (c.slots.map CacheSlot.emptied ++ c.made (.lookup l :: ops)).rtake c.capacity := by
          rw [rtake_rtake_append, made_cons c _ ops, List.append_assoc]

/-! ## Capacity -/

theorem slots_lookUp_of_full {oldest : CacheSlot} {rest : List CacheSlot}
    (hfound : c.slots = oldest :: rest) (hfull : c.size = c.capacity) (hlive : c.AllLive l.now)
    (hmakes : c.makes l = true) :
    (c.lookUp l).2.slots = rest ++ [⟨l.key, l.now, l.inferred.toOption⟩] := by
  have hlength : rest.length + 1 = c.capacity := by
    rw [← hfull, size, hfound, List.length_cons]
  have httl := ttl_pos_of_mem hlive (hfound ▸ List.mem_cons_self)
  rw [slots_lookUp_of_makes (by omega) httl hlive hmakes, hfound, ← hlength]
  simp [List.rtake]

/-- A lookup puts its slot last and drops the first one, which was made before all others. -/
def DropsOldest (c : SchemaCache) (l : Lookup) : Prop :=
  ∃ oldest rest, c.slots = oldest :: rest ∧ oldest.key ≠ l.key ∧
    (∀ s ∈ rest, oldest.created < s.created) ∧ oldest.created < l.now ∧
    (c.lookUp l).2.slots = rest ++ [⟨l.key, l.now, l.inferred.toOption⟩]

theorem dropsOldest_of_full (hfull : c.size = c.capacity) (hcapacity : 1 ≤ c.capacity)
    (hlive : c.AllLive l.now) (hmakes : c.makes l = true)
    (hsorted : ((c.slots ++ [l.slot]).map CacheSlot.created).Pairwise (· < ·)) :
    c.DropsOldest l := by
  have habsent := slot?_eq_none_iff.1 (slot?_eq_none_of_makes hlive hmakes)
  cases hfound : c.slots with
  | nil =>
      rw [size, hfound, List.length_nil] at hfull
      omega
  | cons oldest rest =>
      rw [hfound, List.cons_append, List.map_cons] at hsorted
      have holdest := (List.pairwise_cons.1 hsorted).1
      simp only [List.map_append, List.mem_append, List.mem_map] at holdest
      refine ⟨oldest, rest, hfound, habsent oldest (by simp [hfound]), ?_, ?_,
        slots_lookUp_of_full hfound hfull hlive hmakes⟩
      · exact fun s hs => holdest _ (.inl ⟨s, hs, rfl⟩)
      · exact holdest _ (.inr ⟨l.slot, List.mem_singleton_self _, rfl⟩)

/-- Without an operation that takes slots away, the keys of the slots are the last distinct ones to
have been given a slot. -/
theorem keys_performAll (hnew : c.New) (hlive : c.NothingExpires ops)
    (hops : ∀ op ∈ ops, ∃ l, op = .lookup l) :
    (c.performAll ops).slots.map CacheSlot.key =
      ((c.made ops).map CacheSlot.key).dedup.rtake c.capacity := by
  have hslots := emptied_performAll hnew.bounded hlive hops
  have hkeys : (c.performAll ops).slots.map CacheSlot.key =
      ((c.made ops).map CacheSlot.key).rtake c.capacity := by
    rw [hnew.slots, List.map_nil, List.nil_append] at hslots
    rw [← map_key_emptied, hslots, map_rtake]
  have hnodup := (hnew.bounded.performAll ops).nodup
  rw [hkeys] at hnodup
  rw [hkeys, rtake_dedup hnodup]

theorem hit_of_ttl_eq_zero (httl : c.ttl = 0) (l : Lookup) : c.hit l = false := by
  have hexpired (s) : c.expired l.now s = true := by simp [expired, httl]
  have hlive : c.live? l = none := by
    cases hslot : c.slot? l.key <;> simp [live?, hslot, Option.filter, hexpired]
  simp [hit, kept?, hlive]

/-- A cache never has more slots than its capacity. Where none expires and each is made later than
those before, a slot that is one too many drops the oldest, and the keys of a cache that is only
looked up in are the last distinct ones to have been given a slot. Where each has expired at once,
there is no hit. -/
theorem performAll_capacity (hnew : c.New) (ops : List CacheOperation) :
    1 ≤ c.capacity ∧ (c.performAll ops).size ≤ c.capacity ∧
    (c.NothingExpires ops → ((c.made ops).map CacheSlot.created).Pairwise (· < ·) →
      (∀ v ∈ c.lookups ops, v.1.makes v.2 = true → v.1.size = c.capacity →
        v.1.DropsOldest v.2) ∧
      ((∀ op ∈ ops, ∃ l, op = .lookup l) →
        (c.performAll ops).slots.map CacheSlot.key =
          ((c.made ops).map CacheSlot.key).dedup.rtake c.capacity)) ∧
    (c.ttl = 0 → (c.performAll ops).counts.hits = 0 ∧
      ∀ v ∈ c.lookups ops, v.1.hit v.2 = false) := by
  refine ⟨hnew.one_le_capacity, ?_, fun hlive hclock => ⟨?_, keys_performAll hnew hlive⟩, ?_⟩
  · rw [← capacity_of_limits (limits_performAll c ops)]
    exact (hnew.bounded.performAll ops).size_le
  · intro v hv hmakes hfull
    have hcapacity := capacity_of_limits (limits_of_mem_lookups hv)
    have hsorted := hclock.sublist ((emptied_append_sublist_made hnew hv hmakes).map _)
    rw [← hcapacity] at hfull
    rw [List.map_append, map_created_emptied, ← List.map_append] at hsorted
    refine dropsOldest_of_full hfull ?_ (hlive.allLive v hv) hmakes hsorted
    rw [hcapacity]
    exact hnew.one_le_capacity
  · intro httl
    have hhit : ∀ v ∈ c.lookups ops, v.1.hit v.2 = false := fun v hv =>
      hit_of_ttl_eq_zero ((ttl_of_limits (limits_of_mem_lookups hv)).trans httl) v.2
    have hcount := List.countP_eq_zero.2 fun v hv => Bool.eq_false_iff.1 (hhit v hv)
    refine ⟨?_, hhit⟩
    rw [(tallied_performAll hnew.bounded ops).hits, hcount, hnew.counts]

end Zones

def threeLookups : List CacheOperation :=
  [.lookup ⟨0, ⟨"db", "q1"⟩, false, .ok numbers⟩,
    .lookup ⟨1, ⟨"db", "q2"⟩, false, .error (.internal (.reported "driver down"))⟩,
    .lookup ⟨2, ⟨"db", "q3"⟩, false, .ok numbers⟩]

theorem performAll_capacity_three :
    (withLimits 2 1000).New ∧ (withLimits 2 1000).NothingExpires threeLookups ∧
    (((withLimits 2 1000).made threeLookups).map CacheSlot.created).Pairwise (· < ·) ∧
    ((withLimits 2 1000).performAll (threeLookups.take 2)).DropsOldest
      ⟨2, ⟨"db", "q3"⟩, false, .ok numbers⟩ ∧
    ((withLimits 2 1000).performAll threeLookups).slots.map CacheSlot.key =
      [⟨"db", "q2"⟩, ⟨"db", "q3"⟩] ∧
    ((withLimits 2 0).performAll threeLookups).counts.hits = 0 := by
  have hnew : (withLimits 2 1000).New := .withLimits 2 1000
  have hlive : (withLimits 2 1000).NothingExpires threeLookups :=
    nothingExpires_of_ttl hnew (by decide) (by decide)
  have hclock : (((withLimits 2 1000).made threeLookups).map CacheSlot.created).Pairwise
      (· < ·) := by decide
  obtain ⟨-, -, hkept, -⟩ := performAll_capacity hnew threeLookups
  obtain ⟨hdrops, hkeys⟩ := hkept hlive hclock
  obtain ⟨-, -, -, hexpired⟩ := performAll_capacity (.withLimits 2 0) threeLookups
  refine ⟨hnew, hlive, hclock, ?_, ?_, (hexpired rfl).1⟩
  · exact hdrops (_, _) (.tail _ (.tail _ (.head _))) (by decide) (by decide)
  · exact (hkeys (by simp [threeLookups])).trans (by decide)

/-! ## Inferences that fail -/

section Failing

variable [Zone.Catalogue] {c : SchemaCache} {key : CacheKey} {slot : CacheSlot} {l : Lookup}
  {ops : List CacheOperation}

def held? (c : SchemaCache) (key : CacheKey) : Option Table := (c.slot? key).bind CacheSlot.schema

/-- Whether a lookup makes a slot in a full cache, in which the first slot is that of a key. -/
def Displaces (c : SchemaCache) (l : Lookup) (key : CacheKey) : Prop :=
  l.bypass = false ∧ c.slot? l.key = none ∧ c.size = c.capacity ∧
    ∃ oldest rest, c.slots = oldest :: rest ∧ oldest.key = key

theorem slots_lookUp_of_error {e : Error} (hfails : l.inferred = .error e) :
    (c.lookUp l).2.slots = (c.withSlot l).slots := by
  cases hpasses : c.passes l with
  | true =>
      rw [lookUp_of_passes hpasses, withSlot, if_pos hpasses]
      rfl
  | false =>
      cases hkept : c.kept? l with
      | some schema => rw [lookUp_of_kept hpasses hkept]; rfl
      | none => rw [lookUp_of_not_kept hpasses hkept, hfails]; rfl

theorem makes_iff (henabled : c.enabled = true) (hlive : c.AllLive l.now) :
    c.makes l = true ↔ l.bypass = false ∧ c.slot? l.key = none := by
  constructor
  · intro hmakes
    have hpasses := (Bool.and_eq_true_iff.1 hmakes).1
    refine ⟨?_, slot?_eq_none_of_makes hlive hmakes⟩
    simpa [passes, henabled] using hpasses
  · rintro ⟨hbypass, habsent⟩
    simp [makes, passes, live?, henabled, hbypass, habsent]

theorem slot?_of_displaces (h : c.Bounded) (henabled : c.enabled = true) (hlive : c.AllLive l.now)
    (hdisplaces : c.Displaces l key) : (c.lookUp l).2.slot? key = none := by
  obtain ⟨hbypass, habsent, hfull, oldest, rest, hslots, rfl⟩ := hdisplaces
  have hmakes := (makes_iff henabled hlive).2 ⟨hbypass, habsent⟩
  have hafter := slots_lookUp_of_full hslots hfull hlive hmakes
  have hnodup := h.nodup
  rw [hslots, List.map_cons, List.nodup_cons] at hnodup
  rw [slot?_eq_none_iff, hafter]
  intro s hs hkey
  rcases List.mem_append.1 hs with hold | hnew
  · exact hnodup.1 (hkey ▸ List.mem_map_of_mem hold)
  · rw [List.mem_singleton.1 hnew] at hkey
    exact slot?_eq_none_iff.1 habsent oldest (hslots ▸ List.mem_cons_self) hkey.symm

theorem slot?_of_not_displaces (h : c.Bounded) (henabled : c.enabled = true)
    (hlive : c.AllLive l.now) {e : Error} (hfails : l.inferred = .error e)
    (hslot : c.slot? key = some slot) (hdisplaces : ¬c.Displaces l key) :
    (c.lookUp l).2.slot? key = some slot := by
  obtain ⟨hmem, hkey⟩ := mem_of_slot? hslot
  -- No slot is made, or there is room for one more, or another slot makes way.
  refine (h.perform (.lookup l)).slot?_eq_some_iff.2 ⟨?_, hkey⟩
  unfold perform
  cases hmakes : c.makes l with
  | false =>
      rw [slots_lookUp_of_error hfails, withSlot_of_not_makes h.size_le hmakes]
      exact hmem
  | true =>
      obtain ⟨hbypass, habsent⟩ := (makes_iff henabled hlive).1 hmakes
      rcases Nat.lt_or_eq_of_le h.size_le with hroom | hfull
      · have hlength : (c.slots ++ [l.slot]).length ≤ c.capacity := by
          rw [List.length_append]
          exact hroom
        have httl := ttl_pos_of_mem hlive hmem
        rw [slots_lookUp_of_error hfails, slots_withSlot_of_makes httl hlive hmakes,
          rtake_of_length_le hlength]
        exact List.mem_append_left _ hmem
      · obtain ⟨oldest, rest, hslots⟩ := List.exists_cons_of_ne_nil (List.ne_nil_of_mem hmem)
        rw [slots_lookUp_of_full hslots hfull hlive hmakes]
        rw [hslots] at hmem
        rcases List.mem_cons.1 hmem with rfl | hrest
        · exact absurd ⟨hbypass, habsent, hfull, slot, rest, hslots, hkey⟩ hdisplaces
        · exact List.mem_append_left _ hrest

theorem hit_of_held {schema : Table} (henabled : c.enabled = true) (hbypass : l.bypass = false)
    (hheld : c.held? l.key = some schema)
    (hunexpired : ∀ slot, c.slot? l.key = some slot → c.expired l.now slot = false) :
    c.hit l = true ∧ (c.lookUp l).1 = .ok schema := by
  obtain ⟨slot, hslot, hschema⟩ := Option.bind_eq_some_iff.1 hheld
  have hpasses : c.passes l = false := by simp [passes, henabled, hbypass]
  have hlive : c.live? l = some slot := by
    simp [live?, hslot, Option.filter, hunexpired slot hslot]
  have hkept : c.kept? l = some schema := by rw [kept?, hlive]; exact hschema
  rw [lookUp_of_kept hpasses hkept]
  simp [hit, hpasses, hkept]

/-- An inference that fails costs no schema but one: where its lookup makes a slot in a full cache,
the first slot is gone, that which was made earliest. Every other schema is still found. -/
theorem lookUp_failed_keeps {b : SchemaCache} (hnew : c.New) (hb : c.performAll ops = b)
    (henabled : b.enabled = true) (hlive : b.AllLive l.now) {e : Error}
    (hfails : l.inferred = .error e) {schema : Table} (hheld : b.held? key = some schema) :
    (b.Displaces l key → (b.lookUp l).2.held? key = none) ∧
    (¬b.Displaces l key → (b.lookUp l).2.held? key = some schema ∧
      ∀ next : Lookup, next.key = key → next.bypass = false →
        (∀ s, (b.lookUp l).2.slot? key = some s → (b.lookUp l).2.expired next.now s = false) →
        (b.lookUp l).2.hit next = true ∧ ((b.lookUp l).2.lookUp next).1 = .ok schema) ∧
    (((c.made ops).map CacheSlot.created).Pairwise (· < ·) → b.Displaces l key →
      ∃ oldest, b.slot? key = some oldest ∧
        ∀ s ∈ b.slots, s ≠ oldest → oldest.created < s.created) := by
  subst hb
  have hbounded := hnew.bounded.performAll ops
  obtain ⟨slot, hslot, hschema⟩ := Option.bind_eq_some_iff.1 hheld
  refine ⟨fun hdisplaces => ?_, fun hkeeps => ?_, fun hclock hdisplaces => ?_⟩
  · rw [held?, slot?_of_displaces hbounded henabled hlive hdisplaces]
    rfl
  · have hafter := slot?_of_not_displaces hbounded henabled hlive hfails hslot hkeeps
    have hheld' : ((c.performAll ops).lookUp l).2.held? key = some schema := by
      rw [held?, hafter]
      exact hschema
    refine ⟨hheld', ?_⟩
    rintro next rfl hbypass hunexpired
    refine hit_of_held ?_ hbypass hheld' hunexpired
    rw [enabled_of_limits (frame_lookUp _ l).1]
    exact henabled
  · obtain ⟨-, -, -, oldest, rest, hslots, rfl⟩ := hdisplaces
    have hsorted := sorted_performAll hnew hclock
    rw [hslots, List.map_cons, List.pairwise_cons] at hsorted
    refine ⟨oldest, by simp [slot?, hslots], fun s hs hother => ?_⟩
    rw [hslots] at hs
    exact hsorted.1 _ (List.mem_map_of_mem ((List.mem_cons.1 hs).resolve_left hother))

end Failing

def firstLookup : Lookup := ⟨0, ⟨"db", "q1"⟩, false, .ok numbers⟩

def failedLookup : Lookup := ⟨1, ⟨"db", "q2"⟩, false, .error (.internal (.reported "driver down"))⟩

def withFirst (maxEntries ttl : Nat) : SchemaCache :=
  (withLimits maxEntries ttl).performAll [.lookup firstLookup]

/-- With room for one slot the schema is lost; with room for two it is found again. -/
theorem lookUp_failed_keeps_first :
    ((withFirst 1 1000).lookUp failedLookup).2.held? firstLookup.key = none ∧
    ((withFirst 2 1000).lookUp failedLookup).2.hit { firstLookup with now := 2 } = true := by
  have hheld (n) : (withFirst (n + 1) 1000).held? firstLookup.key = some numbers := rfl
  obtain ⟨hlost, -, -⟩ := lookUp_failed_keeps (.withLimits 1 1000)
    (show _ = withFirst 1 1000 from rfl) rfl (show AllLive _ failedLookup.now by decide) rfl
    (hheld 0)
  obtain ⟨-, hkept, -⟩ := lookUp_failed_keeps (.withLimits 2 1000)
    (show _ = withFirst 2 1000 from rfl) rfl (show AllLive _ failedLookup.now by decide) rfl
    (hheld 1)
  refine ⟨hlost ⟨rfl, rfl, rfl, _, [], rfl, rfl⟩, ?_⟩
  have hroom : ¬(withFirst 2 1000).Displaces failedLookup firstLookup.key := by
    rintro ⟨-, -, hfull, -⟩
    cases hfull
  refine ((hkept hroom).2 _ rfl rfl ?_).1
  intro s hs
  cases hs
  rfl

/-- A failed inference can cost a schema. -/
theorem not_every_lookUp_failed_keeps :
    ¬∀ (c : SchemaCache) (ops : List CacheOperation) (l : Lookup) (e : Error) (key : CacheKey)
      (schema : Table), c.New → (c.performAll ops).enabled = true →
      (c.performAll ops).AllLive l.now → l.inferred = .error e →
      (c.performAll ops).held? key = some schema →
      ((c.performAll ops).lookUp l).2.held? key = some schema := by
  intro hkeeps
  have hlive : (withFirst 1 86400000).AllLive failedLookup.now := by decide
  have hheld := hkeeps (withLimits 1 86400000) [.lookup firstLookup] failedLookup _ firstLookup.key
    numbers (.withLimits _ _) rfl hlive rfl rfl
  cases hheld

end SchemaCache

end RowStream
