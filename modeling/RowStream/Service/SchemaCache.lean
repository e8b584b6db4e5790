import RowStream.Settings.Basic
import RowStream.Number.Binary
import RowStream.Table

/-!
# Cache of schemas

Inferred schemas by data source and query, each kept for a fixed time. A slot is made before its
schema is inferred; an inference that fails leaves it empty. Beyond its capacity the cache drops
what has expired and then what was made first.
-/

namespace RowStream

variable [Zone.Catalogue]

structure CacheKey where
  source : String
  query : String
deriving DecidableEq, Repr, Inhabited

structure CacheSlot where
  key : CacheKey
  created : Nat
  schema : Option Table
deriving Inhabited

structure CacheCounts where
  hits : Nat := 0
  misses : Nat := 0
  bypassed : Nat := 0
  evictions : Nat := 0
deriving DecidableEq, Repr, Inhabited

/-- The share of lookups that found a schema; 0 when there were none. -/
def CacheCounts.hitRate (c : CacheCounts) : Binary64 :=
  let total := c.hits + c.misses
  if total = 0 then Binary64.zero else Binary64.ofRatio false c.hits total

structure SchemaCache where
  enabled : Bool
  /-- At least 1. -/
  capacity : Nat
  /-- Milliseconds for which a slot is kept. -/
  ttl : Nat
  /-- The slots, in the order in which they were made. -/
  slots : List CacheSlot := []
  counts : CacheCounts := {}
deriving Inhabited

namespace SchemaCache

def ofSettings (s : CacheSettings) : SchemaCache :=
  { enabled := s.enabled, capacity := max 1 s.maxEntries, ttl := 1000 * s.ttlSeconds }

def withLimits (maxEntries ttl : Nat) : SchemaCache :=
  { enabled := true, capacity := max 1 maxEntries, ttl := ttl }

def disabled : SchemaCache := { ofSettings {} with enabled := false }

def size (c : SchemaCache) : Nat := c.slots.length

def expired (c : SchemaCache) (now : Nat) (slot : CacheSlot) : Bool :=
  c.ttl ≤ now - slot.created

def slot? (c : SchemaCache) (key : CacheKey) : Option CacheSlot :=
  c.slots.find? fun s => s.key == key

def countEvictions (c : SchemaCache) (n : Nat) : SchemaCache :=
  { c with counts := { c.counts with evictions := c.counts.evictions + n } }

/-- Drops the expired slots, then those made first, until the capacity is kept. -/
def evict (c : SchemaCache) (now : Nat) : SchemaCache :=
  let live := c.slots.filter fun s => !c.expired now s
  let kept := live.drop (live.length - c.capacity)
  { c with slots := kept }.countEvictions (c.slots.length - kept.length)

def insertSlot (c : SchemaCache) (now : Nat) (key : CacheKey) : SchemaCache :=
  { c with slots := (c.slots.filter fun s => s.key != key) ++ [⟨key, now, none⟩] }

def trim (c : SchemaCache) (now : Nat) : SchemaCache :=
  if c.capacity < c.size then c.evict now else c

/-- The schema kept under a key, with the cache in which the key has a slot. An expired slot makes
way for an empty one. -/
def prepare (c : SchemaCache) (now : Nat) (key : CacheKey) : Option Table × SchemaCache :=
  match c.slot? key with
  | none => (none, (c.insertSlot now key).trim now)
  | some slot =>
    if c.expired now slot then (none, ((c.insertSlot now key).countEvictions 1).trim now)
    else (slot.schema, c.trim now)

/-- Fills the slot of a key, when it is still there. -/
def fill (c : SchemaCache) (key : CacheKey) (schema : Table) : SchemaCache :=
  { c with slots := c.slots.map fun s =>
      if s.key = key then { s with schema := some schema } else s }

def countBypass (c : SchemaCache) : SchemaCache :=
  { c with counts := { c.counts with bypassed := c.counts.bypassed + 1 } }

def countHit (c : SchemaCache) : SchemaCache :=
  { c with counts := { c.counts with hits := c.counts.hits + 1 } }

def countMiss (c : SchemaCache) : SchemaCache :=
  { c with counts := { c.counts with misses := c.counts.misses + 1 } }

/-- The schema of a key: the one that is kept, or else the one that `infer` finds, which is kept
then. With `bypass` the cache is left alone. -/
def get {m : Type → Type} [Monad m] (c : SchemaCache) (now : Nat) (key : CacheKey) (bypass : Bool)
    (infer : m (Except Error Table)) : m (Except Error Table × SchemaCache) :=
  if !c.enabled || bypass then do
    return (← infer, c.countBypass)
  else
    match c.prepare now key with
    | (some schema, c) => return (.ok schema, c.countHit)
    | (none, c) => do
      match ← infer with
      | .ok schema => return (.ok schema, (c.fill key schema).countMiss)
      | .error e => return (.error e, c)

def invalidate (c : SchemaCache) (source : String) : SchemaCache :=
  { c with slots := c.slots.filter fun s => s.key.source != source }

def clear (c : SchemaCache) : SchemaCache := { c with slots := [] }

end SchemaCache

end RowStream
