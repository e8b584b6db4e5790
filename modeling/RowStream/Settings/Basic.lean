/-!
# Settings

What a process is set up with, and what it is set up with when nothing is said.
-/

namespace RowStream

structure QuerySettings where
  batchSize : Nat := 100
  /-- Seconds that a request may take, 0 for no limit. -/
  timeoutSeconds : Nat := 0
  showDefaults : Bool := false
  sourceColumn : String := "datasource"
deriving DecidableEq, Repr, Inhabited

structure CacheSettings where
  enabled : Bool := true
  maxEntries : Nat := 100
  ttlSeconds : Nat := 300
deriving DecidableEq, Repr, Inhabited

structure LogSettings where
  level : String := "info"
  json : Bool := false
deriving DecidableEq, Repr, Inhabited

structure Settings where
  query : QuerySettings := {}
  cache : CacheSettings := {}
  log : LogSettings := {}
deriving DecidableEq, Repr, Inhabited

def QuerySettings.timeout (s : QuerySettings) : Option Nat :=
  if 0 < s.timeoutSeconds then some s.timeoutSeconds else none

end RowStream
