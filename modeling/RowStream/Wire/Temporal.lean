import RowStream.Calendar.Instant
import RowStream.Calendar.Zone
import RowStream.Wire.Integer

/-!
# Days, seconds and ticks

Dates are days, times are seconds or ticks of `10 ^ (-scale)` seconds, all counted from 1970 and
never below 1. An instant is written as the clocks of a zone show it.
-/

namespace RowStream.Wire

def clamp (low high n : Int) : Int := max low (min n high)

def dateDays (days : Int) : List UInt8 := twosComplement 2 (clamp 1 0xFFFF days)

def dateTimeSeconds (seconds : Int) : List UInt8 := twosComplement 4 (clamp 1 maxWord32 seconds)

def dateTimeTicks (ticks : Int) : List UInt8 := twosComplement 8 (clamp 1 maxWord64 ticks)

/-- Ticks of an instant; what is finer than a tick is dropped. -/
def ticks (seconds : Int) (nanos scale : Nat) : Int :=
  let scale := min scale ColumnType.maxTickScale
  seconds * tenPow scale + (nanos / tenPow (ColumnType.maxTickScale - scale) : Nat)

section Zones

variable [Zone.Catalogue]

def localSecondsBy (clocks : Zone.Clocks) (t : Instant) (zone : Option Zone) : Int :=
  t.seconds + Zone.offsetBy clocks zone t.seconds

def localSeconds (t : Instant) (zone : Option Zone) : Int := localSecondsBy Zone.offset t zone

def localTicksBy (clocks : Zone.Clocks) (t : Instant) (scale : Nat) (zone : Option Zone) : Int :=
  ticks (localSecondsBy clocks t zone) t.nanos scale

def date (t : Instant) (zone : Option Zone) : List UInt8 :=
  dateDays (localSeconds t zone / secondsPerDay)

def dateTime (t : Instant) (zone : Option Zone) : List UInt8 :=
  dateTimeSeconds (localSeconds t zone)

def dateTime64By (clocks : Zone.Clocks) (t : Instant) (scale : Nat) (zone : Option Zone) :
    List UInt8 :=
  dateTimeTicks (localTicksBy clocks t scale zone)

def dateTime64 (t : Instant) (scale : Nat) (zone : Option Zone) : List UInt8 :=
  dateTime64By Zone.offset t scale zone

end Zones

def readDate : Reader Date := do
  return Date.ofDays (← readUnsigned 2)

def readDateTime : Reader Instant := do
  return ⟨← readUnsigned 4, 0⟩

def instantOfTicks? (ticks scale : Nat) : Option Instant :=
  let scale := min scale ColumnType.maxTickScale
  let unit := tenPow scale
  Instant.ofSeconds? (ticks / unit : Nat) (ticks % unit * tenPow (ColumnType.maxTickScale - scale))

def readDateTime64 (scale : Nat) : Reader Instant := do
  let ticks ← readUnsigned 8
  match instantOfTicks? ticks scale with
  | some t => return t
  | none => malformed (.invalidDateTime ticks)

end RowStream.Wire
