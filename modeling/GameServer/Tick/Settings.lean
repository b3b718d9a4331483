import GameServer.Tick.Period

/-!
Settings of the tick scheduler.

Any numbers may be asked for; only validated ones are used.  A threshold that is not a
number is left alone by validation, because it compares with nothing.

`TickSettings` is `TickConfig` of `skirmish-tick`, `LatePolicy` is `TickPolicy`, and
`maxRate` is `MAX_TICK_RATE_HZ`.
-/

namespace GameServer

inductive LatePolicy where
  /-- Missed ticks are dropped, and the rhythm starts anew. -/
  | skip
  /-- Up to so many missed ticks are made up for. -/
  | catchUp (most : UInt32)
  /-- The rhythm is kept whatever happens. -/
  | drop
deriving DecidableEq, Repr

structure TickSettings where
  rate : UInt32 := 60
  policy : LatePolicy := .skip
  /-- The part of a tick from which its work is worth a remark. -/
  warn : Float := 0.8
  /-- The part of a tick from which its work is worth a warning. -/
  critical : Float := 1.0
  /-- Whether the work of a tick is timed. -/
  metrics : Bool := true

namespace TickSettings

def maxRate : UInt32 := 240

/-- A share of a whole: below none is none, above all is all. -/
def clampShare (x : Float) : Float :=
  if x < 0.0 then 0.0 else if 1.0 < x then 1.0 else x

/-- The nearest settings that make sense. -/
def validated (c : TickSettings) : TickSettings :=
  let warn := clampShare c.warn
  let critical := clampShare c.critical
  { c with
    rate := max 1 (min c.rate maxRate)
    warn := if critical < warn then critical else warn
    critical }

def length (c : TickSettings) : Nat := tickLength c.rate.toNat

end TickSettings

end GameServer
