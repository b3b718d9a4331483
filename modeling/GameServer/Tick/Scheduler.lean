import GameServer.Tick.Settings

/-!
The tick scheduler: when ticks fire and which are given up.

The scheduler keeps a deadline.  A tick fires at its deadline or later; how much later,
in whole ticks, is how far the scheduler is behind.  The policy then sets the next
deadline and says how many ticks are thereby skipped.

`Scheduler` is `TickScheduler` of `skirmish-tick`, with the counts that it keeps in
`TickMetrics`, and `Tick` is `TickInfo`.  `wait` is its `wait_for_tick`, of which `fire` is
the part behind the wait.
-/

namespace GameServer

/-- What is known of a tick when it fires. -/
structure Tick where
  /-- Ticks are numbered from one. -/
  number : UInt32
  /-- The time a tick stands for. -/
  dt : Nat
  /-- Whether it came late by more than a tenth of a tick. -/
  overrun : Bool
  /-- How many ticks are given up with it. -/
  skipped : UInt64
deriving DecidableEq, Repr

structure Scheduler where
  settings : TickSettings
  length : Nat
  /-- When the next tick is due. -/
  next : Nat
  count : UInt32 := 0
  ticks : UInt64 := 0
  overruns : UInt64 := 0
  skips : UInt64 := 0

namespace Scheduler

/-- A scheduler that starts at the given time; its first tick is due one tick later. -/
def new (settings : TickSettings) (now : Nat) : Scheduler :=
  let settings := settings.validated
  { settings, length := settings.length, next := now + settings.length }

/-- When a wait for a time ends: not before that time, on a whole millisecond, and not in
    the past. -/
def wake (now due : Nat) : Nat :=
  max now ((due + (millisecond - 1)) / millisecond * millisecond)

/-- How many whole ticks late a tick fires. -/
def behind (s : Scheduler) (now : Nat) : UInt64 := UInt64.ofNat ((now - s.next) / s.length)

/-- Whether a tick fires late by more than a tenth of a tick. -/
def isLate (s : Scheduler) (now : Nat) : Bool := s.length / 10 < now - s.next

def nextDue (s : Scheduler) (now : Nat) : Nat :=
  match s.settings.policy with
  | .skip => now + s.length
  | .catchUp most => if s.behind now ≤ most.toUInt64 then s.next + s.length else now + s.length
  | .drop => s.next + s.length

def givenUp (s : Scheduler) (now : Nat) : UInt64 :=
  if s.isLate now then
    match s.settings.policy with
    | .skip => s.behind now
    | .catchUp most =>
      if most.toUInt64 < s.behind now then s.behind now - most.toUInt64 else 0
    | .drop => 0
  else 0

def fire (s : Scheduler) (now : Nat) : Tick × Scheduler :=
  let count := s.count + 1
  let overrun := s.isLate now
  let skipped := s.givenUp now
  (⟨count, s.length, overrun, skipped⟩,
    { s with
      next := s.nextDue now
      count
      ticks := s.ticks + 1
      overruns := if overrun then s.overruns + 1 else s.overruns
      skips := s.skips + skipped })

/-- Waits for the tick that is due, and lets it fire.  Also gives the time at which the wait
    ended. -/
def wait (s : Scheduler) (now : Nat) : Tick × Nat × Scheduler :=
  let now := wake now s.next
  let (info, s) := s.fire now
  (info, now, s)

end Scheduler

end GameServer
