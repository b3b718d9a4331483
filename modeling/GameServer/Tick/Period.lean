import GameServer.Single

/-!
How long a tick is.

Times are whole nanoseconds.  The length of a tick is a second divided by the rate, but
in two roundings: the quotient is first a double-precision number, and that number is
then rounded to a nanosecond.  Both are done here in whole numbers, to the nearest and
to the even one of two that are equally near.

`tickLength` is `tick_duration` of `TickConfig` and `secondsOf` is `dt_secs` of `TickInfo`,
both of `skirmish-tick`.
-/

namespace GameServer

/-- Nanoseconds in a second. -/
def second : Nat := 1000000000

/-- Nanoseconds in a millisecond. -/
def millisecond : Nat := 1000000

/-- The whole number nearest to `n / d`, the even one of two equally near. -/
def roundDiv (n d : Nat) : Nat :=
  let q := n / d
  let r := n % d
  if 2 * r < d then q
  else if d < 2 * r then q + 1
  else q + q % 2

/-- The least `k` with `n ≤ 2 ^ k`. -/
def bitsAbove (n : Nat) : Nat := if n ≤ 1 then 0 else (n - 1).log2 + 1

/-- The length of one of `rate` ticks per second, at least one.  With `2 ^ k` the least
    power not below the rate, the quotient is `m / 2 ^ (52 + k)` for an `m` of 53 bits. -/
def tickLength (rate : Nat) : Nat :=
  let n := max rate 1
  let scale := Nat.pow 2 (52 + bitsAbove n)
  roundDiv (roundDiv scale n * second) scale

/-- A length of time in seconds, in single precision: the whole seconds and the part of a
    second are rounded each on its own, then added. -/
def secondsOf (length : Nat) : Single :=
  .ofWord (UInt64.ofNat (length / second))
    + .ofWord (UInt64.ofNat (length % second)) / .ofWord (UInt64.ofNat second)

end GameServer
