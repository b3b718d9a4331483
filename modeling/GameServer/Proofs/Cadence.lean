import Mathlib.Algebra.Ring.Nat
import GameServer.Proofs.Run
import GameServer.Tick.Scheduler

/-!
Where the ticks go.

A tick that fires moves the deadline on by whole periods and a rest that is shorter than one.
One period is the tick's own; every other one is a tick that is given up.  Skipping and keeping
the rhythm report exactly those.  Catching up does too, as long as it catches up.  Further
behind than it may make up for, it starts the rhythm anew, just as skipping does, and then the
ticks that it might have made up for are lost without being reported.
-/

namespace GameServer

namespace Scheduler

variable {s : Scheduler} {now : Nat}

/-! ### One tick -/

/-- How many whole ticks late a wake-up is. -/
def lag (s : Scheduler) (now : Nat) : Nat := (now - s.next) / s.length

/-- A wake-up comes at the deadline or later, and its lag fits a word. -/
def Timely (s : Scheduler) (now : Nat) : Prop := s.next ≤ now ∧ s.lag now < 2 ^ 64

instance (s : Scheduler) (now : Nat) : Decidable (s.Timely now) :=
  inferInstanceAs (Decidable (s.next ≤ now ∧ s.lag now < 2 ^ 64))

/-- The ticks that are given up without being reported. -/
def unreported (s : Scheduler) (now : Nat) : Nat :=
  match s.settings.policy with
  | .catchUp most => if most.toNat < s.lag now then most.toNat else 0
  | .skip | .drop => 0

/-- The whole periods by which the deadline moves. -/
def periods (s : Scheduler) (now : Nat) : Nat := (s.nextDue now - s.next) / s.length

theorem toNat_behind (h : s.Timely now) : (s.behind now).toNat = s.lag now :=
  UInt64.toNat_ofNat_of_lt' h.2

/-- A whole tick is more than a tenth of one. -/
theorem isLate_of_lag_pos (hlag : 0 < s.lag now) : s.isLate now = true := by
  obtain ⟨hlength, hle⟩ := Nat.div_pos_iff.mp hlag
  rw [isLate, decide_eq_true_eq]
  omega

theorem behind_le_iff (h : s.Timely now) (most : UInt32) :
    s.behind now ≤ most.toUInt64 ↔ s.lag now ≤ most.toNat := by
  rw [UInt64.le_iff_toNat_le, toNat_behind h, UInt32.toNat_toUInt64]

theorem lt_behind_iff (h : s.Timely now) (most : UInt32) :
    most.toUInt64 < s.behind now ↔ most.toNat < s.lag now := by
  rw [UInt64.lt_iff_toNat_lt, toNat_behind h, UInt32.toNat_toUInt64]

theorem toNat_givenUp (h : s.Timely now) :
    (s.givenUp now).toNat =
      match s.settings.policy with
      | .skip => s.lag now
      | .catchUp most => s.lag now - most.toNat
      | .drop => 0 := by
  unfold givenUp
  by_cases hlate : s.isLate now = true
  · rw [if_pos hlate]
    cases s.settings.policy with
    | skip => exact toNat_behind h
    | drop => rfl
    | catchUp most =>
      dsimp only
      by_cases hbeyond : most.toNat < s.lag now
      · have hlt := (lt_behind_iff h most).mpr hbeyond
        rw [if_pos hlt, UInt64.toNat_sub_of_le _ _ (UInt64.le_of_lt hlt), toNat_behind h,
          UInt32.toNat_toUInt64]
      · rw [if_neg (mt (lt_behind_iff h most).mp hbeyond),
          Nat.sub_eq_zero_of_le (Nat.not_lt.mp hbeyond)]
        rfl
  · -- a wake-up that is in time is no whole tick late
    have hlag : s.lag now = 0 := by
      rcases Nat.eq_zero_or_pos (s.lag now) with hzero | hpos
      · exact hzero
      · exact absurd (isLate_of_lag_pos hpos) hlate
    rw [if_neg hlate, hlag]
    cases s.settings.policy <;> simp

/-- **Where the deadline moves**: on by the tick's own period, by those reported as given up, by
    those that are not reported, and by a rest. -/
theorem nextDue_eq (hlength : 0 < s.length) (h : s.Timely now) :
    ∃ rest < s.length, s.nextDue now =
      s.next + (1 + (s.givenUp now).toNat + s.unreported now) * s.length + rest := by
  have hnow : now = s.next + (s.lag now * s.length + (now - s.next) % s.length) := by
    have hsplit := Nat.div_add_mod (now - s.next) s.length
    rw [Nat.mul_comm] at hsplit
    rw [lag, hsplit]
    exact (Nat.add_sub_cancel' h.1).symm
  have hrest := Nat.mod_lt (now - s.next) hlength
  -- the rhythm starts anew, or it is kept
  have hanew : now + s.length =
      s.next + (1 + s.lag now) * s.length + (now - s.next) % s.length := by
    rw [Nat.add_mul]
    omega
  have hkept : s.next + s.length = s.next + 1 * s.length + 0 := by omega
  rw [toNat_givenUp h]
  unfold nextDue unreported
  cases s.settings.policy with
  | skip => exact ⟨_, hrest, hanew⟩
  | drop => exact ⟨0, hlength, hkept⟩
  | catchUp most =>
    dsimp only
    by_cases hbeyond : most.toNat < s.lag now
    · rw [if_neg (mt (behind_le_iff h most).mp (Nat.not_le.mpr hbeyond)), if_pos hbeyond,
        Nat.add_assoc 1, Nat.sub_add_cancel (Nat.le_of_lt hbeyond)]
      exact ⟨_, hrest, hanew⟩
    · have hle := Nat.not_lt.mp hbeyond
      rw [if_pos ((behind_le_iff h most).mpr hle), if_neg hbeyond, Nat.sub_eq_zero_of_le hle]
      exact ⟨0, hlength, hkept⟩

/-- Whole periods and a rest: there is only one way to take a time apart like that. -/
theorem periods_eq_of_nextDue {count rest : Nat} (hrest : rest < s.length)
    (hdue : s.nextDue now = s.next + count * s.length + rest) : s.periods now = count := by
  have hmoved : s.nextDue now - s.next = rest + count * s.length := by omega
  rw [periods, hmoved, Nat.add_mul_div_right _ _ (Nat.zero_lt_of_lt hrest),
    Nat.div_eq_of_lt hrest, Nat.zero_add]

theorem periods_eq (hlength : 0 < s.length) (h : s.Timely now) :
    s.periods now = 1 + (s.givenUp now).toNat + s.unreported now := by
  obtain ⟨rest, hrest, hdue⟩ := nextDue_eq hlength h
  exact periods_eq_of_nextDue hrest hdue

/-! ### A run -/

def wakeUp (s : Scheduler) (now : Nat) : Scheduler := (s.fire now).2

/-- The ticks that fire in a run, as they are reported. -/
def reports : Scheduler → List Nat → List Tick
  | _, [] => []
  | s, now :: rest => (s.fire now).1 :: reports (s.wakeUp now) rest

/-- A quantity of every wake-up of a run, added up. -/
def total (f : Scheduler → Nat → Nat) : Scheduler → List Nat → Nat
  | _, [] => 0
  | s, now :: rest => f s now + total f (s.wakeUp now) rest

theorem length_after (s : Scheduler) (wakes : List Nat) :
    (after wakeUp s wakes).length = s.length := by
  induction wakes generalizing s with
  | nil => rfl
  | cons now rest ih => exact ih (s.wakeUp now)

theorem sum_reports (hlength : 0 < s.length) {wakes : List Nat}
    (hrun : Along wakeUp Timely s wakes) :
    ((reports s wakes).map fun tick => 1 + tick.skipped.toNat).sum + total unreported s wakes =
      total periods s wakes := by
  induction wakes generalizing s with
  | nil => rfl
  | cons now rest ih =>
    obtain ⟨htimely, hrest⟩ := hrun
    have hlater := ih (s := s.wakeUp now) hlength hrest
    simp only [reports, total, List.map_cons, List.sum_cons, ← hlater, periods_eq hlength htimely]
    have hskipped : (s.fire now).1.skipped = s.givenUp now := rfl
    rw [hskipped]
    omega

theorem counters_after (s : Scheduler) (wakes : List Nat) :
    (after wakeUp s wakes).ticks + (after wakeUp s wakes).skips =
      s.ticks + s.skips +
        UInt64.ofNat ((reports s wakes).map fun tick => 1 + tick.skipped.toNat).sum := by
  induction wakes generalizing s with
  | nil => exact (UInt64.add_zero _).symm
  | cons now rest ih =>
    have hticks : (s.wakeUp now).ticks = s.ticks + 1 := rfl
    have hskips : (s.wakeUp now).skips = s.skips + (s.fire now).1.skipped := rfl
    change (after wakeUp (s.wakeUp now) rest).ticks + (after wakeUp (s.wakeUp now) rest).skips = _
    rw [ih, hticks, hskips, reports, List.map_cons, List.sum_cons, UInt64.ofNat_add,
      UInt64.ofNat_add, UInt64.ofNat_toNat]
    change s.ticks + 1 + (s.skips + _) + _ = s.ticks + s.skips + (1 + _ + _)
    ac_rfl

/-- **Every period that the schedule advances by is accounted for.**  In any run whose wake-ups come
    at their deadlines or later, each tick moves the deadline on by its own period, by the
    periods that it reports as given up, by those that it does not report, and by less than one
    more.  So its report is exact just when nothing goes unreported, which is always but for
    catching up that has fallen too far behind.  Over the whole run the ticks fired, those
    reported and those unreported add up to the periods, and the counters count the first
    two. -/
theorem ticks_accounted (s : Scheduler) (hlength : 0 < s.length) (wakes : List Nat)
    (hrun : Along wakeUp Timely s wakes) :
    let t := after wakeUp s wakes
    (∀ now, t.Timely now →
      (∃ rest < t.length, (t.wakeUp now).next =
        t.next + (1 + (t.fire now).1.skipped.toNat + t.unreported now) * t.length + rest) ∧
      ((∃ rest < t.length, (t.wakeUp now).next =
        t.next + (1 + (t.fire now).1.skipped.toNat) * t.length + rest) ↔ t.unreported now = 0)) ∧
    ((reports s wakes).map fun tick => 1 + tick.skipped.toNat).sum + total unreported s wakes =
      total periods s wakes ∧
    t.ticks + t.skips + UInt64.ofNat (total unreported s wakes) =
      s.ticks + s.skips + UInt64.ofNat (total periods s wakes) := by
  intro t
  have hpositive : 0 < t.length := by
    rw [length_after]
    exact hlength
  have hsum := sum_reports hlength hrun
  refine ⟨?_, hsum, ?_⟩
  · intro now htimely
    have hexact := nextDue_eq hpositive htimely
    refine ⟨hexact, ?_⟩
    constructor
    · rintro ⟨rest, hrest, hdue⟩
      have hperiods := periods_eq_of_nextDue hrest hdue
      rw [periods_eq hpositive htimely] at hperiods
      have hskipped : (t.fire now).1.skipped = t.givenUp now := rfl
      rw [hskipped] at hperiods
      omega
    · intro hnone
      rw [hnone] at hexact
      exact hexact
  · rw [counters_after, ← hsum, UInt64.ofNat_add, UInt64.add_assoc]

/-- Of three ticks the second is five late and may make up for two: it reports three of the five. -/
theorem ticks_accounted_fallen_behind :
    let s := new { rate := 20, policy := .catchUp 2 } 0
    let wakes := [50000000, 350000000, 410000000]
    0 < s.length ∧ Along wakeUp Timely s wakes ∧
      (reports s wakes).map Tick.skipped = [0, 3, 0] ∧ total periods s wakes = 8 ∧
      ((reports s wakes).map fun tick => 1 + tick.skipped.toNat).sum + total unreported s wakes =
        total periods s wakes := by
  intro s wakes
  have hlength : 0 < s.length := by decide +kernel
  have hrun : Along wakeUp Timely s wakes := by decide +kernel
  obtain ⟨-, hsum, -⟩ := ticks_accounted s hlength wakes hrun
  exact ⟨hlength, hrun, by decide +kernel, by decide +kernel, hsum⟩

/-- Catching up that has fallen too far behind gives up more ticks than it reports. -/
theorem report_short_of_catchUp :
    let s := (new { rate := 20, policy := .catchUp 2 } 0).wakeUp 50000000
    s.Timely 350000000 ∧
      ¬ ∃ rest < s.length, (s.wakeUp 350000000).next =
        s.next + (1 + (s.fire 350000000).1.skipped.toNat) * s.length + rest := by
  intro s
  have hlength : s.length = 50000000 := by decide +kernel
  have hnext : s.next = 100000000 := by decide +kernel
  have hlater : (s.wakeUp 350000000).next = 400000000 := by decide +kernel
  have hskipped : (s.fire 350000000).1.skipped.toNat = 3 := by decide +kernel
  refine ⟨by decide +kernel, ?_⟩
  rintro ⟨rest, hrest, hdue⟩
  rw [hlater, hnext, hskipped, hlength] at hdue
  omega

end Scheduler

end GameServer
