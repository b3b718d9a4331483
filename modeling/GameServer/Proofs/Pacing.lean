import GameServer.Proofs.Cadence
import Mathlib.Algebra.Order.Field.Rat
import Mathlib.Data.List.Chain

/-!
How close together ticks may fire.

A tick never fires before its deadline, and deadlines are a tick apart or more, whatever the
policy.  So much bounds how many ticks fire in a while, once it is known how far in the past a
deadline can be: not at all when skipping, and by no more ticks than may be made up for when
catching up.
-/

namespace GameServer

namespace Scheduler

variable {s : Scheduler} {now : Nat}

/-! ### One tick -/

/-- A wait ends at the deadline or later, and not before it began, and it is a wake-up at the time
    at which it ends. -/
theorem wait_eq_wakeUp (s : Scheduler) (now : Nat) :
    ∃ fired, s.next ≤ fired ∧ now ≤ fired ∧
      s.wait now = ((s.fire fired).1, fired, s.wakeUp fired) := by
  refine ⟨wake now s.next, ?_, Nat.le_max_left .., rfl⟩
  unfold wake millisecond
  omega

theorem length_le_nextDue (h : s.Timely now) : s.next + s.length ≤ s.nextDue now := by
  have hnow := h.1
  unfold nextDue
  split
  · omega
  · split <;> omega
  · exact Nat.le_refl _

theorem nextDue_of_skip (hskip : s.settings.policy = .skip) : s.nextDue now = now + s.length := by
  rw [nextDue, hskip]

theorem nextDue_of_drop (hdrop : s.settings.policy = .drop) :
    s.nextDue now = s.next + s.length := by rw [nextDue, hdrop]

theorem nextDue_of_catchUp {most : UInt32} (hcatch : s.settings.policy = .catchUp most)
    (h : s.Timely now) :
    s.nextDue now = if s.lag now ≤ most.toNat then s.next + s.length else now + s.length := by
  simp only [nextDue, hcatch, behind_le_iff h]

/-- Catching up leaves the next deadline less than so many ticks in the past. -/
theorem lt_nextDue_of_catchUp {most : UInt32} (hcatch : s.settings.policy = .catchUp most)
    (hlength : 0 < s.length) (h : s.Timely now) :
    now < s.nextDue now + most.toNat * s.length := by
  rw [nextDue_of_catchUp hcatch h]
  split
  · next hkept =>
    have hlate : now - s.next < (most.toNat + 1) * s.length :=
      (Nat.div_lt_iff_lt_mul hlength).mp (Nat.lt_succ_of_le hkept)
    rw [Nat.add_mul] at hlate
    omega
  · omega

/-! ### The deadlines of a run -/

/-- The deadlines of a run, and that of the tick to come. -/
def deadlines : Scheduler → List Nat → List Nat
  | s, [] => [s.next]
  | s, now :: rest => s.next :: deadlines (s.wakeUp now) rest

theorem head?_deadlines (s : Scheduler) (wakes : List Nat) :
    (deadlines s wakes).head? = some s.next := by
  cases wakes <;> rfl

/-- **Deadlines are a tick apart or more.** -/
theorem isChain_deadlines {wakes : List Nat} (hrun : Along wakeUp Timely s wakes) :
    (deadlines s wakes).IsChain fun due later => due + s.length ≤ later := by
  induction wakes generalizing s with
  | nil => exact .singleton _
  | cons now rest ih =>
    obtain ⟨htimely, hrest⟩ := hrun
    refine (ih (s := s.wakeUp now) hrest).cons ?_
    intro later hlater
    rw [head?_deadlines] at hlater
    cases hlater
    exact length_le_nextDue htimely

/-- A wake-up moves the deadline on by its own tick and by nothing else. -/
def KeepsRhythm (s : Scheduler) (now : Nat) : Prop := s.nextDue now = s.next + s.length

theorem keepsRhythm_of_drop (hdrop : s.settings.policy = .drop) (wakes : List Nat) :
    Along wakeUp KeepsRhythm s wakes := by
  induction wakes generalizing s with
  | nil => trivial
  | cons now rest ih => exact ⟨nextDue_of_drop hdrop, ih (s := s.wakeUp now) hdrop⟩

theorem keepsRhythm_of_catchUp {most : UInt32} (hcatch : s.settings.policy = .catchUp most)
    {wakes : List Nat} (hrun : Along wakeUp Timely s wakes)
    (hnear : Along wakeUp (fun t now => t.lag now ≤ most.toNat) s wakes) :
    Along wakeUp KeepsRhythm s wakes := by
  induction wakes generalizing s with
  | nil => trivial
  | cons now rest ih =>
    refine ⟨?_, ih (s := s.wakeUp now) hcatch hrun.2 hnear.2⟩
    rw [KeepsRhythm, nextDue_of_catchUp hcatch hrun.1, if_pos hnear.1]

/-- **A rhythm that is kept is kept exactly.** -/
theorem next_after {wakes : List Nat} (hkeeps : Along wakeUp KeepsRhythm s wakes) :
    (after wakeUp s wakes).next = s.next + wakes.length * s.length := by
  induction wakes generalizing s with
  | nil => simp [after]
  | cons now rest ih =>
    obtain ⟨hkept, hrest⟩ := hkeeps
    have hlater : (after wakeUp (s.wakeUp now) rest).next =
        s.nextDue now + rest.length * s.length := ih hrest
    change (after wakeUp (s.wakeUp now) rest).next = _
    rw [hlater, hkept, List.length_cons, Nat.add_mul]
    omega

/-! ### How many ticks fire in a while -/

/-- How many of the wake-ups come from one time to another, both included. -/
def firedIn (start stop : Nat) (wakes : List Nat) : Nat :=
  wakes.countP fun now => start ≤ now ∧ now ≤ stop

theorem firedIn_instant (instant : Nat) (wakes : List Nat) :
    firedIn instant (instant + 0) wakes = wakes.count instant := by
  rw [firedIn, List.count]
  congr 1
  funext now
  rw [Bool.eq_iff_iff, decide_eq_true_eq, beq_iff_eq]
  omega

/-- The ticks that fire up to some time have their deadlines before it. -/
theorem next_add_firedIn_le {wakes : List Nat} (hrun : Along wakeUp Timely s wakes)
    (start stop : Nat) (hsome : 0 < firedIn start stop wakes) :
    s.next + firedIn start stop wakes * s.length ≤ stop + s.length := by
  induction wakes generalizing s with
  | nil => cases hsome
  | cons now rest ih =>
    obtain ⟨htimely, hrest⟩ := hrun
    have hlater : 0 < firedIn start stop rest →
        s.nextDue now + firedIn start stop rest * s.length ≤ stop + s.length :=
      ih (s := s.wakeUp now) hrest
    have hgrows := length_le_nextDue htimely
    have hdue := htimely.1
    by_cases hin : start ≤ now ∧ now ≤ stop
    · have hcount : firedIn start stop (now :: rest) = firedIn start stop rest + 1 :=
        List.countP_cons_of_pos (by simpa using hin)
      rw [hcount, Nat.add_mul]
      rcases Nat.eq_zero_or_pos (firedIn start stop rest) with hnone | hmore
      · rw [hnone]
        omega
      · have := hlater hmore
        omega
    · have hcount : firedIn start stop (now :: rest) = firedIn start stop rest :=
        List.countP_cons_of_neg (by simpa using hin)
      rw [hcount] at hsome ⊢
      have := hlater hsome
      omega

/-- **What is made up for is made up for once.**  From the first tick in a span of time on there are
    so many deadlines in the span, and before it as many as may be made up for. -/
theorem firedIn_mul_lt {most : UInt32} (hcatch : s.settings.policy = .catchUp most)
    (hlength : 0 < s.length) {wakes : List Nat} (hrun : Along wakeUp Timely s wakes)
    (start span : Nat) :
    firedIn start (start + span) wakes * s.length < span + (most.toNat + 2) * s.length := by
  induction wakes generalizing s with
  | nil =>
    have : 0 < (most.toNat + 2) * s.length := Nat.mul_pos (Nat.succ_pos _) hlength
    simp only [firedIn, List.countP_nil]
    omega
  | cons now rest ih =>
    obtain ⟨htimely, hrest⟩ := hrun
    by_cases hin : start ≤ now ∧ now ≤ start + span
    · have hcount : firedIn start (start + span) (now :: rest) =
          firedIn start (start + span) rest + 1 := List.countP_cons_of_pos (by simpa using hin)
      have hpast := lt_nextDue_of_catchUp hcatch hlength htimely
      have hbound : s.nextDue now + firedIn start (start + span) rest * s.length ≤
          start + span + s.length ∨ firedIn start (start + span) rest = 0 := by
        rcases Nat.eq_zero_or_pos (firedIn start (start + span) rest) with hnone | hmore
        · exact .inr hnone
        · exact .inl (next_add_firedIn_le (s := s.wakeUp now) hrest _ _ hmore)
      rw [hcount, Nat.add_mul, Nat.add_mul]
      rcases hbound with hbound | hnone
      · omega
      · rw [hnone]
        omega
    · have hcount : firedIn start (start + span) (now :: rest) = firedIn start (start + span) rest :=
        List.countP_cons_of_neg (by simpa using hin)
      rw [hcount]
      exact ih (s := s.wakeUp now) hcatch hlength hrest

/-- **Skipping never lets two ticks fire closer together than a tick.** -/
theorem isChain_of_skip (hskip : s.settings.policy = .skip) {wakes : List Nat}
    (hrun : Along wakeUp Timely s wakes) :
    wakes.IsChain fun fired later => fired + s.length ≤ later := by
  induction wakes generalizing s with
  | nil => exact .nil
  | cons now rest ih =>
    obtain ⟨-, hrest⟩ := hrun
    refine (ih (s := s.wakeUp now) hskip hrest).cons ?_
    intro later hlater
    cases rest with
    | nil => cases hlater
    | cons first more =>
      cases hlater
      obtain ⟨⟨hdue, -⟩, -⟩ := hrest
      have hnext : (s.wakeUp now).next = now + s.length := nextDue_of_skip hskip
      rwa [hnext] at hdue

/-! ### What ticks report -/

theorem map_dt_reports (s : Scheduler) (wakes : List Nat) :
    (reports s wakes).map Tick.dt = List.replicate wakes.length s.length := by
  induction wakes generalizing s with
  | nil => rfl
  | cons now rest ih =>
    rw [reports, List.map_cons, ih]
    rfl

theorem number_reports (s : Scheduler) (wakes : List Nat) (k : Nat) (hk : k < wakes.length) :
    (reports s wakes)[k]?.map Tick.number = some (s.count + UInt32.ofNat (k + 1)) := by
  induction wakes generalizing s k with
  | nil => cases hk
  | cons now rest ih =>
    cases k with
    | zero => rfl
    | succ k =>
      have hlater := ih (s.wakeUp now) k (Nat.lt_of_succ_lt_succ hk)
      have hcount : (s.wakeUp now).count = s.count + 1 := rfl
      rw [reports, List.getElem?_cons_succ, hlater, hcount, UInt32.ofNat_add (k + 1) 1]
      congr 1
      rw [UInt32.add_assoc, UInt32.add_comm 1]
      rfl

/-! ### Every run -/

/-- **Ticks keep their distance.**  Take any run, with ticks of any length, whose wake-ups come at
    their deadlines or later.  When skipping, one tick fires after the other by a tick or more.  When
    catching up, fewer ticks fire from one time to another than the time between would have, two
    more, and those that may be made up for; so at one instant there is at most one besides
    these.  As long as no wake-up comes later than may be made up for, and always when the rhythm is
    kept whatever happens, the deadline has moved on by exactly one tick for every tick that has
    fired.  And under every policy the deadlines grow by a tick or more each time, every tick stands
    for the same time, and the ticks are numbered from one, until the numbers go round. -/
theorem ticks_paced (s : Scheduler) (hlength : 0 < s.length) (hfirst : s.count = 0)
    (wakes : List Nat) (hrun : Along wakeUp Timely s wakes) :
    let due := (after wakeUp s wakes).next
    (s.settings.policy = .skip → wakes.IsChain fun fired later => fired + s.length ≤ later) ∧
    (∀ most, s.settings.policy = .catchUp most →
      (∀ start span : Nat, (firedIn start (start + span) wakes : ℚ) <
        span / s.length + most.toNat + 2) ∧
      (∀ instant, wakes.count instant ≤ most.toNat + 1) ∧
      (Along wakeUp (fun t now => t.lag now ≤ most.toNat) s wakes →
        due = s.next + wakes.length * s.length)) ∧
    (s.settings.policy = .drop → due = s.next + wakes.length * s.length) ∧
    ((deadlines s wakes).IsChain fun earlier later => earlier + s.length ≤ later) ∧
    (reports s wakes).map Tick.dt = List.replicate wakes.length s.length ∧
    ∀ k < wakes.length,
      (reports s wakes)[k]?.map (fun tick => tick.number.toNat) = some ((k + 1) % 2 ^ 32) := by
  intro due
  refine ⟨fun hskip => isChain_of_skip hskip hrun, ?_,
    fun hdrop => next_after (keepsRhythm_of_drop hdrop wakes), isChain_deadlines hrun,
    map_dt_reports s wakes, ?_⟩
  · intro most hcatch
    have hfew := firedIn_mul_lt hcatch hlength hrun
    refine ⟨?_, ?_, fun hnear => next_after (keepsRhythm_of_catchUp hcatch hrun hnear)⟩
    · intro start span
      have hpositive : (0 : ℚ) < s.length := by exact_mod_cast hlength
      have hcast : (firedIn start (start + span) wakes : ℚ) * s.length <
          span + (most.toNat + 2) * s.length := by exact_mod_cast hfew start span
      calc (firedIn start (start + span) wakes : ℚ)
        _ < (span + (most.toNat + 2) * s.length) / s.length := (lt_div_iff₀ hpositive).mpr hcast
        _ = span / s.length + most.toNat + 2 := by
          rw [add_div, mul_div_cancel_right₀ _ hpositive.ne', add_assoc]
    · intro instant
      have hatOnce := hfew instant 0
      rw [firedIn_instant, Nat.zero_add] at hatOnce
      exact Nat.le_of_lt_succ (Nat.lt_of_mul_lt_mul_right hatOnce)
  · intro k hk
    obtain ⟨tick, htick, hnumber⟩ := Option.map_eq_some_iff.mp (number_reports s wakes k hk)
    rw [htick, Option.map_some, hnumber, hfirst, UInt32.zero_add, UInt32.toNat_ofNat']

/-- Of five ticks the second is two late and may make up for two: the next two fire at the same
    instant, and the fifth is in time again. -/
theorem ticks_paced_made_up :
    let s := new { rate := 20, policy := .catchUp 2 } 0
    let wakes := [50000000, 200000000, 200000000, 200000000, 250000000]
    0 < s.length ∧ s.count = 0 ∧ Along wakeUp Timely s wakes ∧
      s.settings.policy = .catchUp 2 ∧ wakes.count 200000000 = 3 ∧
      Along wakeUp (fun t now => t.lag now ≤ 2) s wakes ∧
      (after wakeUp s wakes).next = 50000000 + 5 * 50000000 := by
  intro s wakes
  have hlength : 0 < s.length := by decide +kernel
  have hfirst : s.count = 0 := rfl
  have hrun : Along wakeUp Timely s wakes := by decide +kernel
  have hcatch : s.settings.policy = .catchUp 2 := rfl
  have hnear : Along wakeUp (fun t now => t.lag now ≤ 2) s wakes := by decide +kernel
  obtain ⟨-, hcatchUp, -⟩ := ticks_paced s hlength hfirst wakes hrun
  obtain ⟨-, -, hdue⟩ := hcatchUp 2 hcatch
  have hstart : s.next = 50000000 ∧ s.length = 50000000 := by decide +kernel
  refine ⟨hlength, hfirst, hrun, hcatch, rfl, hnear, ?_⟩
  rw [hdue hnear, hstart.1, hstart.2]
  rfl

end Scheduler

end GameServer
