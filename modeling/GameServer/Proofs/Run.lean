/-!
Runs: what holds after any number of events, in any order.

A thing that changes is given by `next`, which says what one event makes of a state.  Not
every event can happen in every state, so a run comes with a condition that each of its
events meets in the state it finds.  What one such event preserves, a run preserves.
-/

namespace GameServer

variable {σ ε : Type}

/-- The state after some events, in their order. -/
def after (next : σ → ε → σ) (s : σ) (events : List ε) : σ := events.foldl next s

/-- Every event of a run meets a condition in the state that it finds. -/
def Along (next : σ → ε → σ) (allowed : σ → ε → Prop) : σ → List ε → Prop
  | _, [] => True
  | s, e :: rest => allowed s e ∧ Along next allowed (next s e) rest

/-- Whether a run meets a condition can be found out by making the run. -/
instance Along.decide (next : σ → ε → σ) (allowed : σ → ε → Prop)
    [∀ s e, Decidable (allowed s e)] : ∀ s events, Decidable (Along next allowed s events)
  | _, [] => isTrue trivial
  | s, e :: rest =>
    have := Along.decide next allowed (next s e) rest
    inferInstanceAs (Decidable (allowed s e ∧ Along next allowed (next s e) rest))

variable {next : σ → ε → σ} {allowed : σ → ε → Prop}

theorem after_append (s : σ) (before later : List ε) :
    after next s (before ++ later) = after next (after next s before) later :=
  List.foldl_append

theorem along_append (s : σ) (before later : List ε) :
    Along next allowed s (before ++ later) ↔
      Along next allowed s before ∧ Along next allowed (after next s before) later := by
  induction before generalizing s with
  | nil => simp [Along, after]
  | cons e rest ih => simp only [List.cons_append, Along, ih, and_assoc]; rfl

theorem Along.mono {weaker : σ → ε → Prop} (h : ∀ s e, allowed s e → weaker s e) {s : σ}
    {events : List ε} (hrun : Along next allowed s events) : Along next weaker s events := by
  induction events generalizing s with
  | nil => trivial
  | cons e rest ih => exact ⟨h s e hrun.1, ih hrun.2⟩

/-- **What every event preserves, every run preserves.** -/
theorem after_invariant {invariant : σ → Prop}
    (hstep : ∀ s e, invariant s → allowed s e → invariant (next s e)) {s : σ}
    (hstart : invariant s) (events : List ε) (hrun : Along next allowed s events) :
    invariant (after next s events) := by
  induction events generalizing s with
  | nil => exact hstart
  | cons e rest ih => exact ih (hstep s e hstart hrun.1) hrun.2

end GameServer
