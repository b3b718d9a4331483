import GameServer.Proofs.Closing

/-!
Draining the queue ends with an empty queue.

Executing a command may put another into the queue, but only a logout does, only for a session
that it finds in the directory, and it takes that session's number out.  So the commands that
wait and the numbers that are registered together get fewer with every command.
-/

namespace GameServer

open Wire

namespace World

/-- What bounds the commands still to be executed: those that wait, and one for every registered
    number. -/
def toDo (w : World) : Nat := w.queue.pending.length + w.directory.size

theorem Quiet.toDo {w w' : World} (h : Quiet w w') : w'.toDo = w.toDo := by
  rw [World.toDo, h.queue, h.directory]
  rfl

theorem length_pending_offerAll_le (q : CommandQueue) (commands : List Command) :
    (q.offerAll commands).pending.length ≤ q.pending.length + commands.length := by
  unfold CommandQueue.offerAll
  split
  · rw [List.length_append]
  · exact Nat.le_add_right _ _

variable {w : World}

/-- A logout takes a number out for every command that it puts into the queue. -/
theorem toDo_logout_le (id : SessionId) (carried : Option String) :
    (w.logout id carried).toDo ≤ w.toDo := by
  obtain ⟨more, hqueue, hone, hnone⟩ := w.queue_logout id carried
  have hpending := length_pending_offerAll_le w.queue more
  rw [toDo, hqueue, directory_logout, toDo]
  have herase : (w.directory.erase id).size =
      if id ∈ w.directory.entries then w.directory.size - 1 else w.directory.size :=
    Std.ExtTreeMap.size_erase
  cases hfind : w.directory.find? id with
  | none =>
    have hout : id ∉ w.directory.entries := lookup_eq_none_iff.mp hfind
    rw [hnone hfind] at hpending
    rw [if_neg hout] at herase
    rw [hnone hfind, herase]
    exact Nat.add_le_add_right hpending _
  | some place =>
    have hin : id ∈ w.directory.entries := mem_of_lookup hfind
    have hpositive : 0 < w.directory.size := by
      rcases Nat.eq_zero_or_pos w.directory.size with hzero | hpositive
      · have hempty := Std.ExtTreeMap.eq_empty_iff_size_eq_zero.mpr hzero
        rw [hempty] at hin
        exact absurd hin Std.ExtTreeMap.not_mem_empty
      · exact hpositive
    rw [if_pos hin] at herase
    omega

theorem toDo_effect_le {id : SessionId} {r : Request} {w' : World}
    (heffect : Effect w id r w') :
    w'.toDo ≤ w.toDo := by
  cases heffect with
  | quiet done => exact Nat.le_of_eq done.toDo
  | login found isOpen nobody offline marked done => exact Nat.le_of_eq done.toDo
  | join found somebody joined done => exact Nat.le_of_eq done.toDo
  | openRoom found somebody opened done => exact Nat.le_of_eq done.toDo
  | leave done => exact Nat.le_of_eq done.toDo
  | logout asked => exact toDo_logout_le id none

theorem toDo_execute_le (c : Command) : (w.execute c).toDo ≤ w.toDo := by
  cases c with
  | request id request => exact toDo_effect_le (w.answer_effect id request)
  | hangUp id username => exact toDo_logout_le id (some username)

/-- A command no longer waits. -/
def dequeue (w : World) (c : Command) : World :=
  { w with queue := { w.queue with pending := w.queue.pending.erase c } }

theorem dequeue_of_cons {c : Command} {rest : List Command} (h : w.queue.pending = c :: rest) :
    w.dequeue c = { w with queue := { w.queue with pending := rest } } := by
  simp [dequeue, h]

/-- **Every command that is executed in its turn leaves less to do.** -/
theorem toDo_execute_lt {c : Command} (h : w.queue.pending.head? = some c) :
    ((w.dequeue c).execute c).toDo < w.toDo := by
  obtain ⟨rest, hpending⟩ := List.head?_eq_some_iff.mp h
  refine Nat.lt_of_le_of_lt (toDo_execute_le c) ?_
  rw [dequeue_of_cons hpending]
  simp only [toDo, hpending, List.length_cons]
  omega

theorem drainFor_of_empty (h : w.queue.pending = []) (n : Nat) : (drainFor n w).1 = w := by
  cases n with
  | zero => rfl
  | succ n => simp [drainFor, CommandQueue.pop?, h]

theorem drainFor_of_cons {c : Command} {rest : List Command} (h : w.queue.pending = c :: rest)
    (n : Nat) : (drainFor (n + 1) w).1 = (drainFor n ((w.dequeue c).execute c)).1 := by
  rw [dequeue_of_cons h]
  simp only [drainFor, CommandQueue.pop?, h]

theorem drainFor_empties {n : Nat} (h : w.toDo ≤ n) : (drainFor n w).1.queue.pending = [] := by
  induction n generalizing w with
  | zero =>
    have hnone : w.queue.pending.length = 0 := Nat.le_zero.mp (Nat.le_trans (Nat.le_add_right ..) h)
    exact List.length_eq_zero_iff.mp hnone
  | succ n ih =>
    cases hpending : w.queue.pending with
    | nil => rw [drainFor_of_empty hpending, hpending]
    | cons c rest =>
      rw [drainFor_of_cons hpending]
      have hless := toDo_execute_lt (w := w) (c := c) (by rw [hpending]; rfl)
      exact ih (Nat.le_of_lt_succ (Nat.lt_of_lt_of_le hless h))

/-- **Draining leaves no command waiting.** -/
theorem pending_drain (w : World) : w.drain.1.queue.pending = [] := drainFor_empties (Nat.le_refl _)

/-- What every command keeps that is executed in its turn, draining keeps. -/
theorem keeps_drain {P : World → Prop}
    (hstep : ∀ {v : World} {c : Command}, v.queue.pending.head? = some c → P v →
      P ((v.dequeue c).execute c))
    (h : P w) : P w.drain.1 := by
  have hrounds : ∀ n {v : World}, P v → P (drainFor n v).1 := by
    intro n
    induction n with
    | zero => exact fun hv => hv
    | succ n ih =>
      intro v hv
      cases hpending : v.queue.pending with
      | nil => rwa [drainFor_of_empty hpending]
      | cons c rest =>
        rw [drainFor_of_cons hpending]
        exact ih (hstep (by rw [hpending]; rfl) hv)
  exact hrounds _ h

end World

end GameServer
