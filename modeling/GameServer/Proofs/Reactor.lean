import GameServer.Proofs.Crew
import GameServer.Proofs.Routing
import GameServer.World.Workers

/-!
The threads that serve the completion port.

Any number of threads take from one port, and each item goes to one of them, the oldest first.
Whoever stops the pool posts a sentinel for every thread, while the transport may be posting still
and the threads take.  A sentinel is nobody's in particular, but a thread that has taken one takes
nothing else.

A reactor keeps the record of what was posted, of who took what, and of what was dispatched.
`Sound` ties the records together.
-/

namespace GameServer

/-- Something that the transport reports, no sentinel. -/
abbrev Report : Type := { c : Completion // c ≠ .shutdown }

/-- The completions of a list that are no sentinels. -/
def reports (cs : List Completion) : List Completion := cs.filter (· ≠ .shutdown)

theorem reports_append (cs ds : List Completion) : reports (cs ++ ds) = reports cs ++ reports ds :=
  List.filter_append ..

namespace World

def dispatchAll (w : World) (cs : List Completion) : World := cs.foldl (fun w c => (w.dispatch c).2) w

theorem dispatchAll_append (w : World) (cs ds : List Completion) :
    w.dispatchAll (cs ++ ds) = (w.dispatchAll cs).dispatchAll ds := List.foldl_append

theorem dispatch_report (w : World) {c : Completion} (hc : c ≠ .shutdown) :
    w.dispatch c = (.proceed, (w.dispatch c).2) := by
  have hgoes : (w.dispatch c).1 ≠ .halt := fun hhalts => hc ((w.dispatch_halts_iff c).mp hhalts)
  cases hflow : w.dispatch c with
  | mk flow w' =>
    rw [hflow] at hgoes
    cases flow with
    | proceed => rfl
    | halt => exact absurd rfl hgoes

end World

/-- What a thread of the pool is at. -/
inductive Thread where
  | waiting
  /-- The thread has taken a completion, and has yet to dispatch it. -/
  | holding (c : Completion)
  | gone
deriving DecidableEq, Repr

namespace Thread

def report? : Thread → Option Completion
  | holding c => if c = .shutdown then none else some c
  | waiting | gone => none

/-- Whether a thread has taken a sentinel. -/
def leaving : Thread → Bool
  | holding c => c = .shutdown
  | waiting => false
  | gone => true

def isHolding : Thread → Bool
  | holding _ => true
  | waiting | gone => false

def freed (c : Completion) : Thread := if c = .shutdown then gone else waiting

@[simp] theorem toList_report_holding (c : Completion) :
    (holding c).report?.toList = reports [c] := by
  by_cases hc : c = .shutdown <;> simp [report?, reports, hc]

@[simp] theorem report_freed (c : Completion) : (freed c).report? = none := by
  unfold freed
  split <;> rfl

@[simp] theorem leaving_freed (c : Completion) : (freed c).leaving = (holding c).leaving := by
  by_cases hc : c = .shutdown <;> simp [freed, leaving, hc]

@[simp] theorem isHolding_freed (c : Completion) : (freed c).isHolding = false := by
  unfold freed
  split <;> rfl

end Thread

/-- A world with the port that it hears from, and the threads that take from the port.  A pool that
    is being stopped owes sentinels until all are posted. -/
structure Reactor where
  world : World
  pool : WorkerPool
  threads : List Thread
  port : CompletionQueue := {}
  owed : Nat := 0
  posted : List Completion := []
  /-- What was taken, and which thread took it. -/
  taken : List (Nat × Completion) := []
  dispatched : List Completion := []

namespace Reactor

inductive Step where
  | post (c : Report)
  /-- Somebody stops the pool, and from then on has sentinels to post. -/
  | stop
  | sentinel
  | take (i : Nat)
  | handle (i : Nat)
deriving DecidableEq

/-- A thread takes the oldest completion, if one waits. -/
def take (r : Reactor) (i : Nat) : Reactor :=
  match r.port.take? with
  | none => r
  | some (c, port) =>
    { r with port, threads := r.threads.set i (.holding c), taken := r.taken ++ [(i, c)] }

/-- A thread dispatches what it holds, and is gone if it was a sentinel. -/
def dispatch (r : Reactor) (i : Nat) (c : Completion) : Reactor :=
  match r.world.dispatch c with
  | (.proceed, world) =>
    { r with world, threads := r.threads.set i .waiting, dispatched := r.dispatched ++ [c] }
  | (.halt, world) => { r with world, threads := r.threads.set i .gone }

/-- What a step makes of a reactor.  A thread that is not there, or not ready for it, does nothing,
    and neither does a pool that has no threads to stop. -/
def next (r : Reactor) : Step → Reactor
  | .post c => { r with port := r.port.post c, posted := r.posted ++ [c.val] }
  | .stop => { r with pool := ⟨0⟩, owed := r.owed + r.pool.workers }
  | .sentinel =>
    match r.owed with
    | 0 => r
    | owed + 1 =>
      { r with port := r.port.post .shutdown, owed, posted := r.posted ++ [.shutdown] }
  | .take i => if r.threads[i]? = some .waiting then r.take i else r
  | .handle i =>
    match r.threads[i]? with
    | some (.holding c) => r.dispatch i c
    | _ => r

/-- A pool that has just been started. -/
def start (w : World) (pool : WorkerPool) : Reactor :=
  { world := w, pool, threads := List.replicate pool.workers .waiting }

def inHand (r : Reactor) : List Completion := r.threads.filterMap Thread.report?

/-- Which threads have taken a sentinel. -/
def leaving (r : Reactor) : List Bool := r.threads.map Thread.leaving

section Steps

variable {r : Reactor} {i : Nat} {c : Completion} {rest : List Completion}

theorem take_of_pending (hpending : r.port.pending = c :: rest) :
    r.take i =
      { r with
        port := ⟨rest⟩
        threads := r.threads.set i (.holding c)
        taken := r.taken ++ [(i, c)] } := by
  simp [take, CompletionQueue.take?, hpending]

theorem take_of_empty (hpending : r.port.pending = []) : r.take i = r := by
  simp [take, CompletionQueue.take?, hpending]

/-- A sentinel is nothing to dispatch. -/
theorem dispatch_eq (r : Reactor) (i : Nat) (c : Completion) :
    r.dispatch i c =
      { r with
        world := r.world.dispatchAll (reports [c])
        threads := r.threads.set i (.freed c)
        dispatched := r.dispatched ++ reports [c] } := by
  by_cases hc : c = .shutdown
  · subst hc
    simp [dispatch, World.dispatch, Completion.session?, World.dispatchAll, reports, Thread.freed]
  · have hone : reports [c] = [c] := by simp [reports, hc]
    unfold dispatch
    rw [r.world.dispatch_report hc, hone, Thread.freed, if_neg hc]
    rfl

/-- **A pool that has no threads to stop is left as it is.** -/
theorem next_stop_of_stopped (h : r.pool.workers = 0) : r.next .stop = r := by
  obtain ⟨world, ⟨workers⟩, threads, port, owed, posted, taken, dispatched⟩ := r
  obtain rfl : workers = 0 := h
  rfl

theorem next_sentinel_of_paid (h : r.owed = 0) : r.next .sentinel = r := by
  simp only [next, h]

theorem next_sentinel_of_owed {owed : Nat} (h : r.owed = owed + 1) :
    r.next .sentinel =
      { r with port := r.port.post .shutdown, owed, posted := r.posted ++ [.shutdown] } := by
  simp only [next, h]

theorem leaving_at {t : Thread} (hi : r.threads[i]? = some t) :
    r.leaving[i]? = some t.leaving := by
  rw [leaving, List.getElem?_map, hi]
  rfl

/-- Dispatching does not change who is leaving. -/
theorem leaving_dispatch (hi : r.threads[i]? = some (.holding c)) :
    (r.dispatch i c).leaving = r.leaving := by
  obtain ⟨hin, hget⟩ := List.getElem?_eq_some_iff.mp (leaving_at hi)
  rw [dispatch_eq, leaving, List.map_set, Thread.leaving_freed, ← hget]
  exact List.set_getElem_self hin

end Steps

/-! ### The records agree -/

/-- What was posted was taken, in its order, or waits; what was taken and was no sentinel was
    dispatched or is in somebody's hands; the world is what came of what was dispatched.  A thread
    has taken a sentinel if it is leaving, and just one.  There are as many sentinels as threads,
    those counted that have yet to be posted.  When everybody is leaving, it was a sentinel that was
    taken last. -/
structure Sound (w : World) (n : Nat) (r : Reactor) : Prop where
  crew : r.threads.length = n
  order : r.taken.map Prod.snd ++ r.port.pending = r.posted
  hands : (r.dispatched ++ r.inHand).Perm (reports (r.taken.map Prod.snd))
  world : r.world = w.dispatchAll r.dispatched
  each : ∀ i b, r.leaving[i]? = some b → r.taken.count (i, .shutdown) = b.toNat
  leavers : (r.taken.map Prod.snd).count .shutdown = r.leaving.count true
  balance : r.posted.count .shutdown + r.owed + r.pool.workers = n
  last : (∀ b ∈ r.leaving, b = true) → ∃ before i, r.taken = before ++ [(i, Completion.shutdown)]

variable {w : World} {n i : Nat} {r : Reactor} {c : Completion}

theorem sound_start (w : World) {pool : WorkerPool} (hpool : 0 < pool.workers) :
    Sound w pool.workers (start w pool) := by
  have hnobody : (start w pool).inHand = [] := by
    simp [inHand, start, List.filterMap_replicate, Thread.report?]
  have hleaving : (start w pool).leaving = List.replicate pool.workers false := by
    simp [leaving, start, Thread.leaving]
  refine ⟨List.length_replicate, rfl, ?_, rfl, ?_, ?_, ?_, ?_⟩
  · rw [hnobody]
    exact .refl _
  · intro i b hb
    rw [hleaving] at hb
    rw [List.eq_of_mem_replicate (List.mem_of_getElem? hb)]
    rfl
  · rw [hleaving, List.count_replicate]
    rfl
  · simp [start]
  · intro hall
    rw [hleaving] at hall
    cases hall false (List.mem_replicate.mpr ⟨Nat.ne_of_gt hpool, rfl⟩)

theorem Sound.post (h : Sound w n r) (c : Report) : Sound w n (r.next (.post c)) := by
  refine ⟨h.crew, ?_, h.hands, h.world, h.each, h.leavers, ?_, h.last⟩
  · change r.taken.map Prod.snd ++ (r.port.pending ++ [c.val]) = r.posted ++ [c.val]
    rw [← List.append_assoc, h.order]
  · change (r.posted ++ [c.val]).count .shutdown + r.owed + r.pool.workers = n
    rw [List.count_append, List.count_singleton, beq_false_of_ne c.property, ← h.balance]
    rfl

theorem Sound.stop (h : Sound w n r) : Sound w n (r.next .stop) := by
  refine ⟨h.crew, h.order, h.hands, h.world, h.each, h.leavers, ?_, h.last⟩
  change r.posted.count .shutdown + (r.owed + r.pool.workers) + 0 = n
  rw [← h.balance]
  omega

theorem Sound.sentinel (h : Sound w n r) : Sound w n (r.next .sentinel) := by
  cases howed : r.owed with
  | zero => rwa [next_sentinel_of_paid howed]
  | succ owed =>
    rw [next_sentinel_of_owed howed]
    refine ⟨h.crew, ?_, h.hands, h.world, h.each, h.leavers, ?_, h.last⟩
    · change r.taken.map Prod.snd ++ (r.port.pending ++ [.shutdown]) = r.posted ++ [.shutdown]
      rw [← List.append_assoc, h.order]
    · have hbalance := h.balance
      rw [howed] at hbalance
      simp only [List.count_append, List.count_singleton_self]
      omega

theorem Sound.take (h : Sound w n r) (hi : r.threads[i]? = some .waiting) :
    Sound w n (r.take i) := by
  cases hpending : r.port.pending with
  | nil => rwa [take_of_empty hpending]
  | cons c rest =>
    rw [take_of_pending hpending]
    have hwas : r.leaving[i]? = some false := leaving_at hi
    obtain ⟨hin, hget⟩ := List.getElem?_eq_some_iff.mp hwas
    -- the thread is leaving now if what it has taken is a sentinel
    have hleaving : (r.threads.set i (.holding c)).map Thread.leaving =
        r.leaving.set i (decide (c = .shutdown)) := List.map_set
    refine ⟨List.length_set.trans h.crew, ?_, ?_, h.world, ?_, ?_, h.balance, ?_⟩
    · rw [← h.order, hpending, List.map_append, List.append_assoc]
      rfl
    · have hheld := Crew.perm_filterMap_set Thread.report? hi (.holding c)
      have hnone : Thread.waiting.report?.toList = [] := rfl
      rw [hnone, List.append_nil, Thread.toList_report_holding] at hheld
      rw [List.map_append, reports_append]
      apply (hheld.append_left _).trans
      rw [← List.append_assoc]
      exact h.hands.append_right _
    · intro j b hb
      rw [List.count_append, List.count_singleton]
      change ((r.threads.set i (.holding c)).map Thread.leaving)[j]? = some b at hb
      rw [hleaving] at hb
      by_cases hj : i = j
      · subst hj
        rw [List.getElem?_set_self hin, Option.some.injEq] at hb
        rw [h.each i false hwas, ← hb]
        by_cases hc : c = .shutdown <;> simp [hc]
      · rw [List.getElem?_set_ne hj] at hb
        have hother : ((i, c) == (j, Completion.shutdown)) = false := by simp [hj]
        rw [h.each j b hb, hother]
        rfl
    · change _ = ((r.threads.set i (.holding c)).map Thread.leaving).count true
      rw [hleaving, List.count_set hin, hget, List.map_append, List.count_append, h.leavers]
      by_cases hc : c = .shutdown <;> simp [hc]
    · intro hall
      have hc : c = .shutdown := by
        apply of_decide_eq_true
        apply hall
        change _ ∈ (r.threads.set i (.holding c)).map Thread.leaving
        rw [hleaving]
        exact List.mem_set hin _
      exact ⟨r.taken, i, by rw [hc]⟩

theorem Sound.dispatch (h : Sound w n r) (hi : r.threads[i]? = some (.holding c)) :
    Sound w n (r.dispatch i c) := by
  have hleaving := leaving_dispatch hi
  rw [dispatch_eq] at hleaving ⊢
  refine ⟨List.length_set.trans h.crew, h.order, ?_, ?_, ?_, ?_, h.balance, ?_⟩
  · -- what the thread held is dispatched now
    have hless : ((r.threads.set i (.freed c)).filterMap Thread.report? ++ reports [c]).Perm r.inHand := by
      simpa [inHand] using Crew.perm_filterMap_set Thread.report? hi (.freed c)
    refine List.Perm.trans ?_ h.hands
    change (r.dispatched ++ reports [c] ++ _).Perm _
    rw [List.append_assoc]
    exact (List.perm_append_comm.trans hless).append_left _
  · rw [World.dispatchAll_append, h.world]
  · rw [hleaving]
    exact h.each
  · rw [hleaving]
    exact h.leavers
  · rw [hleaving]
    exact h.last

/-- **Every step keeps the records in agreement.** -/
theorem Sound.next (h : Sound w n r) (step : Step) : Sound w n (r.next step) := by
  cases step with
  | post c => exact h.post c
  | stop => exact h.stop
  | sentinel => exact h.sentinel
  | take i =>
    simp only [Reactor.next]
    split
    · next hi => exact h.take hi
    · exact h
  | handle i =>
    simp only [Reactor.next]
    split
    · next c hi => exact h.dispatch hi
    · exact h

theorem Sound.after (h : Sound w n r) (steps : List Step) : Sound w n (after Reactor.next r steps) := by
  induction steps generalizing r with
  | nil => exact h
  | cons step rest ih => exact ih (h.next step)

end Reactor

end GameServer
