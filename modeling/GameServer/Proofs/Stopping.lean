import GameServer.Proofs.Reactor

/-!
How the threads that serve the completion port are stopped.

There are as many sentinels as threads, and each thread takes one, so none is left over.  As long as
a thread waits there is a sentinel to come, so whoever stops the pool does not wait in vain.  When
all are gone, a sentinel was taken last, and it was the last of them; whatever was posted before it
has been taken by then, and what was posted behind it stays.

A pool that is stopped in one go, with one thread after the other, is one course of this.
-/

namespace GameServer

namespace Reactor

variable {w : World} {n i : Nat} {r : Reactor}

/-! ### The course of a stop -/

def Step.report? : Step → Option Completion
  | post c => some c.val
  | stop | sentinel | take _ | handle _ => none

/-- What the transport posts in the course of some steps. -/
def reported (steps : List Step) : List Completion := steps.filterMap Step.report?

def Step.ofThread : Step → Bool
  | take _ | handle _ => true
  | post _ | stop | sentinel => false

/-- What a thread cannot change. -/
structure SameFront (r r' : Reactor) : Prop where
  pool : r'.pool = r.pool
  owed : r'.owed = r.owed
  posted : r'.posted = r.posted

theorem SameFront.refl (r : Reactor) : SameFront r r := ⟨rfl, rfl, rfl⟩

theorem sameFront_next (r : Reactor) (step : Step) (hstep : step.ofThread = true) :
    SameFront r (r.next step) := by
  cases step with
  | post c | stop | sentinel => cases hstep
  | take i =>
    simp only [next]
    split
    · cases hpending : r.port.pending with
      | nil =>
        rw [take_of_empty hpending]
        exact .refl r
      | cons c rest =>
        rw [take_of_pending hpending]
        exact ⟨rfl, rfl, rfl⟩
    · exact .refl r
  | handle i =>
    simp only [next]
    split
    · rw [dispatch_eq]
      exact ⟨rfl, rfl, rfl⟩
    · exact .refl r

/-- How far a pool of `n` threads is stopped by some steps, and what has been posted. -/
inductive Course (n : Nat) (steps : List Step) (r : Reactor) : Prop
  | running (unasked : .stop ∉ steps) (pool : r.pool.workers = n) (owed : r.owed = 0)
      (posted : reports r.posted = reported steps)
  | stopping {before between : List Step} (course : steps = before ++ .stop :: between)
      (first : .stop ∉ before) (pool : r.pool.workers = 0) (owed : 0 < r.owed)
      (paid : between.count .sentinel + r.owed = n)
      (posted : reports r.posted = reported before ++ reported between)
  /-- The last sentinel is posted, after one for every other thread. -/
  | stopped {before between behind : List Step} {ahead : List Completion}
      (course : steps = before ++ .stop :: (between ++ .sentinel :: behind))
      (first : .stop ∉ before) (pool : r.pool.workers = 0) (owed : r.owed = 0)
      (paid : between.count .sentinel + 1 = n)
      (posted : r.posted = ahead ++ .shutdown :: reported behind)
      (reported : reports ahead = reported before ++ reported between)

section Course

variable {steps : List Step} {step : Step} {r' : Reactor}

theorem reported_append (steps more : List Step) :
    reported (steps ++ more) = reported steps ++ reported more := List.filterMap_append

theorem reports_reported (steps : List Step) : reports (reported steps) = reported steps := by
  apply List.filter_eq_self.mpr
  intro c hc
  obtain ⟨step, -, hstep⟩ := List.mem_filterMap.mp hc
  cases step with
  | post c' =>
    obtain rfl := Option.some.inj hstep
    exact decide_eq_true c'.property
  | stop | sentinel | take | handle => cases hstep

/-- A step that has nothing to do with the stop takes its place in the course. -/
theorem Course.extend (h : Course n steps r) (hn : 0 < n) (hpool : r'.pool = r.pool)
    (howed : r'.owed = r.owed) (hposted : r'.posted = r.posted ++ reported [step])
    (hstop : step = .stop → r.pool.workers = 0) (hsentinel : step = .sentinel → r.owed = 0) :
    Course n (steps ++ [step]) r' := by
  have hreports : reports r'.posted = reports r.posted ++ reported [step] := by
    rw [hposted, reports_append, reports_reported]
  cases h with
  | running unasked pool owed posted =>
    refine .running ?_ (hpool ▸ pool) (howed ▸ owed) ?_
    · intro hmem
      rcases List.mem_append.mp hmem with hold | hnew
      · exact unasked hold
      · have hnone := hstop (List.mem_singleton.mp hnew).symm
        exact absurd (pool.symm.trans hnone) (Nat.ne_of_gt hn)
    · rw [hreports, posted, reported_append]
  | @stopping before between course first pool owed paid posted =>
    have hcourse : steps ++ [step] = before ++ .stop :: (between ++ [step]) := by
      rw [course, List.append_assoc, List.cons_append]
    have hother : ¬ step = .sentinel := fun heq => Nat.ne_of_gt owed (hsentinel heq)
    refine .stopping hcourse first (hpool ▸ pool) (howed ▸ owed) ?_ ?_
    · rwa [List.count_append, List.count_singleton, if_neg (by simpa using hother), howed]
    · rw [hreports, posted, reported_append, List.append_assoc]
  | @stopped before between behind ahead course first pool owed paid posted reported =>
    have hcourse :
        steps ++ [step] = before ++ .stop :: (between ++ .sentinel :: (behind ++ [step])) := by
      rw [course, List.append_assoc, List.cons_append, List.append_assoc, List.cons_append]
    refine .stopped hcourse first (hpool ▸ pool) (howed ▸ owed) paid ?_ reported
    rw [hposted, posted, reported_append, List.append_assoc, List.cons_append]

/-- **Every step takes its place in the course.** -/
theorem Course.next (h : Course n steps r) (hn : 0 < n) (step : Step) :
    Course n (steps ++ [step]) (r.next step) := by
  have hthread : step.ofThread = true → Course n (steps ++ [step]) (r.next step) := by
    intro hstep
    have hfront := r.sameFront_next step hstep
    have hnone : reported [step] = [] := by
      cases step <;> first | rfl | cases hstep
    refine h.extend hn hfront.pool hfront.owed ?_ ?_ ?_
    · rw [hfront.posted, hnone, List.append_nil]
    all_goals
      rintro rfl
      cases hstep
  cases step with
  | post c => exact h.extend hn rfl rfl rfl nofun nofun
  | take i | handle i => exact hthread rfl
  | stop =>
    have hstays : r.pool.workers = 0 → Course n (steps ++ [.stop]) (r.next .stop) := by
      intro hpool
      rw [next_stop_of_stopped hpool]
      exact h.extend hn rfl rfl (List.append_nil _).symm (fun _ => hpool) nofun
    cases h with
    | running unasked pool owed posted =>
      have howes : (r.next .stop).owed = n := by
        change r.owed + r.pool.workers = n
        omega
      exact .stopping rfl unasked rfl (howes ▸ hn) ((Nat.zero_add _).trans howes)
        (posted.trans (List.append_nil _).symm)
    | stopping course first pool owed paid posted => exact hstays pool
    | stopped course first pool owed paid posted reported => exact hstays pool
  | sentinel =>
    cases howed : r.owed with
    | zero =>
      rw [next_sentinel_of_paid howed]
      exact h.extend hn rfl rfl (List.append_nil _).symm nofun fun _ => howed
    | succ more =>
      rw [next_sentinel_of_owed howed]
      cases h with
      | running unasked pool owed posted => simp [howed] at owed
      | stopped course first pool owed paid posted reported => simp [howed] at owed
      | @stopping before between course first pool owed paid posted =>
        rw [howed] at paid
        cases more with
        | zero =>
          have hcourse : steps ++ [.sentinel] = before ++ .stop :: (between ++ .sentinel :: []) := by
            rw [course, List.append_assoc, List.cons_append]
          exact .stopped hcourse first pool rfl paid rfl posted
        | succ more =>
          have hcourse : steps ++ [.sentinel] = before ++ .stop :: (between ++ [.sentinel]) := by
            rw [course, List.append_assoc, List.cons_append]
          refine .stopping hcourse first pool (Nat.succ_pos more) ?_ ?_
          · rw [List.count_append, List.count_singleton_self, Nat.add_assoc, Nat.add_comm 1]
            exact paid
          · rw [reports_append, posted, reported_append, List.append_assoc]
            rfl

theorem Course.after (h : Course n steps r) (hn : 0 < n) (more : List Step) :
    Course n (steps ++ more) (after Reactor.next r more) := by
  induction more generalizing steps r with
  | nil => rwa [List.append_nil]
  | cons step rest ih =>
    have hrest := ih (h.next hn step)
    rwa [List.append_assoc] at hrest

end Course

/-! ### Everybody leaves -/

/-- How many of the completions that wait are to be taken: those up to the last sentinel. -/
def ahead : List Completion → Nat
  | [] => 0
  | c :: rest => if .shutdown ∈ c :: rest then ahead rest + 1 else 0

theorem ahead_append_report (cs : List Completion) {c : Completion} (hc : c ≠ .shutdown) :
    ahead (cs ++ [c]) = ahead cs := by
  induction cs with
  | nil => simp [ahead, hc.symm]
  | cons d rest ih => simp [ahead, ih, hc.symm]

/-- Whether a thread, or whoever stops the pool, has something to do. -/
def ready (r : Reactor) : Step → Bool
  | .take i => r.threads[i]? = some .waiting && !r.port.pending.isEmpty
  | .handle i => r.threads[i]?.any Thread.isHolding
  | .sentinel => 0 < r.owed
  | .post _ | .stop => false

theorem next_of_not_ready {step : Step} (hstep : step.ofThread = true)
    (hready : r.ready step = false) : r.next step = r := by
  cases step with
  | post c | stop | sentinel => cases hstep
  | take i =>
    simp only [next]
    split
    · next hi =>
      have hempty : r.port.pending = [] := by simpa [ready, hi] using hready
      exact take_of_empty hempty
    · rfl
  | handle i =>
    simp only [next]
    split
    · next c hi => simp [ready, hi, Thread.isHolding] at hready
    · rfl

/-- What bounds the steps that threads have yet to make: two for each completion that is to be taken
    and one for each that is held. -/
def toDo (r : Reactor) : Nat := 2 * ahead r.port.pending + r.threads.countP Thread.isHolding

structure Stopped (r : Reactor) : Prop where
  pool : r.pool.workers = 0
  owed : r.owed = 0

theorem Stopped.next (h : Stopped r) (step : Step) : Stopped (r.next step) := by
  have hthread : step.ofThread = true → Stopped (r.next step) := by
    intro hstep
    have hfront := r.sameFront_next step hstep
    exact ⟨hfront.pool ▸ h.pool, hfront.owed ▸ h.owed⟩
  cases step with
  | post c => exact ⟨h.pool, h.owed⟩
  | stop => rwa [next_stop_of_stopped h.pool]
  | sentinel => rwa [next_sentinel_of_paid h.owed]
  | take i | handle i => exact hthread rfl

/-- **As long as somebody waits, so does a sentinel.** -/
theorem Sound.sentinel_waits (h : Sound w n r) (hstopped : Stopped r)
    (hi : r.threads[i]? = some .waiting) : .shutdown ∈ r.port.pending := by
  have hwas : r.leaving[i]? = some false := leaving_at hi
  by_contra hnone
  have hposted : r.posted.count .shutdown = n := by
    rw [← h.balance, hstopped.owed, hstopped.pool]
    rfl
  rw [← h.order, List.count_append, List.count_eq_zero.mpr hnone, Nat.add_zero, h.leavers] at hposted
  have hall : ∀ b ∈ r.leaving, true = b := by
    apply List.count_eq_length.mp
    rw [hposted, leaving, List.length_map, h.crew]
  cases hall false (List.mem_of_getElem? hwas)

/-- **Whoever stops the pool does not wait in vain.**  While a thread is there, somebody has
    something to do. -/
theorem Sound.exists_ready (h : Sound w n r) (hpool : r.pool.workers = 0)
    (hsome : ∃ t ∈ r.threads, t ≠ .gone) : ∃ step, r.ready step = true := by
  obtain ⟨t, ht, hthere⟩ := hsome
  obtain ⟨i, hi⟩ := List.mem_iff_getElem?.mp ht
  cases t with
  | gone => exact absurd rfl hthere
  | holding c => exact ⟨.handle i, by simp [ready, hi, Thread.isHolding]⟩
  | waiting =>
    rcases Nat.eq_zero_or_pos r.owed with howed | howed
    · have hpending := List.ne_nil_of_mem (h.sentinel_waits ⟨hpool, howed⟩ hi)
      exact ⟨.take i, by simp [ready, hi, hpending]⟩
    · exact ⟨.sentinel, decide_eq_true howed⟩

theorem countP_set_isHolding {threads : List Thread} {t : Thread} (ht : threads[i]? = some t)
    (u : Thread) :
    (threads.set i u).countP Thread.isHolding + t.isHolding.toNat =
      threads.countP Thread.isHolding + u.isHolding.toNat := by
  obtain ⟨hin, rfl⟩ := List.getElem?_eq_some_iff.mp ht
  rw [List.countP_set hin]
  cases hholding : threads[i].isHolding with
  | false => cases u.isHolding <;> simp
  | true =>
    have hpositive : 0 < threads.countP Thread.isHolding :=
      List.countP_pos_iff.mpr ⟨threads[i], List.getElem_mem hin, hholding⟩
    cases u.isHolding <;> simp <;> omega

theorem Sound.toDo_next_lt (h : Sound w n r) (hstopped : Stopped r) {step : Step}
    (hready : r.ready step = true) : (r.next step).toDo < r.toDo := by
  cases step with
  | post c | stop => cases hready
  | sentinel => simp [ready, hstopped.owed] at hready
  | take i =>
    simp only [ready, Bool.and_eq_true, decide_eq_true_eq, Bool.not_eq_true', List.isEmpty_eq_false_iff]
      at hready
    obtain ⟨hi, hsome⟩ := hready
    obtain ⟨c, rest, hpending⟩ := List.exists_cons_of_ne_nil hsome
    have hsentinel := h.sentinel_waits hstopped hi
    have hholding := countP_set_isHolding hi (.holding c)
    simp only [Reactor.next, if_pos hi, take_of_pending hpending, toDo]
    rw [hpending] at hsentinel ⊢
    rw [ahead, if_pos hsentinel]
    simp only [Thread.isHolding, Bool.toNat_true, Bool.toNat_false] at hholding
    omega
  | handle i =>
    simp only [ready, Option.any_eq_true] at hready
    obtain ⟨t, hi, hhold⟩ := hready
    cases t with
    | waiting | gone => cases hhold
    | holding c =>
      have hholding := countP_set_isHolding hi (.freed c)
      rw [Thread.isHolding_freed] at hholding
      simp only [Thread.isHolding, Bool.toNat_true, Bool.toNat_false] at hholding
      simp only [Reactor.next, hi, dispatch_eq, toDo]
      omega

/-- What is posted behind the last sentinel is nothing to do. -/
theorem Stopped.toDo_next (h : Stopped r) {step : Step} (hstep : step.ofThread = false) :
    (r.next step).toDo = r.toDo := by
  cases step with
  | post c =>
    change 2 * ahead (r.port.pending ++ [c.val]) + _ = _
    rw [ahead_append_report _ c.property]
    rfl
  | stop => rw [next_stop_of_stopped h.pool]
  | sentinel => rw [next_sentinel_of_paid h.owed]
  | take i | handle i => cases hstep

/-- **The threads get to an end,** whatever is posted meanwhile. -/
theorem Sound.countP_le_toDo (h : Sound w n r) (hstopped : Stopped r) (more : List Step)
    (hready : Along Reactor.next (fun r step => step.ofThread = true → r.ready step = true) r more) :
    more.countP Step.ofThread ≤ r.toDo := by
  induction more generalizing r with
  | nil => exact Nat.zero_le _
  | cons step rest ih =>
    have hrest := ih (h.next step) (hstopped.next step) hready.2
    cases hthread : step.ofThread with
    | true =>
      rw [List.countP_cons_of_pos hthread]
      exact Nat.lt_of_le_of_lt hrest (h.toDo_next_lt hstopped (hready.1 hthread))
    | false =>
      rw [List.countP_cons_of_neg (by simp [hthread]), ← hstopped.toDo_next hthread]
      exact hrest

theorem eq_of_last {α : Type} {a : α} {l l' m m' : List α} (h : l ++ a :: m = l' ++ a :: m')
    (hm : a ∉ m) (hm' : a ∉ m') : l = l' ∧ m = m' := by
  rcases List.append_eq_append_iff.mp h with ⟨k, rfl, hk⟩ | ⟨k, rfl, hk⟩
  · cases k with
    | nil => exact ⟨(List.append_nil l).symm, (List.cons.inj hk).2⟩
    | cons b k => exact absurd ((List.cons.inj hk).2 ▸ by simp) hm
  · cases k with
    | nil => exact ⟨List.append_nil l', (List.cons.inj hk).2.symm⟩
    | cons b k => exact absurd ((List.cons.inj hk).2 ▸ by simp) hm'

theorem not_mem_reported (steps : List Step) : .shutdown ∉ reported steps := by
  rw [← reports_reported]
  simp [reports]

/-- **When everybody is gone,** everything before the last sentinel has been dispatched, and what
    is behind it is what waits. -/
theorem Sound.finished (h : Sound w n r) (hn : 0 < n) {steps : List Step}
    (hcourse : Course n steps r) (hgone : ∀ t ∈ r.threads, t = .gone) :
    (∀ i < n, r.taken.count (i, .shutdown) = 1) ∧
    ∃ before between behind, steps = before ++ .stop :: (between ++ .sentinel :: behind) ∧
      .stop ∉ before ∧ between.count .sentinel + 1 = n ∧
      r.dispatched.Perm (reported before ++ reported between) ∧
      r.port.pending = reported behind := by
  have hall : ∀ b ∈ r.leaving, b = true := by
    intro b hb
    obtain ⟨t, ht, rfl⟩ := List.mem_map.mp hb
    rw [hgone t ht]
    rfl
  have hlength : r.leaving.length = n := by rw [leaving, List.length_map, h.crew]
  have hnobody : r.inHand = [] := by
    apply List.filterMap_eq_nil_iff.mpr
    intro t ht
    rw [hgone t ht]
    rfl
  have hhands := h.hands
  rw [hnobody, List.append_nil] at hhands
  -- all the sentinels there can be have been taken
  have hleavers : (r.taken.map Prod.snd).count .shutdown = n := by
    rw [h.leavers, ← hlength]
    exact List.count_eq_length.mpr fun b hb => (hall b hb).symm
  have hbalance := h.balance
  rw [← h.order, List.count_append, hleavers] at hbalance
  have hnone : .shutdown ∉ r.port.pending := List.count_eq_zero.mp (by omega)
  constructor
  · intro i hi
    rw [← hlength] at hi
    rw [h.each i _ (List.getElem?_eq_getElem hi), hall _ (List.getElem_mem hi)]
    rfl
  · cases hcourse with
    | running unasked pool owed posted => omega
    | stopping course first pool owed paid posted => omega
    | @stopped before between behind ahead course first pool owed paid posted reported =>
      obtain ⟨taken, i, htaken⟩ := h.last hall
      have horder := h.order
      rw [htaken, posted, List.map_append, List.append_assoc] at horder
      obtain ⟨hahead, hbehind⟩ := eq_of_last horder hnone (not_mem_reported behind)
      refine ⟨before, between, behind, course, first, paid, ?_, hbehind⟩
      rw [htaken, List.map_append, reports_append, hahead, reported] at hhands
      simpa [reports] using hhands

end Reactor

/-! ### The pool -/

section Pool

variable {w : World} {k : Nat}

theorem World.serve_append_reports {cs : List Completion} (hcs : .shutdown ∉ cs)
    (rest : List Completion) :
    w.serve (k + 1) (cs ++ rest) = (w.dispatchAll cs).serve (k + 1) rest := by
  induction cs generalizing w with
  | nil => rfl
  | cons c cs ih =>
    rw [List.mem_cons, not_or] at hcs
    rw [List.cons_append, serve, w.dispatch_report (Ne.symm hcs.1)]
    exact ih hcs.2

theorem World.serve_sentinels (w : World) (k : Nat) :
    w.serve k (List.replicate k .shutdown) = (w, []) := by
  induction k with
  | zero => rfl
  | succ k ih => exact ih

theorem WorkerPool.stop_eq {pool : WorkerPool} (hpool : 0 < pool.workers) {q : CompletionQueue}
    (hq : .shutdown ∉ q.pending) : pool.stop q w = (⟨0⟩, ⟨[]⟩, w.dispatchAll q.pending) := by
  obtain ⟨k, hk⟩ := Nat.exists_eq_add_one.mpr hpool
  rw [stop, hk]
  rw [World.serve_append_reports hq, World.serve_sentinels]

theorem WorkerPool.stop_of_stopped (q : CompletionQueue) (w : World) :
    WorkerPool.stop ⟨0⟩ q w = (⟨0⟩, q, w) := by
  simp [stop, World.serve]

end Pool

namespace Reactor

/-! ### A stop that is one course of many -/

variable {r : Reactor}

/-- What of a reactor a stop gives. -/
def outcome (r : Reactor) : WorkerPool × CompletionQueue × World := (r.pool, r.port, r.world)

theorem after_sentinels {k : Nat} (howed : r.owed = k) :
    (after next r (List.replicate k .sentinel)).threads = r.threads ∧
      (after next r (List.replicate k .sentinel)).outcome =
        (r.pool, ⟨r.port.pending ++ List.replicate k .shutdown⟩, r.world) := by
  induction k generalizing r with
  | zero =>
    rw [List.replicate_zero, List.replicate_zero, List.append_nil]
    exact ⟨rfl, rfl⟩
  | succ k ih =>
    obtain ⟨hthreads, houtcome⟩ := ih (r := r.next .sentinel) (by rw [next_sentinel_of_owed howed])
    rw [List.replicate_succ, after, List.foldl_cons]
    refine ⟨hthreads.trans ?_, houtcome.trans ?_⟩
    · rw [next_sentinel_of_owed howed]
    · rw [next_sentinel_of_owed howed, List.replicate_succ]
      simp [CompletionQueue.post]

/-- One thread, which waits among others, takes the oldest completion and deals with it. -/
theorem after_take_handle {i : Nat} {c : Completion} {rest : List Completion}
    (hi : r.threads[i]? = some .waiting) (hpending : r.port.pending = c :: rest) :
    after next r [.take i, .handle i] =
      ({ r with
          port := ⟨rest⟩
          threads := r.threads.set i (.holding c)
          taken := r.taken ++ [(i, c)] } : Reactor).dispatch i c := by
  have hin : i < r.threads.length := (List.getElem?_eq_some_iff.mp hi).1
  have htook : r.next (.take i) = r.take i := if_pos hi
  have hholds : (r.threads.set i (.holding c))[i]? = some (.holding c) := List.getElem?_set_self hin
  change (r.next (.take i)).next (.handle i) = _
  rw [htook, take_of_pending hpending, next]
  dsimp only
  rw [hholds]

theorem after_serve_nothing {k : Nat} (h : r.world.serve k r.port.pending = (r.world, r.port.pending)) :
    ∃ steps, (after next r steps).outcome =
      (r.pool, ⟨(r.world.serve k r.port.pending).2⟩, (r.world.serve k r.port.pending).1) := by
  refine ⟨[], ?_⟩
  rw [h]
  rfl

/-- Threads of which each begins when the one before it is gone serve the port as a pool does. -/
theorem after_serve {g k : Nat} {cs : List Completion} (hpending : r.port.pending = cs)
    (hthreads : r.threads = List.replicate g .gone ++ List.replicate k .waiting) :
    ∃ steps, (after next r steps).outcome =
      (r.pool, ⟨(r.world.serve k cs).2⟩, (r.world.serve k cs).1) := by
  induction cs generalizing r g k with
  | nil =>
    rw [← hpending]
    apply after_serve_nothing
    rw [hpending]
    cases k <;> rfl
  | cons c rest ih =>
    cases k with
    | zero =>
      rw [← hpending]
      exact after_serve_nothing (by rw [World.serve])
    | succ k =>
      have hwaiting : r.threads = List.replicate g .gone ++ .waiting :: List.replicate k .waiting :=
        hthreads
      have hi : r.threads[g]? = some .waiting := by simp [hwaiting]
      have hset : ∀ t : Thread, (r.threads.set g (.holding c)).set g t =
          List.replicate g .gone ++ t :: List.replicate k .waiting := by
        intro t
        simp [hwaiting]
      have hfirst := after_take_handle hi hpending
      -- the thread is gone now, or it waits again
      by_cases hc : c = .shutdown
      · subst hc
        rw [dispatch_eq] at hfirst
        have hgone : List.replicate g .gone ++ .gone :: List.replicate k .waiting =
            List.replicate (g + 1) Thread.gone ++ List.replicate k .waiting := by
          simp [List.replicate_succ']
        obtain ⟨steps, hrest⟩ := ih (r := after next r [.take g, .handle g]) (by rw [hfirst])
          (by rw [hfirst]; exact (hset .gone).trans hgone)
        refine ⟨[.take g, .handle g] ++ steps, ?_⟩
        rw [after_append, hrest, hfirst]
        rfl
      · have hone : reports [c] = [c] := by simp [reports, hc]
        rw [dispatch_eq, hone, Thread.freed, if_neg hc] at hfirst
        obtain ⟨steps, hrest⟩ := ih (r := after next r [.take g, .handle g]) (g := g) (k := k + 1)
          (by rw [hfirst]) (by rw [hfirst]; exact hset .waiting)
        refine ⟨[.take g, .handle g] ++ steps, ?_⟩
        rw [after_append, hrest, hfirst, World.serve, r.world.dispatch_report hc]
        rfl

/-- **What a stop gives is what one course of it gives.** -/
theorem stop_is_a_course (howed : r.owed = 0)
    (hthreads : r.threads = List.replicate r.pool.workers .waiting) :
    ∃ steps, (after next r (.stop :: steps)).outcome = r.pool.stop r.port r.world := by
  have howing : (r.next .stop).owed = r.pool.workers := by
    change r.owed + r.pool.workers = _
    rw [howed, Nat.zero_add]
  obtain ⟨hsame, hposted⟩ := after_sentinels howing
  obtain ⟨hpool, hport, hworld⟩ := Prod.mk.inj hposted |>.imp_right Prod.mk.inj
  obtain ⟨steps, hserved⟩ := after_serve (g := 0) rfl (hsame.trans hthreads)
  refine ⟨List.replicate r.pool.workers .sentinel ++ steps, ?_⟩
  rw [after, List.foldl_cons, ← after, after_append, hserved, hpool, hport, hworld]
  rfl

/-! ### Stopping the pool -/

/-- Whatever is posted to a pool that has been started, and whoever takes it, nobody takes more than
    one sentinel, and a stop posts as many as there are threads; a second one changes nothing.  A time
    when nobody has anything to do comes only when all threads are gone, and once the sentinels are
    posted it is only so many steps away.  When all are gone each has taken a sentinel, and none is
    left; what was posted before the stop, or since but before the last sentinel, which is the one
    that came after one for every other thread, was dispatched once; and what was posted behind that
    waits.  The world is what came of what was dispatched. -/
theorem stopping_loses_nothing (w : World) (count : Nat) (steps : List Step) :
    let pool := WorkerPool.start count
    let r := after next (start w pool) steps
    r.threads.length = pool.workers ∧
    (∀ i t, r.threads[i]? = some t → r.taken.count (i, .shutdown) = t.leaving.toNat) ∧
    (.stop ∈ steps → r.posted.count .shutdown + r.owed = pool.workers ∧ r.next .stop = r) ∧
    (∀ step, step.ofThread = true → r.ready step = false → r.next step = r) ∧
    (.stop ∈ steps → (∀ step, r.ready step = false) → ∀ t ∈ r.threads, t = .gone) ∧
    (.stop ∈ steps → r.owed = 0 → ∀ more,
      Along next (fun r step => step.ofThread = true → r.ready step = true) r more →
        more.countP Step.ofThread ≤ r.toDo) ∧
    ((∀ t ∈ r.threads, t = .gone) →
      (∀ i < pool.workers, r.taken.count (i, .shutdown) = 1) ∧ .shutdown ∉ r.port.pending ∧
      ∃ before between behind, steps = before ++ .stop :: (between ++ .sentinel :: behind) ∧
        .stop ∉ before ∧ between.count .sentinel + 1 = pool.workers ∧
        r.dispatched.Perm (reported before ++ reported between) ∧
        r.port.pending = reported behind) ∧
    r.world = w.dispatchAll r.dispatched ∧
    (∀ q : CompletionQueue, .shutdown ∉ q.pending →
      pool.stop q w = (⟨0⟩, ⟨[]⟩, w.dispatchAll q.pending)) ∧
    (∀ q q' w', (pool.stop q w).1.stop q' w' = ((pool.stop q w).1, q', w')) := by
  intro pool r
  have hpool : 0 < pool.workers := Nat.lt_of_lt_of_le Nat.zero_lt_one (Nat.le_max_right count 1)
  have h : Sound w pool.workers r := (sound_start w hpool).after steps
  have hcourse : Course pool.workers steps r := by
    have hstart : Course pool.workers [] (start w pool) := .running nofun rfl rfl rfl
    exact hstart.after hpool steps
  have hasked : .stop ∈ steps → r.pool.workers = 0 := by
    intro hstop
    cases hcourse with
    | running unasked pool owed posted => exact absurd hstop unasked
    | stopping course first pool owed paid posted => exact pool
    | stopped course first pool owed paid posted reported => exact pool
  refine ⟨h.crew, ?_, ?_, fun _ => next_of_not_ready, ?_, ?_, ?_, h.world,
    fun q hq => WorkerPool.stop_eq hpool hq, ?_⟩
  · intro i t ht
    exact h.each i _ (leaving_at ht)
  · intro hstop
    refine ⟨?_, next_stop_of_stopped (hasked hstop)⟩
    have hbalance := h.balance
    rwa [hasked hstop, Nat.add_zero] at hbalance
  · intro hstop hnothing t ht
    by_contra hthere
    obtain ⟨step, hready⟩ := h.exists_ready (hasked hstop) ⟨t, ht, hthere⟩
    rw [hnothing step] at hready
    cases hready
  · intro hstop howed
    exact h.countP_le_toDo ⟨hasked hstop, howed⟩
  · intro hgone
    obtain ⟨hone, before, between, behind, hsteps, hfirst, hlast, hdone, hpending⟩ :=
      h.finished hpool hcourse hgone
    refine ⟨hone, ?_, before, between, behind, hsteps, hfirst, hlast, hdone, hpending⟩
    rw [hpending]
    exact not_mem_reported behind
  · intro q q' w'
    exact WorkerPool.stop_of_stopped q' w'

/-- Two threads: the first takes both what was posted before the stop and a sentinel, the second
    what came between the sentinels; the last completion comes too late. -/
def lastReports : List Step :=
  [.post ⟨.sent ⟨1⟩ 4, nofun⟩, .take 0, .post ⟨.received ⟨1⟩ [], nofun⟩, .stop, .handle 0, .take 0,
    .sentinel, .post ⟨.failed ⟨2⟩ .send, nofun⟩, .handle 0, .take 0, .stop, .sentinel,
    .post ⟨.sent ⟨1⟩ 9, nofun⟩, .take 1, .handle 0, .take 0, .handle 1, .take 1, .handle 1]

theorem stopping_loses_nothing_two_threads :
    let r := after next (start {} (.start 2)) lastReports
    r.threads = [.gone, .gone] ∧
    r.dispatched = [.sent ⟨1⟩ 4, .received ⟨1⟩ [], .failed ⟨2⟩ .send] ∧
    r.port.pending = [.sent ⟨1⟩ 9] ∧
    r.taken.count (0, .shutdown) = 1 ∧ r.taken.count (1, .shutdown) = 1 ∧ r.next .stop = r := by
  intro r
  have hgone : r.threads = [.gone, .gone] := by decide
  obtain ⟨-, -, hstop, -, -, -, hleft, -⟩ := stopping_loses_nothing {} 2 lastReports
  obtain ⟨hone, -⟩ := hleft (by rw [hgone]; decide)
  exact ⟨hgone, by decide, by decide, hone 0 (by decide), hone 1 (by decide),
    (hstop (by decide)).2⟩

end Reactor

end GameServer
