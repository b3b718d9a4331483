import GameServer.Proofs.Run
import GameServer.Store.Gateway

/-!
The workers of the gateway, and why no request is lost or done twice.

Any number of workers share one queue.  A worker that comes to the lock takes the oldest
request, or waits if there is none; only if the gateway has also stopped does it leave for good.
Others may hold requests at that moment, and callers may still be posting, but nothing that is
accepted can come behind it: nothing waits, and a gateway that has stopped accepts nothing.

A crew keeps the record of what was accepted, what was taken from the queue and what was done,
each in its order.  `Conserved` ties the records together.
-/

namespace GameServer

/-! ### Workers -/

inductive Worker where
  | idle
  /-- The worker holds a request that it took from the queue. -/
  | busy (r : StoreRequest)
  | gone
deriving DecidableEq, Repr

def Worker.request? : Worker → Option StoreRequest
  | busy r => some r
  | idle | gone => none

/-- The session that waits to hear how its registration ended. -/
def StoreRequest.registrant? : StoreRequest → Option SessionId
  | register session .. => some session
  | saveChat _ => none

namespace Gateway

def performAll : Database → List StoreRequest → Database × List Registration
  | d, [] => (d, [])
  | d, r :: rest =>
    let (d, outcome) := perform d r
    let (d, later) := performAll d rest
    (d, outcome.toList ++ later)

theorem performAll_concat (d : Database) (rs : List StoreRequest) (r : StoreRequest) :
    performAll d (rs ++ [r]) =
      ((perform (performAll d rs).1 r).1,
        (performAll d rs).2 ++ (perform (performAll d rs).1 r).2.toList) := by
  induction rs generalizing d with
  | nil => simp [performAll]
  | cons first rest ih => simp [performAll, ih, List.append_assoc]

/-- A registration is reported to whoever asked for it, however it ended. -/
theorem session_perform (d : Database) (r : StoreRequest) :
    (perform d r).2.map Registration.session = r.registrant? := by
  cases r <;> rfl

theorem session_performAll (d : Database) (rs : List StoreRequest) :
    (performAll d rs).2.map Registration.session = rs.filterMap StoreRequest.registrant? := by
  induction rs generalizing d with
  | nil => rfl
  | cons r rest ih =>
    simp only [performAll, List.map_append, ih, ← Option.toList_map, session_perform,
      List.filterMap_cons]
    cases r.registrant? <;> rfl

theorem workFor_length (g : Gateway) :
    workFor g.pending.length g =
      ({ g with database := (performAll g.database g.pending).1, pending := [] },
        (performAll g.database g.pending).2) := by
  obtain ⟨settings, database, cache, pending, running⟩ := g
  induction pending generalizing database with
  | nil => rfl
  | cons r rest ih => simp [workFor, take?, performAll, ih]

/-- A gateway that carries out everything that waits does so in its order. -/
theorem work_eq (g : Gateway) :
    g.work =
      ({ g with database := (performAll g.database g.pending).1, pending := [] },
        (performAll g.database g.pending).2) :=
  g.workFor_length

end Gateway

/-- A gateway with its workers, and the record of what became of its requests. -/
structure Crew where
  gateway : Gateway
  workers : List Worker
  accepted : List StoreRequest := []
  taken : List StoreRequest := []
  handled : List StoreRequest := []
  reported : List Registration := []

namespace Crew

inductive Step where
  | post (r : StoreRequest)
  | stop
  /-- A worker comes to the lock: it takes the oldest request, or it leaves, or it waits. -/
  | look (i : Nat)
  /-- A worker carries out the request that it holds. -/
  | handle (i : Nat)
deriving DecidableEq, Repr

def inHand (c : Crew) : List StoreRequest := c.workers.filterMap Worker.request?

/-- What a worker does that is idle when it comes to the lock. -/
def lookAt (c : Crew) (i : Nat) : Crew :=
  match c.gateway.take? with
  | some (r, gateway) =>
    { c with gateway, workers := c.workers.set i (.busy r), taken := c.taken ++ [r] }
  | none => if c.gateway.running then c else { c with workers := c.workers.set i .gone }

/-- A worker carries out a request, and tells how it ended if somebody waits for it. -/
def carryOut (c : Crew) (i : Nat) (r : StoreRequest) : Crew :=
  let (database, outcome) := Gateway.perform c.gateway.database r
  { c with
    gateway := { c.gateway with database }
    workers := c.workers.set i .idle
    handled := c.handled ++ [r]
    reported := c.reported ++ outcome.toList }

/-- What a step makes of a crew.  A worker that is not there, or not ready for it, does nothing. -/
def next (c : Crew) : Step → Crew
  | .post r =>
    match c.gateway.post? r with
    | some gateway => { c with gateway, accepted := c.accepted ++ [r] }
    | none => c
  | .stop => { c with gateway := c.gateway.stop }
  | .look i => if c.workers[i]? = some .idle then c.lookAt i else c
  | .handle i =>
    match c.workers[i]? with
    | some (.busy r) => c.carryOut i r
    | _ => c

/-- The workers of a gateway before any of them has come to the lock. -/
def start (g : Gateway) (n : Nat) : Crew :=
  { gateway := g, workers := List.replicate n .idle }

section Steps

variable {c : Crew} {i : Nat} {r : StoreRequest} {rest : List StoreRequest}

theorem next_post_of_running (h : c.gateway.running = true) :
    c.next (.post r) =
      { c with
        gateway := { c.gateway with pending := c.gateway.pending ++ [r] }
        accepted := c.accepted ++ [r] } := by
  simp [next, Gateway.post?, h]

theorem post?_of_stopped (h : c.gateway.running = false) : c.gateway.post? r = none := by
  simp [Gateway.post?, h]

theorem next_post_of_stopped (h : c.gateway.running = false) : c.next (.post r) = c := by
  simp [next, post?_of_stopped h]

/-- **Whoever takes, takes the oldest request.** -/
theorem lookAt_of_pending (h : c.gateway.pending = r :: rest) :
    c.lookAt i =
      { c with
        gateway := { c.gateway with pending := rest }
        workers := c.workers.set i (.busy r)
        taken := c.taken ++ [r] } := by
  simp [lookAt, Gateway.take?, h]

theorem lookAt_of_empty (h : c.gateway.pending = []) :
    c.lookAt i = if c.gateway.running then c else { c with workers := c.workers.set i .gone } := by
  simp [lookAt, Gateway.take?, h]

end Steps

/-! ### Requests change hands -/

/-- Putting something else in a place trades what the place contributed. -/
theorem perm_filterMap_set {α β : Type} (f : α → Option β) {l : List α} {i : Nat} {a : α}
    (ha : l[i]? = some a) (b : α) :
    ((l.set i b).filterMap f ++ (f a).toList).Perm (l.filterMap f ++ (f b).toList) := by
  have hcons : ∀ (x : α) (rest : List α),
      (x :: rest).filterMap f = (f x).toList ++ rest.filterMap f := by
    intro x rest
    rw [List.filterMap_cons]
    cases f x <;> rfl
  induction l generalizing i with
  | nil => cases ha
  | cons x rest ih =>
    cases i with
    | zero =>
      obtain rfl := Option.some.inj ha
      rw [List.set_cons_zero, hcons, hcons, List.append_assoc, List.append_assoc]
      calc (f b).toList ++ (rest.filterMap f ++ (f x).toList)
        _ |>.Perm (rest.filterMap f ++ (f x).toList ++ (f b).toList) := List.perm_append_comm
        _ = rest.filterMap f ++ ((f x).toList ++ (f b).toList) := List.append_assoc ..
        _ |>.Perm ((f x).toList ++ (rest.filterMap f ++ (f b).toList)) :=
          List.perm_append_comm_assoc ..
    | succ i =>
      rw [List.set_cons_succ, hcons, hcons, List.append_assoc, List.append_assoc]
      exact (ih ha).append_left _

theorem eq_singleton_of_length {α : Type} {l : List α} {i : Nat} {a : α} (hone : l.length = 1)
    (ha : l[i]? = some a) : l = [a] ∧ i = 0 := by
  obtain ⟨b, rfl⟩ := List.length_eq_one_iff.mp hone
  cases i with
  | zero => exact ⟨congrArg (fun x => [x]) (Option.some.inj ha), rfl⟩
  | succ i => cases ha

/-! ### The records agree -/

/-- What was accepted was taken or waits; what was taken was done or is in somebody's hands; the
    database and the reports are what came of what was done; and once a worker has left, nothing
    is accepted any more and nothing waits. -/
structure Conserved (first : Database) (c : Crew) : Prop where
  order : c.taken ++ c.gateway.pending = c.accepted
  hands : (c.handled ++ c.inHand).Perm c.taken
  outcomes : (c.gateway.database, c.reported) = Gateway.performAll first c.handled
  left : .gone ∈ c.workers → c.gateway.running = false ∧ c.gateway.pending = []
  /-- A worker that is alone keeps the order. -/
  alone : c.workers.length = 1 → c.handled ++ c.inHand = c.taken

variable {first : Database} {c : Crew} {i : Nat} {r : StoreRequest}

theorem Conserved.post (h : Conserved first c) (r : StoreRequest) :
    Conserved first (c.next (.post r)) := by
  cases hrunning : c.gateway.running with
  | false => rwa [next_post_of_stopped hrunning]
  | true =>
    rw [next_post_of_running hrunning]
    refine ⟨?_, h.hands, h.outcomes, ?_, h.alone⟩
    · rw [← h.order, List.append_assoc]
    · -- while the gateway runs nobody has left
      intro hgone
      exact absurd (hrunning.symm.trans (h.left hgone).1) nofun

theorem Conserved.stop (h : Conserved first c) : Conserved first (c.next .stop) :=
  ⟨h.order, h.hands, h.outcomes, fun hgone => ⟨rfl, (h.left hgone).2⟩, h.alone⟩

theorem Conserved.lookAt (h : Conserved first c) (hidle : c.workers[i]? = some .idle) :
    Conserved first (c.lookAt i) := by
  cases hpending : c.gateway.pending with
  | nil =>
    rw [lookAt_of_empty hpending]
    split
    · exact h
    · next hstopped =>
      -- the worker leaves with empty hands
      have hhands : ((c.workers.set i .gone).filterMap Worker.request?).Perm c.inHand := by
        simpa [Worker.request?, inHand] using perm_filterMap_set Worker.request? hidle .gone
      refine ⟨h.order, (hhands.append_left _).trans h.hands, h.outcomes, ?_, ?_⟩
      · intro _
        exact ⟨by simpa using hstopped, hpending⟩
      · intro hone
        rw [List.length_set] at hone
        obtain ⟨hall, rfl⟩ := eq_singleton_of_length hone hidle
        have halone := h.alone hone
        simp only [inHand, hall, List.filterMap_cons, Worker.request?, List.filterMap_nil] at halone
        simpa [inHand, hall, List.filterMap_cons, Worker.request?] using halone
  | cons r rest =>
    rw [lookAt_of_pending hpending]
    have hhands : ((c.workers.set i (.busy r)).filterMap Worker.request?).Perm (c.inHand ++ [r]) := by
      simpa [Worker.request?, inHand] using perm_filterMap_set Worker.request? hidle (.busy r)
    refine ⟨?_, ?_, h.outcomes, ?_, ?_⟩
    · rw [← h.order, hpending, List.append_assoc]
      rfl
    · apply (hhands.append_left _).trans
      rw [← List.append_assoc]
      exact h.hands.append_right [r]
    · -- with a request waiting nobody has left
      intro hgone
      rcases List.mem_or_eq_of_mem_set hgone with hbefore | heq
      · exact absurd (hpending.symm.trans (h.left hbefore).2) nofun
      · cases heq
    · intro hone
      rw [List.length_set] at hone
      obtain ⟨hall, rfl⟩ := eq_singleton_of_length hone hidle
      have halone := h.alone hone
      simp only [inHand, hall, List.filterMap_cons, Worker.request?, List.filterMap_nil,
        List.append_nil] at halone
      simp [inHand, hall, halone, Worker.request?]

theorem Conserved.carryOut (h : Conserved first c) (hbusy : c.workers[i]? = some (.busy r)) :
    Conserved first (c.carryOut i r) := by
  have hhands : ((c.workers.set i .idle).filterMap Worker.request? ++ [r]).Perm c.inHand := by
    simpa [Worker.request?, inHand] using perm_filterMap_set Worker.request? hbusy .idle
  refine ⟨h.order, ?_, ?_, ?_, ?_⟩
  · refine List.Perm.trans ?_ h.hands
    change (c.handled ++ [r] ++ _).Perm (c.handled ++ c.inHand)
    rw [List.append_assoc]
    exact (List.perm_append_comm.trans hhands).append_left _
  · have hhandled : (c.carryOut i r).handled = c.handled ++ [r] := rfl
    rw [hhandled, Gateway.performAll_concat, ← h.outcomes]
    rfl
  · intro hgone
    rcases List.mem_or_eq_of_mem_set hgone with hbefore | heq
    · exact h.left hbefore
    · cases heq
  · intro hone
    have hlength : c.workers.length = 1 := by
      rw [← hone]
      exact (List.length_set ..).symm
    obtain ⟨hall, rfl⟩ := eq_singleton_of_length hlength hbusy
    have halone := h.alone hlength
    simp only [inHand, hall, List.filterMap_cons, Worker.request?, List.filterMap_nil] at halone
    simp [Crew.carryOut, inHand, hall, halone, Worker.request?]

/-- **Every step keeps the records in agreement.** -/
theorem Conserved.next (h : Conserved first c) (step : Step) :
    Conserved first (c.next step) := by
  cases step with
  | post r => exact h.post r
  | stop => exact h.stop
  | look i =>
    simp only [Crew.next]
    split
    · next hidle => exact h.lookAt hidle
    · exact h
  | handle i =>
    simp only [Crew.next]
    split
    · next r hbusy => exact h.carryOut hbusy
    · exact h

theorem conserved_start {g : Gateway} (hempty : g.pending = []) (n : Nat) :
    Conserved g.database (start g n) := by
  have hnobody : (start g n).inHand = [] := by
    simp [inHand, start, List.filterMap_replicate, Worker.request?]
  refine ⟨?_, ?_, rfl, ?_, ?_⟩
  · simp [start, hempty]
  · rw [hnobody]
    exact .refl _
  · intro hgone
    cases List.eq_of_mem_replicate hgone
  · intro _
    rw [hnobody]
    rfl

theorem Conserved.after (h : Conserved first c) (steps : List Step) :
    Conserved first (after Crew.next c steps) := by
  induction steps generalizing c with
  | nil => exact h
  | cons step rest ih => exact ih (h.next step)

/-! ### What is accepted -/

def Step.request? : Step → Option StoreRequest
  | post r => some r
  | stop | look _ | handle _ => none

/-- What a worker cannot change: whether the gateway runs, what it accepted, and how many workers
    it has. -/
structure SameFront (c d : Crew) : Prop where
  running : d.gateway.running = c.gateway.running
  accepted : d.accepted = c.accepted
  crew : d.workers.length = c.workers.length

theorem SameFront.refl (c : Crew) : SameFront c c := ⟨rfl, rfl, rfl⟩

theorem SameFront.look (c : Crew) (i : Nat) : SameFront c (c.next (.look i)) := by
  simp only [next]
  split
  · cases hpending : c.gateway.pending with
    | nil =>
      rw [lookAt_of_empty hpending]
      split
      · exact .refl c
      · exact ⟨rfl, rfl, List.length_set⟩
    | cons r rest =>
      rw [lookAt_of_pending hpending]
      exact ⟨rfl, rfl, List.length_set⟩
  · exact .refl c

theorem SameFront.handle (c : Crew) (i : Nat) : SameFront c (c.next (.handle i)) := by
  simp only [next]
  split
  · exact ⟨rfl, rfl, List.length_set⟩
  · exact .refl c

theorem running_next (c : Crew) (step : Step) :
    (c.next step).gateway.running = (c.gateway.running && step != .stop) := by
  cases step with
  | post r =>
    cases hrunning : c.gateway.running with
    | false => rw [next_post_of_stopped hrunning, hrunning, Bool.false_and]
    | true =>
      rw [next_post_of_running hrunning]
      exact hrunning
  | stop => simp [next, Gateway.stop]
  | look i => simp [(SameFront.look c i).running]
  | handle i => simp [(SameFront.handle c i).running]

theorem accepted_next (c : Crew) (step : Step) :
    (c.next step).accepted =
      c.accepted ++ if c.gateway.running then step.request?.toList else [] := by
  cases step with
  | post r =>
    cases hrunning : c.gateway.running with
    | false => simp [next_post_of_stopped hrunning]
    | true => simp [next_post_of_running hrunning, Step.request?]
  | stop => simp [next, Step.request?]
  | look i => simp [(SameFront.look c i).accepted, Step.request?]
  | handle i => simp [(SameFront.handle c i).accepted, Step.request?]

theorem length_workers_next (c : Crew) (step : Step) :
    (c.next step).workers.length = c.workers.length := by
  cases step with
  | post r =>
    cases hrunning : c.gateway.running with
    | false => rw [next_post_of_stopped hrunning]
    | true => rw [next_post_of_running hrunning]
  | stop => rfl
  | look i => exact (SameFront.look c i).crew
  | handle i => exact (SameFront.handle c i).crew

/-- **Once the gateway has stopped, it is stopped for good.** -/
theorem running_after (c : Crew) (steps : List Step) :
    (after next c steps).gateway.running = (c.gateway.running && !steps.contains .stop) := by
  induction steps generalizing c with
  | nil => simp [after]
  | cons step rest ih =>
    have hrest : after next c (step :: rest) = after next (c.next step) rest := rfl
    rw [hrest, ih, running_next, List.contains_cons, Bool.not_or, Bool.and_assoc]
    rw [BEq.comm (a := Step.stop)]
    rfl

/-- What was posted before the gateway stopped. -/
def posted (steps : List Step) : List StoreRequest :=
  (steps.takeWhile (· != .stop)).filterMap Step.request?

/-- **Accepted is what was posted before the gateway stopped.** -/
theorem accepted_after (c : Crew) (steps : List Step) :
    (after next c steps).accepted =
      c.accepted ++ if c.gateway.running then posted steps else [] := by
  induction steps generalizing c with
  | nil => simp [after, posted]
  | cons step rest ih =>
    have hrest : after next c (step :: rest) = after next (c.next step) rest := rfl
    rw [hrest, ih, accepted_next, running_next, List.append_assoc]
    cases c.gateway.running with
    | false => simp
    | true =>
      -- what comes behind the stop counts for nothing
      cases step <;> simp [posted, Step.request?, List.filterMap_cons]

theorem length_workers_after (c : Crew) (steps : List Step) :
    (after next c steps).workers.length = c.workers.length := by
  induction steps generalizing c with
  | nil => rfl
  | cons step rest ih => exact (ih (c.next step)).trans (length_workers_next c step)

/-! ### Nothing lost, nothing done twice -/

theorem inHand_of_gone (hgone : ∀ worker ∈ c.workers, worker = .gone) : c.inHand = [] := by
  refine List.filterMap_eq_nil_iff.mpr ?_
  intro worker hworker
  rw [hgone worker hworker]
  rfl

/-- A gateway that opens with any number of workers accepts what is posted before it stops, and
    refuses the rest.  At any moment each request that it accepted was done once, or is in the
    hands of one worker, or waits; whoever takes one takes the oldest; and when everybody has
    left, everything is done and every registration has been reported once.  A worker that is
    alone does everything in the order in which it was posted. -/
theorem requests_conserved {g : Gateway} (hempty : g.pending = []) (hopen : g.running = true)
    {n : Nat} (hn : 0 < n) (steps : List Step) :
    let c := after next (start g n) steps
    c.accepted = posted steps ∧
    c.accepted.Perm (c.handled ++ c.inHand ++ c.gateway.pending) ∧
    (c.gateway.database, c.reported) = Gateway.performAll g.database c.handled ∧
    (∀ i r rest, c.workers[i]? = some .idle → c.gateway.pending = r :: rest →
      (c.next (.look i)).workers[i]? = some (.busy r) ∧
        (c.next (.look i)).gateway.pending = rest) ∧
    (∀ r, c.gateway.post? r = none ↔ .stop ∈ steps) ∧
    (.stop ∈ steps → ∀ r, c.next (.post r) = c) ∧
    ((∀ worker ∈ c.workers, worker = .gone) →
      c.gateway.pending = [] ∧ c.handled.Perm c.accepted ∧
        (c.reported.map Registration.session).Perm
          (c.accepted.filterMap StoreRequest.registrant?)) ∧
    (n = 1 → c.handled ++ c.inHand ++ c.gateway.pending = c.accepted) := by
  intro c
  have h : Conserved g.database c := (conserved_start hempty n).after steps
  have hrunning : c.gateway.running = !steps.contains .stop := by
    have hafter := running_after (start g n) steps
    rwa [start, hopen, Bool.true_and] at hafter
  have hcrew : c.workers.length = n := by
    rw [length_workers_after, start, List.length_replicate]
  have hall : (c.handled ++ c.inHand ++ c.gateway.pending).Perm c.accepted := by
    rw [← h.order]
    exact h.hands.append_right _
  refine ⟨?_, hall.symm, h.outcomes, ?_, ?_, ?_, ?_, ?_⟩
  · have hafter := accepted_after (start g n) steps
    rwa [start, hopen, if_pos rfl] at hafter
  · intro i r rest hidle hpending
    rw [next, if_pos hidle, lookAt_of_pending hpending]
    have hin : i < c.workers.length := (List.getElem?_eq_some_iff.mp hidle).1
    exact ⟨List.getElem?_set_self hin, rfl⟩
  · intro r
    simp [Gateway.post?, hrunning]
  · intro hstop r
    refine next_post_of_stopped ?_
    simpa [hrunning] using hstop
  · intro hgone
    have hsome : .gone ∈ c.workers := by
      have hfirst := List.getElem_mem (hcrew ▸ hn : 0 < c.workers.length)
      rwa [hgone _ hfirst] at hfirst
    have hwaiting := (h.left hsome).2
    have hdone : c.handled.Perm c.accepted := by
      simpa only [inHand_of_gone hgone, hwaiting, List.append_nil] using hall
    refine ⟨hwaiting, hdone, ?_⟩
    have hreported : c.reported = (Gateway.performAll g.database c.handled).2 :=
      congrArg Prod.snd h.outcomes
    rw [hreported, Gateway.session_performAll]
    exact hdone.filterMap _
  · intro hone
    rw [h.alone (hcrew.trans hone), h.order]

/-- Two workers and the gateway's last moments: one leaves while the other is still at it, and a
    request that came too late is refused. -/
def lastMoments : List Step :=
  [.post (.register ⟨1⟩ "ann" "a"), .look 0, .post (.saveChat ⟨⟨1⟩, "ann", "hi", ⟨5⟩⟩), .look 1,
    .handle 1, .post (.register ⟨2⟩ "ann" "b"), .stop, .post (.saveChat ⟨⟨1⟩, "ann", "ho", ⟨5⟩⟩),
    .look 1, .handle 0, .look 0, .handle 1, .look 1]

theorem requests_conserved_two_workers :
    let c := after next (start {} 2) lastMoments
    c.workers = [.gone, .gone] ∧
    c.accepted = [.register ⟨1⟩ "ann" "a", .saveChat ⟨⟨1⟩, "ann", "hi", ⟨5⟩⟩,
      .register ⟨2⟩ "ann" "b"] ∧
    c.reported = [⟨⟨1⟩, true⟩, ⟨⟨2⟩, false⟩] ∧
    c.gateway.pending = [] ∧ c.handled.Perm c.accepted := by
  have hgone : (after next (start {} 2) lastMoments).workers = [.gone, .gone] := by
    decide +kernel
  obtain ⟨-, -, -, -, -, -, hleft, -⟩ :=
    requests_conserved (g := {}) rfl rfl (n := 2) (by decide) lastMoments
  have hdone := hleft (by rw [hgone]; decide)
  exact ⟨hgone, by decide +kernel, by decide +kernel, hdone.1, hdone.2.1⟩

end Crew

end GameServer
