import GameServer.Proofs.Arming
import GameServer.Proofs.Delivery
import GameServer.Proofs.Letters

/-!
Closing once and for good.

The first disconnect of a session closes its link and takes the name off it; every later one finds
it closed.  So a run falls into three parts: what comes before the first disconnect queues requests
at most, the disconnect itself leaves the `hangUp` of whoever is logged in by then, and what comes
after it queues nothing, even if somebody logs in once more.
-/

namespace GameServer

open Wire

/-! ### Farewells -/

/-- Whether a command was left behind by a session that closed. -/
def Command.isHangUp : Command → Bool
  | .hangUp .. => true
  | .request .. => false

/-- The commands in a queue that closing sessions have left behind. -/
def CommandQueue.farewells (q : CommandQueue) : List Command := q.pending.filter Command.isHangUp

theorem CommandQueue.farewells_offerAll {q : CommandQueue} (hlive : q.live = true)
    (commands : List Command) :
    (q.offerAll commands).farewells = q.farewells ++ commands.filter Command.isHangUp := by
  rw [farewells, pending_offerAll hlive, List.filter_append]
  rfl

namespace Session

/-- The name that an event binds. -/
def Event.name? : Event → Option String
  | .login username => some username
  | _ => none

/-- The name that the last login of a run has bound. -/
def lastName (events : List Event) : Option String := (events.filterMap Event.name?).getLast?

theorem lastName_concat (events : List Event) (e : Event) :
    lastName (events ++ [e]) = e.name?.or (lastName events) := by
  unfold lastName
  rw [List.filterMap_append]
  cases h : e.name? <;> simp [h]

theorem standing_completeSend (s : Session) : s.completeSend.2.standing = s.standing := by
  unfold completeSend
  split <;> exact standing_sendCompleted _

theorem took_completeSend (s : Session) : s.Took [] s.completeSend.2 := by
  unfold completeSend
  split
  · exact took_beginNext s
  · next link hlink =>
    have hpost : { s with link }.post = s.post := by
      unfold Link.complete? at hlink
      split at hlink <;> cases hlink
      rfl
    exact (took_of_post_eq hpost).trans (took_beginNext _)

/-- What closing an open session leaves in the queue. -/
theorem parting_of_open {s : Session} (hopen : s.closed = false) :
    s.badge.parting = if s.loggedIn = true then [.hangUp s.id s.name] else [] := by
  unfold Badge.parting badge loggedIn name
  rw [hopen]
  cases s.user <;> rfl

namespace Course

/-- What an event tells, if it is a disconnect: whether it closes the session. -/
def verdict? (c : Course) : Event → Option Bool
  | .disconnect => some (c.session.disconnect c.queue).2.2
  | _ => none

/-- What the disconnects of a run tell, in their order. -/
def verdicts : Course → List Event → List Bool
  | _, [] => []
  | c, e :: rest => (c.verdict? e).toList ++ verdicts (c.next e) rest

theorem verdict?_of_ne {c : Course} {e : Event} (h : e ≠ .disconnect) : c.verdict? e = none := by
  cases e with
  | disconnect => exact absurd rfl h
  | _ => rfl

theorem verdicts_append (c : Course) (before later : List Event) :
    c.verdicts (before ++ later) =
      c.verdicts before ++ (after next c before).verdicts later := by
  induction before generalizing c with
  | nil => rfl
  | cons e rest ih =>
    rw [List.cons_append, verdicts, verdicts, ih, List.append_assoc]
    rfl

/-! ### One event -/

/-- What is neither a disconnect nor a login nor a logout leaves everybody logged in, and a frame
    that is refused leaves everything. -/
theorem user_next (c : Course) {e : Event} (hstays : e ≠ .disconnect) :
    (c.next e).session.user =
      match e with
      | .login username => some username
      | .logout => none
      | _ => c.session.user := by
  have henqueue : ∀ packet body,
      (c.next (.enqueue packet body)).session.user = c.session.user := by
    intro packet body
    simp only [next]
    cases h : c.session.enqueue packet body with
    | error cause => rfl
    | ok t => exact congrArg Standing.user (standing_enqueue h)
  cases e with
  | receive tolerant chunk => exact congrArg Standing.user (standing_receive ..)
  | enqueue packet body => exact henqueue packet body
  | send r => exact henqueue r.packet r.body
  | finishSend => exact congrArg Standing.user c.session.standing_completeSend
  | disconnect => exact absurd rfl hstays
  | start | login | logout | setRoom => rfl

/-- What is no disconnect queues requests of the session at most. -/
theorem queue_next (c : Course) {e : Event} (hstays : e ≠ .disconnect) :
    ∃ requests : List Request,
      (c.next e).queue = c.queue.offerAll (requests.map (.request c.session.id)) := by
  cases e with
  | receive tolerant chunk => exact c.session.receive_requests tolerant chunk c.queue
  | disconnect => exact absurd rfl hstays
  | start | enqueue | send | finishSend | login | logout | setRoom =>
    exact ⟨[], c.queue.offerAll_nil.symm⟩

/-- The number of a session never changes, and its link is closed as often as the session is. -/
theorem id_closes_next (c : Course) (e : Event) :
    (c.next e).session.id = c.session.id ∧
      (c.next e).session.link.closes + c.session.closed.toNat =
        c.session.link.closes + (c.next e).session.closed.toNat := by
  have henqueue : ∀ packet body,
      let t := (c.next (.enqueue packet body)).session
      t.id = c.session.id ∧
        t.link.closes + c.session.closed.toNat = c.session.link.closes + t.closed.toNat := by
    intro packet body
    simp only [next]
    cases h : c.session.enqueue packet body with
    | error cause => exact ⟨rfl, rfl⟩
    | ok t =>
      have hstanding := standing_enqueue h
      refine ⟨congrArg Standing.id hstanding, ?_⟩
      simp only [Except.toOption, Option.getD_some, closes_enqueue h,
        closed_of_standing_eq hstanding]
  have htook : ∀ {t : Session}, c.session.Took [] t → t.id = c.session.id ∧
      t.link.closes + c.session.closed.toNat = c.session.link.closes + t.closed.toNat :=
    fun h => ⟨h.id, h.closes⟩
  cases e with
  | receive tolerant chunk => exact htook (took_receive ..)
  | enqueue packet body => exact henqueue packet body
  | send r => exact henqueue r.packet r.body
  | finishSend => exact htook (took_completeSend c.session)
  | disconnect => exact htook (took_disconnect c.session c.queue)
  | start | login | logout | setRoom => exact ⟨rfl, rfl⟩

/-! ### Before the first disconnect -/

section Before

variable {c : Course} {events : List Event}

theorem live_next (c : Course) (e : Event) : (c.next e).queue.live = c.queue.live := by
  by_cases hstays : e = .disconnect
  · subst hstays
    exact (congrArg CommandQueue.live (c.session.queue_disconnect c.queue)).trans
      (CommandQueue.live_offerAll ..)
  · obtain ⟨requests, hqueue⟩ := c.queue_next hstays
    rw [hqueue, CommandQueue.live_offerAll]

theorem live_after (c : Course) (events : List Event) :
    (after next c events).queue.live = c.queue.live := by
  induction events generalizing c with
  | nil => rfl
  | cons e rest ih => exact (ih (c.next e)).trans (c.live_next e)

/-- Whoever is logged in is the one who has logged in last. -/
theorem user_before (hnobody : c.session.user = none) (hstays : .disconnect ∉ events)
    {username : String} (huser : (after next c events).session.user = some username) :
    lastName events = some username := by
  induction events using List.reverseRecOn generalizing username with
  | nil => exact absurd (hnobody.symm.trans huser) nofun
  | append_singleton rest e ih =>
    have hrest : .disconnect ∉ rest := fun h => hstays (List.mem_append_left _ h)
    have hlast : e ≠ .disconnect := by
      rintro rfl
      exact hstays List.mem_concat_self
    rw [after_append] at huser
    have hstep := (after next c rest).user_next hlast
    change ((after next c rest).next e).session.user = some username at huser
    rw [lastName_concat]
    rw [hstep] at huser
    cases e with
    | login name => exact huser
    | logout => cases huser
    | disconnect => exact absurd rfl hlast
    | start | receive | enqueue | send | finishSend | setRoom => exact ih hrest huser

/-- No farewell is said before the session closes. -/
theorem farewells_before (hlive : c.queue.live = true) (hstays : .disconnect ∉ events) :
    (after next c events).queue.farewells = c.queue.farewells := by
  induction events generalizing c with
  | nil => rfl
  | cons e rest ih =>
    obtain ⟨hfirst, hrest⟩ := not_or.mp (List.mem_cons.not.mp hstays)
    obtain ⟨requests, hqueue⟩ := c.queue_next (Ne.symm hfirst)
    have hnone : (requests.map (Command.request c.session.id)).filter Command.isHangUp = [] := by
      simp [Command.isHangUp]
    have hstep : (c.next e).queue.farewells = c.queue.farewells := by
      rw [hqueue, CommandQueue.farewells_offerAll hlive, hnone, List.append_nil]
    exact (ih ((c.live_next e).trans hlive) hrest).trans hstep

theorem verdicts_before (hstays : .disconnect ∉ events) : c.verdicts events = [] := by
  induction events generalizing c with
  | nil => rfl
  | cons e rest ih =>
    obtain ⟨hfirst, hrest⟩ := not_or.mp (List.mem_cons.not.mp hstays)
    rw [verdicts, ih hrest, verdict?_of_ne (Ne.symm hfirst)]
    rfl

end Before

/-! ### After it -/

section Closed

variable {c : Course}

/-- A closed session queues nothing. -/
theorem queue_next_closed (hclosed : c.session.closed = true) (e : Event) :
    (c.next e).queue = c.queue := by
  cases e with
  | receive tolerant chunk => simp only [next, receive_of_closed hclosed]
  | disconnect => simp only [next, disconnect_of_closed hclosed]
  | start | enqueue | send | finishSend | login | logout | setRoom => rfl

theorem queue_after_closed (hclosed : c.session.closed = true) (events : List Event) :
    (after next c events).queue = c.queue := by
  induction events generalizing c with
  | nil => rfl
  | cons e rest ih =>
    have hstill := (c.closed_next e).mpr (.inl hclosed)
    exact (ih hstill).trans (queue_next_closed hclosed e)

theorem verdicts_closed (hclosed : c.session.closed = true) (events : List Event) :
    c.verdicts events = List.replicate (events.count .disconnect) false := by
  induction events generalizing c with
  | nil => rfl
  | cons e rest ih =>
    rw [verdicts, ih ((c.closed_next e).mpr (.inl hclosed))]
    by_cases hfirst : e = .disconnect
    · subst hfirst
      rw [verdict?, disconnect_of_closed hclosed, List.count_cons_self, List.replicate_succ]
      rfl
    · rw [verdict?_of_ne hfirst, List.count_cons_of_ne hfirst]
      rfl

end Closed

/-! ### A whole run -/

section Run

variable {c : Course} {events : List Event}

theorem closes_after (c : Course) (events : List Event) :
    (after next c events).session.id = c.session.id ∧
      (after next c events).session.link.closes + c.session.closed.toNat =
        c.session.link.closes + (after next c events).session.closed.toNat := by
  induction events generalizing c with
  | nil => exact ⟨rfl, rfl⟩
  | cons e rest ih =>
    obtain ⟨hid, hcloses⟩ := c.id_closes_next e
    obtain ⟨hid', hcloses'⟩ := ih (c.next e)
    refine ⟨hid'.trans hid, ?_⟩
    change (after next (c.next e) rest).session.link.closes + _ =
      _ + (after next (c.next e) rest).session.closed.toNat
    omega

/-- A run in which the session is closed goes on behind the first disconnect. -/
theorem split_first (hcloses : .disconnect ∈ events) :
    ∃ later, events = events.takeWhile (· ≠ .disconnect) ++ .disconnect :: later := by
  obtain ⟨before, later, rfl, hbefore⟩ := List.eq_append_cons_of_mem hcloses
  have hall : ∀ e ∈ before, decide (e ≠ Event.disconnect) = true := by
    intro e he
    rw [decide_eq_true_iff]
    rintro rfl
    exact hbefore he
  have htake : (before ++ .disconnect :: later).takeWhile (· ≠ .disconnect) = before := by
    rw [List.takeWhile_append_of_pos hall]
    simp
  rw [htake]
  exact ⟨later, rfl⟩

/-- **The first disconnect** closes the session and leaves the name of whoever is logged in; it is
    the only one to do anything. -/
theorem of_first (hopen : c.session.closed = false) (later : List Event) :
    (after next (c.next .disconnect) later).queue = c.queue.offerAll c.session.badge.parting ∧
      c.verdicts (.disconnect :: later) = true :: List.replicate (later.count .disconnect) false := by
  have hclosed : (c.next .disconnect).session.closed = true := (c.closed_next _).mpr (.inr rfl)
  refine ⟨?_, ?_⟩
  · exact (queue_after_closed hclosed later).trans (c.session.queue_disconnect c.queue)
  · rw [verdicts, verdicts_closed hclosed, verdict?, disconnect_of_open hopen]
    rfl

theorem not_mem_before (events : List Event) :
    .disconnect ∉ events.takeWhile (· ≠ .disconnect) :=
  fun h => by simpa using List.mem_takeWhile_imp h

theorem before_of_not_mem (hstays : .disconnect ∉ events) :
    events.takeWhile (· ≠ .disconnect) = events := by
  rw [List.takeWhile_eq_self_iff]
  intro e he
  rw [decide_eq_true_iff]
  rintro rfl
  exact hstays he

theorem open_before (hopen : c.session.closed = false) (events : List Event) :
    (after next c (events.takeWhile (· ≠ .disconnect))).session.closed = false := by
  rw [← Bool.not_eq_true, closed_after, hopen]
  rintro (hclosed | hmem)
  · cases hclosed
  · exact not_mem_before events hmem

/-- What a run leaves in the queue of an open session. -/
theorem queue_after (hopen : c.session.closed = false) (events : List Event) :
    let found := after next c (events.takeWhile (· ≠ .disconnect))
    (after next c events).queue =
      found.queue.offerAll (if .disconnect ∈ events then found.session.badge.parting else []) := by
  intro found
  by_cases hmem : .disconnect ∈ events
  · obtain ⟨later, hevents⟩ := split_first hmem
    have hafter : after next c events = after next (found.next .disconnect) later :=
      (congrArg (after next c) hevents).trans (after_append ..)
    rw [hafter, if_pos hmem]
    exact (of_first (open_before hopen events) later).1
  · rw [if_neg hmem, CommandQueue.offerAll_nil]
    exact congrArg (fun b => (after next c b).queue) (before_of_not_mem hmem).symm

/-- What the disconnects of an open session tell. -/
theorem verdicts_of_open (hopen : c.session.closed = false) (events : List Event) :
    c.verdicts events =
      if .disconnect ∈ events then true :: List.replicate (events.count .disconnect - 1) false
      else [] := by
  by_cases hmem : .disconnect ∈ events
  · obtain ⟨later, hevents⟩ := split_first hmem
    have hnone := not_mem_before events
    have hall := congrArg c.verdicts hevents
    rw [verdicts_append, verdicts_before hnone, List.nil_append,
      (of_first (open_before hopen events) later).2] at hall
    have hcount := congrArg (List.count .disconnect) hevents
    rw [List.count_append, List.count_eq_zero.mpr hnone, List.count_cons_self] at hcount
    rw [hall, if_pos hmem, hcount, Nat.zero_add, Nat.add_sub_cancel]
  · rw [if_neg hmem, verdicts_before hmem]

end Run

end Course

/-- **A session closes once and for good.**  Through any events, its link is closed once if it is
    disconnected at all and never otherwise, and of all disconnects the first tells that it closed
    the session and the others do not.  If somebody was logged in when the session was first
    disconnected, one `hangUp` is left in the queue, with the name that the last login before had
    bound; otherwise none is, and nothing else comes into the queue from then on.  A receive on the
    closed session queues nothing, asks for nothing, leaves the buffer as it is and counts no
    command, and what is handed over to it is dropped. -/
theorem closes_for_good (id : SessionId) (buffer : ReceiveBuffer) {q : CommandQueue}
    (hlive : q.live = true) (events : List Event) :
    let opened : Course := { session := { id, buffer }, queue := q }
    let before := events.takeWhile (· ≠ .disconnect)
    let found := after Course.next opened before
    let farewell : List Command :=
      if .disconnect ∈ events ∧ found.session.loggedIn = true then [.hangUp id found.session.name]
      else []
    let c := after Course.next opened events
    c.session.link.closes = (if .disconnect ∈ events then 1 else 0) ∧
      opened.verdicts events =
        (if .disconnect ∈ events then
          true :: List.replicate (events.count .disconnect - 1) false
        else []) ∧
      c.queue.pending = found.queue.pending ++ farewell ∧
      c.queue.farewells = q.farewells ++ farewell ∧
      (found.session.loggedIn = true → lastName before = some found.session.name) ∧
      (.disconnect ∈ events →
        (∀ tolerant chunk,
          c.session.receive tolerant chunk c.queue = (c.session, c.queue, .ok 0)) ∧
        (∀ packet body, c.session.enqueue packet body = .ok c.session) ∧
        ∀ r, c.session.send r = .ok c.session) := by
  intro opened before found farewell c
  have hopen : opened.session.closed = false := rfl
  have hbefore : .disconnect ∉ before := Course.not_mem_before events
  have hcloses : c.session.link.closes = c.session.closed.toNat := by
    simpa [opened] using (Course.closes_after opened events).2
  have hclosed : c.session.closed = true ↔ .disconnect ∈ events := by
    rw [Course.closed_after]
    simp [opened]
  have hlive' : found.queue.live = true := (Course.live_after opened before).trans hlive
  have hqueue : c.queue = found.queue.offerAll farewell := by
    have hid : found.session.id = id := (Course.closes_after opened before).1
    have hparting := parting_of_open (Course.open_before hopen events)
    simp only [farewell, ite_and, ← hid]
    exact hparting ▸ Course.queue_after hopen events
  refine ⟨?_, Course.verdicts_of_open hopen events, ?_, ?_, ?_, fun hmem => ?_⟩
  · rw [hcloses]
    by_cases hmem : .disconnect ∈ events
    · rw [hclosed.mpr hmem, if_pos hmem]
      rfl
    · have hstill : c.session.closed = false := by
        rw [← Bool.not_eq_true, hclosed]
        exact hmem
      rw [hstill, if_neg hmem]
      rfl
  · rw [hqueue, CommandQueue.pending_offerAll hlive']
  · have hgoes : farewell.filter Command.isHangUp = farewell := by
      simp only [farewell]
      split <;> rfl
    rw [hqueue, CommandQueue.farewells_offerAll hlive', Course.farewells_before hlive hbefore, hgoes]
  · intro hsomebody
    obtain ⟨username, huser⟩ := Option.isSome_iff_exists.mp hsomebody
    rw [Course.user_before rfl hbefore huser, name, huser, Option.getD_some]
  · have hshut := hclosed.mpr hmem
    exact ⟨fun tolerant chunk => receive_of_closed hshut tolerant chunk c.queue,
      fun packet body => enqueue_of_closed hshut packet body,
      fun r => enqueue_of_closed hshut r.packet r.body⟩

/-- Of two names only the second is left to be released, and a third comes too late. -/
theorem closes_for_good_twice :
    let q : CommandQueue := {}
    let opened : Course := { session := { id := ⟨1⟩, buffer := .empty 8 }, queue := q }
    let events : List Event :=
      [.start, .receive true [4, 0, 10, 0], .login "ann", .logout, .login "bob", .setRoom (some ⟨5⟩),
        .disconnect, .login "eve", .disconnect, .receive true [4, 0, 10, 0],
        .enqueue .registerResult [1]]
    let c := after Course.next opened events
    q.live = true ∧ c.session.link.closes = 1 ∧ opened.verdicts events = [true, false] ∧
      c.queue.pending = [.request ⟨1⟩ .listRooms, .hangUp ⟨1⟩ "bob"] ∧ c.session.name = "eve" := by
  intro q opened events c
  have h := closes_for_good ⟨1⟩ (.empty 8) (q := q) rfl events
  have hmem : .disconnect ∈ events := by decide
  refine ⟨rfl, h.1.trans (if_pos hmem), h.2.1.trans (if_pos hmem), ?_, by decide +kernel⟩
  exact h.2.2.1.trans (by decide +kernel)

end Session

end GameServer
