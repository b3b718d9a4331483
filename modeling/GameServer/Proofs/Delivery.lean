import GameServer.Proofs.SessionRun

/-!
Outbound delivery: one send at a time, in order, and no frame left behind.

While a session is open its `sending` flag, the sends in flight and the frames that wait are
three views of one thing: nothing waits unless a send is under way, and the frames begun with
those that wait behind them are all that were accepted.  A disconnect cuts this off: nothing
waits any more, and whatever happens later, no further frame is begun.
-/

namespace GameServer

open Wire

namespace Session

/-! ### What is accepted -/

/-- The frame that an event hands over, if its body fits one. -/
def Event.frame? : Event → Option Bytes
  | .enqueue packet body => (Frame.encode packet body).toOption
  | .send r => r.encode.toOption
  | _ => none

/-- The frames that a run accepts: those handed over before the first disconnect. -/
def accepted (events : List Event) : List Bytes :=
  (events.takeWhile (· ≠ .disconnect)).filterMap Event.frame?

theorem encode_of_too_large {packet : Packet} {body : Bytes}
    (h : maxFrame < headerSize + body.length) :
    Frame.encode packet body = .error (.frameTooLarge (headerSize + body.length)) := by
  simp only [Frame.encode, gt_iff_lt, if_pos h]

/-! ### The outbound side of a session -/

/-- What a session has to do with sending. -/
structure Outflow where
  waiting : List Bytes
  sending : Bool
  begun : List Bytes
  inFlight : Nat
  mostInFlight : Nat

def outflow (s : Session) : Outflow :=
  ⟨s.outbox, s.sending, s.link.begun, s.link.inFlight, s.link.mostInFlight⟩

/-- Frames go out one at a time: those begun and those that wait are the frames given, the flag
    is up while a send is in flight, and nothing waits while none is. -/
structure Outflow.Flowing (frames : List Bytes) (o : Outflow) : Prop where
  order : o.begun ++ o.waiting = frames
  flag : o.inFlight = if o.sending then 1 else 0
  idle : o.sending = false → o.waiting = []
  single : o.mostInFlight ≤ 1

section Flag

variable {frames : List Bytes} {o : Outflow}

theorem Outflow.Flowing.inFlight_le (h : o.Flowing frames) : o.inFlight ≤ 1 := by
  rw [h.flag]
  split <;> omega

theorem Outflow.Flowing.sending_iff (h : o.Flowing frames) :
    o.sending = true ↔ 0 < o.inFlight := by
  rw [h.flag]
  cases o.sending <;> simp

theorem Outflow.Flowing.inFlight_pos (h : o.Flowing frames) (hwaiting : o.waiting ≠ []) :
    0 < o.inFlight := by
  apply h.sending_iff.mp
  cases hsending : o.sending with
  | true => rfl
  | false => exact absurd (h.idle hsending) hwaiting

end Flag

/-- Nothing goes out any more behind the frames given. -/
structure Outflow.Severed (frames : List Bytes) (o : Outflow) : Prop where
  begun : o.begun = frames
  waiting : o.waiting = []
  inFlight : o.inFlight ≤ 1
  single : o.mostInFlight ≤ 1

theorem outflow_receive (s : Session) (tolerant : Bool) (chunk : Bytes) (q : CommandQueue) :
    (s.receive tolerant chunk q).1.outflow = s.outflow := by
  unfold receive
  split
  · rfl
  · split
    · rfl
    · split
      · rfl
      · split <;> rfl

/-! ### While the session is open -/

section Open

variable {s : Session} {frames : List Bytes} {packet : Packet} {body frame : Bytes}

theorem enqueue_of_sending (hopen : s.closed = false) (hsending : s.sending = true)
    (hframe : Frame.encode packet body = .ok frame) :
    s.enqueue packet body = .ok { s with outbox := s.outbox ++ [frame] } := by
  simp [enqueue, hopen, hframe, hsending]

theorem enqueue_of_idle (hopen : s.closed = false) (hsending : s.sending = false)
    (hempty : s.outbox = []) (hframe : Frame.encode packet body = .ok frame) :
    s.enqueue packet body =
      .ok { s with sending := true, outbox := [], link := s.link.send frame } := by
  simp [enqueue, hopen, hframe, hsending, hempty, beginNext]

theorem completeSend_of_last (hopen : s.closed = false) (hflight : s.link.inFlight = 1)
    (hempty : s.outbox = []) :
    s.completeSend.2 = { s with sending := false, link := { s.link with inFlight := 0 } } := by
  simp [completeSend, Link.complete?, hflight, sendCompleted, beginNext, hopen, hempty]

theorem completeSend_of_waiting {rest : List Bytes} (hopen : s.closed = false)
    (hflight : s.link.inFlight = 1) (hwaiting : s.outbox = frame :: rest) :
    s.completeSend.2 =
      { s with outbox := rest, link := { s.link with inFlight := 0 }.send frame } := by
  simp [completeSend, Link.complete?, hflight, sendCompleted, beginNext, hopen, hwaiting]

/-- A frame waits behind the send in flight, or is begun at once. -/
theorem Outflow.Flowing.enqueue (h : s.outflow.Flowing frames) (hopen : s.closed = false)
    (hframe : Frame.encode packet body = .ok frame) :
    ∃ t, s.enqueue packet body = .ok t ∧ t.outflow.Flowing (frames ++ [frame]) := by
  obtain ⟨horder, hflag, hidle, hsingle⟩ := h
  simp only [outflow] at horder hflag hidle hsingle
  cases hsending : s.sending with
  | true =>
    refine ⟨_, enqueue_of_sending hopen hsending hframe, ?_⟩
    exact
      { order := by simp [outflow, ← horder]
        flag := hflag
        idle := by simp [outflow, hsending]
        single := hsingle }
  | false =>
    have hempty := hidle hsending
    have hflight : s.link.inFlight = 0 := by simpa [hsending] using hflag
    refine ⟨_, enqueue_of_idle hopen hsending hempty hframe, ?_⟩
    exact
      { order := by simp [outflow, Link.send, ← horder, hempty]
        flag := by simp [outflow, Link.send, hflight]
        idle := nofun
        single := by simp [outflow, Link.send, hflight, hsingle] }

/-- A send that is done makes way for the next frame that waits. -/
theorem Outflow.Flowing.completeSend (h : s.outflow.Flowing frames) (hopen : s.closed = false)
    (hflight : 0 < s.link.inFlight) : s.completeSend.2.outflow.Flowing frames := by
  obtain ⟨horder, hflag, -, hsingle⟩ := h
  simp only [outflow] at horder hflag hsingle
  cases hsending : s.sending with
  | false =>
    have : s.link.inFlight = 0 := by simpa [hsending] using hflag
    omega
  | true =>
    have hone : s.link.inFlight = 1 := by simpa [hsending] using hflag
    cases hwaiting : s.outbox with
    | nil =>
      rw [completeSend_of_last hopen hone hwaiting]
      exact ⟨horder, rfl, fun _ => hwaiting, hsingle⟩
    | cons frame rest =>
      rw [completeSend_of_waiting hopen hone hwaiting]
      exact
        { order := by simp [outflow, Link.send, ← horder, hwaiting]
          flag := by simp [outflow, Link.send, hsending]
          idle := by simp [outflow, hsending]
          single := by simp [outflow, Link.send, hsingle] }

end Open

/-! ### Once it is closed -/

section Closed

variable {s : Session} {frames : List Bytes}

theorem Outflow.Flowing.disconnect (h : s.outflow.Flowing frames) (hopen : s.closed = false)
    (q : CommandQueue) : (s.disconnect q).1.outflow.Severed s.link.begun := by
  rw [disconnect_of_open hopen]
  exact ⟨rfl, rfl, h.inFlight_le, h.single⟩

theorem enqueue_of_closed (hclosed : s.closed = true) (packet : Packet) (body : Bytes) :
    s.enqueue packet body = .ok s := by
  rw [Session.enqueue, if_pos hclosed]

theorem outflow_completeSend (hclosed : s.closed = true) :
    s.completeSend.2.outflow =
      ⟨[], false, s.link.begun, s.link.inFlight - 1, s.link.mostInFlight⟩ := by
  cases hflight : s.link.inFlight <;>
    simp [outflow, completeSend, Link.complete?, sendCompleted, beginNext, hclosed, hflight]

theorem Outflow.Severed.completeSend (h : s.outflow.Severed frames) (hclosed : s.closed = true) :
    s.completeSend.2.outflow.Severed frames := by
  rw [outflow_completeSend hclosed]
  exact ⟨h.begun, rfl, Nat.le_trans (Nat.sub_le ..) h.inFlight, h.single⟩

/-- **A closed session begins no frame**, whatever happens. -/
theorem Outflow.Severed.next {c : Course} (h : c.session.outflow.Severed frames)
    (hclosed : c.session.closed = true) (e : Event) :
    (c.next e).session.outflow.Severed frames := by
  have hdropped : ∀ packet body, c.next (.enqueue packet body) = c := by
    intro packet body
    simp [Course.next, enqueue_of_closed hclosed, Except.toOption]
  cases e with
  | enqueue packet body => rwa [hdropped]
  | send r => rwa [Course.next_send, hdropped]
  | finishSend => exact h.completeSend hclosed
  | disconnect => simpa [Course.next, disconnect_of_closed hclosed] using h
  | receive tolerant chunk =>
    change Severed frames (c.session.receive tolerant chunk c.queue).1.outflow
    rwa [outflow_receive]
  | start | login | logout | setRoom => exact h

theorem Outflow.Severed.after {c : Course} (h : c.session.outflow.Severed frames)
    (hclosed : c.session.closed = true) (events : List Event) :
    (after Course.next c events).session.outflow.Severed frames := by
  induction events generalizing c with
  | nil => exact h
  | cons e rest ih => exact ih (h.next hclosed e) ((c.closed_next e).mpr (.inl hclosed))

end Closed

/-! ### Runs -/

/-- A send is finished only while one is in flight. -/
def Course.Prompt (c : Course) : Event → Prop
  | .finishSend => 0 < c.session.link.inFlight
  | _ => True

instance (c : Course) (e : Event) : Decidable (c.Prompt e) := by
  unfold Course.Prompt
  split <;> infer_instance

/-- **One event of an open session** hands over at most one frame, and the frames keep flowing. -/
theorem Outflow.Flowing.next {c : Course} {frames : List Bytes}
    (h : c.session.outflow.Flowing frames) (hopen : c.session.closed = false) {e : Event}
    (hprompt : c.Prompt e) (hstays : e ≠ .disconnect) :
    (c.next e).session.outflow.Flowing (frames ++ e.frame?.toList) := by
  have henqueue : ∀ packet body, (c.next (.enqueue packet body)).session.outflow.Flowing
      (frames ++ (Frame.encode packet body).toOption.toList) := by
    intro packet body
    cases hframe : Frame.encode packet body with
    | error cause =>
      simpa [Course.next, Session.enqueue, hopen, hframe, Except.toOption] using h
    | ok frame =>
      obtain ⟨t, ht, hflowing⟩ := h.enqueue hopen hframe
      simpa [Course.next, ht, Except.toOption] using hflowing
  cases e with
  | enqueue packet body => exact henqueue packet body
  | send r => exact henqueue r.packet r.body
  | disconnect => exact absurd rfl hstays
  | finishSend =>
    simp only [Event.frame?, Option.toList_none, List.append_nil]
    exact h.completeSend hopen hprompt
  | receive tolerant chunk =>
    simp only [Event.frame?, Option.toList_none, List.append_nil]
    change Flowing frames (c.session.receive tolerant chunk c.queue).1.outflow
    rwa [outflow_receive]
  | start | login | logout | setRoom =>
    simp only [Event.frame?, Option.toList_none, List.append_nil]
    exact h

/-- What a run does with the frames handed over, from a session that has some underway. -/
theorem Outflow.Flowing.after {c : Course} {frames : List Bytes}
    (h : c.session.outflow.Flowing frames) (hopen : c.session.closed = false)
    (events : List Event) (hrun : Along Course.next Course.Prompt c events) :
    let s := (after Course.next c events).session
    (s.closed = false → s.outflow.Flowing (frames ++ accepted events)) ∧
      (s.closed = true →
        ∃ begun, begun <+: frames ++ accepted events ∧ s.outflow.Severed begun) := by
  induction events generalizing c frames with
  | nil =>
    refine ⟨fun _ => ?_, fun hclosed => ?_⟩
    · rw [accepted, List.takeWhile_nil, List.filterMap_nil, List.append_nil]
      exact h
    · exact absurd (hopen.symm.trans hclosed) nofun
  | cons e rest ih =>
    by_cases hdisconnect : e = .disconnect
    · subst hdisconnect
      have hclosed : (c.next .disconnect).session.closed = true :=
        (c.closed_next _).mpr (.inr rfl)
      have hsevered := (h.disconnect hopen c.queue).after (c := c.next .disconnect) hclosed rest
      refine ⟨fun hopen' => ?_, fun _ => ⟨_, ?_, hsevered⟩⟩
      · have := (Course.closed_after _ rest).mpr (.inl hclosed)
        exact absurd (hopen'.symm.trans this) nofun
      · -- nothing is accepted any more, and the frames that waited are gone
        simp only [accepted, List.takeWhile_cons, ne_eq, not_true_eq_false, decide_false,
          Bool.false_eq_true, if_false, List.filterMap_nil, List.append_nil]
        exact ⟨c.session.outbox, h.order⟩
    · have hopen' : (c.next e).session.closed = false := by
        rw [← Bool.not_eq_true, c.closed_next]
        simp [hopen, hdisconnect]
      have hgoes := ih (h.next hopen hrun.1 hdisconnect) hopen' hrun.2
      have haccepted : accepted (e :: rest) = e.frame?.toList ++ accepted rest := by
        simp only [accepted, List.takeWhile_cons, ne_eq, hdisconnect, not_false_eq_true,
          decide_true, if_true, List.filterMap_cons]
        cases e.frame? <;> rfl
      rwa [haccepted, ← List.append_assoc]

/-- **One send at a time, in order, and nothing left behind.**  Through any events of a session
    that finish a send only while one is in flight, at most one send is ever in flight.  While
    the session is open the frames begun and those that wait behind them are all that were
    accepted, in order; the flag tells whether a send is in flight; and nothing waits unless one
    is.  A body that fits no frame changes nothing: an open session refuses it, and a closed one
    drops it like any other.  After a disconnect nothing waits, what was begun is the front of
    what was accepted, and no further frame is ever begun. -/
theorem delivery_in_order (id : SessionId) (capacity : Nat) (q : CommandQueue)
    (events : List Event)
    (hrun : Along Course.next Course.Prompt { session := new id capacity, queue := q } events) :
    let c := after Course.next { session := new id capacity, queue := q } events
    let s := c.session
    (s.link.inFlight ≤ 1 ∧ s.link.mostInFlight ≤ 1) ∧
      (s.closed = true ↔ .disconnect ∈ events) ∧
      (s.closed = false →
        s.link.begun ++ s.outbox = accepted events ∧
          (s.sending = true ↔ 0 < s.link.inFlight) ∧ (s.outbox ≠ [] → 0 < s.link.inFlight)) ∧
      (∀ packet body, maxFrame < headerSize + body.length →
        c.next (.enqueue packet body) = c ∧
          s.enqueue packet body =
            if s.closed then .ok s
            else .error (.protocol (.frameTooLarge (headerSize + body.length)))) ∧
      (s.closed = true →
        s.outbox = [] ∧ s.link.begun <+: accepted events ∧
          ∀ later, (after Course.next c later).session.link.begun = s.link.begun) := by
  intro c s
  have hstart : (new id capacity).outflow.Flowing [] := ⟨rfl, rfl, fun _ => rfl, Nat.zero_le 1⟩
  obtain ⟨hopen, hclosed⟩ := hstart.after (c := { session := new id capacity, queue := q }) rfl
    events hrun
  rw [List.nil_append] at hopen hclosed
  have hends : s.closed = true ↔ .disconnect ∈ events := by
    rw [Course.closed_after]
    simp [new]
  refine ⟨?_, hends, ?_, ?_, ?_⟩
  · cases hs : s.closed with
    | false => exact ⟨(hopen hs).inFlight_le, (hopen hs).single⟩
    | true =>
      obtain ⟨begun, -, hsevered⟩ := hclosed hs
      exact ⟨hsevered.inFlight, hsevered.single⟩
  · intro hs
    exact ⟨(hopen hs).order, (hopen hs).sending_iff, (hopen hs).inFlight_pos⟩
  · intro packet body hlarge
    have henqueue : s.enqueue packet body =
        if s.closed then .ok s
        else .error (.protocol (.frameTooLarge (headerSize + body.length))) := by
      simp only [enqueue, encode_of_too_large hlarge]
    refine ⟨?_, henqueue⟩
    rw [Course.next, henqueue]
    split <;> rfl
  · intro hs
    obtain ⟨begun, hfront, hsevered⟩ := hclosed hs
    have hbegun : s.link.begun = begun := hsevered.begun
    refine ⟨hsevered.waiting, hbegun ▸ hfront, fun later => ?_⟩
    exact (hsevered.after hs later).begun.trans hbegun.symm

/-- Two frames are accepted and one is begun; the third body is handed over too late. -/
theorem delivery_in_order_severed :
    let c : Course := { session := new ⟨1⟩ 8 }
    let events : List Event :=
      [.enqueue .registerResult [1], .login "bob", .send (.playerLeft ⟨7⟩), .disconnect,
        .enqueue .registerResult [0], .finishSend]
    let s := (after Course.next c events).session
    Along Course.next Course.Prompt c events ∧
      accepted events = [[5, 0, 2, 0, 1], [8, 0, 6, 0, 7, 0, 0, 0]] ∧
      s.link.begun = [[5, 0, 2, 0, 1]] ∧ s.link.begun <+: accepted events ∧ s.outbox = [] := by
  intro c events s
  have hrun : Along Course.next Course.Prompt c events := by decide +kernel
  have h := delivery_in_order ⟨1⟩ 8 {} events hrun
  have hclosed : s.closed = true := h.2.1.mpr (by decide)
  obtain ⟨hempty, hfront, -⟩ := h.2.2.2.2 hclosed
  exact ⟨hrun, by decide +kernel, by decide +kernel, hfront, hempty⟩

/-- A body that fits no frame is not refused by a session that is closed. -/
theorem enqueue_too_large_of_closed :
    let s := (new ⟨1⟩ 8).disconnect {} |>.1
    let body : Bytes := List.replicate 65532 0
    maxFrame < headerSize + body.length ∧
      ¬ ∃ fault, s.enqueue .chat body = .error fault := by
  intro s body
  refine ⟨by simp only [body, List.length_replicate, maxFrame, headerSize]; omega, ?_⟩
  rintro ⟨fault, hfault⟩
  rw [enqueue_of_closed rfl] at hfault
  cases hfault

end Session

end GameServer
