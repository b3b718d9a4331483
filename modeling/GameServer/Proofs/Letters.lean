import GameServer.Proofs.Frames
import GameServer.Proofs.Memory

/-!
What is sent to whom.

Whatever happens to the sessions, they keep their places and numbers, a closed one stays closed,
and what an open one has been sent grows at its end.  So an event comes down to the letters that
go out: which response to which place, in which order.  A letter to a closed session is lost, and
so is one that fits no frame.
-/

namespace GameServer

open Wire

/-! ### Letters -/

/-- A response on its way to the session at a place. -/
structure Letter where
  place : Place
  response : Response
deriving DecidableEq, Repr

/-- The frames of the letters to a place, in their order. -/
def framesTo (p : Place) (letters : List Letter) : List Bytes :=
  (letters.filter (·.place = p)).filterMap (·.response.encode.toOption)

theorem framesTo_nil (p : Place) : framesTo p [] = [] := rfl

theorem framesTo_append (p : Place) (letters more : List Letter) :
    framesTo p (letters ++ more) = framesTo p letters ++ framesTo p more := by
  rw [framesTo, List.filter_append, List.filterMap_append, framesTo, framesTo]

theorem framesTo_at (p : Place) (r : Response) :
    framesTo p [⟨p, r⟩] = r.encode.toOption.toList := by
  cases h : r.encode.toOption <;> simp [framesTo, h]

theorem framesTo_elsewhere {p place : Place} (h : place ≠ p) (r : Response) :
    framesTo p [⟨place, r⟩] = [] := by simp [framesTo, h]

theorem Wire.Response.encode_eq_ok {r : Response} {frame : Bytes} (h : r.encode = .ok frame) :
    r.Fits ∧ frame = r.frame := by
  unfold encode Frame.encode at h
  dsimp only at h
  split at h
  · cases h
  · next hfits =>
    cases h
    exact ⟨Nat.not_lt.mp hfits, rfl⟩

/-! ### One session -/

namespace Session

/-- What a session has of its connection, as far as letters go. -/
def post (s : Session) : SessionId × Bool × Nat × List Bytes :=
  (s.id, s.closed, s.link.closes, s.frames)

/-- A session has been sent some frames, whatever else has happened to it.  One that has been closed
    may have lost the last of its frames, and one that was closed before got none. -/
structure Took (sent : List Bytes) (s t : Session) : Prop where
  id : t.id = s.id
  stays : s.closed = true → t.closed = true
  closes : t.link.closes + s.closed.toNat = s.link.closes + t.closed.toNat
  frames : t.closed = false → t.frames = s.frames ++ sent
  cut : t.closed = true → t.frames <+: s.frames ++ if s.closed then [] else sent

variable {s t u : Session} {sent more : List Bytes}

theorem took_of_post_eq (h : t.post = s.post) : s.Took [] t := by
  obtain ⟨hid, hclosed, hcloses, hframes⟩ : t.id = s.id ∧ t.closed = s.closed ∧
      t.link.closes = s.link.closes ∧ t.frames = s.frames := by simpa [post] using h
  constructor
  · exact hid
  · intro hs
    rw [hclosed, hs]
  · rw [hcloses, hclosed]
  · intro _
    rw [hframes, List.append_nil]
  · intro _
    rw [hframes, ite_self, List.append_nil]

theorem Took.refl (s : Session) : s.Took [] s := took_of_post_eq rfl

theorem took_of_closed (hclosed : s.closed = true) (sent : List Bytes) : s.Took sent s := by
  constructor
  · rfl
  · exact fun hs => hs
  · rfl
  · intro hopen
    rw [hclosed] at hopen
    cases hopen
  · intro _
    rw [if_pos hclosed, List.append_nil]

theorem Took.open_before (h : s.Took sent t) (hopen : t.closed = false) : s.closed = false := by
  cases hs : s.closed with
  | false => rfl
  | true => rw [h.stays hs] at hopen; cases hopen

theorem Took.trans (h : s.Took sent t) (h' : t.Took more u) : s.Took (sent ++ more) u := by
  constructor
  · exact h'.id.trans h.id
  · intro hs
    exact h'.stays (h.stays hs)
  · have := h.closes
    have := h'.closes
    omega
  · intro hu
    rw [h'.frames hu, h.frames (h'.open_before hu), List.append_assoc]
  · intro hu
    cases ht : t.closed with
    | false =>
      have hcut := h'.cut hu
      rw [ht, h.frames ht, if_neg Bool.false_ne_true, List.append_assoc] at hcut
      rwa [h.open_before ht, if_neg Bool.false_ne_true]
    | true =>
      -- nothing has come since it was closed
      have hlater := h'.cut hu
      rw [ht, if_pos rfl, List.append_nil] at hlater
      refine (hlater.trans (h.cut ht)).trans ?_
      cases s.closed with
      | true => exact List.prefix_rfl
      | false =>
        simp only [Bool.false_eq_true, if_false]
        rw [← List.append_assoc]
        exact List.prefix_append _ _

theorem took_beginNext (s : Session) : s.Took [] s.beginNext := by
  cases hclosed : s.closed with
  | false =>
    apply took_of_post_eq
    have hcloses : s.beginNext.link.closes = s.link.closes := by
      unfold beginNext
      split
      · rfl
      · split <;> rfl
    have hstanding := s.standing_beginNext
    rw [post, post, hcloses, frames_beginNext hclosed, closed_of_standing_eq hstanding]
    exact congrArg (fun x => (x, _)) (congrArg Standing.id hstanding)
  | true =>
    have hdropped : s.beginNext = { s with outbox := [], sending := false } := by
      simp [beginNext, hclosed]
    rw [hdropped]
    refine ⟨rfl, fun hs => hs, rfl, fun hopen => ?_, fun _ => ?_⟩
    · exact absurd (hopen.symm.trans hclosed) Bool.false_ne_true
    · rw [if_pos hclosed, List.append_nil]
      exact ⟨s.outbox, by simp [frames]⟩

theorem took_receive (s : Session) (tolerant : Bool) (bytes : Bytes) (q : CommandQueue) :
    s.Took [] (s.receive tolerant bytes q).1 := by
  apply took_of_post_eq
  unfold receive
  split
  · rfl
  · split
    · rfl
    · split
      · rfl
      · split <;> rfl

theorem took_disconnect (s : Session) (q : CommandQueue) : s.Took [] (s.disconnect q).1 := by
  cases hclosed : s.closed with
  | true =>
    rw [disconnect_of_closed hclosed]
    exact .refl s
  | false =>
    rw [disconnect_of_open hclosed]
    refine ⟨rfl, fun _ => rfl, ?_, nofun, fun _ => ?_⟩
    · simp [Link.close, hclosed]
    · rw [ite_self, List.append_nil]
      exact ⟨s.outbox, by simp [frames, Link.close]⟩

theorem closes_enqueue {packet : Packet} {body : Bytes} (h : s.enqueue packet body = .ok t) :
    t.link.closes = s.link.closes := by
  unfold enqueue at h
  split at h
  · cases h; rfl
  · split at h
    · cases h
    · cases h
      split
      · rfl
      · unfold beginNext
        split
        · rfl
        · split <;> rfl

/-- A response that a session is sent is framed, unless the session is closed. -/
theorem took_send {r : Response} (h : s.send r = .ok t) :
    s.Took r.encode.toOption.toList t := by
  cases hclosed : s.closed with
  | true =>
    have hsame : s.send r = .ok s := if_pos hclosed
    cases hsame.symm.trans h
    exact took_of_closed hclosed _
  | false =>
    have hencoded : ∃ frame, r.encode = .ok frame := by
      cases hencode : r.encode with
      | ok frame => exact ⟨frame, rfl⟩
      | error cause =>
        have hencode' : Frame.encode r.packet r.body = .error cause := hencode
        simp [send, enqueue, hclosed, hencode'] at h
    obtain ⟨frame, hencode⟩ := hencoded
    obtain ⟨hfits, rfl⟩ := Response.encode_eq_ok hencode
    obtain ⟨u, hsend, hopen, hframes⟩ := frames_send hclosed hfits
    cases hsend.symm.trans h
    refine ⟨congrArg Standing.id (standing_send h), ?_, ?_, fun _ => ?_, fun hu => ?_⟩
    · intro hs
      exact absurd (hclosed.symm.trans hs) Bool.false_ne_true
    · rw [closes_enqueue h, hclosed, hopen]
    · rw [hframes, hencode]
      rfl
    · exact absurd (hopen.symm.trans hu) Bool.false_ne_true

/-- A response that a session refuses is one that fits no frame. -/
theorem encode_of_send_error {r : Response} {fault : SessionFault} (h : s.send r = .error fault) :
    r.encode.toOption = none := by
  cases hencode : r.encode with
  | error cause => rfl
  | ok frame =>
    have hencode' : Frame.encode r.packet r.body = .ok frame := hencode
    unfold send enqueue at h
    rw [hencode'] at h
    split at h <;> cases h

end Session

/-! ### All sessions -/

namespace Sessions

/-- The sessions have been sent some letters: each those to its place. -/
structure Delivered (letters : List Letter) (sessions others : List Session) : Prop where
  length : others.length = sessions.length
  took : ∀ {p : Place} {s t : Session}, sessions[p]? = some s → others[p]? = some t →
    s.Took (framesTo p letters) t

variable {sessions others third : List Session} {letters more : List Letter} {place p : Place}

theorem Delivered.at (h : Delivered letters sessions others) {s : Session}
    (hs : sessions[p]? = some s) :
    ∃ t, others[p]? = some t ∧ s.Took (framesTo p letters) t := by
  have hlt : p < others.length := by
    rw [h.length]
    exact (List.getElem?_eq_some_iff.mp hs).1
  exact ⟨others[p], List.getElem?_eq_getElem hlt, h.took hs (List.getElem?_eq_getElem hlt)⟩

theorem Delivered.from (h : Delivered letters sessions others) {t : Session}
    (ht : others[p]? = some t) :
    ∃ s, sessions[p]? = some s ∧ s.Took (framesTo p letters) t := by
  have hlt : p < sessions.length := by
    rw [← h.length]
    exact (List.getElem?_eq_some_iff.mp ht).1
  exact ⟨sessions[p], List.getElem?_eq_getElem hlt, h.took (List.getElem?_eq_getElem hlt) ht⟩

theorem delivered_of_map (h : others.map Session.post = sessions.map Session.post) :
    Delivered [] sessions others := by
  constructor
  · simpa using congrArg List.length h
  · intro p s t hs ht
    obtain ⟨u, hu, hpost⟩ := getElem?_of_map_eq h ht
    obtain rfl := Option.some.inj (hs.symm.trans hu)
    exact Session.took_of_post_eq hpost.symm

theorem Delivered.refl (sessions : List Session) : Delivered [] sessions sessions :=
  delivered_of_map rfl

theorem Delivered.trans (h : Delivered letters sessions others) (h' : Delivered more others third) :
    Delivered (letters ++ more) sessions third := by
  constructor
  · exact h'.length.trans h.length
  · intro p s u hs hu
    obtain ⟨t, ht, htook⟩ := h.at hs
    rw [framesTo_append]
    exact htook.trans (h'.took ht hu)

theorem delivered_modify {f : Session → Session}
    (h : ∀ s, sessions[place]? = some s → s.Took [] (f s)) :
    Delivered [] sessions (sessions.modify place f) := by
  constructor
  · exact List.length_modify ..
  · intro p s t hs ht
    rw [List.getElem?_modify, hs] at ht
    obtain rfl := Option.some.inj ht
    rw [framesTo_nil]
    by_cases hp : place = p
    · subst hp
      simpa using h s hs
    · simpa [hp] using Session.Took.refl s

theorem delivered_set {s t : Session} (hs : sessions[place]? = some s) {r : Response}
    (h : s.Took r.encode.toOption.toList t) :
    Delivered [⟨place, r⟩] sessions (sessions.set place t) := by
  constructor
  · exact List.length_set
  · intro p u v hu hv
    by_cases hp : place = p
    · subst hp
      rw [List.getElem?_set_self (List.getElem?_eq_some_iff.mp hs).1] at hv
      obtain rfl := Option.some.inj hv
      obtain rfl := Option.some.inj (hs.symm.trans hu)
      rwa [framesTo_at]
    · rw [List.getElem?_set_ne hp, hu] at hv
      obtain rfl := Option.some.inj hv
      rw [framesTo_elsewhere hp]
      exact .refl u

/-- A letter that nobody takes changes nothing. -/
theorem delivered_nobody {r : Response}
    (h : ∀ s, sessions[place]? = some s → s.closed = true ∨ r.encode.toOption = none) :
    Delivered [⟨place, r⟩] sessions sessions := by
  refine ⟨rfl, ?_⟩
  intro p s t hs ht
  obtain rfl := Option.some.inj (hs.symm.trans ht)
  by_cases hp : place = p
  · subst hp
    rw [framesTo_at]
    rcases h s hs with hclosed | hlost
    · exact Session.took_of_closed hclosed _
    · rw [hlost]
      exact .refl s
  · rw [framesTo_elsewhere hp]
    exact .refl s

theorem delivered_send (place : Place) (r : Response) (sessions : List Session) :
    Delivered [⟨place, r⟩] sessions (send place r sessions) := by
  unfold send
  split
  · next hnone =>
    apply delivered_nobody
    intro s hs
    rw [hnone] at hs
    cases hs
  · next s hs =>
    split
    · next fault hfault =>
      exact delivered_nobody fun _ _ => .inr (Session.encode_of_send_error hfault)
    · next t ht => exact delivered_set hs (Session.took_send ht)

theorem delivered_broadcast (r : Response) (places : List Place) (sessions : List Session) :
    Delivered (places.map (⟨·, r⟩)) sessions (broadcast r places sessions).1 := by
  induction places generalizing sessions with
  | nil => exact .refl sessions
  | cons place rest ih =>
    have hfirst : Delivered [⟨place, r⟩] sessions
        (if (sessions[place]?.map Session.closed) = some false then send place r sessions
          else sessions) := by
      split
      · exact delivered_send ..
      · next hnot =>
        apply delivered_nobody
        intro s hs
        left
        simpa [hs] using hnot
    rw [broadcast_cons]
    exact hfirst.trans (ih _)

theorem disconnect_eq_modify (place : Place) (sessions : List Session) (q : CommandQueue) :
    (disconnect place sessions q).1 = sessions.modify place fun s => (s.disconnect q).1 := by
  unfold disconnect
  cases hs : sessions[place]? with
  | none =>
    rw [List.modify_eq_self (List.getElem?_eq_none_iff.mp hs)]
  | some s =>
    have hmap := map_set_eq_modify (f := id) (g := fun u => (u.disconnect q).1) hs
      (t := (s.disconnect q).1) rfl
    simpa using hmap

theorem delivered_disconnect (place : Place) (sessions : List Session) (q : CommandQueue) :
    Delivered [] sessions (disconnect place sessions q).1 := by
  rw [disconnect_eq_modify]
  exact delivered_modify fun s _ => s.took_disconnect q

end Sessions

end GameServer
