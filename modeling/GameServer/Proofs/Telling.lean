import GameServer.Proofs.Outside

/-!
Being told one thing.

Whoever is told something has its frame behind all the frames that were there before, whether it
waits or is under way, and is otherwise as before: the name, the room, what has been received, what
the connection was asked for.  A send tells one session, and a broadcast tells every session that is
listed and open, once.
-/

namespace GameServer

open Wire

/-! ### One session -/

namespace Session

variable {s t : Session} {r : Response}

/-- A session without its frames and how far they have got. -/
def unsent (s : Session) : Session :=
  { s with
    outbox := []
    sending := false
    link := { s.link with begun := [], inFlight := 0, mostInFlight := 0 } }

/-- A session was told one thing, and nothing else has happened to it. -/
structure Told (r : Response) (s t : Session) : Prop where
  encoded : r.encode = .ok r.frame
  frames : t.frames = s.frames ++ [r.frame]
  unsent : t.unsent = s.unsent

/-- How a session stands is no matter of its frames. -/
theorem Told.standing (h : s.Told r t) : t.standing = s.standing := by
  have hstanding := congrArg Session.standing h.unsent
  exact hstanding

theorem unsent_beginNext (s : Session) : s.beginNext.unsent = s.unsent := by
  unfold beginNext
  split
  · rfl
  · split <;> rfl

theorem unsent_send (h : s.send r = .ok t) : t.unsent = s.unsent := by
  unfold send enqueue at h
  split at h
  · cases h; rfl
  · split at h
    · cases h
    · cases h
      split
      · rfl
      · exact unsent_beginNext _

/-- What becomes of a session that is sent a response. -/
def tell (r : Response) (s : Session) : Session := (s.send r).toOption.getD s

theorem tell_of_closed (hclosed : s.closed = true) (r : Response) : s.tell r = s := by
  have hsent : s.send r = .ok s := if_pos hclosed
  rw [tell, hsent]
  rfl

theorem told_tell (hopen : s.closed = false) (hfits : r.Fits) : s.Told r (s.tell r) := by
  obtain ⟨t, hsent, -, hframes⟩ := frames_send hopen hfits
  have htell : s.tell r = t := by rw [tell, hsent]; rfl
  rw [htell]
  exact ⟨Response.encode_of_fits hfits, hframes, unsent_send hsent⟩

/-- Either a session is told something, or it is closed and stays as it is. -/
theorem told_or_same (hfits : r.Fits) (s : Session) :
    if s.closed = false then s.Told r (s.tell r) else s.tell r = s := by
  split
  next hopen => exact told_tell hopen hfits
  next hclosed => exact tell_of_closed (by simpa using hclosed) r

end Session

/-! ### All sessions -/

namespace Sessions

variable {sessions : List Session} {places : List Place}

theorem getElem?_send (place : Place) (r : Response) (sessions : List Session) (p : Place) :
    (send place r sessions)[p]? =
      sessions[p]?.map fun s => if place = p then s.tell r else s := by
  rw [send_eq_modify, List.getElem?_modify]
  by_cases hp : place = p <;> simp [hp, Session.tell]

@[simp] theorem length_send (place : Place) (r : Response) (sessions : List Session) :
    (send place r sessions).length = sessions.length := by
  rw [send_eq_modify, List.length_modify]

/-- **A broadcast is one send to everybody who is listed.** -/
theorem getElem?_broadcast (hnodup : places.Nodup) (r : Response) (sessions : List Session)
    (p : Place) :
    (broadcast r places sessions).1[p]? =
      sessions[p]?.map fun s => if p ∈ places then s.tell r else s := by
  induction places generalizing sessions with
  | nil => simp [broadcast, enqueueEach]
  | cons place rest ih =>
    obtain ⟨hout, hrest⟩ := List.nodup_cons.mp hnodup
    rw [broadcast_cons_eq_send, ih hrest, getElem?_send, Option.map_map]
    congr 1
    funext s
    by_cases hp : place = p
    · subst hp
      -- the rest of the broadcast passes them by
      simp [hout]
    · simp [hp, Ne.symm hp]

end Sessions

/-- No session comes or goes, and everything but the sessions and the stores is as before. -/
structure World.Elsewhere (w v : World) : Prop where
  length : v.sessions.length = w.sessions.length
  rest : v = { w with lobby := { w.lobby with sessions := v.sessions }, gateway := v.gateway }

end GameServer
