import GameServer.Session.Directory

/-!
Where a session stands: its number, its login, its room, and whether it is closed.

Most of what happens to a session is traffic: bytes come in, frames wait, sends are begun
and finished.  None of that touches how the session stands.  Only four things do: a login,
a logout, the lobby binding it to a room, and its closing.
-/

namespace GameServer

open Wire

/-- How a session stands, whatever traffic it has. -/
structure Standing where
  id : SessionId
  user : Option String
  room : Option RoomId
  closed : Bool
deriving DecidableEq, Repr

namespace Session

def standing (s : Session) : Standing := ⟨s.id, s.user, s.room, s.closed⟩

/-! ### Traffic -/

@[simp] theorem standing_beginNext (s : Session) : s.beginNext.standing = s.standing := by
  unfold beginNext
  split
  · rfl
  · split <;> rfl

@[simp] theorem standing_sendCompleted (s : Session) :
    s.sendCompleted.standing = s.standing := standing_beginNext s

theorem standing_enqueue {s t : Session} {packet : Packet} {body : Bytes}
    (h : s.enqueue packet body = .ok t) : t.standing = s.standing := by
  unfold enqueue at h
  split at h
  · cases h; rfl
  · split at h
    · cases h
    · cases h
      split
      · rfl
      · rw [standing_beginNext]; rfl

theorem standing_send {s t : Session} {r : Response} (h : s.send r = .ok t) :
    t.standing = s.standing := standing_enqueue h

@[simp] theorem standing_receive (tolerant : Bool) (bytes : Bytes) (s : Session)
    (q : CommandQueue) : (s.receive tolerant bytes q).1.standing = s.standing := by
  unfold receive
  split
  · rfl
  · split
    · rfl
    · split
      · rfl
      · split <;> rfl

/-! ### Closing -/

theorem disconnect_of_closed {s : Session} (h : s.closed = true) (q : CommandQueue) :
    s.disconnect q = (s, q, false) := by
  simp [disconnect, h]

/-- Closing an open session: whoever was logged in on it leaves a `hangUp` behind. -/
theorem disconnect_of_open {s : Session} (h : s.closed = false) (q : CommandQueue) :
    s.disconnect q =
      ({ s with closed := true, link := s.link.close, outbox := [], user := none },
        (match s.user with
          | none => q
          | some username => q.offer (.hangUp s.id username)), true) := by
  unfold disconnect logout
  rw [h]
  cases s.user <;> rfl

end Session

/-! ### All sessions -/

/-- What a list with one more entry has at a place it had there before, or it is the new entry. -/
theorem getElem?_concat_cases {α : Type} {l : List α} {x y : α} {p : Nat}
    (h : (l ++ [x])[p]? = some y) : l[p]? = some y ∨ p = l.length ∧ y = x := by
  rw [List.getElem?_append] at h
  split at h
  · exact .inl h
  · next hge =>
    rw [List.getElem?_singleton] at h
    split at h
    · next hat =>
      exact .inr ⟨Nat.le_antisymm (Nat.sub_eq_zero_iff_le.mp hat) (Nat.not_lt.mp hge),
        (Option.some.inj h).symm⟩
    · cases h

namespace Sessions

variable {β : Type} {f : Session → β} {sessions others : List Session} {place : Place}

/-- Replacing a session by one that agrees with it in some respect changes nothing in it. -/
theorem map_set_of_eq {s t : Session} (hs : sessions[place]? = some s) (h : f t = f s) :
    (sessions.set place t).map f = sessions.map f := by
  obtain ⟨hlt, rfl⟩ := List.getElem?_eq_some_iff.mp hs
  rw [List.map_set, h, ← List.getElem_map f (h := by simpa using hlt), List.set_getElem_self]

/-- Replacing a session changes it in some respect as it changes itself. -/
theorem map_set_eq_modify {s t : Session} {g : β → β} (hs : sessions[place]? = some s)
    (h : f t = g (f s)) : (sessions.set place t).map f = (sessions.map f).modify place g := by
  obtain ⟨hlt, rfl⟩ := List.getElem?_eq_some_iff.mp hs
  apply List.ext_getElem?
  intro i
  rw [List.getElem?_map, List.getElem?_modify, List.getElem?_map]
  by_cases hp : place = i
  · subst hp
    simp [hlt, h]
  · simp [hp]

/-- A change of one session that keeps it as it is in some respect changes nothing in it. -/
theorem map_modify_of_eq {g : Session → Session}
    (h : ∀ s, sessions[place]? = some s → f (g s) = f s) :
    (sessions.modify place g).map f = sessions.map f := by
  apply List.ext_getElem?
  intro i
  simp only [List.getElem?_map, List.getElem?_modify]
  cases hi : sessions[i]? with
  | none => simp
  | some s =>
    by_cases hp : place = i
    · subst hp; simp [h s hi]
    · simp [hp]

/-- Lists of sessions that agree in some respect agree in it place by place. -/
theorem getElem?_of_map_eq (h : others.map f = sessions.map f) {t : Session}
    (ht : others[place]? = some t) : ∃ s, sessions[place]? = some s ∧ f s = f t := by
  have hplace := congrArg (·[place]?) h
  simp only [List.getElem?_map, ht, Option.map_some] at hplace
  exact Option.map_eq_some_iff.mp hplace.symm

/-- Sessions that stand alike agree in everything that depends on how they stand. -/
theorem map_of_map_standing (g : Standing → β)
    (h : others.map Session.standing = sessions.map Session.standing) :
    others.map (fun s => g s.standing) = sessions.map fun s => g s.standing := by
  have hmapped := congrArg (List.map g) h
  rw [List.map_map, List.map_map] at hmapped
  exact hmapped

@[simp] theorem map_standing_send (place : Place) (r : Response) (sessions : List Session) :
    (send place r sessions).map Session.standing = sessions.map Session.standing := by
  unfold send
  split
  · rfl
  · next s hs =>
    split
    · rfl
    · next t ht => exact map_set_of_eq hs (Session.standing_send ht)

@[simp] theorem map_standing_broadcast (r : Response) (places : List Place)
    (sessions : List Session) :
    (broadcast r places sessions).1.map Session.standing = sessions.map Session.standing := by
  induction places generalizing sessions with
  | nil => rfl
  | cons place rest ih =>
    rw [broadcast_step]
    split
    · exact ih sessions
    · next s hs =>
      split
      · exact ih sessions
      · split
        · exact ih sessions
        · next t ht => exact (ih _).trans (map_set_of_eq hs (Session.standing_send ht))

end Sessions

end GameServer
