import GameServer.Proofs.Quiet

/-!
How sessions go.

Whoever is logged in on a session and whether it is closed is its badge.  Closing a session
takes the name off it and leaves a `hangUp` with that name in the queue.  Completions come
down to bytes that are heard, and to closing and forgetting.  A logout comes down to five
steps: the name is taken, the room is left, the name is released, the number is forgotten,
and the session is closed.
-/

namespace GameServer

open Wire

/-! ### Badges -/

/-- Who a session is: its number, who is logged in on it, and whether it is closed. -/
structure Badge where
  id : SessionId
  user : Option String
  closed : Bool
deriving DecidableEq, Repr

namespace Badge

def close (b : Badge) : Badge := if b.closed then b else { b with user := none, closed := true }

/-- What closing a session leaves in the queue. -/
def parting (b : Badge) : List Command :=
  if b.closed then [] else (b.user.map (.hangUp b.id)).toList

@[simp] theorem id_close (b : Badge) : b.close.id = b.id := by
  unfold close
  split <;> rfl

@[simp] theorem closed_close (b : Badge) : b.close.closed = true := by
  unfold close
  split
  · assumption
  · rfl

end Badge

def Standing.badge (t : Standing) : Badge := ⟨t.id, t.user, t.closed⟩

namespace CommandQueue

@[simp] theorem live_offerAll (q : CommandQueue) (commands : List Command) :
    (q.offerAll commands).live = q.live := by
  unfold offerAll
  split <;> rfl

theorem pending_offerAll {q : CommandQueue} (hlive : q.live = true) (commands : List Command) :
    (q.offerAll commands).pending = q.pending ++ commands := by
  rw [offerAll, if_pos hlive]

theorem offer_eq_offerAll (q : CommandQueue) (c : Command) : q.offer c = q.offerAll [c] := by
  unfold offer push offerAll
  split <;> rfl

theorem offerAll_nil (q : CommandQueue) : q.offerAll [] = q := by
  unfold offerAll
  split
  · rw [List.append_nil]
  · rfl

end CommandQueue

namespace Session

def badge (s : Session) : Badge := ⟨s.id, s.user, s.closed⟩

theorem badge_of_standing_eq {s t : Session} (h : t.standing = s.standing) :
    t.badge = s.badge := congrArg Standing.badge h

theorem map_badge_of_map_standing {sessions others : List Session}
    (h : others.map standing = sessions.map standing) :
    others.map badge = sessions.map badge :=
  Sessions.map_of_map_standing Standing.badge h

theorem badge_disconnect (s : Session) (q : CommandQueue) :
    (s.disconnect q).1.badge = s.badge.close := by
  cases hclosed : s.closed with
  | true => simp [disconnect_of_closed hclosed, Badge.close, badge, hclosed]
  | false => simp [disconnect_of_open hclosed, Badge.close, badge, hclosed]

theorem queue_disconnect (s : Session) (q : CommandQueue) :
    (s.disconnect q).2.1 = q.offerAll s.badge.parting := by
  cases hclosed : s.closed with
  | true => simp [disconnect_of_closed hclosed, Badge.parting, badge, hclosed, q.offerAll_nil]
  | false =>
    simp only [disconnect_of_open hclosed, Badge.parting, badge, hclosed, Bool.false_eq_true,
      if_false]
    cases s.user with
    | none => exact q.offerAll_nil.symm
    | some username =>
      simp only [CommandQueue.offer, CommandQueue.push, CommandQueue.offerAll, Option.map_some,
        Option.toList_some]
      split <;> rfl

/-- All that a session ever queues when bytes arrive is requests of its own. -/
theorem receive_requests (tolerant : Bool) (bytes : Bytes) (s : Session) (q : CommandQueue) :
    ∃ requests : List Request,
      (s.receive tolerant bytes q).2.1 = q.offerAll (requests.map (.request s.id)) := by
  have hdrain : ∀ (live : Bool) (rounds : Nat) (b : ReceiveBuffer), ∃ requests : List Request,
      (ReceiveBuffer.drainFor tolerant live s.id rounds b).2.1 =
        requests.map (.request s.id) := by
    intro live rounds
    induction rounds with
    | zero => exact fun b => ⟨[], rfl⟩
    | succ rounds ih =>
      intro b
      unfold ReceiveBuffer.drainFor ReceiveBuffer.extract
      cases b.next? with
      | none => exact ⟨[], rfl⟩
      | some frame =>
        dsimp only
        cases Request.decode frame.header.code frame.body with
        | ok request =>
          cases live with
          | false => exact ⟨[], rfl⟩
          | true =>
            obtain ⟨requests, hrest⟩ := ih (b.consume frame.size)
            exact ⟨request :: requests, congrArg (List.cons _) hrest⟩
        | error cause =>
          dsimp only
          split
          · exact ih _
          · exact ⟨[], rfl⟩
  unfold receive
  split
  · exact ⟨[], q.offerAll_nil.symm⟩
  · split
    · exact ⟨[], q.offerAll_nil.symm⟩
    · next filled _ =>
      obtain ⟨requests, hrequests⟩ := hdrain q.live filled.unread.length filled
      refine ⟨requests, ?_⟩
      rw [← hrequests]
      unfold ReceiveBuffer.drain
      rcases ReceiveBuffer.drainFor tolerant q.live s.id filled.unread.length filled with
        ⟨rest, commands, fault | _⟩
      · dsimp only
        split <;> rfl
      · rfl

end Session

/-! ### Rooms change no badge -/

namespace Lobby

variable {l l' : Lobby} {place : Place} {s : Session} {a : Arrival}

section InRooms

variable {β : Type} {f : Session → β}

/-- What does not depend on the room a session is in is not changed by taking somebody out. -/
theorem map_leave (hf : ∀ s room, f (Session.setRoom s room) = f s) (l : Lobby) (id : SessionId) :
    (l.leave id).1.sessions.map f = l.sessions.map f := by
  unfold leave
  cases l.index[id]? with
  | none => rfl
  | some room =>
    dsimp only
    cases l.rooms[room]? with
    | none => rfl
    | some r =>
      dsimp only
      cases r.members[id]? with
      | none => rfl
      | some place => exact Sessions.map_modify_of_eq fun s _ => hf s none

theorem map_settle (hf : ∀ s room, f (Session.setRoom s room) = f s) (r : Room) :
    (l.settle place s r).sessions.map f = l.sessions.map f := by
  rw [sessions_settle]
  exact Sessions.map_modify_of_eq fun t _ => hf t (some r.id)

theorem map_join (hf : ∀ s room, f (Session.setRoom s room) = f s) {room : RoomId}
    (hok : l.join place s room = .ok (a, l')) : l'.sessions.map f = l.sessions.map f := by
  unfold join at hok
  split at hok
  · cases hok
  · split at hok
    · cases hok; rfl
    · split at hok
      · cases hok
      · dsimp only at hok
        split at hok <;> (cases hok; exact (map_settle hf _).trans (map_leave hf l s.id))

theorem map_openRoom (hf : ∀ s room, f (Session.setRoom s room) = f s) {title : String}
    (hok : l.openRoom place s title = .ok (a, l')) : l'.sessions.map f = l.sessions.map f := by
  unfold openRoom at hok
  split at hok
  · cases hok
  · cases hok
    exact (map_settle hf _).trans (map_leave hf l s.id)

end InRooms

theorem map_badge_leave (l : Lobby) (id : SessionId) :
    (l.leave id).1.sessions.map Session.badge = l.sessions.map Session.badge :=
  map_leave (fun _ _ => rfl) l id

theorem map_badge_join {room : RoomId} (hok : l.join place s room = .ok (a, l')) :
    l'.sessions.map Session.badge = l.sessions.map Session.badge :=
  map_join (fun _ _ => rfl) hok

theorem map_badge_openRoom {title : String} (hok : l.openRoom place s title = .ok (a, l')) :
    l'.sessions.map Session.badge = l.sessions.map Session.badge :=
  map_openRoom (fun _ _ => rfl) hok

end Lobby

namespace World

def badges (w : World) : List Badge := w.sessions.map Session.badge

theorem badges_eq_some {w : World} {place : Place} {b : Badge} :
    w.badges[place]? = some b ↔ ∃ s, w.sessions[place]? = some s ∧ s.badge = b := by
  rw [badges, List.getElem?_map]
  exact Option.map_eq_some_iff

theorem Quiet.badges {w w' : World} (h : Quiet w w') : w'.badges = w.badges :=
  Session.map_badge_of_map_standing h.standing

/-! ### Coming -/

theorem sessions_connect (w : World) (capacity : Nat) : (w.connect capacity).2.sessions =
    w.sessions ++ [(Session.new ⟨w.directory.nextId⟩ capacity).start] := rfl

theorem badges_connect (w : World) (capacity : Nat) : (w.connect capacity).2.badges =
    w.badges ++ [⟨⟨w.directory.nextId⟩, none, false⟩] := List.map_append

/-! ### Closing -/

section Disconnect

variable (w : World) (place : Place)

theorem badges_disconnect :
    (w.disconnect place).2.badges = w.badges.modify place Badge.close := by
  unfold disconnect Sessions.disconnect badges
  cases hs : w.sessions[place]? with
  | none =>
    have hnone : (w.sessions.map Session.badge)[place]? = none := by simp [hs]
    rw [List.modify_eq_self (List.getElem?_eq_none_iff.mp hnone)]
    rfl
  | some s => exact Sessions.map_set_eq_modify hs (s.badge_disconnect w.queue)

/-- What closing the session at a place leaves in the queue. -/
def partingAt : List Command := (w.badges[place]?.map Badge.parting).getD []

theorem queue_disconnect :
    (w.disconnect place).2.queue = w.queue.offerAll (w.partingAt place) := by
  unfold disconnect Sessions.disconnect partingAt badges
  rw [List.getElem?_map]
  cases w.sessions[place]? with
  | none => exact w.queue.offerAll_nil.symm
  | some s => exact s.queue_disconnect w.queue

theorem seats_disconnect :
    (w.disconnect place).2.sessions.map Session.seat = w.sessions.map Session.seat :=
  Lobby.map_seat_disconnect w.sessions place w.queue

end Disconnect

/-! ### Hearing -/

/-- The session at a place hears bytes, whatever comes of them. -/
def hear (w : World) (place : Place) (bytes : Bytes) : World :=
  match w.sessions[place]? with
  | none => w
  | some s =>
    let (s, queue, _) := s.receive w.tolerant bytes w.queue
    { w with queue }.modify place fun _ => s

/-- Requests of the session with a number are put in the queue. -/
def enqueue (w : World) (id : SessionId) (requests : List Request) : World :=
  { w with queue := w.queue.offerAll (requests.map (.request id)) }

/-- Hearing bytes queues requests and is quiet otherwise. -/
theorem hear_eq_enqueue (w : World) (place : Place) (bytes : Bytes) :
    ∃ id requests, Quiet (w.enqueue id requests) (w.hear place bytes) := by
  unfold hear
  cases hs : w.sessions[place]? with
  | none =>
    refine ⟨⟨0⟩, [], ?_⟩
    rw [enqueue, List.map_nil, w.queue.offerAll_nil]
    exact .refl w
  | some s =>
    obtain ⟨requests, hqueue⟩ := s.receive_requests w.tolerant bytes w.queue
    refine ⟨s.id, requests, ?_⟩
    rw [enqueue, ← hqueue]
    refine quiet_modify _ fun t ht => ?_
    obtain rfl := Option.some.inj (hs.symm.trans ht)
    exact s.standing_receive w.tolerant bytes w.queue

/-- **Completions.**  What is kept by quiet changes, by queued requests, and by closing a session
    and forgetting its number, is kept by whatever the transport reports. -/
theorem keeps_dispatch {P : World → Prop} (hquiet : ∀ {v v'}, Quiet v v' → P v → P v')
    (hqueued : ∀ {v} id requests, P v → P (v.enqueue id requests))
    (hdrop : ∀ {v place b}, v.badges[place]? = some b → P v → P (v.drop place b.id))
    {w : World} (c : Completion) (h : P w) : P (w.dispatch c).2 := by
  have hdropped : ∀ {v : World} {place : Place} {s : Session}, v.badges[place]? = some s.badge →
      P v → P (v.drop place s.id) := fun hs hv => hdrop hs hv
  unfold dispatch
  cases c.session? with
  | none => exact h
  | some id =>
    dsimp only
    cases hfind : w.find? id with
    | none => exact h
    | some found =>
      obtain ⟨place, s⟩ := found
      obtain ⟨-, hs⟩ := find?_eq_some.mp hfind
      have hbadge : w.badges[place]? = some s.badge := badges_eq_some.mpr ⟨s, hs, rfl⟩
      cases c with
      | shutdown => exact h
      | sent session count =>
        exact hquiet (w.quiet_modify fun t _ => t.standing_sendCompleted) h
      | failed session transfer => exact hdropped hbadge h
      | received session bytes =>
        dsimp only [receive]
        cases bytes with
        | nil => exact hdropped hbadge h
        | cons byte rest =>
          obtain ⟨id, requests, hquiets⟩ := w.hear_eq_enqueue place (byte :: rest)
          have hheard : P (w.hear place (byte :: rest)) := hquiet hquiets (hqueued id requests h)
          have hsame : (w.hear place (byte :: rest)).badges[place]? =
              some (s.receive w.tolerant (byte :: rest) w.queue).1.badge := by
            rw [hquiets.badges, Session.badge_of_standing_eq (s.standing_receive ..)]
            exact hbadge
          unfold hear at hheard hsame
          simp only [hs] at hheard hsame
          dsimp only
          split
          · exact hheard
          · exact hdropped hsame hheard

/-! ### Logging out -/

section Logout

/-- Takes the name of a logout: the one that the command carries, or else the one on the
    registered session, whose number is forgotten either way. -/
def unname (w : World) (id : SessionId) : Option String → World × Option String
  | some username => (w.forget id, some username)
  | none =>
    match w.directory.find? id with
    | none => (w.forget id, none)
    | some place => (w.forget id).takeName place

def release (w : World) : Option String → World
  | none => w
  | some username => { w with gateway := w.gateway.removePresence username }

def closeAt (w : World) : Option Place → World
  | none => w
  | some place => (w.disconnect place).2

variable (w : World) (id : SessionId)

/-- A logout, step by step. -/
theorem logout_eq (carried : Option String) :
    w.logout id carried =
      (((w.unname id carried).1.leaveRoom id).release (w.unname id carried).2).closeAt
        (w.directory.find? id) := by
  unfold logout unname
  cases carried with
  | some username => cases w.directory.find? id <;> rfl
  | none =>
    cases w.directory.find? id with
    | none => rfl
    | some place =>
      dsimp only
      cases ((w.forget id).takeName place).2 <;> rfl

theorem badges_leaveRoom : (w.leaveRoom id).badges = w.badges :=
  (quiet_announce ..).badges.trans (w.lobby.map_badge_leave id)

theorem badges_release (username : Option String) : (w.release username).badges = w.badges := by
  cases username <;> rfl

theorem badges_closeAt (found : Option Place) (p : Place) :
    (w.closeAt found).badges[p]? =
      w.badges[p]?.map fun b => if found = some p then b.close else b := by
  cases found with
  | none => simp [closeAt]
  | some place =>
    rw [closeAt, badges_disconnect, List.getElem?_modify]
    simp only [Option.some.injEq]
    rfl

/-- A change of one session changes its badge as it changes the session. -/
theorem badges_modify {place : Place} {f : Session → Session} {g : Badge → Badge}
    (h : ∀ s, (f s).badge = g s.badge) : (w.modify place f).badges = w.badges.modify place g := by
  apply List.ext_getElem?
  intro p
  simp only [badges, modify, withSessions, sessions, List.getElem?_map, List.getElem?_modify]
  cases w.lobby.sessions[p]? with
  | none => rfl
  | some s =>
    by_cases hp : place = p
    · simp [hp, h]
    · simp [hp]

theorem badges_login (place : Place) (username : String) :
    (w.modify place (·.login username)).badges =
      w.badges.modify place fun b => { b with user := some username } :=
  w.badges_modify fun _ => rfl

/-- Taking a name off a session. -/
theorem badges_takeName (place : Place) :
    (w.takeName place).1.badges = w.badges.modify place fun b => { b with user := none } := by
  unfold takeName badges
  cases hs : w.sessions[place]? with
  | none =>
    have hnone : (w.sessions.map Session.badge)[place]? = none := by simp [hs]
    rw [List.modify_eq_self (List.getElem?_eq_none_iff.mp hnone)]
  | some s =>
    apply List.ext_getElem?
    intro p
    simp only [modify, withSessions, sessions, Session.logout, List.getElem?_map,
      List.getElem?_modify]
    by_cases hp : place = p
    · subst hp
      have hs' : w.lobby.sessions[place]? = some s := hs
      simp [hs', Session.badge]
    · simp [hp]

/-- A logout takes the name off the registered session, unless the command carries one. -/
theorem badges_unname (carried : Option String) (p : Place) :
    (w.unname id carried).1.badges[p]? = w.badges[p]?.map fun b =>
      if carried = none ∧ w.directory.find? id = some p then { b with user := none } else b := by
  unfold unname
  cases carried with
  | some username => simp only [reduceCtorEq, false_and, if_false, Option.map_id']; rfl
  | none =>
    cases w.directory.find? id with
    | none => simp only [reduceCtorEq, and_false, if_false, Option.map_id']; rfl
    | some place =>
      simp only [badges_takeName, List.getElem?_modify, true_and, Option.some.injEq]
      rfl

theorem takeName_snd (place : Place) : (w.takeName place).2 = w.badges[place]?.bind Badge.user := by
  unfold takeName badges
  rw [List.getElem?_map]
  cases w.sessions[place]? <;> rfl

/-- The name that a logout takes is the one that the command carries, or else the one that the
    registered session is logged in under. -/
theorem unname_snd (carried : Option String) :
    (w.unname id carried).2 = carried.or ((w.find? id).bind fun found => found.2.user) := by
  unfold unname find?
  cases carried with
  | some username => rfl
  | none =>
    cases w.directory.find? id with
    | none => rfl
    | some place =>
      have hsame : (w.forget id).sessions[place]? = w.sessions[place]? := rfl
      simp only [takeName, hsame, Option.none_or, Option.bind_eq_bind, Option.bind_some]
      cases w.sessions[place]? <;> rfl

/-- Taking a name changes nothing but the session that has it, which stays in its room. -/
theorem takeName_fst (place : Place) :
    ∃ sessions, (w.takeName place).1 = w.withSessions sessions ∧
      sessions.map Session.seat = w.sessions.map Session.seat := by
  unfold takeName
  cases hs : w.sessions[place]? with
  | none => exact ⟨w.sessions, rfl, rfl⟩
  | some s =>
    refine ⟨_, rfl, Sessions.map_modify_of_eq fun t ht => ?_⟩
    obtain rfl := Option.some.inj (hs.symm.trans ht)
    rfl

theorem unname_fst (carried : Option String) :
    ∃ sessions, (w.unname id carried).1 = (w.forget id).withSessions sessions ∧
      sessions.map Session.seat = w.sessions.map Session.seat := by
  unfold unname
  cases carried with
  | some username => exact ⟨w.sessions, rfl, rfl⟩
  | none =>
    cases w.directory.find? id with
    | none => exact ⟨w.sessions, rfl, rfl⟩
    | some place => exact (w.forget id).takeName_fst place

theorem leaveRoom_eq :
    ∃ sessions, w.leaveRoom id = (w.withLobby (w.lobby.leave id).1).withSessions sessions := by
  unfold leaveRoom
  rcases w.lobby.leave id with ⟨lobby, departure⟩
  cases departure with
  | none => exact ⟨lobby.sessions, rfl⟩
  | some d =>
    obtain ⟨sessions, htold, -⟩ :=
      Lobby.broadcast_traffic lobby d.remaining (.playerLeft d.session)
    exact ⟨sessions, congrArg w.withLobby htold⟩

/-- All that a logout has done to the directory, the queue and the cache by the time it releases the
    name is to forget a number. -/
theorem leaveRoom_unname (carried : Option String) :
    ((w.unname id carried).1.leaveRoom id).directory = w.directory.erase id ∧
      ((w.unname id carried).1.leaveRoom id).queue = w.queue ∧
      ((w.unname id carried).1.leaveRoom id).gateway = w.gateway := by
  obtain ⟨unnamed, hunname, -⟩ := w.unname_fst id carried
  obtain ⟨left, hleave⟩ := (w.unname id carried).1.leaveRoom_eq id
  rw [hleave, hunname]
  exact ⟨rfl, rfl, rfl⟩

theorem directory_logout (carried : Option String) :
    (w.logout id carried).directory = w.directory.erase id := by
  rw [logout_eq, ← (w.leaveRoom_unname id carried).1]
  cases w.directory.find? id <;> cases (w.unname id carried).2 <;> rfl

/-- A logout leaves at most one command behind, the `hangUp` of the session that it finds open. -/
theorem queue_logout_open (carried : Option String) :
    ∃ more : List Command, (w.logout id carried).queue = w.queue.offerAll more ∧
      (more = [] ∨ ∃ place b username, w.directory.find? id = some place ∧
        w.badges[place]? = some b ∧ b.closed = false ∧ more = [.hangUp b.id username]) := by
  have hbefore : (((w.unname id carried).1.leaveRoom id).release
      (w.unname id carried).2).queue = w.queue := by
    rw [← (w.leaveRoom_unname id carried).2.1]
    cases (w.unname id carried).2 <;> rfl
  rw [logout_eq]
  cases w.directory.find? id with
  | none => exact ⟨[], hbefore.trans w.queue.offerAll_nil.symm, .inl rfl⟩
  | some place =>
    refine ⟨_, by rw [closeAt, queue_disconnect, hbefore], ?_⟩
    have hbadge : (((w.unname id carried).1.leaveRoom id).release
        (w.unname id carried).2).badges[place]? = (w.unname id carried).1.badges[place]? := by
      rw [badges_release, badges_leaveRoom]
    rw [partingAt, hbadge, badges_unname]
    cases hb : w.badges[place]? with
    | none => exact .inl rfl
    | some b =>
      -- taking the name changes neither the number nor whether the session is closed
      rw [Option.map_some, Option.map_some, Option.getD_some]
      generalize hunnamed :
        (if carried = none ∧ w.directory.find? id = some place then { b with user := none } else b) = c
      have hsame : c.id = b.id ∧ c.closed = b.closed := by
        rw [← hunnamed]
        split <;> exact ⟨rfl, rfl⟩
      cases hclosed : b.closed with
      | true =>
        left
        rw [Badge.parting, hsame.2, hclosed, if_pos rfl]
      | false =>
        rw [Badge.parting, hsame.2, hclosed, if_neg nofun, hsame.1]
        cases c.user with
        | none => exact .inl rfl
        | some username => exact .inr ⟨place, b, username, rfl, hb, hclosed, rfl⟩

/-- A logout leaves at most one command behind, and none unless it finds a session to close. -/
theorem queue_logout (carried : Option String) :
    ∃ more : List Command, (w.logout id carried).queue = w.queue.offerAll more ∧
      more.length ≤ 1 ∧ (w.directory.find? id = none → more = []) := by
  obtain ⟨more, hqueue, rfl | ⟨place, b, username, hfind, -, -, rfl⟩⟩ :=
    w.queue_logout_open id carried
  · exact ⟨[], hqueue, Nat.zero_le 1, fun _ => rfl⟩
  · refine ⟨_, hqueue, Nat.le_refl 1, ?_⟩
    intro hnone
    rw [hnone] at hfind
    cases hfind

end Logout

end World

end GameServer
