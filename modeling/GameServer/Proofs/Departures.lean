import GameServer.Proofs.Answers
import GameServer.Proofs.Moves
import GameServer.Proofs.Simulation

/-!
Who is told that somebody has left.

A session gets out of its room in four ways: it leaves, it enters another room, it makes a room of
its own, or it logs out.  Each time those who stay are told, once, and nobody else is.  All other
commands leave everybody in their rooms and tell of no departure.
-/

namespace GameServer

open Wire

/-- Whether a packet tells of a departure. -/
def Wire.Packet.isParting (kind : Packet) : Bool := kind = .leaveRoom

/-- The departures that a session has been told of, oldest first. -/
def Session.partings (s : Session) : List Bytes := s.framesOf Packet.isParting

theorem Wire.Response.fits_playerLeft (id : SessionId) : (playerLeft id).Fits := by
  simp only [Fits, body, length_session]
  decide

namespace Lobby

variable {l l' : Lobby} {place : Place} {s : Session} {a : Arrival}

theorem roomOf_of_floor_eq (h : l'.floor = l.floor) (id : SessionId) :
    l'.roomOf id = l.roomOf id := eq_of_floor_eq (·.roomOf id) (fun _ => rfl) h

/-- Whoever joins another room has left the room they were in. -/
theorem Consistent.left_of_join (h : l.Consistent) (hs : l.sessions[place]? = some s)
    {room : RoomId} (hi : l.index[s.id]? ≠ some room) (hok : l.join place s room = .ok (a, l')) :
    a.left = (l.leave s.id).2 := by
  have hleft := (h.join_enters hs hi hok).1.left
  rcases left_of_join_ok hok with hnone | hsome
  · rw [hnone] at hleft
    rw [hnone, leave_of_index_none hleft]
  · exact hsome

theorem left_of_openRoom {title : String} (hok : l.openRoom place s title = .ok (a, l')) :
    a.left = (l.leave s.id).2 := by
  unfold openRoom at hok
  split at hok
  · cases hok
  · cases hok
    rfl

/-- Those who stay are the sessions of other numbers that are bound to the room. -/
theorem Consistent.mem_remaining_iff (h : l.Consistent) {id : SessionId} {d : Departure}
    (hd : d.Tells l id) (hs : l.sessions[place]? = some s) :
    place ∈ d.remaining ↔ s.id ≠ id ∧ s.room = some d.room := by
  obtain ⟨-, -, r, hr, hremaining, -⟩ := hd
  rw [hremaining, mem_values_iff, h.room_iff hs]
  constructor
  · rintro ⟨other, hother⟩
    rw [lookup_erase] at hother
    split at hother
    · cases hother
    · next hne =>
      obtain ⟨t, ht, hid⟩ := h.seated ⟨r, hr, hother⟩
      obtain rfl := Option.some.inj (hs.symm.trans ht)
      exact ⟨hid ▸ hne, r, hr, hid ▸ hother⟩
  · rintro ⟨hne, r', hr', hplace⟩
    obtain rfl := Option.some.inj (hr.symm.trans hr')
    exact ⟨s.id, by rw [lookup_erase, if_neg hne, hplace]⟩

theorem Consistent.nodup_remaining (h : l.Consistent) {id : SessionId} {d : Departure}
    (hd : d.Tells l id) : d.remaining.Nodup := by
  obtain ⟨-, -, r, hr, hremaining, -⟩ := hd
  rw [hremaining]
  apply nodup_values
  intro other p hp
  rw [lookup_erase] at hp
  split at hp
  · cases hp
  · exact h.seated ⟨r, hr, hp⟩

end Lobby

namespace World

/-! ### Where commands lead -/

/-- Where a command takes the session that it belongs to: into a room or out of all of them.
    Nothing if the session stays where it is. -/
def destination? (w : World) : Command → Option (Option RoomId)
  | .hangUp .. => some none
  | .request id r =>
    match r with
    | .leaveRoom | .logout => some none
    | .enterRoom room =>
      if (w.entry? id room).isSome ∧ w.lobby.roomOf id ≠ some room then some (some room) else none
    | .createRoom title => (w.opening? id title).map fun opened => some opened.2.2.1.room
    | .register .. | .login .. | .move .. | .chat _ | .listRooms => none

/-- The departure that a command brings about, if it does. -/
def departure? (w : World) (c : Command) : Option Departure :=
  if (w.destination? c).isSome then (w.lobby.leave c.session).2 else none

section Commands

variable {w : World}

theorem roomOf_enterRoom (hinUse : w.lobby.InUse) (hnumbered : w.Numbered) (id : SessionId)
    (room : RoomId) :
    (w.enterRoom id room).lobby.roomOf id =
      (w.destination? (.request id (.enterRoom room))).getD (w.lobby.roomOf id) := by
  rw [Lobby.roomOf_of_floor_eq (w.floor_enterRoom id room), destination?]
  cases hentry : w.entry? id room with
  | none => rfl
  | some entry =>
    obtain ⟨place, s, a, lobby⟩ := entry
    obtain ⟨hfind, -, hjoin⟩ := entry?_eq_some.mp hentry
    obtain ⟨-, hs⟩ := find?_eq_some.mp hfind
    obtain rfl := hnumbered.find? hfind
    by_cases hi : w.lobby.index[s.id]? = some room
    · simp [Lobby.roomOf, hi, Lobby.join_of_listed hi hjoin]
    · obtain ⟨henters, -, hroom, -⟩ := hinUse.consistent.join_enters hs hi hjoin
      have hindex := henters.index s.id
      rw [if_pos rfl, hroom] at hindex
      simp [Lobby.roomOf, hi, hindex]

theorem roomOf_createRoom (hinUse : w.lobby.InUse) (hnumbered : w.Numbered) (id : SessionId)
    (title : String) :
    (w.createRoom id title).lobby.roomOf id =
      (w.destination? (.request id (.createRoom title))).getD (w.lobby.roomOf id) := by
  rw [Lobby.roomOf_of_floor_eq (w.floor_createRoom id title), destination?]
  cases hopening : w.opening? id title with
  | none => rfl
  | some opened =>
    obtain ⟨place, s, a, lobby⟩ := opened
    obtain ⟨hfind, -, hopened⟩ := opening?_eq_some.mp hopening
    obtain ⟨-, hs⟩ := find?_eq_some.mp hfind
    obtain rfl := hnumbered.find? hfind
    have hfree := (hinUse.leave s.id).hasFreeId (hinUse.consistent.ready hs).1
    have hindex := (hinUse.consistent.openRoom_enters hs hfree hopened).1.index s.id
    rwa [if_pos rfl] at hindex

theorem roomOf_left (w : World) (id : SessionId) : (w.lobby.leave id).1.roomOf id = none :=
  (Lobby.index_leave id).trans (if_pos rfl)

/-- **A command takes the session it belongs to where it leads, or leaves it where it is.** -/
theorem roomOf_execute (hinUse : w.lobby.InUse) (hnumbered : w.Numbered) (c : Command) :
    (w.execute c).lobby.roomOf c.session =
      (w.destination? c).getD (w.lobby.roomOf c.session) := by
  cases c with
  | hangUp id username =>
    exact (Lobby.roomOf_of_floor_eq (w.floor_logout id _) id).trans (w.roomOf_left id)
  | request id r =>
    cases r with
    | register username password =>
      exact Lobby.roomOf_of_floor_eq (w.floor_register id username password) id
    | login username password =>
      exact Lobby.roomOf_of_floor_eq (w.floor_login id username password) id
    | chat message => exact Lobby.roomOf_of_floor_eq (w.floor_chat id message) id
    | listRooms => exact Lobby.roomOf_of_floor_eq (w.floor_reply id _) id
    | enterRoom room => exact roomOf_enterRoom hinUse hnumbered id room
    | createRoom title => exact roomOf_createRoom hinUse hnumbered id title
    | leaveRoom =>
      exact (Lobby.roomOf_of_floor_eq (w.floor_leaveRoom id) id).trans (w.roomOf_left id)
    | logout =>
      exact (Lobby.roomOf_of_floor_eq (w.floor_logout id none) id).trans (w.roomOf_left id)
    | move vx vy =>
      refine (Lobby.roomOf_of_floor_eq (w.floor_move id vx vy) id).trans ?_
      cases hsteer : w.lobby.steer? id vx vy with
      | none => rfl
      | some lobby =>
        obtain ⟨room, r, -, rfl⟩ := Lobby.steer?_eq_some hsteer
        rfl

end Commands

/-! ### What goes out -/

/-- Of all that goes out, no more tells of departures than what is told of the given one. -/
def Parts (w w' : World) (d : Option Departure) : Prop :=
  ∃ letters, lettersOf Packet.isParting letters = partingLetters d ∧
    Sessions.Delivered letters w.sessions w'.sessions

section Parting

variable {w w' w'' : World} {d : Option Departure}

theorem lettersOf_partingLetters (d : Option Departure) :
    lettersOf Packet.isParting (partingLetters d) = partingLetters d := by
  apply List.filter_eq_self.mpr
  intro letter hletter
  obtain ⟨x, -, hx⟩ := List.mem_flatMap.mp hletter
  obtain ⟨p, -, rfl⟩ := List.mem_map.mp hx
  rfl

theorem parts_none {letters : List Letter} (hnone : lettersOf Packet.isParting letters = [])
    (h : Sessions.Delivered letters w.sessions w'.sessions) : w.Parts w' none := ⟨_, hnone, h⟩

theorem parts_refl (w : World) : w.Parts w none := parts_none rfl (.refl _)

theorem Parts.before (h : w.Parts w' none) (h' : w'.Parts w'' d) : w.Parts w'' d := by
  obtain ⟨letters, hletters, hdelivered⟩ := h
  obtain ⟨more, hmore, hdelivered'⟩ := h'
  refine ⟨letters ++ more, ?_, hdelivered.trans hdelivered'⟩
  rw [lettersOf_append, hletters, hmore]
  rfl

theorem Parts.then (h : w.Parts w' d) (h' : w'.Parts w'' none) : w.Parts w'' d := by
  obtain ⟨letters, hletters, hdelivered⟩ := h
  obtain ⟨more, hmore, hdelivered'⟩ := h'
  refine ⟨letters ++ more, ?_, hdelivered.trans hdelivered'⟩
  rw [lettersOf_append, hletters, hmore]
  exact List.append_nil _

theorem parts_announce (w : World) (d : Option Departure) : w.Parts (w.announce d) d :=
  ⟨_, lettersOf_partingLetters d, w.delivered_announce d⟩

/-- Sending anything else tells of no departure. -/
theorem parts_send (w : World) (place : Place) {r : Response} (hkind : r.packet.isParting = false) :
    w.Parts (w.send place r) none := by
  refine parts_none ?_ (Sessions.delivered_send place r w.sessions)
  simp [lettersOf, hkind]

theorem parts_reply (w : World) (id : SessionId) {r : Response}
    (hkind : r.packet.isParting = false) : w.Parts (w.reply id r) none :=
  parts_none (lettersOf_map (fun _ => hkind) _) (w.delivered_reply id r)

theorem parts_retell (w : World) (place : Place) (room : RoomId) :
    w.Parts (w.retell place room) none :=
  parts_none (lettersOf_map (fun _ => rfl) _) (w.delivered_retell place room)

theorem parts_login (w : World) (id : SessionId) (username password : String) :
    w.Parts (w.login id username password) none := by
  unfold login
  split
  · exact parts_refl w
  · next place s _ =>
    split
    · exact w.parts_send place rfl
    · split
      · exact w.parts_send place rfl
      · split
        · exact w.parts_send place rfl
        · next gateway _ =>
          split
          · exact parts_refl w
          · have hlogin : w.Parts ({ w with gateway }.modify place (·.login username)) none :=
              parts_none rfl (Sessions.delivered_modify fun _ _ => Session.took_of_post_eq rfl)
            exact hlogin.before (parts_send _ place rfl)

theorem parts_register (w : World) (id : SessionId) (username password : String) :
    w.Parts (w.register id username password) none := by
  unfold register
  split
  · exact parts_refl w
  · exact w.parts_reply id rfl

theorem parts_chat (w : World) (id : SessionId) (message : String) :
    w.Parts (w.chat id message) none := by
  cases hu : w.utterance? id message with
  | none =>
    rw [chat_of_none hu]
    exact parts_refl w
  | some u =>
    rw [chat_of_some hu]
    exact parts_none (lettersOf_map (fun _ => rfl) _) (Sessions.delivered_broadcast ..)

theorem parts_move (w : World) (id : SessionId) (vx vy : Single) :
    w.Parts (w.move id vx vy) none := by
  unfold move
  split
  · exact parts_refl w
  · next lobby hsteer =>
    obtain ⟨room, r, -, rfl⟩ := Lobby.steer?_eq_some hsteer
    exact parts_refl w

theorem parts_leaveRoom (w : World) (id : SessionId) :
    w.Parts (w.leaveRoom id) (w.lobby.leave id).2 :=
  ⟨_, lettersOf_partingLetters _, w.delivered_leaveRoom id⟩

theorem parts_logout (w : World) (id : SessionId) (carried : Option String) :
    w.Parts (w.logout id carried) (w.lobby.leave id).2 := by
  -- taking the name off a session changes nothing about who is where
  have hsame : ((w.unname id carried).1.lobby.leave id).2 = (w.lobby.leave id).2 := by
    obtain ⟨sessions, hunname, -⟩ := w.unname_fst id carried
    rw [hunname, ← (Lobby.leave_floor _ id).2, ← (w.lobby.leave_floor id).2]
    rfl
  exact ⟨_, lettersOf_partingLetters _, hsame ▸ w.delivered_logout id carried⟩

theorem parts_enterRoom (hinUse : w.lobby.InUse) (hnumbered : w.Numbered) (id : SessionId)
    (room : RoomId) :
    w.Parts (w.enterRoom id room) (w.departure? (.request id (.enterRoom room))) := by
  cases hentry : w.entry? id room with
  | none =>
    have hstays : w.departure? (.request id (.enterRoom room)) = none := by
      simp [departure?, destination?, hentry]
    rw [hstays]
    rcases enterRoom_of_refused hentry with hsame | ⟨place, hsent⟩
    · rw [hsame]
      exact parts_refl w
    · rw [hsent]
      exact w.parts_send place rfl
  | some entry =>
    obtain ⟨place, s, a, lobby⟩ := entry
    obtain ⟨hfind, hsomebody, hjoin⟩ := entry?_eq_some.mp hentry
    obtain ⟨-, hs⟩ := find?_eq_some.mp hfind
    obtain rfl := hnumbered.find? hfind
    have hleft : w.departure? (.request s.id (.enterRoom room)) = a.left := by
      by_cases hi : w.lobby.index[s.id]? = some room
      · rw [(Lobby.join_listed hi hjoin).2]
        simp [departure?, destination?, Lobby.roomOf, hi]
      · rw [hinUse.consistent.left_of_join hs hi hjoin]
        simp [departure?, destination?, Lobby.roomOf, hi, hentry, Command.session]
    have hbound : w.Parts (w.withLobby lobby) none :=
      parts_none rfl (Sessions.delivered_of_map (Lobby.map_join (fun _ _ => rfl) hjoin))
    rw [hleft]
    simp only [enterRoom, hfind, hsomebody, hjoin, if_true]
    exact ((hbound.before (parts_announce _ a.left)).then (parts_send _ place rfl)).then
      (parts_retell _ place room)

theorem createRoom_of_refused {id : SessionId} {title : String}
    (h : w.opening? id title = none) :
    w.createRoom id title = w ∨
      ∃ place, w.createRoom id title = w.send place (.createRoomResult false ⟨0⟩) := by
  unfold createRoom
  unfold opening? at h
  split
  · exact .inl rfl
  · next place s hfind =>
    rw [hfind] at h
    dsimp only at h
    split
    · next hsomebody =>
      rw [if_pos hsomebody] at h
      split
      · next hok =>
        rw [hok] at h
        cases h
      · exact .inl rfl
    · exact .inr ⟨place, rfl⟩

theorem parts_createRoom (hnumbered : w.Numbered) (id : SessionId) (title : String) :
    w.Parts (w.createRoom id title) (w.departure? (.request id (.createRoom title))) := by
  cases hopening : w.opening? id title with
  | none =>
    have hstays : w.departure? (.request id (.createRoom title)) = none := by
      simp [departure?, destination?, hopening]
    rw [hstays]
    rcases createRoom_of_refused hopening with hsame | ⟨place, hsent⟩
    · rw [hsame]
      exact parts_refl w
    · rw [hsent]
      exact w.parts_send place rfl
  | some opened =>
    obtain ⟨place, s, a, lobby⟩ := opened
    obtain ⟨hfind, hsomebody, hok⟩ := opening?_eq_some.mp hopening
    obtain rfl := hnumbered.find? hfind
    have hleft : w.departure? (.request s.id (.createRoom title)) = a.left := by
      rw [Lobby.left_of_openRoom hok]
      simp [departure?, destination?, hopening, Command.session]
    have hbound : w.Parts (w.withLobby lobby) none :=
      parts_none rfl (Sessions.delivered_of_map (Lobby.map_openRoom (fun _ _ => rfl) hok))
    rw [hleft]
    simp only [createRoom, hfind, hsomebody, hok, if_true]
    exact (hbound.before (parts_announce _ a.left)).then (parts_send _ place rfl)

/-- **A command tells of the departure that it brings about, and of no other.** -/
theorem parts_execute (hinUse : w.lobby.InUse) (hnumbered : w.Numbered) (c : Command) :
    w.Parts (w.execute c) (w.departure? c) := by
  cases c with
  | hangUp id username => exact w.parts_logout id _
  | request id r =>
    cases r with
    | register username password => exact w.parts_register id username password
    | login username password => exact w.parts_login id username password
    | enterRoom room => exact parts_enterRoom hinUse hnumbered id room
    | leaveRoom => exact w.parts_leaveRoom id
    | move vx vy => exact w.parts_move id vx vy
    | chat message => exact w.parts_chat id message
    | createRoom title => exact parts_createRoom hnumbered id title
    | listRooms => exact w.parts_reply id rfl
    | logout => exact w.parts_logout id none

end Parting

/-! ### Who is told -/

section Told

variable {w : World}

/-- Nobody is closed by a command of somebody else. -/
theorem closed_execute (hnumbered : w.Numbered) (c : Command) {p : Place} {s t : Session}
    (hs : w.sessions[p]? = some s) (ht : (w.execute c).sessions[p]? = some t)
    (hother : s.id ≠ c.session) : t.closed = s.closed := by
  have hlogout : ∀ carried, (w.logout c.session carried).sessions[p]? = some t →
      t.closed = s.closed := by
    intro carried ht
    have hout : w.directory.find? c.session ≠ some p := fun hp => hother (hnumbered.own hp hs)
    have hbadge : (w.logout c.session carried).badges[p]? = w.badges[p]?.map fun b =>
        if carried = none ∧ w.directory.find? c.session = some p then { b with user := none }
        else b := by
      rw [logout_eq, badges_closeAt, badges_release, badges_leaveRoom, badges_unname]
      simp [hout]
    rw [badges_eq_some.mpr ⟨s, hs, rfl⟩, badges_eq_some.mpr ⟨t, ht, rfl⟩, Option.map_some,
      if_neg fun hboth => hout hboth.2] at hbadge
    exact congrArg Badge.closed (Option.some.inj hbadge)
  have hplace : ∀ {w' : World}, w'.sessions.map Session.closed = w.sessions.map Session.closed →
      w'.sessions[p]? = some t → t.closed = s.closed := by
    intro w' hsame ht
    obtain ⟨u, hu, hclosed⟩ := Sessions.getElem?_of_map_eq hsame ht
    rw [← hclosed, Option.some.inj (hu.symm.trans hs)]
  cases c with
  | hangUp id username => exact hlogout _ ht
  | request id r =>
    by_cases hr : r = .logout
    · subst hr
      exact hlogout none ht
    · exact hplace (closed_effect (w.answer_effect id r) hr) ht

/-- What is told of a departure goes to those who stay in the room, once to each. -/
theorem framesTo_departure (hconsistent : w.lobby.Consistent) {p : Place} {s : Session}
    (hs : w.sessions[p]? = some s) (id : SessionId) :
    framesTo p (partingLetters (w.lobby.leave id).2) =
      if s.id ≠ id ∧ s.room ≠ none ∧ s.room = w.lobby.roomOf id then
        [(Response.playerLeft id).frame] else [] := by
  have hreport := (hconsistent.leaves id).left
  cases hd : (w.lobby.leave id).2 with
  | none =>
    rw [hd] at hreport
    have hnowhere : w.lobby.roomOf id = none := hreport
    rw [if_neg]
    · rfl
    · rintro ⟨-, hsome, hroom⟩
      exact hsome (hroom.trans hnowhere)
  | some d =>
    rw [hd] at hreport
    have htells : d.Tells w.lobby id := hreport
    have hroom : w.lobby.roomOf id = some d.room := htells.listed
    rw [partingLetters, Option.toList_some, List.flatMap_singleton, Departure.letters,
      htells.session, framesTo_map (Response.fits_playerLeft id)
        (hconsistent.nodup_remaining htells)]
    congr 1
    rw [hconsistent.mem_remaining_iff htells hs, hroom, eq_iff_iff]
    refine and_congr_right fun _ => ⟨fun h => ⟨?_, h⟩, And.right⟩
    rw [h]
    exact Option.some_ne_none _

/-- A command takes its session out of the room that the session `s` is in, and leaves `s` there. -/
def Deserts (w : World) (c : Command) (s : Session) : Prop :=
  (w.destination? c).isSome ∧ s.id ≠ c.session ∧ s.room ≠ none ∧
    s.room = w.lobby.roomOf c.session

instance (w : World) (c : Command) (s : Session) : Decidable (w.Deserts c s) :=
  inferInstanceAs (Decidable (_ ∧ _))

/-- **What one command tells one session of departures.** -/
theorem partings_execute (hinUse : w.lobby.InUse) (hnumbered : w.Numbered) (c : Command)
    {p : Place} {s : Session} (hs : w.sessions[p]? = some s) :
    ∃ t, (w.execute c).sessions[p]? = some t ∧ t.id = s.id ∧
      (s.id ≠ c.session → t.closed = s.closed) ∧
      (t.closed = false → t.partings = s.partings ++
        if w.Deserts c s then [(Response.playerLeft c.session).frame] else []) ∧
      (s.closed = true ∨ ¬ w.Deserts c s → t.partings <+: s.partings) := by
  obtain ⟨letters, hletters, hdelivered⟩ := parts_execute hinUse hnumbered c
  obtain ⟨t, ht, htook⟩ := hdelivered.at hs
  have hsent : framesTo p (lettersOf Packet.isParting letters) =
      if w.Deserts c s then [(Response.playerLeft c.session).frame] else [] := by
    rw [hletters, departure?]
    by_cases hgoes : (w.destination? c).isSome
    · rw [if_pos hgoes, framesTo_departure hinUse.consistent hs]
      congr 1
      simp [Deserts, hgoes]
    · rw [if_neg hgoes, if_neg fun h => hgoes h.1]
      rfl
  refine ⟨t, ht, htook.id, closed_execute hnumbered c hs ht, ?_, ?_⟩
  · intro hopen
    rw [← hsent]
    exact htook.framesOf_eq hopen Packet.isParting
  · intro hnone
    apply htook.framesOf_prefix
    rw [hsent]
    exact hnone.imp_right fun h => if_neg h

end Told

/-! ### In every run -/

section Run

variable {w : World}

/-- **Whoever leaves is announced once to each of those who stay, and to nobody else.**  In any run
    let a command be executed.  It takes the session that it belongs to where it leads, which is
    somewhere if the session leaves, logs out, is let into a room it is not in or gets one of its
    own, and otherwise the session stays where it is.  Each open session in the room that was left
    is sent one word of it, and stays open.  No other session is sent any, whatever room it is in,
    and neither is anybody if the session was in no room or has stayed.  (A session that is closed
    in its own logout may only lose what it was still to be sent.) -/
theorem departures_announced (hstart : w.Pristine) (events : List Event) :
    let v := after next w events
    ∀ c : Command,
      let v' := v.next (.execute c)
      v'.lobby.roomOf c.session = (v.destination? c).getD (v.lobby.roomOf c.session) ∧
      ∀ (p : Place) (s : Session), v.sessions[p]? = some s →
        ∃ t, v'.sessions[p]? = some t ∧ t.id = s.id ∧
          (s.id ≠ c.session → t.closed = s.closed) ∧
          (t.closed = false → t.partings = s.partings ++
            if v.Deserts c s then [(Response.playerLeft c.session).frame] else []) ∧
          (s.closed = true ∨ ¬ v.Deserts c s → t.partings <+: s.partings) := by
  intro v c v'
  have htracked : v.Tracked ⟨0⟩ (marks ⟨0⟩ w events) := (hstart.tracked ⟨0⟩).after events
  let taken := v.dequeue c
  have hinUse : taken.lobby.InUse := htracked.inUse
  have hnumbered : taken.Numbered := htracked.numbered
  exact ⟨roomOf_execute hinUse hnumbered c,
    fun p s hs => partings_execute hinUse hnumbered c (by exact hs)⟩

/-- Ann and Bob are in one room and Cid is in another.  Ann makes a room of her own: Bob is told that
    she has left, and Cid is not. -/
theorem departures_announced_own_room :
    let database := ((({} : Database).seed 1 "ann" "a").seed 2 "bob" "b").seed 3 "cid" "c"
    let w : World := { gateway := { database } }
    let does (id : UInt32) (r : Request) : Event := .execute (.request ⟨id⟩ r)
    let makes : Command := .request ⟨1⟩ (.createRoom "Attic")
    let events : List Event :=
      [.connect 64, .connect 64, .connect 64, does 1 (.login "ann" "a"), does 2 (.login "bob" "b"),
        does 3 (.login "cid" "c"), does 1 (.enterRoom ⟨5⟩), does 2 (.enterRoom ⟨5⟩),
        does 3 (.enterRoom ⟨6⟩), .tell 1, .ask makes]
    let v := after next w events
    let v' := v.next (.execute makes)
    let told (p : Place) : Option (List Bytes) := v'.sessions[p]?.map Session.partings
    w.Pristine ∧ v.queue.pending = [makes] ∧ v'.lobby.roomOf ⟨1⟩ = some ⟨1⟩ ∧
      told 1 = some [(Response.playerLeft ⟨1⟩).frame] ∧ told 2 = some [] := by
  intro database w does makes events v v' told
  have hstart : w.Pristine := pristine_start {} {} database true
  have hpending : v.queue.pending = [makes] := by decide +kernel
  have hleads : (v.destination? makes).getD (v.lobby.roomOf ⟨1⟩) = some ⟨1⟩ := by decide +kernel
  have hbob : (v.sessions[1]?.map fun s =>
      (s.closed, s.partings, s.id, decide (v.Deserts makes s))) = some (false, [], ⟨2⟩, true) := by
    decide +kernel
  have hcid : (v.sessions[2]?.map fun s =>
      (s.closed, s.partings, s.id, decide (v.Deserts makes s))) = some (false, [], ⟨3⟩, false) := by
    decide +kernel
  obtain ⟨hroom, hsessions⟩ := departures_announced hstart events makes
  refine ⟨hstart, hpending, hroom.trans hleads, ?_, ?_⟩
  · obtain ⟨s, hs, hbefore⟩ := Option.map_eq_some_iff.mp hbob
    simp only [Prod.mk.injEq, decide_eq_true_eq] at hbefore
    obtain ⟨hopen, hnone, hid, hdeserted⟩ := hbefore
    obtain ⟨t, ht, -, hstays, htold, -⟩ := hsessions 1 s hs
    have hother : s.id ≠ makes.session := by
      rw [hid]
      decide
    have hmore := htold ((hstays hother).trans hopen)
    rw [hnone, if_pos hdeserted] at hmore
    exact Option.map_eq_some_iff.mpr ⟨t, ht, hmore⟩
  · obtain ⟨s, hs, hbefore⟩ := Option.map_eq_some_iff.mp hcid
    simp only [Prod.mk.injEq, decide_eq_false_iff_not] at hbefore
    obtain ⟨-, hnone, -, hspared⟩ := hbefore
    obtain ⟨t, ht, -, -, -, hprefix⟩ := hsessions 2 s hs
    have hless := hprefix (.inr hspared)
    rw [hnone, List.prefix_nil] at hless
    exact Option.map_eq_some_iff.mpr ⟨t, ht, hless⟩

end Run

end World

end GameServer
