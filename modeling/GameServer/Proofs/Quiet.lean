import GameServer.Proofs.Admission
import GameServer.Proofs.OnlineNames
import GameServer.World.Execute

/-!
What a request can do.

Most of what the world does is quiet: it sends, it remembers, it moves players about, and
afterwards the same sessions are logged in, in the same rooms, registered under the same
numbers.  What is not quiet is short enough to be listed.  `answer_effect` lists everything
that a request can do, and is all that needs to be known of requests to follow who is who
and who is where.
-/

namespace GameServer

open Wire

namespace World

/-! ### Quiet changes -/

/-- Afterwards everybody is who they were and where they were, the same commands wait, and the
    same names are online. -/
structure Quiet (w w' : World) : Prop where
  standing : w'.sessions.map Session.standing = w.sessions.map Session.standing
  shapes : ∀ room : RoomId,
    w'.lobby.rooms[room]?.map Room.shape = w.lobby.rooms[room]?.map Room.shape
  index : w'.lobby.index = w.lobby.index
  directory : w'.directory = w.directory
  queue : w'.queue = w.queue
  online : ∀ name, w'.gateway.IsOnline name ↔ w.gateway.IsOnline name

theorem Quiet.refl (w : World) : Quiet w w := ⟨rfl, fun _ => rfl, rfl, rfl, rfl, fun _ => .rfl⟩

theorem Quiet.trans {w w' w'' : World} (h : Quiet w w') (h' : Quiet w' w'') : Quiet w w'' where
  standing := h'.standing.trans h.standing
  shapes room := (h'.shapes room).trans (h.shapes room)
  index := h'.index.trans h.index
  directory := h'.directory.trans h.directory
  queue := h'.queue.trans h.queue
  online name := (h'.online name).trans (h.online name)

section Traffic

variable (w : World)

theorem quiet_withSessions {sessions : List Session}
    (h : sessions.map Session.standing = w.sessions.map Session.standing) :
    Quiet w (w.withSessions sessions) :=
  ⟨h, fun _ => rfl, rfl, rfl, rfl, fun _ => .rfl⟩

theorem quiet_modify {place : Place} {f : Session → Session}
    (h : ∀ s, w.sessions[place]? = some s → (f s).standing = s.standing) :
    Quiet w (w.modify place f) :=
  w.quiet_withSessions (Sessions.map_modify_of_eq h)

theorem quiet_withGateway {gateway : Gateway}
    (h : ∀ name, gateway.IsOnline name ↔ w.gateway.IsOnline name) :
    Quiet w { w with gateway } :=
  ⟨rfl, fun _ => rfl, rfl, rfl, rfl, h⟩

theorem quiet_send (place : Place) (r : Response) : Quiet w (w.send place r) :=
  w.quiet_withSessions (Sessions.map_standing_send place r w.sessions)

theorem quiet_reply (id : SessionId) (r : Response) : Quiet w (w.reply id r) := by
  unfold reply
  split
  · exact .refl w
  · exact w.quiet_send ..

theorem quiet_announce (d : Option Departure) : Quiet w (w.announce d) := by
  cases d with
  | none => exact .refl w
  | some d => exact w.quiet_withSessions (Sessions.map_standing_broadcast ..)

theorem quiet_retell (place : Place) (room : RoomId) : Quiet w (w.retell place room) := by
  unfold retell
  generalize (w.gateway.history room).reverse = lines
  induction lines generalizing w with
  | nil => exact .refl w
  | cons line rest ih => exact (w.quiet_send ..).trans (ih _)

theorem quiet_report (outcomes : List Registration) : Quiet w (w.report outcomes) := by
  induction outcomes generalizing w with
  | nil => exact .refl w
  | cons r rest ih => exact (w.quiet_reply ..).trans (ih _)

theorem quiet_tellAll (tick : UInt32) : Quiet w (w.withLobby (w.lobby.tellAll tick).1) := by
  obtain ⟨sessions, htold, hstanding⟩ := Lobby.tellEach_traffic (w.lobby.views tick) w.lobby
  rw [Lobby.tellAll, htold]
  exact w.quiet_withSessions hstanding

theorem quiet_advance (dt : Single) : Quiet w (w.withLobby (w.lobby.advance dt)) :=
  ⟨rfl, Lobby.shape_advance w.lobby dt, rfl, rfl, rfl, fun _ => .rfl⟩

end Traffic

/-! ### Quiet requests -/

section Requests

variable (w : World) (id : SessionId)

theorem quiet_register (username password : String) :
    Quiet w (w.register id username password) := by
  unfold register
  split
  · next gateway hpost =>
    refine w.quiet_withGateway fun name => ?_
    rw [Gateway.IsOnline, Gateway.cache_post? hpost, Gateway.IsOnline]
  · exact w.quiet_reply ..

theorem quiet_move (vx vy : Single) : Quiet w (w.move id vx vy) := by
  unfold move
  split
  · exact .refl w
  · next lobby hsteer =>
    have hshape := Lobby.shape_steer? hsteer
    obtain ⟨room, r, -, rfl⟩ := Lobby.steer?_eq_some hsteer
    exact ⟨rfl, hshape, rfl, rfl, rfl, fun _ => .rfl⟩

theorem quiet_chat (message : String) : Quiet w (w.chat id message) := by
  unfold chat
  split
  · exact .refl w
  · next room _ =>
    split
    · exact .refl w
    · next place s _ =>
      dsimp only
      refine (w.quiet_withSessions (Sessions.map_standing_broadcast ..)).trans
        (quiet_withGateway _ fun name => ?_)
      cases hpost : (w.gateway.remember room s.name message).post?
          (.saveChat ⟨id, s.name, message, room⟩) with
      | none => exact Gateway.isOnline_remember ..
      | some gateway =>
        rw [Option.getD_some, Gateway.IsOnline, Gateway.cache_post? hpost]
        exact Gateway.isOnline_remember ..

theorem quiet_listRooms : Quiet w (w.listRooms id) := w.quiet_reply ..

end Requests

/-! ### All requests -/

/-- A number finds the session at the place that the directory names. -/
theorem find?_eq_some {w : World} {id : SessionId} {place : Place} {s : Session} :
    w.find? id = some (place, s) ↔
      w.directory.find? id = some place ∧ w.sessions[place]? = some s := by
  unfold find?
  cases w.directory.find? id with
  | none => simp
  | some found =>
    cases hs : w.sessions[found]? with
    | none =>
      simp only [Option.bind_eq_bind, Option.bind_some, hs, Option.bind_none, reduceCtorEq,
        Option.some.injEq, false_iff, not_and]
      rintro rfl
      simp [hs]
    | some t =>
      simp only [Option.bind_eq_bind, Option.bind_some, hs, Option.pure_def, Option.some.injEq,
        Prod.mk.injEq]
      refine and_congr_right ?_
      rintro rfl
      simp [hs]

/-- What a request of the session with a number can make of the world. -/
inductive Effect (w : World) (id : SessionId) (r : Request) : World → Prop
  | quiet {w' : World} (done : Quiet w w') : Effect w id r w'
  /-- Somebody is logged in whose name was not online. -/
  | login {place : Place} {s : Session} {username : String} {gateway : Gateway} {w' : World}
      (found : w.find? id = some (place, s)) (isOpen : s.closed = false)
      (nobody : s.user = none) (offline : ¬ w.gateway.IsOnline username)
      (marked : ∀ other, gateway.IsOnline other ↔ other = username ∨ w.gateway.IsOnline other)
      (done : Quiet ({ w with gateway }.modify place (·.login username)) w') : Effect w id r w'
  /-- Somebody who is logged in joins a room. -/
  | join {place : Place} {s : Session} {room : RoomId} {a : Arrival} {lobby : Lobby} {w' : World}
      (found : w.find? id = some (place, s)) (somebody : s.user ≠ none)
      (joined : w.lobby.join place s room = .ok (a, lobby))
      (done : Quiet (w.withLobby lobby) w') : Effect w id r w'
  /-- Somebody who is logged in makes a room. -/
  | openRoom {place : Place} {s : Session} {title : String} {a : Arrival} {lobby : Lobby}
      {w' : World} (found : w.find? id = some (place, s)) (somebody : s.user ≠ none)
      (opened : w.lobby.openRoom place s title = .ok (a, lobby))
      (done : Quiet (w.withLobby lobby) w') : Effect w id r w'
  | leave {w' : World} (done : Quiet (w.withLobby (w.lobby.leave id).1) w') : Effect w id r w'
  | logout (asked : r = .logout) : Effect w id r (w.logout id none)

section Effects

variable (w : World) (id : SessionId)

theorem user_ne_none {s : Session} (h : s.loggedIn = true) : s.user ≠ none := by
  intro hnone
  simp [Session.loggedIn, hnone] at h

theorem login_effect (username password : String) :
    Effect w id (.login username password) (w.login id username password) := by
  unfold login
  split
  · exact .quiet (.refl w)
  · next place s hfind =>
    split
    · exact .quiet (w.quiet_send ..)
    · next hnobody =>
      split
      · exact .quiet (w.quiet_send ..)
      · split
        · next gateway hadd =>
          exact .quiet ((w.quiet_withGateway (Gateway.isOnline_of_addPresence_refused hadd)).trans
            (quiet_send ..))
        · next gateway hadd =>
          obtain ⟨-, hup, hoffline, hmarked⟩ := Gateway.isOnline_addPresence hadd
          split
          · -- the session is closed, and the name is given back
            refine .quiet (w.quiet_withGateway fun name => ?_)
            rw [Gateway.isOnline_removePresence hup, hmarked]
            constructor
            · rintro ⟨hne, rfl | hname⟩
              · exact absurd rfl hne
              · exact hname
            · intro hname
              refine ⟨?_, .inr hname⟩
              rintro rfl
              exact hoffline hname
          · next hopen =>
            have hnone : s.user = none := by simpa [Session.loggedIn] using hnobody
            exact .login hfind (by simpa using hopen) hnone hoffline hmarked (quiet_send ..)

theorem enterRoom_effect (room : RoomId) :
    Effect w id (.enterRoom room) (w.enterRoom id room) := by
  unfold enterRoom
  split
  · exact .quiet (.refl w)
  · next place s hfind =>
    split
    · next hsomebody =>
      split
      · next joined lobby hok =>
        refine .join hfind (user_ne_none hsomebody) hok ?_
        exact ((quiet_announce ..).trans (quiet_send ..)).trans (quiet_retell ..)
      · exact .quiet (w.quiet_send ..)
      · exact .quiet (.refl w)
    · exact .quiet (w.quiet_send ..)

theorem createRoom_effect (title : String) :
    Effect w id (.createRoom title) (w.createRoom id title) := by
  unfold createRoom
  split
  · exact .quiet (.refl w)
  · next place s hfind =>
    split
    · next hsomebody =>
      split
      · next joined lobby hok =>
        refine .openRoom hfind (user_ne_none hsomebody) hok ?_
        exact (quiet_announce ..).trans (quiet_send ..)
      · exact .quiet (.refl w)
    · exact .quiet (w.quiet_send ..)

/-- **Whatever is asked for, it does one of the things listed.** -/
theorem answer_effect (r : Request) : Effect w id r (w.answer id r) := by
  cases r with
  | register username password => exact .quiet (w.quiet_register id username password)
  | login username password => exact w.login_effect id username password
  | enterRoom room => exact w.enterRoom_effect id room
  | leaveRoom => exact .leave (quiet_announce ..)
  | move vx vy => exact .quiet (w.quiet_move id vx vy)
  | chat message => exact .quiet (w.quiet_chat id message)
  | createRoom title => exact w.createRoom_effect id title
  | listRooms => exact .quiet (w.quiet_listRooms id)
  | logout => exact .logout rfl

end Effects

end World

end GameServer
