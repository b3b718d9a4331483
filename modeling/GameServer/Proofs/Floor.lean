import GameServer.Proofs.History
import GameServer.Proofs.Players

/-!
The floor: the rooms and whoever is in them, the sessions aside.

Sending and hearing, logging in and closing are matters of sessions and leave the floor as it is.
Besides the passing of time, only commands change it, and of those only the ones by which somebody
comes into a room, goes out of it, or goes elsewhere in it.
-/

namespace GameServer

open Wire

namespace Lobby

/-- The lobby without its sessions. -/
def floor (l : Lobby) : Lobby := { l with sessions := [] }

variable {l l' : Lobby}

/-- Lobbies of one floor agree in everything that does not depend on sessions. -/
theorem eq_of_floor_eq {α : Type} (f : Lobby → α) (hf : ∀ m : Lobby, f m.floor = f m)
    (h : l'.floor = l.floor) : f l' = f l := by rw [← hf, h, hf]

theorem player?_of_floor_eq (h : l'.floor = l.floor) (id : SessionId) :
    l'.player? id = l.player? id := eq_of_floor_eq (·.player? id) (fun _ => rfl) h

/-- Who leaves, and who stays, is a matter of the floor. -/
theorem leave_floor (l : Lobby) (id : SessionId) :
    (l.floor.leave id).1.floor = (l.leave id).1.floor ∧
      (l.floor.leave id).2 = (l.leave id).2 := by
  unfold leave
  cases hi : l.index[id]? with
  | none => simp [floor, hi]
  | some room =>
    cases hr : l.rooms[room]? with
    | none => simp [floor, hi, hr]
    | some r => cases hplace : r.members[id]? <;> simp [floor, bind, hi, hr, hplace]

theorem floor_leave_congr (h : l'.floor = l.floor) (id : SessionId) :
    (l'.leave id).1.floor = (l.leave id).1.floor := by
  rw [← (l'.leave_floor id).1, h, (l.leave_floor id).1]

theorem floor_tellAll (l : Lobby) (tick : UInt32) : (l.tellAll tick).1.floor = l.floor := by
  obtain ⟨sessions, htold, -⟩ := tellEach_traffic (l.views tick) l
  rw [tellAll, htold]
  rfl

end Lobby

namespace World

variable (w : World)

/-! ### What leaves the floor as it is -/

theorem floor_announce (d : Option Departure) : (w.announce d).lobby.floor = w.lobby.floor := by
  cases d <;> rfl

theorem floor_reply (id : SessionId) (r : Response) :
    (w.reply id r).lobby.floor = w.lobby.floor := by
  unfold reply
  split <;> rfl

theorem floor_retell (place : Place) (room : RoomId) :
    (w.retell place room).lobby.floor = w.lobby.floor := by
  unfold retell
  generalize (w.gateway.history room).reverse = lines
  induction lines generalizing w with
  | nil => rfl
  | cons line rest ih => exact ih (w.send place _)

theorem floor_report (outcomes : List Registration) :
    (w.report outcomes).lobby.floor = w.lobby.floor := by
  induction outcomes generalizing w with
  | nil => rfl
  | cons r rest ih => exact (ih _).trans (w.floor_reply ..)

theorem floor_receive (place : Place) (s : Session) (bytes : Bytes) :
    (w.receive place s bytes).lobby.floor = w.lobby.floor := by
  unfold receive
  split
  · rfl
  · dsimp only
    split <;> rfl

theorem floor_dispatch (c : Completion) : (w.dispatch c).2.lobby.floor = w.lobby.floor := by
  unfold dispatch
  split
  · rfl
  · split
    · rfl
    · cases c with
      | received session bytes => exact w.floor_receive ..
      | sent | failed | shutdown => rfl

theorem floor_completeSend (place : Place) :
    (w.completeSend place).2.lobby.floor = w.lobby.floor := by
  unfold completeSend
  split
  · rfl
  · split
    · exact w.floor_dispatch _
    · exact floor_dispatch ..

theorem floor_hear (place : Place) (bytes : Bytes) :
    (w.hear place bytes).lobby.floor = w.lobby.floor := by
  unfold hear
  split <;> rfl

theorem floor_write (i : Nat) : (w.write i).lobby.floor = w.lobby.floor := by
  unfold write
  split
  · rfl
  · exact floor_report ..

theorem floor_closeAt (found : Option Place) : (w.closeAt found).lobby.floor = w.lobby.floor := by
  cases found <;> rfl

/-- **Only commands and the passing of time change the floor.** -/
theorem floor_next {e : Event} (hexecute : ∀ c, e ≠ .execute c)
    (hadvance : ∀ dt, e ≠ .advance dt) : (w.next e).lobby.floor = w.lobby.floor := by
  cases e with
  | execute c => exact absurd rfl (hexecute c)
  | advance dt => exact absurd rfl (hadvance dt)
  | complete c => exact w.floor_dispatch c
  | hear place bytes => exact w.floor_hear place bytes
  | finishSend place => exact w.floor_completeSend place
  | tell tick => exact w.lobby.floor_tellAll tick
  | write i => exact w.floor_write i
  | connect | disconnect | forget | dropAll | ask | stores | stopStores => rfl

/-! ### Commands -/

/-- What a request to make a room comes to, if it is granted. -/
def opening? (w : World) (id : SessionId) (title : String) :
    Option (Place × Session × Arrival × Lobby) :=
  match w.find? id with
  | none => none
  | some (place, s) =>
    if s.loggedIn then
      match w.lobby.openRoom place s (w.titleFor title) with
      | .ok (a, lobby) => some (place, s, a, lobby)
      | .error _ => none
    else none

variable {w} {id : SessionId} {title : String} {place : Place} {s : Session} {a : Arrival}
  {lobby : Lobby}

theorem opening?_eq_some :
    w.opening? id title = some (place, s, a, lobby) ↔
      w.find? id = some (place, s) ∧ s.loggedIn = true ∧
        w.lobby.openRoom place s (w.titleFor title) = .ok (a, lobby) := by
  unfold opening?
  constructor
  · intro hopening
    split at hopening
    · cases hopening
    · split at hopening
      · next hfind hsomebody =>
        split at hopening
        · next hok =>
          cases hopening
          exact ⟨hfind, hsomebody, hok⟩
        · cases hopening
      · cases hopening
  · rintro ⟨hfind, hsomebody, hok⟩
    simp only [hfind, hsomebody, hok, if_true]

variable (w id)

theorem floor_enterRoom (room : RoomId) :
    (w.enterRoom id room).lobby.floor =
      (((w.entry? id room).map (·.2.2.2)).getD w.lobby).floor := by
  cases hentry : w.entry? id room with
  | none =>
    rcases enterRoom_of_refused hentry with hsame | ⟨place, hsent⟩
    · rw [hsame]
      rfl
    · rw [hsent]
      rfl
  | some entry =>
    obtain ⟨place, s, a, lobby⟩ := entry
    obtain ⟨hfind, hsomebody, hjoin⟩ := entry?_eq_some.mp hentry
    simp only [enterRoom, hfind, hsomebody, hjoin, if_true]
    rw [floor_retell]
    exact (w.withLobby lobby).floor_announce a.left

theorem floor_createRoom (title : String) :
    (w.createRoom id title).lobby.floor =
      (((w.opening? id title).map (·.2.2.2)).getD w.lobby).floor := by
  unfold createRoom opening?
  cases hfind : w.find? id with
  | none => rfl
  | some found =>
    obtain ⟨place, s⟩ := found
    by_cases hsomebody : s.loggedIn = true
    · simp only [hsomebody, if_true]
      cases hok : w.lobby.openRoom place s (w.titleFor title) with
      | error fault => rfl
      | ok opened =>
        obtain ⟨a, lobby⟩ := opened
        exact (w.withLobby lobby).floor_announce a.left
    · simp only [hsomebody]
      rfl

theorem floor_login (username password : String) :
    (w.login id username password).lobby.floor = w.lobby.floor := by
  unfold login
  split
  · rfl
  · split
    · rfl
    · split
      · rfl
      · split
        · rfl
        · split <;> rfl

theorem floor_register (username password : String) :
    (w.register id username password).lobby.floor = w.lobby.floor := by
  unfold register
  split
  · rfl
  · exact w.floor_reply ..

theorem floor_chat (message : String) : (w.chat id message).lobby.floor = w.lobby.floor := by
  cases hu : w.utterance? id message with
  | none => rw [chat_of_none hu]
  | some u =>
    rw [chat_of_some hu]
    rfl

theorem floor_move (vx vy : Single) :
    (w.move id vx vy).lobby.floor = ((w.lobby.steer? id vx vy).getD w.lobby).floor := by
  unfold move
  split
  · next hnone =>
    rw [hnone]
    rfl
  · next lobby hsteer =>
    rw [hsteer]
    rfl

theorem floor_leaveRoom : (w.leaveRoom id).lobby.floor = (w.lobby.leave id).1.floor :=
  floor_announce ..

theorem floor_logout (carried : Option String) :
    (w.logout id carried).lobby.floor = (w.lobby.leave id).1.floor := by
  obtain ⟨sessions, hunname, -⟩ := w.unname_fst id carried
  rw [logout_eq, floor_closeAt, lobby_release, floor_leaveRoom]
  apply Lobby.floor_leave_congr
  rw [hunname]
  rfl

end World

end GameServer
