import GameServer.Proofs.Floor
import GameServer.Proofs.Numbering
import GameServer.World.Tick

/-!
Where everybody stands, told from what has happened to them.

A player comes into a room, asks to go here or there, and time passes.  Whatever else happens is
nothing to them.  So where a player stands can be told without any room: from the moment they came
in they have made one step in every tick, at the velocity that they had asked for last.
-/

namespace GameServer

open Wire

/-! ### The history of one player -/

/-- Something that happens to one player. -/
inductive Mark where
  /-- They come into a room, from another one or from none. -/
  | entered (room : RoomId)
  /-- They ask to go elsewhere. -/
  | moved (vx vy : Single)
  /-- Time passes. -/
  | passed (dt : Single)
deriving DecidableEq, Repr

def Mark.room? : Mark → Option RoomId
  | entered room => some room
  | moved .. | passed _ => none

def Mark.velocity? : Mark → Option (Single × Single)
  | moved vx vy => some (vx, vy)
  | entered _ | passed _ => none

def Mark.time? : Mark → Option Single
  | passed dt => some dt
  | entered _ | moved .. => none

/-- What has happened since the player came into the room they are in. -/
def sinceEntry (marks : List Mark) : List Mark := marks.rtakeWhile (·.room? = none)

/-- What a history tells last of something. -/
def latest {α : Type} (f : Mark → Option α) (marks : List Mark) : Option α :=
  (marks.filterMap f).getLast?

/-- The velocity asked for last; none at all as long as nothing was asked for. -/
def heading (marks : List Mark) : Single × Single :=
  (latest Mark.velocity? marks).getD (.zero, .zero)

/-- The steps of a player: one for every time that passes, at the velocity asked for last until
    then. -/
def strides (marks : List Mark) : List ((Single × Single) × Single) :=
  marks.inits.filterMap fun past =>
    (past.getLast?.bind Mark.time?).map (heading past, ·)

namespace Player

def position (p : Player) : Single × Single := (p.x, p.y)

def velocity (p : Player) : Single × Single := (p.vx, p.vy)

/-- Where `dt` seconds at a velocity lead.  Whose they are is no matter. -/
def stride (start velocity : Single × Single) (dt : Single) : Single × Single :=
  let p : Player :=
    { session := ⟨0⟩, name := guestName, room := ⟨0⟩
      x := start.1, y := start.2, vx := velocity.1, vy := velocity.2 }
  (p.integrate dt).position

theorem position_integrate (dt : Single) (p : Player) :
    (p.integrate dt).position = stride p.position p.velocity dt := rfl

end Player

/-- Where the steps of a player lead from the origin. -/
def whereabouts (marks : List Mark) : Single × Single :=
  (strides marks).foldl (fun start leg => Player.stride start leg.1 leg.2) (.zero, .zero)

/-- A player is in the room that they came into last, and where their steps have led them since. -/
structure Player.Follows (p : Player) (marks : List Mark) : Prop where
  room : latest Mark.room? marks = some p.room
  position : p.position = whereabouts (sinceEntry marks)
  velocity : p.velocity = heading (sinceEntry marks)

section History

variable {marks : List Mark} {p : Player}

theorem strides_concat (marks : List Mark) (m : Mark) :
    strides (marks ++ [m]) = strides marks ++ (m.time?.map (heading (marks ++ [m]), ·)).toList := by
  rw [strides, List.inits_append, List.filterMap_append, strides]
  cases m <;> simp [Mark.time?]

theorem latest_of_none {α : Type} {f : Mark → Option α} {m : Mark} (h : f m = none) :
    latest f (marks ++ [m]) = latest f marks := by
  rw [latest, List.filterMap_append, List.filterMap_cons_none h, List.filterMap_nil,
    List.append_nil, latest]

theorem latest_of_some {α : Type} {f : Mark → Option α} {m : Mark} {x : α} (h : f m = some x) :
    latest f (marks ++ [m]) = some x := by
  rw [latest, List.filterMap_append, List.filterMap_cons_some h, List.filterMap_nil,
    List.getLast?_concat]

theorem heading_of_none {m : Mark} (h : m.velocity? = none) :
    heading (marks ++ [m]) = heading marks := by
  rw [heading, latest_of_none h, heading]

theorem whereabouts_of_none {m : Mark} (h : m.time? = none) :
    whereabouts (marks ++ [m]) = whereabouts marks := by
  rw [whereabouts, strides_concat, h, whereabouts]
  simp

theorem whereabouts_passed (marks : List Mark) (dt : Single) :
    whereabouts (marks ++ [.passed dt]) =
      Player.stride (whereabouts marks) (heading marks) dt := by
  rw [whereabouts, strides_concat, List.foldl_append, heading_of_none rfl]
  rfl

theorem sinceEntry_of_none {m : Mark} (h : m.room? = none) :
    sinceEntry (marks ++ [m]) = sinceEntry marks ++ [m] := by
  rw [sinceEntry, List.rtakeWhile_concat, if_pos (by simpa using h), sinceEntry]

/-- Whoever comes in starts anew, whatever they did before. -/
theorem Player.follows_entered (hposition : p.position = (.zero, .zero))
    (hvelocity : p.velocity = (.zero, .zero)) : p.Follows (marks ++ [.entered p.room]) := by
  have hanew : sinceEntry (marks ++ [.entered p.room]) = [] := by
    rw [sinceEntry, List.rtakeWhile_concat, if_neg (by simp [Mark.room?])]
  constructor
  · exact latest_of_some rfl
  · rw [hanew]
    exact hposition
  · rw [hanew]
    exact hvelocity

theorem Player.Follows.steer (h : p.Follows marks) (vx vy : Single) :
    (p.steer vx vy).Follows (marks ++ [.moved vx vy]) := by
  constructor
  · rw [latest_of_none rfl]
    exact h.room
  · rw [sinceEntry_of_none rfl, whereabouts_of_none rfl]
    exact h.position
  · rw [sinceEntry_of_none rfl, heading, latest_of_some (x := (vx, vy)) rfl]
    rfl

theorem Player.Follows.integrate (h : p.Follows marks) (dt : Single) :
    (p.integrate dt).Follows (marks ++ [.passed dt]) := by
  constructor
  · rw [latest_of_none rfl]
    exact h.room
  · rw [sinceEntry_of_none rfl, whereabouts_passed, position_integrate, h.position, h.velocity]
  · rw [sinceEntry_of_none rfl, heading_of_none rfl]
    exact h.velocity

end History

namespace World

/-! ### What commands do to a player -/

/-- The player that a command leaves to the session it belongs to. -/
def playerLeft (w : World) : Command → Option Player
  | .hangUp .. => none
  | .request id r =>
    match r with
    | .leaveRoom | .logout => none
    | .move vx vy => (w.lobby.player? id).map (Player.steer vx vy)
    | .enterRoom room =>
      match w.entry? id room with
      | none => w.lobby.player? id
      | some (_, s, _) =>
        if w.lobby.roomOf id = some room then w.lobby.player? id
        else some (Lobby.newcomer s room)
    | .createRoom title =>
      match w.opening? id title with
      | none => w.lobby.player? id
      | some (_, s, a, _) => some (Lobby.newcomer s a.room)
    | .register .. | .login .. | .chat _ | .listRooms => w.lobby.player? id

/-- What a command means to the player of a number. -/
def markOf (w : World) (id : SessionId) : Command → Option Mark
  | .hangUp .. => none
  | .request who r =>
    if who = id then
      match r with
      | .enterRoom room =>
        if (w.entry? id room).isSome ∧ w.lobby.roomOf id ≠ some room then some (.entered room)
        else none
      | .createRoom title => (w.opening? id title).map fun opened => .entered opened.2.2.1.room
      | .move vx vy => some (.moved vx vy)
      | _ => none
    else none

section Commands

variable {w : World} {who id : SessionId} {room : RoomId}

theorem player?_enterRoom (hinUse : w.lobby.InUse) (hnumbered : w.Numbered) (who : SessionId)
    (room : RoomId) (id : SessionId) :
    (w.enterRoom who room).lobby.player? id =
      if id = who then w.playerLeft (.request who (.enterRoom room))
      else w.lobby.player? id := by
  rw [Lobby.player?_of_floor_eq (w.floor_enterRoom who room), playerLeft]
  cases hentry : w.entry? who room with
  | none =>
    split
    · next heq => rw [heq]; rfl
    · rfl
  | some entry =>
    obtain ⟨place, s, a, lobby⟩ := entry
    obtain ⟨hfind, -, hjoin⟩ := entry?_eq_some.mp hentry
    rw [Option.map_some, Option.getD_some, hinUse.consistent.player?_join hjoin,
      hnumbered.find? hfind]
    dsimp only [Lobby.roomOf]
    by_cases hid : id = who
    · subst hid
      by_cases hthere : w.lobby.index[id]? = some room
      · simp [hthere]
      · simp [hthere]
    · simp [hid]

theorem player?_createRoom (hinUse : w.lobby.InUse) (hnumbered : w.Numbered) (who : SessionId)
    (title : String) (id : SessionId) :
    (w.createRoom who title).lobby.player? id =
      if id = who then w.playerLeft (.request who (.createRoom title))
      else w.lobby.player? id := by
  rw [Lobby.player?_of_floor_eq (w.floor_createRoom who title), playerLeft]
  cases hopening : w.opening? who title with
  | none =>
    split
    · next heq => rw [heq]; rfl
    · rfl
  | some opened =>
    obtain ⟨place, s, a, lobby⟩ := opened
    obtain ⟨hfind, -, hopened⟩ := opening?_eq_some.mp hopening
    obtain ⟨-, hs⟩ := find?_eq_some.mp hfind
    have hfree : (w.lobby.leave s.id).1.HasFreeId :=
      (hinUse.leave s.id).hasFreeId (hinUse.consistent.ready hs).1
    rw [Option.map_some, Option.getD_some, hinUse.consistent.player?_openRoom hfree hopened,
      hnumbered.find? hfind]

theorem player?_move (hinUse : w.lobby.InUse) (who : SessionId) (vx vy : Single) (id : SessionId) :
    (w.move who vx vy).lobby.player? id =
      if id = who then (w.lobby.player? who).map (Player.steer vx vy)
      else w.lobby.player? id := by
  rw [Lobby.player?_of_floor_eq (w.floor_move who vx vy)]
  cases hsteer : w.lobby.steer? who vx vy with
  | none =>
    rw [hinUse.consistent.player?_of_steer?_none hsteer]
    split
    · next heq =>
      rw [heq]
      exact hinUse.consistent.player?_of_steer?_none hsteer
    · rfl
  | some moved => exact hinUse.consistent.player?_steer? hsteer id

theorem player?_logout (hinUse : w.lobby.InUse) (who : SessionId) (carried : Option String)
    (id : SessionId) :
    (w.logout who carried).lobby.player? id =
      if id = who then none else w.lobby.player? id := by
  rw [Lobby.player?_of_floor_eq (w.floor_logout who carried), hinUse.consistent.player?_leave]

/-- **A command is something to one player, and nothing to all others.** -/
theorem player?_execute (hinUse : w.lobby.InUse) (hnumbered : w.Numbered) (c : Command)
    (id : SessionId) :
    (w.execute c).lobby.player? id =
      if id = c.session then w.playerLeft c else w.lobby.player? id := by
  have hsame : ∀ {v : World} (who : SessionId), v.lobby.floor = w.lobby.floor →
      v.lobby.player? id = if id = who then w.lobby.player? who else w.lobby.player? id := by
    intro v who hfloor
    rw [Lobby.player?_of_floor_eq hfloor]
    split
    · next heq => rw [heq]
    · rfl
  cases c with
  | hangUp who username => exact player?_logout hinUse who _ id
  | request who r =>
    cases r with
    | register username password => exact hsame who (w.floor_register who username password)
    | login username password => exact hsame who (w.floor_login who username password)
    | chat message => exact hsame who (w.floor_chat who message)
    | listRooms => exact hsame who (w.floor_reply who _)
    | enterRoom room => exact player?_enterRoom hinUse hnumbered who room id
    | createRoom title => exact player?_createRoom hinUse hnumbered who title id
    | move vx vy => exact player?_move hinUse who vx vy id
    | logout => exact player?_logout hinUse who none id
    | leaveRoom =>
      change (w.leaveRoom who).lobby.player? id = _
      rw [Lobby.player?_of_floor_eq (w.floor_leaveRoom who), hinUse.consistent.player?_leave]
      rfl

/-- **What a command means to a player is what it does to them.** -/
theorem follows_execute (hinUse : w.lobby.InUse) (hnumbered : w.Numbered) (c : Command)
    {marks : List Mark} (h : ∀ p, w.lobby.player? id = some p → p.Follows marks) {p : Player}
    (hp : (w.execute c).lobby.player? id = some p) :
    p.Follows (marks ++ (w.markOf id c).toList) := by
  rw [player?_execute hinUse hnumbered] at hp
  have hstays : w.lobby.player? id = some p → w.markOf id c = none →
      p.Follows (marks ++ (w.markOf id c).toList) := by
    intro hp hmark
    rw [hmark, Option.toList_none, List.append_nil]
    exact h p hp
  split at hp
  · next hown =>
    subst hown
    cases c with
    | hangUp who username => cases hp
    | request who r =>
      dsimp only [Command.session] at hstays h ⊢
      cases r with
      | register | login | chat | listRooms => exact hstays hp (if_pos rfl)
      | leaveRoom | logout => cases hp
      | move vx vy =>
        obtain ⟨before, hbefore, rfl⟩ := Option.map_eq_some_iff.mp hp
        rw [markOf, if_pos rfl]
        exact (h before hbefore).steer vx vy
      | enterRoom room =>
        dsimp only [playerLeft] at hp
        cases hentry : w.entry? who room with
        | none =>
          rw [hentry] at hp
          exact hstays hp (by simp [markOf, hentry])
        | some entry =>
          rw [hentry] at hp
          dsimp only at hp
          split at hp
          · next hthere => exact hstays hp (by simp [markOf, hthere])
          · next hcomes =>
            cases hp
            have hmark : w.markOf who (.request who (.enterRoom room)) = some (.entered room) := by
              simp [markOf, hentry, hcomes]
            rw [hmark]
            exact Player.follows_entered rfl rfl
      | createRoom title =>
        dsimp only [playerLeft] at hp
        cases hopening : w.opening? who title with
        | none =>
          rw [hopening] at hp
          exact hstays hp (by simp [markOf, hopening])
        | some opened =>
          rw [hopening] at hp
          cases hp
          have hmark : w.markOf who (.request who (.createRoom title)) =
              some (.entered opened.2.2.1.room) := by
            simp [markOf, hopening]
          rw [hmark]
          exact Player.follows_entered rfl rfl
  · next hother =>
    apply hstays hp
    cases c with
    | hangUp who username => rfl
    | request who r => exact if_neg (Ne.symm hother)

end Commands

/-! ### Runs -/

/-- What an event means to the player of a number. -/
def markAt (w : World) (id : SessionId) : Event → Option Mark
  | .execute c => w.markOf id c
  | .advance dt => some (.passed dt)
  | _ => none

/-- The history of the player of a number. -/
def marks (id : SessionId) : World → List Event → List Mark
  | _, [] => []
  | w, e :: rest => (w.markAt id e).toList ++ marks id (w.next e) rest

/-- The records of who is where agree, numbers lead to sessions that have them, and the player of a
    number, if there is one, is where their history has led them. -/
structure Tracked (w : World) (id : SessionId) (marks : List Mark) : Prop where
  inUse : w.lobby.InUse
  numbered : w.Numbered
  follows : ∀ p, w.lobby.player? id = some p → p.Follows marks

section Runs

variable {w : World} {id : SessionId} {marks : List Mark}

theorem Tracked.of_floor (h : w.Tracked id marks) {w' : World} (hinUse : w'.lobby.InUse)
    (hnumbered : w'.Numbered) (hfloor : w'.lobby.floor = w.lobby.floor) :
    w'.Tracked id marks where
  inUse := hinUse
  numbered := hnumbered
  follows p hp := h.follows p ((Lobby.player?_of_floor_eq hfloor id).symm.trans hp)

theorem Tracked.executed (h : w.Tracked id marks) (c : Command) :
    (w.next (.execute c)).Tracked id (marks ++ (w.markOf id c).toList) where
  inUse := (kept_inUse fun _ _ => True).execute c trivial h.inUse
  numbered := (kept_numbered fun _ _ => True).execute c trivial h.numbered
  follows p hp :=
    follows_execute (w := w.dequeue c) (by exact h.inUse) (by exact h.numbered) c h.follows hp

theorem Tracked.advance (h : w.Tracked id marks) (dt : Single) :
    (w.withLobby (w.lobby.advance dt)).Tracked id (marks ++ [.passed dt]) where
  inUse := (w.quiet_advance dt).inUse h.inUse
  numbered := h.numbered
  follows p hp := by
    have hpassed := w.lobby.player?_advance dt id
    obtain ⟨before, hbefore, rfl⟩ := Option.map_eq_some_iff.mp (hpassed.symm.trans hp)
    exact (h.follows before hbefore).integrate dt

/-- **An event leaves the player where its mark leads.** -/
theorem Tracked.next (h : w.Tracked id marks) (e : Event) :
    (w.next e).Tracked id (marks ++ (w.markAt id e).toList) := by
  have hinUse := (kept_inUse fun _ _ => True).next w e h.inUse trivial
  have hnumbered := (kept_numbered fun _ _ => True).next w e h.numbered trivial
  cases e with
  | execute c => exact h.executed c
  | advance dt => exact h.advance dt
  | _ =>
    -- no mark is left
    simp only [markAt, Option.toList_none, List.append_nil]
    exact h.of_floor hinUse hnumbered (w.floor_next (by simp) (by simp))

theorem Tracked.after (h : w.Tracked id marks) (events : List Event) :
    (GameServer.after World.next w events).Tracked id (marks ++ World.marks id w events) := by
  induction events generalizing w marks with
  | nil =>
    rw [World.marks, List.append_nil]
    exact h
  | cons e rest ih =>
    rw [World.marks, ← List.append_assoc]
    exact ih (h.next e)

theorem Pristine.tracked (hstart : w.Pristine) (id : SessionId) : w.Tracked id [] where
  inUse := hstart.housed.inUse
  numbered := hstart.numbered
  follows p hp := by
    rw [Lobby.player?_of_index_none] at hp
    · cases hp
    · simp [hstart.index]

end Runs

end World

/-! ### Snapshots -/

namespace Lobby

variable {l : Lobby} {number : UInt32} {view : RoomView}

/-- Whoever a snapshot shows plays in its room. -/
theorem Consistent.player?_of_entry (h : l.Consistent) (hview : view ∈ l.views number)
    {entry : SnapshotEntry} (hentry : entry ∈ view.entries) :
    ∃ p, l.player? entry.session = some p ∧ p.room = view.room ∧ p.entry = entry := by
  obtain ⟨r, hr, rfl⟩ := List.mem_map.mp hview
  obtain ⟨room, hr⟩ := mem_values_iff.mp hr
  obtain ⟨p, hp, rfl⟩ := List.mem_map.mp hentry
  obtain ⟨id, hp⟩ := mem_values_iff.mp hp
  obtain ⟨hself, hroom⟩ := (h.inOrder hr).player_own hp
  refine ⟨p, ?_, hroom, rfl⟩
  change l.player? p.session = some p
  rw [hself]
  exact (h.player?_of_mem hr hp).2

/-- Whoever plays is shown by the snapshot of their room. -/
theorem Consistent.entry_of_player? (h : l.Consistent) {id : SessionId} {p : Player}
    (hp : l.player? id = some p) (number : UInt32) :
    ∃ view ∈ l.views number, view.room = p.room ∧ p.entry ∈ view.entries := by
  obtain ⟨room, r, -, hr, hp⟩ := player?_eq_some hp
  obtain ⟨-, hroom⟩ := (h.inOrder hr).player_own hp
  refine ⟨_, List.mem_map_of_mem (mem_values_iff.mpr ⟨room, hr⟩), hroom.symm, ?_⟩
  exact List.mem_map_of_mem (mem_values_iff.mpr ⟨id, hp⟩)

end Lobby

namespace World

variable {w : World}

/-- **The world follows its simulation.**  In every run, whatever is asked for between the ticks and
    by whomever, the players are where their histories lead them: one step from the origin for
    every time that has passed since they came into the room they are in, each at the velocity
    they had asked for last.  The snapshots that a tick sends show exactly the players of their
    rooms, where their histories up to that tick lead them.  A tick moves every player
    once.  And whatever somebody else asks for is nothing to a player, and so is to ask for the room
    that one is in, or for one that one is not let into. -/
theorem players_follow_history (hstart : w.Pristine) (events : List Event) :
    let v := after next w events
    (∀ id p, v.lobby.player? id = some p →
      let marks := marks id w events
      latest Mark.room? marks = some p.room ∧
        (p.x, p.y) = whereabouts (sinceEntry marks) ∧
        (p.vx, p.vy) = heading (sinceEntry marks)) ∧
    (∀ number dt,
      let moved := v.drain.1.lobby.advance dt
      let ticked := (v.tick number dt).2
      Sessions.Delivered ((moved.views number).flatMap RoomView.letters) v.drain.1.sessions
        ticked.sessions ∧
      (∀ view ∈ moved.views number, ∀ entry ∈ view.entries,
        let marks := marks entry.session w (events ++ v.ticking number dt)
        latest Mark.room? marks = some view.room ∧
          (entry.x, entry.y) = whereabouts (sinceEntry marks)) ∧
      (∀ id p, ticked.lobby.player? id = some p →
        ∃ view ∈ moved.views number, view.room = p.room ∧ p.entry ∈ view.entries) ∧
      ∀ id, ticked.lobby.player? id = (v.drain.1.lobby.player? id).map (Player.integrate dt)) ∧
    (∀ c id, c.session ≠ id → (v.execute c).lobby.player? id = v.lobby.player? id) ∧
    ∀ id room, v.lobby.roomOf id = some room ∨ v.entry? id room = none →
      ∀ other, (v.enterRoom id room).lobby.player? other = v.lobby.player? other := by
  intro v
  have htracked : ∀ id, v.Tracked id (marks id w events) := fun id =>
    (hstart.tracked id).after events
  have hinUse : v.lobby.InUse := (htracked ⟨0⟩).inUse
  have hnumbered : v.Numbered := (htracked ⟨0⟩).numbered
  refine ⟨?_, ?_, ?_, ?_⟩
  · intro id p hp
    obtain ⟨hroom, hposition, hvelocity⟩ := (htracked id).follows p hp
    exact ⟨hroom, hposition, hvelocity⟩
  · intro number dt moved ticked
    have hdrained : v.drain.1.lobby.InUse :=
      (kept_inUse fun _ _ => True).drain (fun _ _ _ => trivial) hinUse
    have hmoved : moved.Consistent := hdrained.consistent.advance dt
    have hfloor : ticked.lobby.floor = moved.floor := moved.floor_tellAll number
    have hticked : ∀ id, ticked.Tracked id (marks id w (events ++ v.ticking number dt)) := by
      intro id
      have hafter := (hstart.tracked id).after (events ++ v.ticking number dt)
      rw [after_append] at hafter
      change (GameServer.after next v (v.ticking number dt)).Tracked id _ at hafter
      rwa [after_ticking] at hafter
    refine ⟨(v.drain.1.withLobby moved).delivered_tellAll number, ?_, ?_, ?_⟩
    · intro view hview entry hentry
      obtain ⟨p, hp, hroom, rfl⟩ := hmoved.player?_of_entry hview hentry
      rw [← Lobby.player?_of_floor_eq hfloor] at hp
      obtain ⟨hentered, hposition, -⟩ := (hticked _).follows p hp
      exact ⟨hroom ▸ hentered, hposition⟩
    · intro id p hp
      rw [Lobby.player?_of_floor_eq hfloor] at hp
      exact hmoved.entry_of_player? hp number
    · intro id
      rw [Lobby.player?_of_floor_eq hfloor]
      exact Lobby.player?_advance ..
  · intro c id hother
    rw [player?_execute hinUse hnumbered, if_neg (Ne.symm hother)]
  · intro id room hnothing other
    have hown : v.playerLeft (.request id (.enterRoom room)) = v.lobby.player? id := by
      dsimp only [playerLeft]
      cases hentry : v.entry? id room with
      | none => rfl
      | some entry =>
        have hthere : v.lobby.roomOf id = some room :=
          hnothing.resolve_right fun hnone => by cases hnone.symm.trans hentry
        exact if_pos hthere
    rw [player?_enterRoom hinUse hnumbered, hown]
    split
    · next heq => rw [heq]
    · rfl

/-- Every room takes one player.  Ann asks to move before she is anywhere, comes into a room, turns
    twice in one tick, is not let into the room that Bob is in, and asks for her own again.  When he
    has left his, she comes into it, stands still for a tick, and moves on.  She is where the last
    two ticks have led her. -/
theorem players_follow_history_room_to_room :
    let database := (({} : Database).seed 1 "ann" "a").seed 2 "bob" "b"
    let w : World := { lobby := { settings := { maxPlayers := 1 } }, gateway := { database } }
    let asks (id : UInt32) (r : Request) : Event := .ask (.request ⟨id⟩ r)
    let does (id : UInt32) (r : Request) : Event := .execute (.request ⟨id⟩ r)
    let events : List Event :=
      [.connect 64, .connect 64, asks 1 (.login "ann" "a"), asks 2 (.login "bob" "b"),
        asks 1 (.move ⟨9⟩ ⟨9⟩), asks 1 (.enterRoom ⟨5⟩), asks 2 (.enterRoom ⟨6⟩),
        does 1 (.login "ann" "a"), does 2 (.login "bob" "b"), does 1 (.move ⟨9⟩ ⟨9⟩),
        does 1 (.enterRoom ⟨5⟩), does 2 (.enterRoom ⟨6⟩), .advance ⟨1⟩, .tell 1,
        asks 1 (.move ⟨7⟩ ⟨7⟩), asks 1 (.move ⟨8⟩ ⟨8⟩), asks 1 (.enterRoom ⟨6⟩),
        asks 1 (.enterRoom ⟨5⟩), does 1 (.move ⟨7⟩ ⟨7⟩), does 1 (.move ⟨8⟩ ⟨8⟩),
        does 1 (.enterRoom ⟨6⟩), does 1 (.enterRoom ⟨5⟩), .advance ⟨2⟩, .tell 2,
        asks 2 .leaveRoom, asks 1 (.enterRoom ⟨6⟩), does 2 .leaveRoom, does 1 (.enterRoom ⟨6⟩),
        .advance ⟨3⟩, .tell 3, asks 1 (.move ⟨4⟩ ⟨6⟩)]
    let v := after next w events
    w.Pristine ∧ Along next Enabled w events ∧
      marks ⟨1⟩ w (events ++ v.ticking 4 ⟨5⟩) =
        [.moved ⟨9⟩ ⟨9⟩, .entered ⟨5⟩, .passed ⟨1⟩, .moved ⟨7⟩ ⟨7⟩, .moved ⟨8⟩ ⟨8⟩, .passed ⟨2⟩,
          .entered ⟨6⟩, .passed ⟨3⟩, .moved ⟨4⟩ ⟨6⟩, .passed ⟨5⟩] ∧
      ∃ view ∈ (v.drain.1.lobby.advance ⟨5⟩).views 4, ∃ entry ∈ view.entries,
        view.room = ⟨6⟩ ∧ entry.session = ⟨1⟩ ∧
        (entry.x, entry.y) =
          Player.stride (Player.stride (⟨0⟩, ⟨0⟩) (⟨0⟩, ⟨0⟩) ⟨3⟩) (⟨4⟩, ⟨6⟩) ⟨5⟩ := by
  intro database w asks does events v
  have hstart : w.Pristine := pristine_start { maxPlayers := 1 } {} database true
  have hrun : Along next Enabled w events := by decide +kernel
  have hmarks : marks ⟨1⟩ w (events ++ v.ticking 4 ⟨5⟩) =
      [.moved ⟨9⟩ ⟨9⟩, .entered ⟨5⟩, .passed ⟨1⟩, .moved ⟨7⟩ ⟨7⟩, .moved ⟨8⟩ ⟨8⟩, .passed ⟨2⟩,
        .entered ⟨6⟩, .passed ⟨3⟩, .moved ⟨4⟩ ⟨6⟩, .passed ⟨5⟩] := by decide +kernel
  have hplays : ((v.tick 4 ⟨5⟩).2.lobby.player? ⟨1⟩).map (fun p => (p.session, p.room)) =
      some (⟨1⟩, ⟨6⟩) := by decide +kernel
  have hv : after next w events = v := rfl
  obtain ⟨-, hticks, -⟩ := players_follow_history hstart events
  rw [hv] at hticks
  obtain ⟨-, hshown, hall, -⟩ := hticks 4 ⟨5⟩
  obtain ⟨p, hp, hwho⟩ := Option.map_eq_some_iff.mp hplays
  obtain ⟨hself, hroom⟩ := Prod.mk.inj hwho
  obtain ⟨view, hview, hsame, hentry⟩ := hall ⟨1⟩ p hp
  obtain ⟨-, hposition⟩ := hshown view hview p.entry hentry
  have hsession : p.entry.session = ⟨1⟩ := hself
  rw [hsession, hmarks] at hposition
  exact ⟨hstart, hrun, hmarks, view, hview, p.entry, hentry, hsame.trans hroom, hsession,
    hposition⟩

end World

end GameServer
