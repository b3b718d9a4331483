import GameServer.Proofs.RoomNumbers
import GameServer.Proofs.Standing
import GameServer.Proofs.Tables

/-!
The registry of rooms: four records of who is where, and why they agree.

The index, a room's players, a room's members and the session itself each say where a player
is.  `Consistent` says that the four agree.  Every operation of the lobby comes down to four
changes: somebody is taken out, a room is put up empty under a number that was free,
somebody who is in no room is let in, and players are moved without coming or going.  Each of
the four keeps the records in step.
-/

namespace GameServer

/-! ### One room -/

namespace Room

/-- A room in order: it has the same people as players and as members, and each player
    knows who they are and where. -/
structure InOrder (r : Room) : Prop where
  player_iff_member : ∀ id, id ∈ r.players ↔ id ∈ r.members
  player_own : ∀ {id : SessionId} {p : Player},
    r.players[id]? = some p → p.session = id ∧ p.room = r.id

theorem InOrder.ofEmpty {r : Room} (hplayers : r.players = ∅) (hmembers : r.members = ∅) :
    r.InOrder where
  player_iff_member id := by simp [hplayers, hmembers]
  player_own h := by simp [hplayers] at h

theorem InOrder.add {r : Room} (h : r.InOrder) (place : Place) (s : Session) :
    (r.add place s).InOrder where
  player_iff_member id := by
    simp only [Room.add, Std.ExtTreeMap.mem_insert, h.player_iff_member id]
  player_own {id p} hp := by
    simp only [Room.add, Std.ExtTreeMap.getElem?_insert] at hp
    split at hp
    · next heq =>
      cases hp
      exact ⟨Std.LawfulEqCmp.eq_of_compare heq, rfl⟩
    · exact h.player_own hp

theorem InOrder.erase {r : Room} (h : r.InOrder) (id : SessionId) : (r.erase id).InOrder where
  player_iff_member other := by
    simp only [Room.erase, Std.ExtTreeMap.mem_erase, h.player_iff_member other]
  player_own {other p} hp := by
    simp only [Room.erase, Std.ExtTreeMap.getElem?_erase] at hp
    split at hp
    · cases hp
    · exact h.player_own hp

/-- A room that somebody is in is not empty. -/
theorem isEmpty_eq_false_iff {r : Room} : r.isEmpty = false ↔ ∃ id, id ∈ r.players := by
  rw [isEmpty, Std.ExtTreeMap.isEmpty_eq_false_iff]
  constructor
  · intro h
    by_contra hnone
    exact h (Std.ExtTreeMap.eq_empty_iff_forall_not_mem.mpr (not_exists.mp hnone))
  · rintro ⟨id, hid⟩ h
    rw [h] at hid
    exact Std.ExtTreeMap.not_mem_empty hid

/-- What stays of a room when only positions and speeds are left out. -/
structure Shape where
  id : RoomId
  players : Std.ExtTreeMap SessionId (SessionId × String × RoomId)
  members : Std.ExtTreeMap SessionId Place

def shape (r : Room) : Shape :=
  ⟨r.id, r.players.map fun _ p => (p.session, p.name, p.room), r.members⟩

theorem shape_steer (r : Room) (id : SessionId) (vx vy : Single) :
    (r.steer id vx vy).shape = r.shape := by
  simp only [shape, steer, Shape.mk.injEq, true_and, and_true]
  apply Std.ExtTreeMap.ext_getElem?
  intro other
  simp only [Std.ExtTreeMap.getElem?_map, Std.ExtTreeMap.getElem?_modify]
  split
  · next heq =>
    obtain rfl := Std.LawfulEqCmp.eq_of_compare heq
    cases r.players[id]? <;> rfl
  · rfl

theorem shape_advance (dt : Single) (r : Room) : (r.advance dt).shape = r.shape := by
  simp only [shape, advance, Shape.mk.injEq, true_and, and_true]
  apply Std.ExtTreeMap.ext_getElem?
  intro other
  simp only [Std.ExtTreeMap.getElem?_map, Option.map_map]
  rfl

theorem id_of_shape_eq {r r' : Room} (h : r'.shape = r.shape) : r'.id = r.id :=
  congrArg Shape.id h

theorem members_of_shape_eq {r r' : Room} (h : r'.shape = r.shape) : r'.members = r.members :=
  congrArg Shape.members h

theorem mem_players_of_shape_eq {r r' : Room} (h : r'.shape = r.shape) (id : SessionId) :
    id ∈ r'.players ↔ id ∈ r.players := by
  have hplayers := congrArg (fun s => id ∈ s.players) h
  simpa only [shape, Std.ExtTreeMap.mem_map, eq_iff_iff] using hplayers

theorem isEmpty_of_shape_eq {r r' : Room} (h : r'.shape = r.shape) :
    r'.isEmpty = r.isEmpty := by
  rw [Bool.eq_iff_iff, ← not_iff_not, Bool.not_eq_true, Bool.not_eq_true, isEmpty_eq_false_iff,
    isEmpty_eq_false_iff]
  exact exists_congr (mem_players_of_shape_eq h)

theorem InOrder.of_shape_eq {r r' : Room} (hr : r.InOrder) (h : r'.shape = r.shape) :
    r'.InOrder where
  player_iff_member id := by
    rw [mem_players_of_shape_eq h, members_of_shape_eq h]
    exact hr.player_iff_member id
  player_own {id p'} hp' := by
    have hplayers := congrArg (fun s => s.players[id]?) h
    simp only [shape, Std.ExtTreeMap.getElem?_map, hp', Option.map_some] at hplayers
    obtain ⟨p, hp, heq⟩ := Option.map_eq_some_iff.mp hplayers.symm
    simp only [Prod.mk.injEq] at heq
    rw [id_of_shape_eq h, ← heq.1, ← heq.2.2]
    exact hr.player_own hp

end Room

/-! ### One session -/

namespace Session

/-- The number of a session and the room it takes itself to be in. -/
def seat (s : Session) : SessionId × Option RoomId := (s.id, s.room)

theorem map_seat_of_map_standing {sessions others : List Session}
    (h : others.map standing = sessions.map standing) :
    others.map seat = sessions.map seat :=
  Sessions.map_of_map_standing (fun t => (t.id, t.room)) h

end Session

/-! ### The four records -/

namespace Lobby

/-- A room lists the session at a place under a number. -/
def Seats (l : Lobby) (room : RoomId) (id : SessionId) (place : Place) : Prop :=
  ∃ r, l.rooms[room]? = some r ∧ r.members[id]? = some place

/-- The index, the players, the members and the sessions agree on who is where. -/
structure Consistent (l : Lobby) : Prop where
  /-- Players and members of a room are the same people, and players know themselves. -/
  inOrder : ∀ {room : RoomId} {r : Room}, l.rooms[room]? = some r → r.InOrder
  /-- Every room is kept under its own number. -/
  room_id : ∀ {room : RoomId} {r : Room}, l.rooms[room]? = some r → r.id = room
  /-- The index sends a number to the room that lists it. -/
  index_iff : ∀ (id : SessionId) (room : RoomId),
    l.index[id]? = some room ↔ ∃ place, l.Seats room id place
  /-- Whoever is listed is a session of that number. -/
  seated : ∀ {room : RoomId} {id : SessionId} {place : Place}, l.Seats room id place →
    ∃ s, l.sessions[place]? = some s ∧ s.id = id
  /-- A session is bound to the room that lists that very session. -/
  room_iff : ∀ {place : Place} {s : Session}, l.sessions[place]? = some s →
    ∀ room, s.room = some room ↔ l.Seats room s.id place

namespace Consistent

variable {l : Lobby}

theorem room_unique (h : l.Consistent) {id : SessionId} {room room' : RoomId}
    {place place' : Place} (hseat : l.Seats room id place) (hseat' : l.Seats room' id place') :
    room' = room := by
  have hroom := (h.index_iff id room).mpr ⟨place, hseat⟩
  have hroom' := (h.index_iff id room').mpr ⟨place', hseat'⟩
  exact Option.some.inj (hroom'.symm.trans hroom)

theorem place_unique (h : l.Consistent) {id : SessionId} {room room' : RoomId}
    {place place' : Place} (hseat : l.Seats room id place) (hseat' : l.Seats room' id place') :
    place' = place := by
  obtain rfl := h.room_unique hseat hseat'
  obtain ⟨r, hr, hplace⟩ := hseat
  obtain ⟨r', hr', hplace'⟩ := hseat'
  obtain rfl := Option.some.inj (hr'.symm.trans hr)
  exact Option.some.inj (hplace'.symm.trans hplace)

/-- Nobody of a number that is not indexed is listed anywhere. -/
theorem not_seats (h : l.Consistent) {id : SessionId} (hi : l.index[id]? = none)
    (room : RoomId) (place : Place) : ¬ l.Seats room id place := by
  intro hseat
  rw [(h.index_iff id room).mpr ⟨place, hseat⟩] at hi
  cases hi

/-- A number that is indexed belongs to a player of the room that the index names. -/
theorem seats_of_index (h : l.Consistent) {id : SessionId} {room : RoomId}
    (hi : l.index[id]? = some room) :
    ∃ r place, l.rooms[room]? = some r ∧ id ∈ r.players ∧ r.members[id]? = some place := by
  obtain ⟨place, r, hr, hplace⟩ := (h.index_iff id room).mp hi
  exact ⟨r, place, hr, ((h.inOrder hr).player_iff_member id).mpr (mem_of_lookup hplace), hplace⟩

/-! ### Changes that leave everybody where they are -/

/-- Rooms of the same shapes list the same sessions. -/
theorem seats_congr {l' : Lobby}
    (hrooms : ∀ room : RoomId, l'.rooms[room]?.map Room.shape = l.rooms[room]?.map Room.shape)
    (room : RoomId) (id : SessionId) (place : Place) :
    l'.Seats room id place ↔ l.Seats room id place := by
  have key : ∀ {a b : Lobby}, a.rooms[room]?.map Room.shape = b.rooms[room]?.map Room.shape →
      a.Seats room id place → b.Seats room id place := by
    rintro a b hab ⟨r, hr, hplace⟩
    rw [hr, Option.map_some] at hab
    obtain ⟨r', hr', hshape⟩ := Option.map_eq_some_iff.mp hab.symm
    exact ⟨r', hr', by rwa [Room.members_of_shape_eq hshape]⟩
  exact ⟨key (hrooms room), key (hrooms room).symm⟩

/-- Where people are depends on the shapes of the rooms, the index, and the number and the
    room of every session, and on nothing else. -/
theorem congr {l' : Lobby} (h : l.Consistent)
    (hrooms : ∀ room : RoomId, l'.rooms[room]?.map Room.shape = l.rooms[room]?.map Room.shape)
    (hindex : l'.index = l.index)
    (hsessions : l'.sessions.map Session.seat = l.sessions.map Session.seat) :
    l'.Consistent where
  inOrder {room r'} hr' := by
    have hroom := hrooms room
    rw [hr', Option.map_some] at hroom
    obtain ⟨r, hr, hshape⟩ := Option.map_eq_some_iff.mp hroom.symm
    exact (h.inOrder hr).of_shape_eq hshape.symm
  room_id {room r'} hr' := by
    have hroom := hrooms room
    rw [hr', Option.map_some] at hroom
    obtain ⟨r, hr, hshape⟩ := Option.map_eq_some_iff.mp hroom.symm
    exact (Room.id_of_shape_eq hshape).symm.trans (h.room_id hr)
  index_iff id room := by
    rw [hindex, h.index_iff]
    exact exists_congr fun place => (seats_congr hrooms room id place).symm
  seated {room id place} hseat := by
    obtain ⟨s, hs, hid⟩ := h.seated ((seats_congr hrooms room id place).mp hseat)
    obtain ⟨s', hs', heq⟩ := Sessions.getElem?_of_map_eq hsessions.symm hs
    exact ⟨s', hs', (congrArg Prod.fst heq).trans hid⟩
  room_iff {place s'} hs' room := by
    obtain ⟨s, hs, heq⟩ := Sessions.getElem?_of_map_eq hsessions hs'
    obtain ⟨hid, hroom⟩ := Prod.mk.inj heq
    rw [← hroom, ← hid, h.room_iff hs room]
    exact (seats_congr hrooms room s.id place).symm

end Consistent

/-! ### Somebody is taken out -/

section Leave

variable {l : Lobby} {id : SessionId}

theorem leave_of_index_none (hi : l.index[id]? = none) : l.leave id = (l, none) := by
  simp [leave, hi]

/-- Taking out a player who is where the index says. -/
theorem leave_of_listed {room : RoomId} {r : Room} {place : Place}
    (hi : l.index[id]? = some room) (hr : l.rooms[room]? = some r)
    (hplace : r.members[id]? = some place) :
    l.leave id =
      ({ l with
          sessions := l.sessions.modify place (·.setRoom none)
          rooms :=
            if (r.erase id).isEmpty then l.rooms.erase room
            else l.rooms.insert room (r.erase id)
          index := l.index.erase id },
        some ⟨room, id, (r.erase id).places, (r.erase id).isEmpty⟩) := by
  simp [leave, hi, hr, hplace, bind]

theorem index_leave (other : SessionId) :
    (l.leave id).1.index[other]? = if other = id then none else l.index[other]? := by
  cases hi : l.index[id]? with
  | none =>
    rw [leave_of_index_none hi]
    split
    · next heq => rw [heq, hi]
    · rfl
  | some room =>
    rw [← lookup_erase]
    simp only [leave, hi]
    cases l.rooms[room]? with
    | none => rfl
    | some r =>
      cases hm : r.members[id]? with
      | none => simp only [hm]
      | some place => simp only [hm]; rfl

/-- The rooms after a player has been taken out: theirs without them, or gone if nobody else
    was in it, and all others as they were. -/
theorem rooms_leave {room : RoomId} {r : Room} {place : Place}
    (hi : l.index[id]? = some room) (hr : l.rooms[room]? = some r)
    (hplace : r.members[id]? = some place) (other : RoomId) :
    (l.leave id).1.rooms[other]? =
      if other = room then if (r.erase id).isEmpty then none else some (r.erase id)
      else l.rooms[other]? := by
  rw [leave_of_listed hi hr hplace]
  by_cases hempty : (r.erase id).isEmpty
  · simp [hempty, lookup_erase]
  · simp [hempty, lookup_insert]

/-- After somebody has been taken out the rooms list everybody else, where they were. -/
theorem Consistent.seats_leave (h : l.Consistent) (room : RoomId) (other : SessionId)
    (place : Place) :
    (l.leave id).1.Seats room other place ↔ l.Seats room other place ∧ other ≠ id := by
  cases hi : l.index[id]? with
  | none =>
    rw [leave_of_index_none hi]
    refine ⟨fun hseat => ⟨hseat, ?_⟩, And.left⟩
    rintro rfl
    exact h.not_seats hi room place hseat
  | some home =>
    obtain ⟨r, own, hr, hid, hown⟩ := h.seats_of_index hi
    constructor
    · rintro ⟨r', hr', hplace⟩
      rw [rooms_leave hi hr hown] at hr'
      split at hr'
      · next heq =>
        subst heq
        split at hr'
        · cases hr'
        · cases hr'
          simp only [Room.erase, lookup_erase] at hplace
          split at hplace
          · cases hplace
          · next hne => exact ⟨⟨r, hr, hplace⟩, hne⟩
      · next hne =>
        refine ⟨⟨r', hr', hplace⟩, ?_⟩
        rintro rfl
        exact hne (h.room_unique ⟨r, hr, hown⟩ ⟨r', hr', hplace⟩)
    · rintro ⟨⟨r', hr', hplace⟩, hne⟩
      by_cases heq : room = home
      · subst heq
        obtain rfl := Option.some.inj (hr'.symm.trans hr)
        -- the room is not empty, for the other one stays
        have hplayer := ((h.inOrder hr').player_iff_member other).mpr (mem_of_lookup hplace)
        have hstays : other ∈ (r'.erase id).players := by
          simp [Room.erase, hne.symm, hplayer]
        refine ⟨r'.erase id, ?_, ?_⟩
        · rw [rooms_leave hi hr hown, if_pos rfl, if_neg]
          simp [Room.isEmpty_eq_false_iff.mpr ⟨other, hstays⟩]
        · simp only [Room.erase, lookup_erase, if_neg hne, hplace]
      · exact ⟨r', by rw [rooms_leave hi hr hown, if_neg heq]; exact hr', hplace⟩

/-- Taking a number out unbinds the session of that number that was in a room.  The others of
    that number were bound to none. -/
theorem Consistent.sessions_leave (h : l.Consistent) (place : Place) :
    (l.leave id).1.sessions[place]? =
      l.sessions[place]?.map fun s => if s.id = id then s.setRoom none else s := by
  have hunbound : ∀ s, l.sessions[place]? = some s → (∀ room, ¬ l.Seats room s.id place) →
      s.setRoom none = s := by
    intro s hs hnowhere
    have hroom : s.room = none := by
      cases hroom : s.room with
      | none => rfl
      | some room => exact absurd ((h.room_iff hs room).mp hroom) (hnowhere room)
    rw [Session.setRoom, ← hroom]
  cases hi : l.index[id]? with
  | none =>
    rw [leave_of_index_none hi]
    cases hs : l.sessions[place]? with
    | none => rfl
    | some s =>
      rw [Option.map_some]
      split
      · next hid => rw [hunbound s hs fun room => hid ▸ h.not_seats hi room place]
      · rfl
  | some home =>
    obtain ⟨r, own, hr, hid, hown⟩ := h.seats_of_index hi
    obtain ⟨t, ht, htid⟩ := h.seated ⟨r, hr, hown⟩
    rw [leave_of_listed hi hr hown]
    by_cases hplace : own = place
    · subst hplace
      simp [ht, htid]
    · rw [List.getElem?_modify_ne _ _ hplace]
      cases hs : l.sessions[place]? with
      | none => rfl
      | some s =>
        rw [Option.map_some]
        split
        · next hsid =>
          have hnowhere : ∀ room, ¬ l.Seats room s.id place := fun room hseat =>
            hplace (h.place_unique ⟨r, hr, hown⟩ (hsid ▸ hseat)).symm
          rw [hunbound s hs hnowhere]
        · rfl

/-- **Taking somebody out keeps the four records in step.** -/
theorem Consistent.leave (h : l.Consistent) (id : SessionId) : (l.leave id).1.Consistent where
  inOrder {room r'} hr' := by
    cases hi : l.index[id]? with
    | none => rw [leave_of_index_none hi] at hr'; exact h.inOrder hr'
    | some home =>
      obtain ⟨r, own, hr, hid, hown⟩ := h.seats_of_index hi
      rw [rooms_leave hi hr hown] at hr'
      split at hr'
      · split at hr'
        · cases hr'
        · cases hr'; exact (h.inOrder hr).erase id
      · exact h.inOrder hr'
  room_id {room r'} hr' := by
    cases hi : l.index[id]? with
    | none => rw [leave_of_index_none hi] at hr'; exact h.room_id hr'
    | some home =>
      obtain ⟨r, own, hr, hid, hown⟩ := h.seats_of_index hi
      rw [rooms_leave hi hr hown] at hr'
      split at hr'
      · next heq =>
        subst heq
        split at hr'
        · cases hr'
        · cases hr'; exact (h.room_id hr : r.id = room)
      · exact h.room_id hr'
  index_iff other room := by
    rw [index_leave]
    split
    · next heq => simp [h.seats_leave, heq]
    · next hne => simp [h.index_iff, h.seats_leave, hne]
  seated {room other place} hseat := by
    obtain ⟨hold, hne⟩ := (h.seats_leave room other place).mp hseat
    obtain ⟨s, hs, hid⟩ := h.seated hold
    refine ⟨s, ?_, hid⟩
    rw [h.sessions_leave, hs, Option.map_some, if_neg (hid ▸ hne)]
  room_iff {place s'} hs' room := by
    rw [h.sessions_leave] at hs'
    obtain ⟨s, hs, rfl⟩ := Option.map_eq_some_iff.mp hs'
    by_cases hid : s.id = id
    · simp [hid, h.seats_leave, Session.setRoom]
    · simp [hid, h.seats_leave, h.room_iff hs]

end Leave

end Lobby

end GameServer
