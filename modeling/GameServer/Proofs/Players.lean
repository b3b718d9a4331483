import GameServer.Proofs.Admission

/-!
Players: who has a body, and what happens to it.

While the records agree, the player of a number is found through the index.  Leaving takes one
player away, coming in brings a new one, steering and the passing of time change the players
that are there.  All of them leave every other player as it is.
-/

namespace GameServer

namespace Lobby

variable {l l' : Lobby} {id : SessionId} {room : RoomId} {r : Room}

theorem player?_of_listed (hi : l.index[id]? = some room) (hr : l.rooms[room]? = some r) :
    l.player? id = r.players[id]? := by
  simp [player?, hi, hr]

theorem player?_of_index_none (hi : l.index[id]? = none) : l.player? id = none := by
  simp [player?, hi]

/-- Whoever plays is indexed, and a player of that room. -/
theorem player?_eq_some {p : Player} (h : l.player? id = some p) :
    ∃ room r, l.index[id]? = some room ∧ l.rooms[room]? = some r ∧ r.players[id]? = some p := by
  obtain ⟨room, hi, hrest⟩ := Option.bind_eq_some_iff.mp h
  obtain ⟨r, hr, hp⟩ := Option.bind_eq_some_iff.mp hrest
  exact ⟨room, r, hi, hr, hp⟩

/-- Whoever is in a room plays there, and nowhere else. -/
theorem Consistent.player?_of_mem (h : l.Consistent) (hr : l.rooms[room]? = some r) {p : Player}
    (hp : r.players[id]? = some p) : l.index[id]? = some room ∧ l.player? id = some p := by
  have hmember := ((h.inOrder hr).player_iff_member id).mp (mem_of_lookup hp)
  obtain ⟨place, hplace⟩ := Option.isSome_iff_exists.mp
    (Std.ExtTreeMap.mem_iff_isSome_getElem?.mp hmember)
  have hi : l.index[id]? = some room := (h.index_iff id room).mpr ⟨place, r, hr, hplace⟩
  exact ⟨hi, by rw [player?_of_listed hi hr, hp]⟩

theorem Consistent.mem_players_iff (h : l.Consistent) (hr : l.rooms[room]? = some r) :
    id ∈ r.players ↔ l.index[id]? = some room := by
  constructor
  · intro hmem
    rw [Std.ExtTreeMap.mem_iff_isSome_getElem?] at hmem
    obtain ⟨p, hp⟩ := Option.isSome_iff_exists.mp hmem
    exact (h.player?_of_mem hr hp).1
  · intro hi
    obtain ⟨r', -, hr', hmem, -⟩ := h.seats_of_index hi
    rwa [Option.some.inj (hr.symm.trans hr')]

/-- The index names the room that a player knows to be in. -/
theorem Consistent.index_iff_player? (h : l.Consistent) :
    l.index[id]? = some room ↔ ∃ p, l.player? id = some p ∧ p.room = room := by
  constructor
  · intro hi
    obtain ⟨r, -, hr, hmem, -⟩ := h.seats_of_index hi
    rw [Std.ExtTreeMap.mem_iff_isSome_getElem?] at hmem
    obtain ⟨p, hp⟩ := Option.isSome_iff_exists.mp hmem
    refine ⟨p, (h.player?_of_mem hr hp).2, ?_⟩
    rw [((h.inOrder hr).player_own hp).2, h.room_id hr]
  · rintro ⟨p, hp, rfl⟩
    obtain ⟨room, r, hi, hr, hp⟩ := player?_eq_some hp
    rw [hi, ((h.inOrder hr).player_own hp).2, h.room_id hr]

/-! ### Leaving -/

/-- **Leaving takes one player away.** -/
theorem Consistent.player?_leave (h : l.Consistent) (id other : SessionId) :
    (l.leave id).1.player? other = if other = id then none else l.player? other := by
  have hindex := @index_leave l id other
  split
  · next heq =>
    rw [if_pos heq] at hindex
    exact player?_of_index_none hindex
  · next hne =>
    rw [if_neg hne] at hindex
    cases hi : l.index[other]? with
    | none =>
      rw [hi] at hindex
      rw [player?_of_index_none hindex, player?_of_index_none hi]
    | some room =>
      obtain ⟨r, place, hr, hin, hplace⟩ := h.seats_of_index hi
      rw [hi] at hindex
      rw [player?_of_listed hi hr]
      -- the room is still there, for the other one is in it
      obtain ⟨r', hr', -⟩ := (h.seats_leave room other place).mpr ⟨⟨r, hr, hplace⟩, hne⟩
      rw [player?_of_listed hindex hr']
      cases hown : l.index[id]? with
      | none =>
        rw [leave_of_index_none hown] at hr'
        rw [Option.some.inj (hr'.symm.trans hr)]
      | some home =>
        obtain ⟨own, seat, hhome, -, hseat⟩ := h.seats_of_index hown
        rw [rooms_leave hown hhome hseat] at hr'
        split at hr'
        · next heq =>
          subst heq
          obtain rfl := Option.some.inj (hr.symm.trans hhome)
          split at hr'
          · cases hr'
          · rw [← Option.some.inj hr', Room.erase, lookup_erase, if_neg hne]
        · rw [Option.some.inj (hr'.symm.trans hr)]

/-! ### Coming in -/

/-- A player who has just come in: at the origin, standing still. -/
def newcomer (s : Session) (room : RoomId) : Player := { session := s.id, name := s.name, room }

section Coming

variable {place : Place} {s : Session} {a : Arrival}

theorem Consistent.player?_settle (h : l.Consistent) (hr : l.Offers r) (id : SessionId) :
    (l.settle place s r).player? id =
      if id = s.id then some (newcomer s r.id) else l.player? id := by
  have hindex := @index_settle l place s r id
  have hentered : (r.add place s).players[id]? =
      if id = s.id then some (newcomer s r.id) else r.players[id]? := lookup_insert ..
  split
  · next heq =>
    rw [if_pos heq] at hindex hentered
    rw [player?_of_listed hindex (by rw [rooms_settle, if_pos rfl]), hentered]
  · next hne =>
    rw [if_neg hne] at hindex hentered
    cases hi : l.index[id]? with
    | none =>
      rw [hi] at hindex
      rw [player?_of_index_none hindex, player?_of_index_none hi]
    | some room =>
      obtain ⟨r₀, -, hr₀, -, -⟩ := h.seats_of_index hi
      rw [hi] at hindex
      rw [player?_of_listed hi hr₀]
      by_cases hroom : room = r.id
      · subst hroom
        rw [player?_of_listed hindex (by rw [rooms_settle, if_pos rfl]), hentered]
        rcases hr with hr | ⟨hfree, -⟩
        · rw [Option.some.inj (hr.symm.trans hr₀)]
        · exact absurd (mem_of_lookup hr₀) hfree
      · exact player?_of_listed hindex (by rw [rooms_settle, if_neg hroom]; exact hr₀)

/-- Joining a room that one is in already changes nothing. -/
theorem join_of_listed (hi : l.index[s.id]? = some room)
    (hok : l.join place s room = .ok (a, l')) : l' = l := by
  unfold join at hok
  rw [if_pos hi] at hok
  split at hok
  · cases hok
  · cases hok
    rfl

/-- **Joining another room brings a new player**, and joining the same one does not. -/
theorem Consistent.player?_join (h : l.Consistent) (hok : l.join place s room = .ok (a, l'))
    (id : SessionId) :
    l'.player? id =
      if id = s.id ∧ l.index[s.id]? ≠ some room then some (newcomer s room)
      else l.player? id := by
  by_cases hi : l.index[s.id]? = some room
  · rw [join_of_listed hi hok, if_neg fun hboth => hboth.2 hi]
  · obtain ⟨-, -, ⟨hlisted, -⟩ | ⟨r, rfl, hr, rfl⟩⟩ := join_ok h hok
    · exact absurd hlisted hi
    · rw [(h.leave s.id).player?_settle hr, h.player?_leave]
      by_cases hid : id = s.id
      · rw [if_pos hid, if_pos ⟨hid, hi⟩]
      · rw [if_neg hid, if_neg hid, if_neg fun hboth => hid hboth.1]

theorem Consistent.player?_openRoom (h : l.Consistent) {title : String}
    (hfree : (l.leave s.id).1.HasFreeId) (hok : l.openRoom place s title = .ok (a, l'))
    (id : SessionId) :
    l'.player? id = if id = s.id then some (newcomer s a.room) else l.player? id := by
  obtain ⟨r, hid, hr, rfl⟩ := openRoom_ok hfree hok
  have hsame : (l.leave s.id).1.freshId.2.player? id = (l.leave s.id).1.player? id := rfl
  rw [(h.leave s.id).freshId.player?_settle hr, hsame, h.player?_leave, hid]
  split <;> rfl

end Coming

/-! ### Moving -/

theorem Consistent.player?_steer? (h : l.Consistent) {vx vy : Single}
    (hsteer : l.steer? id vx vy = some l') (other : SessionId) :
    l'.player? other =
      if other = id then (l.player? id).map (Player.steer vx vy) else l.player? other := by
  unfold Lobby.steer? at hsteer
  split at hsteer
  · cases hsteer
  · next room hi =>
    split at hsteer
    · cases hsteer
    · next r hr =>
      split at hsteer
      · cases hsteer
        have hrooms : ∀ home : RoomId, (l.rooms.insert room (r.steer id vx vy))[home]? =
            if home = room then some (r.steer id vx vy) else l.rooms[home]? :=
          fun home => lookup_insert ..
        have hplayers : ∀ who : SessionId, (r.steer id vx vy).players[who]? =
            if who = id then r.players[id]?.map (Player.steer vx vy) else r.players[who]? :=
          fun who => lookup_modify ..
        cases hother : l.index[other]? with
        | none =>
          have hne : other ≠ id := by
            rintro rfl
            rw [hi] at hother
            cases hother
          rw [if_neg hne, player?_of_index_none hother]
          exact player?_of_index_none hother
        | some home =>
          obtain ⟨r₀, -, hr₀, -⟩ := h.seats_of_index hother
          by_cases hhome : home = room
          · subst hhome
            obtain rfl := Option.some.inj (hr.symm.trans hr₀)
            rw [player?_of_listed (by exact hother) (by rw [hrooms, if_pos rfl]), hplayers,
              player?_of_listed hi hr, player?_of_listed hother hr]
          · have hne : other ≠ id := by
              rintro rfl
              exact hhome (Option.some.inj (hother.symm.trans hi))
            rw [if_neg hne, player?_of_listed hother hr₀]
            exact player?_of_listed (by exact hother) (by rw [hrooms, if_neg hhome, hr₀])
      · cases hsteer

/-- Whoever cannot be steered has no player. -/
theorem Consistent.player?_of_steer?_none (h : l.Consistent) {vx vy : Single}
    (hsteer : l.steer? id vx vy = none) : l.player? id = none := by
  cases hi : l.index[id]? with
  | none => exact player?_of_index_none hi
  | some room =>
    obtain ⟨r, -, hr, hin, -⟩ := h.seats_of_index hi
    simp [Lobby.steer?, hi, hr, Std.ExtTreeMap.contains_iff_mem.mpr hin] at hsteer

/-- **Time passes for every player at once.** -/
theorem player?_advance (l : Lobby) (dt : Single) (id : SessionId) :
    (l.advance dt).player? id = (l.player? id).map (Player.integrate dt) := by
  have hindex : (l.advance dt).index = l.index := rfl
  have hrooms : ∀ room : RoomId,
      (l.advance dt).rooms[room]? = l.rooms[room]?.map (Room.advance dt) := by
    intro room
    simp [advance]
  cases hi : l.index[id]? with
  | none => rw [player?_of_index_none hi, player?_of_index_none (hindex ▸ hi), Option.map_none]
  | some room =>
    cases hr : l.rooms[room]? with
    | none => simp [player?, hindex, hi, hrooms, hr]
    | some r => simp [player?, hindex, hi, hrooms, hr, Room.advance]

end Lobby

end GameServer
