import GameServer.Proofs.Moves
import GameServer.Proofs.Simulation

/-!
How full rooms get.

Nobody is let into a room that is full, so no room ever has more players than the settings allow.
Only the one for whom a room is made is not asked whether there is space, so that a room for nobody
still takes one.
-/

namespace GameServer

/-! ### One room -/

namespace Room

variable {r r' : Room}

theorem size_add_le (r : Room) (place : Place) (s : Session) : (r.add place s).size ≤ r.size + 1 :=
  Std.ExtTreeMap.size_insert_le

theorem size_erase_le (r : Room) (id : SessionId) : (r.erase id).size ≤ r.size :=
  Std.ExtTreeMap.size_erase_le

theorem size_of_shape_eq (h : r'.shape = r.shape) : r'.size = r.size := by
  have hplayers := congrArg (fun s => s.players.size) h
  simpa only [shape, Std.ExtTreeMap.size_map, size] using hplayers

end Room

/-! ### Counting sessions -/

namespace Sessions

variable {places : List Place} {sessions : List Session}

/-- The places of the sessions that have some property, each once, are as many as these sessions. -/
theorem length_eq_countP {f : Session → Bool} (hnodup : places.Nodup)
    (hmem : ∀ p, p ∈ places ↔ ∃ s, sessions[p]? = some s ∧ f s = true) :
    places.length = sessions.countP f := by
  have hplaces : places.Perm
      ((List.range sessions.length).filter fun p => sessions[p]?.any f) := by
    refine (List.perm_ext_iff_of_nodup hnodup (List.nodup_range.filter _)).mpr ?_
    intro p
    rw [hmem, List.mem_filter, List.mem_range, Option.any_eq_true]
    constructor
    · rintro ⟨s, hs, hf⟩
      exact ⟨(List.getElem?_eq_some_iff.mp hs).1, s, hs, hf⟩
    · exact And.right
  have hsessions : (List.range sessions.length).map (sessions[·]?) = sessions.map some := by
    apply List.ext_getElem?
    intro p
    by_cases hp : p < sessions.length
    · simp [hp]
    · simp [Nat.not_lt.mp hp]
  rw [hplaces.length_eq, ← List.countP_eq_length_filter]
  calc (List.range sessions.length).countP (fun p => sessions[p]?.any f)
      = ((List.range sessions.length).map (sessions[·]?)).countP (Option.any f) := by
        rw [List.countP_map]
        rfl
    _ = (sessions.map some).countP (Option.any f) := by rw [hsessions]
    _ = sessions.countP f := by
        rw [List.countP_map]
        rfl

end Sessions

namespace Lobby

variable {l : Lobby} {p : Place} {room : RoomId} {r : Room}

/-- A session is at one of a room's places exactly if it is bound to the room. -/
theorem Consistent.mem_places_iff (h : l.Consistent) (hr : l.rooms[room]? = some r) :
    p ∈ r.places ↔ ∃ s, l.sessions[p]? = some s ∧ s.room = some room := by
  rw [Room.places, mem_values_iff]
  constructor
  · rintro ⟨id, hid⟩
    obtain ⟨s, hs, rfl⟩ := h.seated ⟨r, hr, hid⟩
    exact ⟨s, hs, (h.room_iff hs room).mpr ⟨r, hr, hid⟩⟩
  · rintro ⟨s, hs, hroom⟩
    obtain ⟨r', hr', hplace⟩ := (h.room_iff hs room).mp hroom
    obtain rfl := Option.some.inj (hr.symm.trans hr')
    exact ⟨s.id, hplace⟩

/-- A room has as many players as there are sessions bound to it. -/
theorem Consistent.size_eq_countP (h : l.Consistent) (hr : l.rooms[room]? = some r) :
    r.size = l.sessions.countP fun s => s.room = some room := by
  have hkeys : r.players.keys.Perm r.members.keys := by
    refine (List.perm_ext_iff_of_nodup Std.ExtTreeMap.nodup_keys Std.ExtTreeMap.nodup_keys).mpr ?_
    intro id
    rw [Std.ExtTreeMap.mem_keys, Std.ExtTreeMap.mem_keys]
    exact (h.inOrder hr).player_iff_member id
  have hlength : r.places.length = r.size := by
    rw [Room.places, values_eq_map_snd, List.length_map, Std.ExtTreeMap.length_toList, Room.size,
      ← Std.ExtTreeMap.length_keys, ← Std.ExtTreeMap.length_keys, hkeys.length_eq]
  rw [← hlength]
  apply Sessions.length_eq_countP (h.nodup_places hr)
  intro p
  simp only [h.mem_places_iff hr, decide_eq_true_eq]

end Lobby

/-! ### All rooms -/

namespace Lobby

def mostPlayers (settings : RoomSettings) : Nat := max 1 settings.maxPlayers.toNat

/-- The settings are these, and no room has more players than they allow. -/
structure Capped (l : Lobby) (settings : RoomSettings) : Prop where
  settings_eq : l.settings = settings
  size_le : ∀ (room : RoomId) (r : Room), l.rooms[room]? = some r → r.size ≤ mostPlayers settings

/-- No room has more players than before, and none is new. -/
structure NoFuller (l l' : Lobby) : Prop where
  settings : l'.settings = l.settings
  rooms : ∀ (room : RoomId) (r' : Room), l'.rooms[room]? = some r' →
    ∃ r, l.rooms[room]? = some r ∧ r'.size ≤ r.size

variable {l l' : Lobby} {settings : RoomSettings} {place : Place} {s : Session} {a : Arrival}

theorem NoFuller.of_eq (hsettings : l'.settings = l.settings) (hrooms : l'.rooms = l.rooms) :
    l.NoFuller l' where
  settings := hsettings
  rooms _ r' hr' := ⟨r', hrooms ▸ hr', Nat.le_refl _⟩

/-- Who is in a room is not changed by where they go. -/
theorem NoFuller.of_shapes (hsettings : l'.settings = l.settings)
    (hshapes : ∀ room : RoomId, l'.rooms[room]?.map Room.shape = l.rooms[room]?.map Room.shape) :
    l.NoFuller l' where
  settings := hsettings
  rooms room r' hr' := by
    have hshape := hshapes room
    rw [hr', Option.map_some] at hshape
    obtain ⟨r, hr, heq⟩ := Option.map_eq_some_iff.mp hshape.symm
    exact ⟨r, hr, Nat.le_of_eq (Room.size_of_shape_eq heq.symm)⟩

theorem noFuller_leave (l : Lobby) (id : SessionId) : l.NoFuller (l.leave id).1 where
  settings := l.settings_leave id
  rooms room r' hr' := by
    unfold leave at hr'
    split at hr'
    · exact ⟨r', hr', Nat.le_refl _⟩
    · next home hi =>
      dsimp only at hr'
      split at hr'
      · exact ⟨r', hr', Nat.le_refl _⟩
      · next r hr =>
        -- the rooms are the same, whether or not the member was found
        have hrooms : (if (r.erase id).isEmpty then l.rooms.erase home
            else l.rooms.insert home (r.erase id))[room]? = some r' := by
          cases hmember : r.members[id]? <;> simpa [hmember, bind] using hr'
        split at hrooms
        · rw [lookup_erase] at hrooms
          split at hrooms
          · cases hrooms
          · exact ⟨r', hrooms, Nat.le_refl _⟩
        · rw [lookup_insert] at hrooms
          split at hrooms
          · next heq =>
            cases hrooms
            exact ⟨r, heq ▸ hr, r.size_erase_le id⟩
          · exact ⟨r', hrooms, Nat.le_refl _⟩

theorem Capped.noFuller (h : l.Capped settings) (hno : l.NoFuller l') : l'.Capped settings where
  settings_eq := hno.settings.trans h.settings_eq
  size_le room r' hr' := by
    obtain ⟨r, hr, hle⟩ := hno.rooms room r' hr'
    exact hle.trans (h.size_le room r hr)

theorem Capped.of_floor (h : l.Capped settings) (hfloor : l'.floor = l.floor) :
    l'.Capped settings := by
  apply h.noFuller
  apply NoFuller.of_eq
  · exact eq_of_floor_eq (·.settings) (fun _ => rfl) hfloor
  · exact eq_of_floor_eq (·.rooms) (fun _ => rfl) hfloor

theorem Capped.leave (h : l.Capped settings) (id : SessionId) :
    (l.leave id).1.Capped settings := h.noFuller (l.noFuller_leave id)

/-- Whoever comes in where there is space leaves no room too full. -/
theorem Capped.settle (h : l.Capped settings) {r : Room} (hspace : r.size < mostPlayers settings) :
    (l.settle place s r).Capped settings where
  settings_eq := h.settings_eq
  size_le room r' hr' := by
    rw [rooms_settle] at hr'
    split at hr'
    · cases hr'
      exact (r.size_add_le place s).trans hspace
    · exact h.size_le room r' hr'

/-- A room that has just been made has space for the one it is made for, even where the settings
    leave none. -/
theorem size_new_lt (settings : RoomSettings) (id : RoomId) (title : String) :
    ({ id, title } : Room).size < mostPlayers settings := by
  have hempty : ({ id, title } : Room).size = 0 := rfl
  rw [hempty, mostPlayers]
  omega

theorem Capped.createRoom (h : l.Capped settings) (title : String) :
    (l.createRoom title).2.Capped settings where
  settings_eq := h.settings_eq
  size_le room r' hr' := by
    rw [createRoom_eq, rooms_putUp] at hr'
    split at hr'
    · cases hr'
      exact Nat.le_of_lt (size_new_lt settings _ title)
    · exact h.size_le room r' hr'

theorem Capped.openRoom (h : l.Capped settings) {title : String}
    (hok : l.openRoom place s title = .ok (a, l')) : l'.Capped settings := by
  unfold Lobby.openRoom at hok
  split at hok
  · cases hok
  · cases hok
    have hleft := h.leave s.id
    have hfresh : (l.leave s.id).1.freshId.2.Capped settings := ⟨hleft.settings_eq, hleft.size_le⟩
    exact hfresh.settle (size_new_lt settings _ title)

theorem size_lt_of_not_isFull {room : RoomId} {r : Room} (hspace : ¬ l.isFull room = true)
    (hr : l.rooms[room]? = some r) : r.size < l.settings.maxPlayers.toNat := by
  simpa [isFull, hr] using hspace

/-- Whoever joins a room is let in where there is space, or gets a room of their own. -/
theorem Capped.join (h : l.Capped settings) {room : RoomId}
    (hok : l.join place s room = .ok (a, l')) : l'.Capped settings := by
  unfold Lobby.join at hok
  split at hok
  · cases hok
  · split at hok
    · cases hok
      exact h
    · split at hok
      · cases hok
      · next hspace =>
        dsimp only at hok
        split at hok
        · next r hr =>
          cases hok
          -- this room is no fuller for the other one's having been left
          obtain ⟨before, hbefore, hle⟩ := (l.noFuller_leave s.id).rooms room r hr
          have hless := size_lt_of_not_isFull hspace hbefore
          rw [h.settings_eq] at hless
          apply (h.leave s.id).settle
          rw [mostPlayers]
          omega
        · cases hok
          exact (h.leave s.id).settle (size_new_lt settings _ _)

theorem Capped.steer? (h : l.Capped settings) {id : SessionId} {vx vy : Single}
    (hok : l.steer? id vx vy = some l') : l'.Capped settings := by
  refine h.noFuller (.of_shapes ?_ (shape_steer? hok))
  obtain ⟨_, _, _, rfl⟩ := steer?_eq_some hok
  rfl

theorem Capped.advance (h : l.Capped settings) (dt : Single) :
    (l.advance dt).Capped settings := h.noFuller (.of_shapes rfl (shape_advance l dt))

/-- **No deed makes a room too full.** -/
theorem capped_next (h : l.Capped settings) (d : Deed) : (l.next d).Capped settings := by
  have hwelcomed : (((l.welcome? d).map (·.2)).getD l).Capped settings := by
    cases hwelcome : l.welcome? d with
    | none => exact h
    | some arrived =>
      obtain ⟨place, s, -, ⟨room, -, hok⟩ | ⟨title, -, hok⟩⟩ := welcome?_eq_some hwelcome
      · exact h.join hok
      · exact h.openRoom hok
  cases d with
  | create title => exact h.createRoom title
  | openRoom place title => exact hwelcomed
  | join place room => exact hwelcomed
  | leave id => exact h.leave id
  | steer id vx vy =>
    cases hsteer : l.steer? id vx vy with
    | none => simpa [Lobby.next, hsteer] using h
    | some l' => simpa [Lobby.next, hsteer] using h.steer? hsteer
  | advance dt => exact h.advance dt
  | tell tick => exact h.of_floor (floor_tellAll l tick)
  | arrive id capacity => exact h.noFuller (.of_eq rfl rfl)
  | login place username => exact h.noFuller (.of_eq rfl rfl)
  | disconnect place => exact h.noFuller (.of_eq rfl rfl)

theorem capped_after (h : l.Capped settings) (deeds : List Deed) :
    (after next l deeds).Capped settings := by
  induction deeds generalizing l with
  | nil => exact h
  | cons d rest ih => exact ih (capped_next h d)

/-- Whatever is done in the lobby, in any order and over any sessions, no room ever has more players
    than the settings allow, or more than one where they allow none. -/
theorem rooms_within_capacity (settings : RoomSettings) (sessions : List Session)
    (deeds : List Deed) :
    let l := after next { settings, sessions } deeds
    ∀ (room : RoomId) (r : Room), l.rooms[room]? = some r →
      r.size ≤ max 1 settings.maxPlayers.toNat := by
  intro l room r hr
  have hstart : ({ settings, sessions } : Lobby).Capped settings := by
    refine ⟨rfl, ?_⟩
    intro room r hr
    simp at hr
  exact (capped_after hstart deeds).size_le room r hr

/-- Rooms for one.  The last session to come is let in nowhere, and the second gets in where the
    first has gone. -/
theorem rooms_within_capacity_for_one :
    let sessions := [Session.new ⟨1⟩ 8, .new ⟨2⟩ 8, .new ⟨3⟩ 8]
    let deeds := [Deed.create "Hall", .join 0 ⟨1⟩, .join 1 ⟨1⟩, .openRoom 1 "Attic", .join 2 ⟨2⟩,
      .join 0 ⟨9⟩, .join 1 ⟨1⟩, .join 2 ⟨1⟩]
    let l := after next { settings := { maxPlayers := 1 }, sessions } deeds
    ∃ r, l.rooms[(⟨1⟩ : RoomId)]? = some r ∧ r.players.keys = [⟨2⟩] ∧ r.size ≤ 1 := by
  intro sessions deeds l
  have hroom : l.rooms[(⟨1⟩ : RoomId)]?.map (·.players.keys) = some [⟨2⟩] := by
    decide
  obtain ⟨r, hr, hkeys⟩ := Option.map_eq_some_iff.mp hroom
  exact ⟨r, hr, hkeys, rooms_within_capacity { maxPlayers := 1 } sessions deeds ⟨1⟩ r hr⟩

end Lobby

namespace World

/-! ### In every run -/

variable {w : World} {settings : RoomSettings}

/-- **No command makes a room too full.** -/
theorem capped_execute (hcapped : w.lobby.Capped settings) (c : Command) :
    (w.execute c).lobby.Capped settings := by
  have hleft : ∀ {v : World} id, v.lobby.floor = (w.lobby.leave id).1.floor →
      v.lobby.Capped settings := fun id => (hcapped.leave id).of_floor
  cases c with
  | hangUp id username => exact hleft id (w.floor_logout id _)
  | request id r =>
    cases r with
    | register username password => exact hcapped.of_floor (w.floor_register id username password)
    | login username password => exact hcapped.of_floor (w.floor_login id username password)
    | chat message => exact hcapped.of_floor (w.floor_chat id message)
    | listRooms => exact hcapped.of_floor (w.floor_reply id _)
    | leaveRoom => exact hleft id (w.floor_leaveRoom id)
    | logout => exact hleft id (w.floor_logout id none)
    | enterRoom room =>
      refine Lobby.Capped.of_floor ?_ (w.floor_enterRoom id room)
      cases hentry : w.entry? id room with
      | none => exact hcapped
      | some entry =>
        obtain ⟨place, s, a, lobby⟩ := entry
        obtain ⟨-, -, hjoin⟩ := entry?_eq_some.mp hentry
        exact hcapped.join hjoin
    | createRoom title =>
      refine Lobby.Capped.of_floor ?_ (w.floor_createRoom id title)
      cases hopening : w.opening? id title with
      | none => exact hcapped
      | some opened =>
        obtain ⟨place, s, a, lobby⟩ := opened
        obtain ⟨-, -, hopened⟩ := opening?_eq_some.mp hopening
        exact hcapped.openRoom hopened
    | move vx vy =>
      refine Lobby.Capped.of_floor ?_ (w.floor_move id vx vy)
      cases hsteer : w.lobby.steer? id vx vy with
      | none => exact hcapped
      | some lobby => exact hcapped.steer? hsteer

theorem capped_next (hcapped : w.lobby.Capped settings) (e : Event) :
    (w.next e).lobby.Capped settings := by
  cases e with
  | execute c => exact capped_execute (w := w.dequeue c) hcapped c
  | advance dt => exact hcapped.advance dt
  | _ => exact hcapped.of_floor (w.floor_next (by simp) (by simp))

theorem Pristine.capped (hstart : w.Pristine) : w.lobby.Capped w.lobby.settings where
  settings_eq := rfl
  size_le room r hr := by
    rw [hstart.rooms] at hr
    cases hr

/-- **No room ever has more players than the settings allow.** -/
theorem capped_after (hcapped : w.lobby.Capped settings) (events : List Event) :
    (after next w events).lobby.Capped settings := by
  induction events generalizing w with
  | nil => exact hcapped
  | cons e rest ih => exact ih (capped_next hcapped e)

end World

end GameServer
