import GameServer.Proofs.Admission
import GameServer.Proofs.Run

/-!
Runs of the lobby.

Rooms are made, entered and left, players are steered and moved, sessions arrive, log in and
close, in any order and over any sessions, several of which may share a number.  Through
all of it the four records of who is where agree, and the only empty rooms are those that were
made empty and that nobody has come into since.
-/

namespace GameServer

open Wire

namespace Lobby

/-- Something done in the lobby or to one of its sessions.  Reading the lobby is not listed:
    it changes nothing. -/
inductive Deed where
  | create (title : String)
  | openRoom (place : Place) (title : String)
  | join (place : Place) (room : RoomId)
  | leave (id : SessionId)
  | steer (id : SessionId) (vx vy : Single)
  | advance (dt : Single)
  /-- Every room is looked at, and its members are told how it stands. -/
  | tell (tick : UInt32)
  | arrive (id : SessionId) (capacity : Nat)
  | login (place : Place) (username : String)
  | disconnect (place : Place)
deriving DecidableEq, Repr

/-- How a deed lets somebody into a room, and the lobby then; nothing for a deed that lets
    nobody in. -/
def welcome? (l : Lobby) : Deed → Option (Arrival × Lobby)
  | .openRoom place title => do
    let s ← l.sessions[place]?
    (l.openRoom place s title).toOption
  | .join place room => do
    let s ← l.sessions[place]?
    (l.join place s room).toOption
  | _ => none

/-- The room that a deed lets somebody into. -/
def entered? (l : Lobby) (d : Deed) : Option RoomId := (l.welcome? d).map (·.1.room)

/-- The lobby after a deed.  Who is refused, and who is not there, changes nothing. -/
def next (l : Lobby) : Deed → Lobby
  | .create title => (l.createRoom title).2
  | .leave id => (l.leave id).1
  | .steer id vx vy => (l.steer? id vx vy).getD l
  | .advance dt => l.advance dt
  | .tell tick => (l.tellAll tick).1
  | .arrive id capacity => { l with sessions := l.sessions ++ [Session.new id capacity] }
  | .login place username => { l with sessions := l.sessions.modify place (·.login username) }
  | .disconnect place => { l with sessions := (Sessions.disconnect place l.sessions {}).1 }
  | d => ((l.welcome? d).map (·.2)).getD l

/-- A deed that looks for a room number ends: some number is left when it looks. -/
def Ends (l : Lobby) : Deed → Prop
  | .create _ => l.HasFreeId
  | .openRoom place _ =>
    ∀ s, l.sessions[place]? = some s → s.closed = false → (l.leave s.id).1.HasFreeId
  | _ => True

/-! ### One deed -/

section Deed

variable {l : Lobby}

theorem ok_of_toOption {ε α : Type} {x : Except ε α} {a : α} (h : x.toOption = some a) :
    x = .ok a := by
  cases x with
  | error cause => cases h
  | ok b => cases h; rfl

/-- Coming in is joining a room or making one. -/
theorem welcome?_eq_some {d : Deed} {a : Arrival} {l' : Lobby} (h : l.welcome? d = some (a, l')) :
    ∃ place s, l.sessions[place]? = some s ∧
      ((∃ room, d = .join place room ∧ l.join place s room = .ok (a, l')) ∨
        ∃ title, d = .openRoom place title ∧ l.openRoom place s title = .ok (a, l')) := by
  unfold welcome? at h
  split at h
  · next place title =>
    obtain ⟨s, hs, hok⟩ := Option.bind_eq_some_iff.mp h
    exact ⟨place, s, hs, .inr ⟨title, rfl, ok_of_toOption hok⟩⟩
  · next place room =>
    obtain ⟨s, hs, hok⟩ := Option.bind_eq_some_iff.mp h
    exact ⟨place, s, hs, .inl ⟨room, rfl, ok_of_toOption hok⟩⟩
  · cases h

/-- Letting somebody in keeps the records in step and leaves no empty room. -/
theorem Consistent.welcome? (h : l.Consistent) {d : Deed} (hends : l.Ends d) {a : Arrival}
    {l' : Lobby} (hwelcome : l.welcome? d = some (a, l')) :
    l'.Consistent ∧ ∀ room, l'.HasEmpty room → room ≠ a.room ∧ l.HasEmpty room := by
  obtain ⟨place, s, hs, ⟨room, rfl, hok⟩ | ⟨title, rfl, hok⟩⟩ := welcome?_eq_some hwelcome
  · exact ⟨h.join hs hok, fun _ => h.hasEmpty_of_join hok⟩
  · have hfree := hends s hs (open_of_openRoom_ok hok)
    exact ⟨h.openRoom hs hfree hok, fun _ => h.hasEmpty_of_openRoom hfree hok⟩

/-- **One deed keeps the four records in step.** -/
theorem Consistent.next (h : l.Consistent) (d : Deed) (hends : l.Ends d) :
    (l.next d).Consistent := by
  have hwelcomed : (((l.welcome? d).map (·.2)).getD l).Consistent := by
    cases hwelcome : l.welcome? d with
    | none => exact h
    | some arrived => exact (h.welcome? hends hwelcome).1
  cases d with
  | create title => exact h.createRoom hends title
  | openRoom place title => exact hwelcomed
  | join place room => exact hwelcomed
  | leave id => exact h.leave id
  | steer id vx vy =>
    cases hsteer : l.steer? id vx vy with
    | none => simpa [Lobby.next, hsteer] using h
    | some l' => simpa [Lobby.next, hsteer] using h.steer? hsteer
  | advance dt => exact h.advance dt
  | tell tick =>
    obtain ⟨sessions, htold, hstanding⟩ := tellEach_traffic (l.views tick) l
    simp only [Lobby.next, tellAll, htold]
    exact h.congr (fun _ => rfl) rfl (Session.map_seat_of_map_standing hstanding)
  | arrive id capacity =>
    exact h.arrive (Session.new id capacity) rfl
  | login place username =>
    exact h.congr (fun _ => rfl) rfl (Sessions.map_modify_of_eq fun _ _ => rfl)
  | disconnect place =>
    exact h.congr (fun _ => rfl) rfl (map_seat_disconnect l.sessions place {})

/-- **A room that stands empty after a deed was made empty by it, or stood empty before and
    was not entered.** -/
theorem Consistent.hasEmpty_of_next (h : l.Consistent) (d : Deed) (hends : l.Ends d)
    {room : RoomId} (hempty : (l.next d).HasEmpty room) :
    (∃ title, d = .create title ∧ (l.createRoom title).1 = room) ∨
      l.HasEmpty room ∧ l.entered? d ≠ some room := by
  have hnobody : l.welcome? d = none → l.entered? d ≠ some room := by
    intro hnone
    simp [entered?, hnone]
  have hwelcomed : (((l.welcome? d).map (·.2)).getD l).HasEmpty room →
      l.HasEmpty room ∧ l.entered? d ≠ some room := by
    intro hempty
    cases hwelcome : l.welcome? d with
    | none =>
      rw [hwelcome] at hempty
      exact ⟨hempty, hnobody hwelcome⟩
    | some arrived =>
      rw [hwelcome] at hempty
      obtain ⟨hne, hbefore⟩ := (h.welcome? hends hwelcome).2 room hempty
      exact ⟨hbefore, by simpa [entered?, hwelcome] using hne.symm⟩
  cases d with
  | create title =>
    obtain ⟨r, hr, hleft⟩ := hempty
    rw [Lobby.next, createRoom_eq, rooms_putUp] at hr
    split at hr
    · next heq => exact .inl ⟨title, rfl, heq.symm⟩
    · exact .inr ⟨⟨r, hr, hleft⟩, hnobody rfl⟩
  | openRoom place title => exact .inr (hwelcomed hempty)
  | join place room => exact .inr (hwelcomed hempty)
  | leave id => exact .inr ⟨h.hasEmpty_of_leave hempty, hnobody rfl⟩
  | steer id vx vy =>
    refine .inr ⟨?_, hnobody rfl⟩
    cases hsteer : l.steer? id vx vy with
    | none => simpa [Lobby.next, hsteer] using hempty
    | some l' =>
      refine hasEmpty_of_shape (shape_steer? hsteer room) ?_
      simpa [Lobby.next, hsteer] using hempty
  | advance dt => exact .inr ⟨hasEmpty_of_shape (shape_advance l dt room) hempty, hnobody rfl⟩
  | tell tick =>
    obtain ⟨sessions, htold, -⟩ := tellEach_traffic (l.views tick) l
    simp only [Lobby.next, tellAll, htold] at hempty
    exact .inr ⟨hempty, hnobody rfl⟩
  | arrive id capacity => exact .inr ⟨hempty, hnobody rfl⟩
  | login place username => exact .inr ⟨hempty, hnobody rfl⟩
  | disconnect place => exact .inr ⟨hempty, hnobody rfl⟩

end Deed

/-! ### A whole run -/

section Run

variable {settings : RoomSettings} {sessions : List Session}

/-- Before anything happens there are no rooms, and the sessions are in none. -/
theorem Consistent.start (hnew : ∀ s ∈ sessions, s.room = none) :
    ({ settings, sessions } : Lobby).Consistent where
  inOrder hr := by simp at hr
  room_id hr := by simp at hr
  index_iff id room := by simp [Seats]
  seated := by
    rintro room id place ⟨r, hr, -⟩
    simp at hr
  room_iff hs room := by simp [Seats, hnew _ (List.mem_of_getElem? hs)]

theorem consistent_after {l : Lobby} (h : l.Consistent) (deeds : List Deed)
    (hrun : Along next Ends l deeds) : (after next l deeds).Consistent :=
  after_invariant (fun _ d hl hends => hl.next d hends) h deeds hrun

/-- A room that stands empty after a run was made empty in it, and nobody came into it from
    then on. -/
theorem made_of_hasEmpty {l : Lobby} (h : l.Consistent) (hnone : ∀ room, ¬ l.HasEmpty room)
    (deeds : List Deed) (hrun : Along next Ends l deeds) {room : RoomId}
    (hempty : (after next l deeds).HasEmpty room) :
    ∃ before title later, deeds = before ++ .create title :: later ∧
      ((after next l before).createRoom title).1 = room ∧
      Along next (fun m d => m.entered? d ≠ some room)
        ((after next l before).next (.create title)) later := by
  -- from the last deed back: each keeps the room empty, until the one that made it
  induction deeds using List.reverseRecOn with
  | nil => exact absurd hempty (hnone room)
  | append_singleton deeds d ih =>
    obtain ⟨hearlier, hends, -⟩ := (along_append l deeds [d]).mp hrun
    have hconsistent := consistent_after h deeds hearlier
    rw [after_append] at hempty
    rcases hconsistent.hasEmpty_of_next d hends hempty with ⟨title, rfl, hroom⟩ | ⟨hbefore, hnot⟩
    · exact ⟨deeds, title, [], rfl, hroom, trivial⟩
    · obtain ⟨before, title, later, rfl, hroom, halong⟩ := ih hearlier hbefore
      refine ⟨before, title, later ++ [d], by simp, hroom, ?_⟩
      rw [along_append]
      refine ⟨halong, ?_, trivial⟩
      rwa [after_append] at hnot

/-- **The four records of who is where agree after every run.**  The lobby starts with any
    sessions, in no room, and any deeds follow; a search for a room number ends, which it does
    as long as there are fewer than `2 ^ 32` rooms.  Then the index, the players and the
    members name the same people in the same rooms, and nobody is in two.  Every room is under
    its own number and every player knows themselves and the room.  A session is bound to a
    room exactly if it is the one that the room has as a member.  Only rooms made empty and not
    entered since are empty.  And whoever is indexed can be taken out. -/
theorem registry_agrees (hnew : ∀ s ∈ sessions, s.room = none) (deeds : List Deed)
    (hrun : Along next Ends { settings, sessions } deeds) :
    let l := after next { settings, sessions } deeds
    (∀ (id : SessionId) (room : RoomId),
      (l.index[id]? = some room ↔ ∃ r, l.rooms[room]? = some r ∧ id ∈ r.players) ∧
      (l.index[id]? = some room ↔ ∃ r, l.rooms[room]? = some r ∧ id ∈ r.members)) ∧
    (∀ (id : SessionId) (room room' : RoomId) (r r' : Room), l.rooms[room]? = some r →
      l.rooms[room']? = some r' → id ∈ r.players → id ∈ r'.players → room' = room) ∧
    (∀ (room : RoomId) (r : Room), l.rooms[room]? = some r → r.id = room ∧
      ∀ (id : SessionId) (p : Player), r.players[id]? = some p → p.session = id ∧ p.room = room) ∧
    (∀ (room : RoomId) (r : Room) (id : SessionId) (place : Place), l.rooms[room]? = some r →
      r.members[id]? = some place → ∃ s, l.sessions[place]? = some s ∧ s.id = id) ∧
    (∀ (place : Place) (s : Session) (room : RoomId), l.sessions[place]? = some s →
      (s.room = some room ↔ ∃ r, l.rooms[room]? = some r ∧ r.members[s.id]? = some place)) ∧
    (∀ (room : RoomId) (r : Room), l.rooms[room]? = some r → r.isEmpty = true →
      ∃ before title later, deeds = before ++ .create title :: later ∧
        ((after next { settings, sessions } before).createRoom title).1 = room ∧
        Along next (fun m d => m.entered? d ≠ some room)
          ((after next { settings, sessions } before).next (.create title)) later) ∧
    (∀ (id : SessionId) (room : RoomId), l.index[id]? = some room →
      (∃ r place, l.rooms[room]? = some r ∧ r.members[id]? = some place) ∧
      ∃ departure, (l.leave id).2 = some departure ∧ departure.room = room) := by
  intro l
  have hstart : ({ settings, sessions } : Lobby).Consistent := .start hnew
  have h : l.Consistent := consistent_after hstart deeds hrun
  have hplayers : ∀ (id : SessionId) (room : RoomId),
      l.index[id]? = some room ↔ ∃ r, l.rooms[room]? = some r ∧ id ∈ r.players := by
    intro id room
    constructor
    · intro hi
      obtain ⟨r, -, hr, hid, -⟩ := h.seats_of_index hi
      exact ⟨r, hr, hid⟩
    · rintro ⟨r, hr, hid⟩
      have hmember := ((h.inOrder hr).player_iff_member id).mp hid
      rw [Std.ExtTreeMap.mem_iff_isSome_getElem?] at hmember
      obtain ⟨place, hplace⟩ := Option.isSome_iff_exists.mp hmember
      exact (h.index_iff id room).mpr ⟨place, r, hr, hplace⟩
  refine ⟨fun id room => ⟨hplayers id room, ?_⟩, ?_, ?_, ?_, ?_, ?_, ?_⟩
  · rw [hplayers]
    exact exists_congr fun r =>
      and_congr_right fun hr => (h.inOrder hr).player_iff_member id
  · intro id room room' r r' hr hr' hid hid'
    have hroom := (hplayers id room).mpr ⟨r, hr, hid⟩
    have hroom' := (hplayers id room').mpr ⟨r', hr', hid'⟩
    exact Option.some.inj (hroom'.symm.trans hroom)
  · intro room r hr
    refine ⟨h.room_id hr, fun id p hp => ?_⟩
    obtain ⟨hself, hroom⟩ := (h.inOrder hr).player_own hp
    exact ⟨hself, hroom.trans (h.room_id hr)⟩
  · exact fun room r id place hr hplace => h.seated ⟨r, hr, hplace⟩
  · exact fun place s room hs => h.room_iff hs room
  · intro room r hr hnobody
    have hnone : ∀ room, ¬ ({ settings, sessions } : Lobby).HasEmpty room := by
      rintro room ⟨r, hr, -⟩
      simp at hr
    exact made_of_hasEmpty hstart hnone deeds hrun ⟨r, hr, hnobody⟩
  · intro id room hi
    obtain ⟨r, place, hr, -, hplace⟩ := h.seats_of_index hi
    exact ⟨⟨r, place, hr, hplace⟩, _, by rw [leave_of_listed hi hr hplace], rfl⟩

/-- Two sessions share a number, and the second puts the first out of its room.  The room that
    was made empty stands empty still, and nobody came into it. -/
theorem registry_agrees_shared_number :
    let sessions := [Session.new ⟨1⟩ 8, .new ⟨1⟩ 8, .new ⟨2⟩ 8]
    let deeds := [Deed.create "Hall", .join 0 ⟨5⟩, .join 1 ⟨7⟩, .openRoom 2 "Attic",
      .disconnect 2, .join 2 ⟨1⟩]
    let l := after next { sessions } deeds
    (∀ s ∈ sessions, s.room = none) ∧ Along next Ends { sessions } deeds ∧
      l.rooms[(⟨1⟩ : RoomId)]?.map Room.isEmpty = some true ∧
      ∃ before title later, deeds = before ++ .create title :: later ∧
        ((after next { sessions } before).createRoom title).1 = ⟨1⟩ ∧
        Along next (fun m d => m.entered? d ≠ some ⟨1⟩)
          ((after next { sessions } before).next (.create title)) later := by
  intro sessions deeds l
  have hnew : ∀ s ∈ sessions, s.room = none := by decide
  have hrun : Along next Ends { sessions } deeds := by
    refine ⟨⟨⟨99⟩, by decide⟩, trivial, trivial, ?_, trivial, trivial, trivial⟩
    intro s hs _
    obtain rfl := Option.some.inj hs
    exact ⟨⟨99⟩, by decide⟩
  have hempty : l.rooms[(⟨1⟩ : RoomId)]?.map Room.isEmpty = some true := by decide
  obtain ⟨r, hr, hnobody⟩ := Option.map_eq_some_iff.mp hempty
  have hall := registry_agrees hnew deeds hrun
  exact ⟨hnew, hrun, hempty, hall.2.2.2.2.2.1 ⟨1⟩ r hr hnobody⟩

end Run

end Lobby

end GameServer
