import GameServer.Proofs.Registry

/-!
Coming in: how the lobby puts up rooms and lets sessions into them.

Joining a room and making one both come down to the same thing: the session is first taken
out of the room it was in, and then settled in a room as it stands, or in a new one that
is put up for it under a number that was free.
-/

namespace GameServer

open Wire

namespace Lobby

/-! ### An empty room is put up -/

section PutUp

variable {l : Lobby} {r : Room}

/-- The lobby with one more room, under the room's own number. -/
def putUp (l : Lobby) (r : Room) : Lobby := { l with rooms := l.rooms.insert r.id r }

theorem rooms_putUp (other : RoomId) :
    (l.putUp r).rooms[other]? = if other = r.id then some r else l.rooms[other]? :=
  lookup_insert ..

theorem createRoom_eq (l : Lobby) (title : String) :
    (l.createRoom title).2 = l.freshId.2.putUp { id := l.freshId.1, title } := rfl

/-- A room that was not there and that nobody is in lists nobody new. -/
theorem seats_putUp (hfree : r.id ∉ l.rooms) (hmembers : r.members = ∅) (room : RoomId)
    (id : SessionId) (place : Place) : (l.putUp r).Seats room id place ↔ l.Seats room id place := by
  unfold Seats
  rw [rooms_putUp]
  split
  · next heq =>
    subst heq
    simp [hmembers, lookup_eq_none_iff.mpr hfree]
  · rfl

/-- **Putting up an empty room under a free number keeps the records in step.** -/
theorem Consistent.putUp (h : l.Consistent) (hfree : r.id ∉ l.rooms) (hplayers : r.players = ∅)
    (hmembers : r.members = ∅) : (l.putUp r).Consistent where
  inOrder {room r'} hr' := by
    rw [rooms_putUp] at hr'
    split at hr'
    · cases hr'; exact .ofEmpty hplayers hmembers
    · exact h.inOrder hr'
  room_id {room r'} hr' := by
    rw [rooms_putUp] at hr'
    split at hr'
    · next heq => cases hr'; exact heq.symm
    · exact h.room_id hr'
  index_iff id room := by
    simp only [seats_putUp hfree hmembers]
    exact h.index_iff id room
  seated hseat := h.seated ((seats_putUp hfree hmembers ..).mp hseat)
  room_iff hs room := (h.room_iff hs room).trans (seats_putUp hfree hmembers ..).symm

end PutUp

/-! ### Somebody is let in -/

section Settle

variable {l : Lobby} {place : Place} {s : Session} {r : Room}

theorem rooms_settle (other : RoomId) :
    (l.settle place s r).rooms[other]? =
      if other = r.id then some (r.add place s) else l.rooms[other]? :=
  lookup_insert ..

theorem index_settle (other : SessionId) :
    (l.settle place s r).index[other]? = if other = s.id then some r.id else l.index[other]? :=
  lookup_insert ..

theorem sessions_settle :
    (l.settle place s r).sessions = l.sessions.modify place (·.setRoom (some r.id)) := rfl

/-- Letting somebody into a new room is putting it up and then letting them in. -/
theorem settle_putUp : (l.putUp r).settle place s r = l.settle place s r := by
  have hrooms : ((l.rooms.insert r.id r).insert r.id (r.add place s)) =
      l.rooms.insert r.id (r.add place s) := by
    apply Std.ExtTreeMap.ext_getElem?
    intro other
    simp only [lookup_insert]
    split <;> rfl
  simp only [settle, Lobby.putUp, hrooms]

/-- Whoever was in no room is listed where they were let in, and nothing else changes. -/
theorem Consistent.seats_settle (h : l.Consistent) (hr : l.rooms[r.id]? = some r)
    (hi : l.index[s.id]? = none) (room : RoomId) (id : SessionId) (p : Place) :
    (l.settle place s r).Seats room id p ↔
      (room = r.id ∧ id = s.id ∧ p = place) ∨ l.Seats room id p := by
  unfold Seats
  rw [rooms_settle]
  by_cases hroom : room = r.id
  · subst hroom
    simp only [if_true, Option.some.injEq, exists_eq_left', Room.add, lookup_insert, hr, true_and]
    by_cases hid : id = s.id
    · subst hid
      have hnowhere : r.members[s.id]? ≠ some p := fun hp => h.not_seats hi r.id p ⟨r, hr, hp⟩
      simp [hnowhere, eq_comm]
    · simp [hid]
  · simp [hroom]

/-- **Letting somebody who is in no room into one that is there keeps the records in
    step.** -/
theorem Consistent.settle (h : l.Consistent) (hr : l.rooms[r.id]? = some r)
    (hi : l.index[s.id]? = none) (hs : ∃ t, l.sessions[place]? = some t ∧ t.id = s.id) :
    (l.settle place s r).Consistent where
  inOrder {room r'} hr' := by
    rw [rooms_settle] at hr'
    split at hr'
    · cases hr'; exact (h.inOrder hr).add place s
    · exact h.inOrder hr'
  room_id {room r'} hr' := by
    rw [rooms_settle] at hr'
    split at hr'
    · next heq => cases hr'; exact heq.symm
    · exact h.room_id hr'
  index_iff id room := by
    simp only [index_settle, h.seats_settle hr hi]
    split
    · next heq =>
      subst heq
      simp [h.not_seats hi, eq_comm]
    · next hne => simp [hne, h.index_iff]
  seated {room id p} hseat := by
    have hkeeps : ∀ {p : Place} {t : Session}, l.sessions[p]? = some t →
        ∃ t', (l.settle place s r).sessions[p]? = some t' ∧ t'.id = t.id := by
      intro p t ht
      rw [sessions_settle, List.getElem?_modify, ht]
      by_cases hp : place = p
      · exact ⟨t.setRoom (some r.id), by simp [hp], rfl⟩
      · exact ⟨t, by simp [hp], rfl⟩
    rcases (h.seats_settle hr hi room id p).mp hseat with ⟨-, rfl, rfl⟩ | hold
    · obtain ⟨t, ht, hid⟩ := hs
      obtain ⟨t', ht', hid'⟩ := hkeeps ht
      exact ⟨t', ht', hid'.trans hid⟩
    · obtain ⟨t, ht, hid⟩ := h.seated hold
      obtain ⟨t', ht', hid'⟩ := hkeeps ht
      exact ⟨t', ht', hid'.trans hid⟩
  room_iff {p t'} ht' room := by
    rw [h.seats_settle hr hi]
    rw [sessions_settle] at ht'
    obtain ⟨t, ht, hid⟩ := hs
    by_cases hp : place = p
    · subst hp
      rw [List.getElem?_modify_eq, ht] at ht'
      cases ht'
      simp [Session.setRoom, hid, h.not_seats hi, eq_comm]
    · rw [List.getElem?_modify_ne _ _ hp] at ht'
      simp [h.room_iff ht', Ne.symm hp]

/-- A room that can be settled in: one that is there as it stands, or a new one. -/
def Offers (l : Lobby) (r : Room) : Prop :=
  l.rooms[r.id]? = some r ∨ r.id ∉ l.rooms ∧ r.players = ∅ ∧ r.members = ∅

/-- Letting somebody who is in no room into one that is there, or into a new one, keeps the
    records in step. -/
theorem Consistent.settle_offered (h : l.Consistent) (hr : l.Offers r)
    (hi : l.index[s.id]? = none) (hs : ∃ t, l.sessions[place]? = some t ∧ t.id = s.id) :
    (l.settle place s r).Consistent := by
  rcases hr with hr | ⟨hfree, hplayers, hmembers⟩
  · exact h.settle hr hi hs
  · rw [← settle_putUp]
    refine (h.putUp hfree hplayers hmembers).settle ?_ hi hs
    rw [rooms_putUp, if_pos rfl]

end Settle

/-! ### Joining and making a room -/

section Coming

variable {l l' : Lobby} {place : Place} {s : Session} {a : Arrival}

/-- What joining a room does when it is not refused: nothing, if the session is in that room;
    otherwise it leaves its old room and is settled in that one. -/
theorem join_ok (h : l.Consistent) {room : RoomId} (hok : l.join place s room = .ok (a, l')) :
    s.closed = false ∧ a.room = room ∧
      (l.index[s.id]? = some room ∧ l' = l ∨
        ∃ r, r.id = room ∧ (l.leave s.id).1.Offers r ∧
          l' = (l.leave s.id).1.settle place s r) := by
  unfold join at hok
  split at hok
  · cases hok
  · next hopen =>
    refine ⟨by simpa using hopen, ?_⟩
    split at hok
    · next hthere => cases hok; exact ⟨rfl, .inl ⟨hthere, rfl⟩⟩
    · split at hok
      · cases hok
      · dsimp only at hok
        split at hok
        · next r hr =>
          cases hok
          have hid := (h.leave s.id).room_id hr
          exact ⟨rfl, .inr ⟨r, hid, .inl (hid ▸ hr), rfl⟩⟩
        · next hr =>
          cases hok
          exact ⟨rfl, .inr ⟨_, rfl, .inr ⟨lookup_eq_none_iff.mp hr, rfl, rfl⟩, rfl⟩⟩

/-- Only an open session gets a room made for it. -/
theorem open_of_openRoom_ok {title : String} (hok : l.openRoom place s title = .ok (a, l')) :
    s.closed = false := by
  unfold openRoom at hok
  split at hok
  · cases hok
  · next hopen => simpa using hopen

/-- What making a room for a session does when it is not refused: the session leaves its old
    room and is settled in a new one. -/
theorem openRoom_ok {title : String} (hfree : (l.leave s.id).1.HasFreeId)
    (hok : l.openRoom place s title = .ok (a, l')) :
    ∃ r, r.id = a.room ∧ (l.leave s.id).1.freshId.2.Offers r ∧
      l' = (l.leave s.id).1.freshId.2.settle place s r := by
  unfold openRoom at hok
  split at hok
  · cases hok
  · cases hok
    let r : Room := { id := (l.leave s.id).1.freshId.1, title }
    exact ⟨r, rfl, .inr ⟨freshId_free hfree, rfl, rfl⟩, rfl⟩

/-- A session that has just been taken out is in no room, and is still at its place. -/
theorem Consistent.ready (h : l.Consistent) (hs : l.sessions[place]? = some s) :
    (l.leave s.id).1.index[s.id]? = none ∧
      ∃ t, (l.leave s.id).1.sessions[place]? = some t ∧ t.id = s.id := by
  refine ⟨by rw [index_leave, if_pos rfl], s.setRoom none, ?_, rfl⟩
  rw [h.sessions_leave, hs, Option.map_some, if_pos rfl]

/-- Looking for a number changes nothing but where the next search begins. -/
theorem Consistent.freshId (h : l.Consistent) : l.freshId.2.Consistent :=
  h.congr (fun _ => rfl) rfl rfl

/-- **Joining a room keeps the records in step.** -/
theorem Consistent.join (h : l.Consistent) {room : RoomId} (hs : l.sessions[place]? = some s)
    (hok : l.join place s room = .ok (a, l')) : l'.Consistent := by
  obtain ⟨-, -, ⟨-, rfl⟩ | ⟨r, -, hr, rfl⟩⟩ := join_ok h hok
  · exact h
  · obtain ⟨hi, ht⟩ := h.ready hs
    exact (h.leave s.id).settle_offered hr hi ht

/-- **Making a room for a session keeps the records in step, while a number is free.** -/
theorem Consistent.openRoom (h : l.Consistent) {title : String}
    (hs : l.sessions[place]? = some s) (hfree : (l.leave s.id).1.HasFreeId)
    (hok : l.openRoom place s title = .ok (a, l')) : l'.Consistent := by
  obtain ⟨r, -, hr, rfl⟩ := openRoom_ok hfree hok
  obtain ⟨hi, ht⟩ := h.ready hs
  exact (h.leave s.id).freshId.settle_offered hr hi ht

/-- **Making an empty room keeps the records in step, while a number is free.** -/
theorem Consistent.createRoom (h : l.Consistent) (hfree : l.HasFreeId) (title : String) :
    (l.createRoom title).2.Consistent := by
  rw [createRoom_eq]
  exact h.freshId.putUp (freshId_free hfree) rfl rfl

end Coming

/-! ### Moving about -/

section Moving

variable {l l' : Lobby}

/-- Steering changes no more than the speed of one player. -/
theorem steer?_eq_some {id : SessionId} {vx vy : Single} (h : l.steer? id vx vy = some l') :
    ∃ room r, l.rooms[room]? = some r ∧
      l' = { l with rooms := l.rooms.insert room (r.steer id vx vy) } := by
  unfold steer? at h
  split at h
  · cases h
  · next room _ =>
    split at h
    · cases h
    · next r hr =>
      split at h
      · cases h; exact ⟨room, r, hr, rfl⟩
      · cases h

theorem shape_steer? {id : SessionId} {vx vy : Single} (h : l.steer? id vx vy = some l')
    (room : RoomId) : l'.rooms[room]?.map Room.shape = l.rooms[room]?.map Room.shape := by
  obtain ⟨home, r, hr, rfl⟩ := steer?_eq_some h
  rw [lookup_insert]
  split
  · next heq => rw [heq, hr, Option.map_some, Option.map_some, Room.shape_steer]
  · rfl

theorem Consistent.steer? (h : l.Consistent) {id : SessionId} {vx vy : Single}
    (hsteer : l.steer? id vx vy = some l') : l'.Consistent := by
  refine h.congr (shape_steer? hsteer) ?_ ?_ <;>
    (obtain ⟨_, _, _, rfl⟩ := steer?_eq_some hsteer; rfl)

theorem shape_advance (l : Lobby) (dt : Single) (room : RoomId) :
    (l.advance dt).rooms[room]?.map Room.shape = l.rooms[room]?.map Room.shape := by
  simp only [advance, Std.ExtTreeMap.getElem?_map, Option.map_map]
  cases l.rooms[room]? with
  | none => rfl
  | some r => simp [Room.shape_advance]

theorem Consistent.advance (h : l.Consistent) (dt : Single) : (l.advance dt).Consistent :=
  h.congr (shape_advance l dt) rfl rfl

end Moving

/-! ### Arriving and closing -/

/-- A session that comes new into the lobby is in no room. -/
theorem Consistent.arrive {l : Lobby} (h : l.Consistent) (s : Session) (hroom : s.room = none) :
    Consistent { l with sessions := l.sessions ++ [s] } where
  inOrder := h.inOrder
  room_id := h.room_id
  index_iff := h.index_iff
  seated {room id place} hseat := by
    obtain ⟨t, ht, hid⟩ := h.seated hseat
    have hlt := (List.getElem?_eq_some_iff.mp ht).1
    exact ⟨t, by rw [List.getElem?_append_left hlt]; exact ht, hid⟩
  room_iff {place t} ht room := by
    rcases getElem?_concat_cases ht with ht | ⟨hplace, rfl⟩
    · exact h.room_iff ht room
    · -- nobody is listed at the new place
      have hnowhere : ¬ l.Seats room t.id place := by
        intro hseat
        obtain ⟨u, hu, -⟩ := h.seated hseat
        exact absurd (List.getElem?_eq_some_iff.mp hu).1 (Nat.not_lt.mpr (Nat.le_of_eq hplace.symm))
      refine ⟨fun hsome => ?_, fun hseat => absurd hseat hnowhere⟩
      rw [hroom] at hsome
      cases hsome

/-- A session that closes keeps its number and its room. -/
theorem map_seat_disconnect (sessions : List Session) (place : Place) (q : CommandQueue) :
    (Sessions.disconnect place sessions q).1.map Session.seat = sessions.map Session.seat := by
  unfold Sessions.disconnect
  cases hs : sessions[place]? with
  | none => rfl
  | some s =>
    apply Sessions.map_set_of_eq hs
    cases hclosed : s.closed with
    | true => rw [Session.disconnect_of_closed hclosed]
    | false => rw [Session.disconnect_of_open hclosed]; rfl

/-! ### Empty rooms -/

section Empty

variable {l l' : Lobby} {room : RoomId}

/-- There is a room of this number, and nobody is in it. -/
def HasEmpty (l : Lobby) (room : RoomId) : Prop :=
  ∃ r, l.rooms[room]? = some r ∧ r.isEmpty = true

theorem hasEmpty_of_shape
    (hrooms : l'.rooms[room]?.map Room.shape = l.rooms[room]?.map Room.shape)
    (hempty : l'.HasEmpty room) : l.HasEmpty room := by
  obtain ⟨r', hr', hnobody⟩ := hempty
  rw [hr', Option.map_some] at hrooms
  obtain ⟨r, hr, hshape⟩ := Option.map_eq_some_iff.mp hrooms.symm
  exact ⟨r, hr, by rwa [Room.isEmpty_of_shape_eq hshape]⟩

/-- A room that somebody is indexed to is not empty. -/
theorem Consistent.not_hasEmpty (h : l.Consistent) {id : SessionId}
    (hi : l.index[id]? = some room) : ¬ l.HasEmpty room := by
  rintro ⟨r, hr, hempty⟩
  obtain ⟨r', -, hr', hid, -⟩ := h.seats_of_index hi
  obtain rfl := Option.some.inj (hr'.symm.trans hr)
  rw [Room.isEmpty_eq_false_iff.mpr ⟨id, hid⟩] at hempty
  cases hempty

/-- Nobody leaves an empty room behind. -/
theorem Consistent.hasEmpty_of_leave (h : l.Consistent) {id : SessionId}
    (hempty : (l.leave id).1.HasEmpty room) : l.HasEmpty room := by
  cases hi : l.index[id]? with
  | none => rwa [leave_of_index_none hi] at hempty
  | some home =>
    obtain ⟨r, own, hr, -, hown⟩ := h.seats_of_index hi
    obtain ⟨r', hr', hnobody⟩ := hempty
    rw [rooms_leave hi hr hown] at hr'
    split at hr'
    · split at hr'
      · cases hr'
      · next hsomebody => cases hr'; exact absurd hnobody hsomebody
    · exact ⟨r', hr', hnobody⟩

/-- A room that somebody has just been settled in is not empty, and no other is emptied. -/
theorem hasEmpty_of_settle {place : Place} {s : Session} {r : Room}
    (hempty : (l.settle place s r).HasEmpty room) : room ≠ r.id ∧ l.HasEmpty room := by
  obtain ⟨r', hr', hnobody⟩ := hempty
  rw [rooms_settle] at hr'
  split at hr'
  · cases hr'
    have hsomebody : (r.add place s).isEmpty = false :=
      Room.isEmpty_eq_false_iff.mpr ⟨s.id, by simp [Room.add]⟩
    rw [hsomebody] at hnobody
    cases hnobody
  · next hne => exact ⟨hne, r', hr', hnobody⟩

/-- Whoever comes into a room leaves no empty room, neither the old one nor the new one. -/
theorem Consistent.hasEmpty_of_join (h : l.Consistent) {place : Place} {s : Session}
    {a : Arrival} {home : RoomId} (hok : l.join place s home = .ok (a, l'))
    (hempty : l'.HasEmpty room) : room ≠ a.room ∧ l.HasEmpty room := by
  obtain ⟨-, hroom, ⟨hi, rfl⟩ | ⟨r, hid, -, rfl⟩⟩ := join_ok h hok
  · refine ⟨?_, hempty⟩
    rintro rfl
    exact h.not_hasEmpty (hroom ▸ hi) hempty
  · obtain ⟨hne, hleft⟩ := hasEmpty_of_settle hempty
    exact ⟨by rwa [hroom, ← hid], h.hasEmpty_of_leave hleft⟩

theorem Consistent.hasEmpty_of_openRoom (h : l.Consistent) {place : Place} {s : Session}
    {a : Arrival} {title : String} (hfree : (l.leave s.id).1.HasFreeId)
    (hok : l.openRoom place s title = .ok (a, l')) (hempty : l'.HasEmpty room) :
    room ≠ a.room ∧ l.HasEmpty room := by
  obtain ⟨r, hid, -, rfl⟩ := openRoom_ok hfree hok
  obtain ⟨hne, hleft⟩ := hasEmpty_of_settle hempty
  exact ⟨by rwa [← hid], h.hasEmpty_of_leave hleft⟩

end Empty

/-! ### Telling -/

/-- Telling a response changes nothing but the traffic of sessions. -/
theorem broadcast_traffic (l : Lobby) (places : List Place) (r : Response) :
    ∃ sessions, (l.broadcast places r).1 = { l with sessions } ∧
      sessions.map Session.standing = l.sessions.map Session.standing :=
  ⟨_, rfl, Sessions.map_standing_broadcast r places l.sessions⟩

theorem tellEach_traffic (views : List RoomView) (l : Lobby) :
    ∃ sessions, (tellEach views l).1 = { l with sessions } ∧
      sessions.map Session.standing = l.sessions.map Session.standing := by
  induction views generalizing l with
  | nil => exact ⟨l.sessions, rfl, rfl⟩
  | cons view rest ih =>
    obtain ⟨told, htold, hstanding⟩ := broadcast_traffic l view.members view.response
    obtain ⟨all, hall, hrest⟩ := ih { l with sessions := told }
    refine ⟨all, ?_, hrest.trans hstanding⟩
    rw [← htold] at hall
    exact hall

end Lobby

end GameServer
