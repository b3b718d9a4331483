import GameServer.Proofs.WorldRun

/-!
Nobody is left behind in a room.

Whoever is in a room is vouched for: they are logged in on an open session, or their session is
closed and the `hangUp` that will take them out waits in the queue.  And no room stands empty.
Rooms are entered in two ways and left in five, and the last of them, the closing of a
connection, takes the player out only later; the roll of sessions is what ties the two moments
together.
-/

namespace GameServer

open Wire

namespace Lobby

/-! ### Rooms in use -/

/-- The four records agree, and no room stands empty. -/
structure InUse (l : Lobby) : Prop where
  consistent : l.Consistent
  peopled : ∀ room, ¬ l.HasEmpty room

variable {l l' : Lobby}

theorem InUse.congr (h : l.InUse)
    (hrooms : ∀ room : RoomId, l'.rooms[room]?.map Room.shape = l.rooms[room]?.map Room.shape)
    (hindex : l'.index = l.index)
    (hsessions : l'.sessions.map Session.seat = l.sessions.map Session.seat) : l'.InUse where
  consistent := h.consistent.congr hrooms hindex hsessions
  peopled room hempty := h.peopled room (hasEmpty_of_shape (hrooms room) hempty)

theorem InUse.leave (h : l.InUse) (id : SessionId) : (l.leave id).1.InUse where
  consistent := h.consistent.leave id
  peopled room hempty := h.peopled room (h.consistent.hasEmpty_of_leave hempty)

theorem InUse.exists_player (h : l.InUse) {room : RoomId} {r : Room}
    (hr : l.rooms[room]? = some r) : ∃ id, id ∈ r.players := by
  rw [← Room.isEmpty_eq_false_iff]
  by_contra hempty
  exact h.peopled room ⟨r, hr, by simpa using hempty⟩

/-- There are as many numbers for sessions as for rooms.  So while every room has a player of
    its own, and somebody is in no room, a number for another room is left. -/
theorem InUse.hasFreeId (h : l.InUse) {id : SessionId} (hi : l.index[id]? = none) :
    l.HasFreeId := by
  have hplayer : ∀ room : RoomId, ∃ id : SessionId,
      room ∈ l.rooms → l.index[id]? = some room := by
    intro room
    cases hr : l.rooms[room]? with
    | none => exact ⟨id, fun hin => absurd hin (lookup_eq_none_iff.mp hr)⟩
    | some r =>
      obtain ⟨player, hin⟩ := h.exists_player hr
      have hmember := ((h.consistent.inOrder hr).player_iff_member player).mp hin
      obtain ⟨place, hplace⟩ := Option.isSome_iff_exists.mp
        (Std.ExtTreeMap.mem_iff_isSome_getElem?.mp hmember)
      exact ⟨player, fun _ => (h.consistent.index_iff player room).mpr ⟨place, r, hr, hplace⟩⟩
  choose player hindexed using hplayer
  -- players of different rooms are different, and the one outside is none of them
  have hnodup : (id :: l.rooms.keys.map player).Nodup := by
    refine List.nodup_cons.mpr ⟨?_, List.Nodup.map_on ?_ Std.ExtTreeMap.nodup_keys⟩
    · intro hin
      obtain ⟨room, hroom, rfl⟩ := List.mem_map.mp hin
      rw [hindexed room (Std.ExtTreeMap.mem_keys.mp hroom)] at hi
      cases hi
    · intro room hroom other hother hsame
      have hroom := hindexed room (Std.ExtTreeMap.mem_keys.mp hroom)
      have hother := hindexed other (Std.ExtTreeMap.mem_keys.mp hother)
      rw [hsame] at hroom
      exact Option.some.inj (hroom.symm.trans hother)
  have hcard := (hnodup.map SessionId.word_injective).length_le_card
  rw [Fintype.card_fin, List.length_map, List.length_cons, List.length_map,
    Std.ExtTreeMap.length_keys] at hcard
  exact hasFreeId_of_size_lt (Nat.lt_of_succ_le hcard)

section Coming

variable {place p : Place} {s t : Session} {a : Arrival}

theorem InUse.join (h : l.InUse) {room : RoomId} (hs : l.sessions[place]? = some s)
    (hok : l.join place s room = .ok (a, l')) : l'.InUse where
  consistent := h.consistent.join hs hok
  peopled other hempty := h.peopled other (h.consistent.hasEmpty_of_join hok hempty).2

theorem InUse.openRoom (h : l.InUse) {title : String} (hs : l.sessions[place]? = some s)
    (hok : l.openRoom place s title = .ok (a, l')) : l'.InUse := by
  have hfree : (l.leave s.id).1.HasFreeId :=
    (h.leave s.id).hasFreeId (h.consistent.ready hs).1
  exact
    { consistent := h.consistent.openRoom hs hfree hok
      peopled := fun other hempty =>
        h.peopled other (h.consistent.hasEmpty_of_openRoom hfree hok hempty).2 }

/-- Whoever is in a room after somebody was taken out was there before. -/
theorem Consistent.stays_of_leave (h : l.Consistent) {id : SessionId}
    (ht : (l.leave id).1.sessions[p]? = some t) (hroom : t.room ≠ none) :
    t.id ≠ id ∧ l.sessions[p]? = some t := by
  rw [h.sessions_leave] at ht
  obtain ⟨u, hu, rfl⟩ := Option.map_eq_some_iff.mp ht
  by_cases hid : u.id = id
  · rw [if_pos hid] at hroom
    exact absurd rfl hroom
  · rw [if_neg hid]
    exact ⟨hid, hu⟩

/-- Whoever is in a room after somebody else came in was there before. -/
theorem Consistent.stays_of_settle (h : l.Consistent) {r : Room} (hp : place ≠ p)
    (ht : ((l.leave s.id).1.settle place s r).sessions[p]? = some t) (hroom : t.room ≠ none) :
    l.sessions[p]? = some t := by
  rw [sessions_settle, List.getElem?_modify_ne _ _ hp] at ht
  exact (h.stays_of_leave ht hroom).2

theorem Consistent.stays_of_join (h : l.Consistent) {room : RoomId}
    (hok : l.join place s room = .ok (a, l')) (hp : place ≠ p)
    (ht : l'.sessions[p]? = some t) (hroom : t.room ≠ none) : l.sessions[p]? = some t := by
  obtain ⟨-, -, ⟨-, rfl⟩ | ⟨r, -, -, rfl⟩⟩ := join_ok h hok
  · exact ht
  · exact h.stays_of_settle hp ht hroom

theorem Consistent.stays_of_openRoom (h : l.Consistent) {title : String}
    (hok : l.openRoom place s title = .ok (a, l')) (hp : place ≠ p)
    (ht : l'.sessions[p]? = some t) (hroom : t.room ≠ none) : l.sessions[p]? = some t := by
  unfold Lobby.openRoom at hok
  split at hok
  · cases hok
  · cases hok
    exact h.stays_of_settle hp ht hroom

end Coming

end Lobby

namespace World

/-! ### Who is vouched for -/

/-- Somebody is logged in on an open session, or the session is closed and its `hangUp`
    waits. -/
def Vouched (w : World) (b : Badge) : Prop :=
  b.closed = false ∧ b.user ≠ none ∨
    b.closed = true ∧ ∃ username, .hangUp b.id username ∈ w.queue.pending

/-- Rooms are in use, and whoever is in one is vouched for. -/
structure Housed (w : World) : Prop where
  inUse : w.lobby.InUse
  vouched : ∀ {place : Place} {s : Session}, w.sessions[place]? = some s → s.room ≠ none →
    w.Vouched s.badge

variable {w w' : World}

theorem Vouched.mono {b : Badge} (h : w.Vouched b)
    (hpending : ∀ id username, .hangUp id username ∈ w.queue.pending →
      .hangUp id username ∈ w'.queue.pending) : w'.Vouched b :=
  h.imp_right fun ⟨hclosed, username, hwaits⟩ => ⟨hclosed, username, hpending _ _ hwaits⟩

/-- No waiting `hangUp` is lost, and whoever is in a room was in one before with the same badge,
    or is vouched for anew. -/
theorem Housed.of_stays (h : w.Housed) (hinUse : w'.lobby.InUse)
    (hpending : ∀ id username, .hangUp id username ∈ w.queue.pending →
      .hangUp id username ∈ w'.queue.pending)
    (hstays : ∀ {place : Place} {t : Session}, w'.sessions[place]? = some t → t.room ≠ none →
      (∃ s, w.sessions[place]? = some s ∧ s.room ≠ none ∧ t.badge = s.badge) ∨
        w'.Vouched t.badge) : w'.Housed where
  inUse := hinUse
  vouched ht hroom := by
    rcases hstays ht hroom with ⟨s, hs, hold, hsame⟩ | hanew
    · rw [hsame]
      exact (h.vouched hs hold).mono hpending
    · exact hanew

theorem Quiet.inUse (hquiet : Quiet w w') (h : w.lobby.InUse) : w'.lobby.InUse :=
  h.congr hquiet.shapes hquiet.index (Session.map_seat_of_map_standing hquiet.standing)

theorem Housed.quiet (h : w.Housed) (hquiet : Quiet w w') : w'.Housed := by
  refine h.of_stays (hquiet.inUse h.inUse) (fun _ _ hwaits => hquiet.queue ▸ hwaits) ?_
  intro place t ht hroom
  obtain ⟨s, hs, hstanding⟩ := Sessions.getElem?_of_map_eq hquiet.standing ht
  have hsame : s.room = t.room := congrArg Standing.room hstanding
  exact .inl ⟨s, hs, by rwa [hsame], Session.badge_of_standing_eq hstanding.symm⟩

theorem Housed.enqueue (h : w.Housed) (hlive : w.queue.live = true) (id : SessionId)
    (requests : List Request) : (w.enqueue id requests).Housed := by
  refine h.of_stays h.inUse ?_ fun ht hroom => .inl ⟨_, ht, hroom, rfl⟩
  intro other username hwaits
  rw [World.enqueue, CommandQueue.pending_offerAll hlive]
  exact List.mem_append_left _ hwaits

theorem Housed.connect (h : w.Housed) (capacity : Nat) : (w.connect capacity).2.Housed := by
  have hinUse : (w.connect capacity).2.lobby.InUse :=
    { consistent := h.inUse.consistent.arrive _ rfl, peopled := h.inUse.peopled }
  refine h.of_stays hinUse (fun _ _ hwaits => hwaits) ?_
  intro place t ht hroom
  rcases getElem?_concat_cases (w.sessions_connect capacity ▸ ht) with ht | ⟨-, rfl⟩
  · exact .inl ⟨t, ht, hroom, rfl⟩
  · exact absurd rfl hroom

/-- Who is registered is no matter here. -/
theorem Housed.withDirectory (h : w.Housed) (directory : Directory) :
    ({ w with directory } : World).Housed :=
  h.of_stays h.inUse (fun _ _ hwaits => hwaits) fun ht hroom => .inl ⟨_, ht, hroom, rfl⟩

/-! ### Closing -/

/-- Whoever is logged in when their session closes leaves a `hangUp` that vouches for them. -/
theorem Housed.disconnect (h : w.Housed) (hlive : w.queue.live = true) (place : Place) :
    (w.disconnect place).2.Housed := by
  have hseats := w.seats_disconnect place
  have hpending : (w.disconnect place).2.queue.pending = w.queue.pending ++ w.partingAt place := by
    rw [queue_disconnect, CommandQueue.pending_offerAll hlive]
  refine h.of_stays (h.inUse.congr (fun _ => rfl) rfl hseats) ?_ ?_
  · intro id username hwaits
    rw [hpending]
    exact List.mem_append_left _ hwaits
  · intro p t ht hroom
    obtain ⟨s, hs, hseat⟩ := Sessions.getElem?_of_map_eq hseats ht
    have hsame : s.room = t.room := congrArg Prod.snd hseat
    have hold : s.room ≠ none := by rwa [hsame]
    have hbadge : w.badges[p]? = some s.badge := badges_eq_some.mpr ⟨s, hs, rfl⟩
    have hclosed := badges_eq_some.mpr ⟨t, ht, rfl⟩
    rw [badges_disconnect, List.getElem?_modify, hbadge] at hclosed
    have hafter : (if place = p then s.badge.close else s.badge) = t.badge :=
      Option.some.inj hclosed
    by_cases hp : place = p
    · subst hp
      rw [if_pos rfl] at hafter
      right
      rw [← hafter]
      refine .inr ⟨s.badge.closed_close, ?_⟩
      rw [s.badge.id_close, hpending]
      rcases h.vouched hs hold with ⟨hopen, hsomebody⟩ | ⟨-, username, hwaits⟩
      · obtain ⟨username, huser⟩ := Option.ne_none_iff_exists'.mp hsomebody
        refine ⟨username, List.mem_append_right _ ?_⟩
        simp [partingAt, hbadge, Badge.parting, hopen, huser]
      · exact ⟨username, List.mem_append_left _ hwaits⟩
    · rw [if_neg hp] at hafter
      exact .inl ⟨s, hs, hold, hafter.symm⟩

/-! ### Logging out -/

section Logout

/-- Sessions may change in whatever is not their number and their room. -/
theorem inUse_of_seats {l : Lobby} (h : l.InUse) {sessions : List Session}
    (hseats : sessions.map Session.seat = l.sessions.map Session.seat) :
    ({ l with sessions } : Lobby).InUse := h.congr (fun _ => rfl) rfl hseats

theorem lobby_closeAt (w : World) (found : Option Place) :
    ∃ sessions, (w.closeAt found).lobby = { w.lobby with sessions } ∧
      sessions.map Session.seat = w.sessions.map Session.seat := by
  cases found with
  | none => exact ⟨w.sessions, rfl, rfl⟩
  | some place => exact ⟨_, rfl, w.seats_disconnect place⟩

theorem lobby_release (w : World) (username : Option String) :
    (w.release username).lobby = w.lobby := by
  cases username <;> rfl

theorem inUse_leaveRoom (h : w.lobby.InUse) (id : SessionId) : (w.leaveRoom id).lobby.InUse :=
  Quiet.inUse (quiet_announce ..) (h.leave id)

theorem stays_leaveRoom (h : w.lobby.InUse) {id : SessionId} {p : Place} {t : Session}
    (ht : (w.leaveRoom id).sessions[p]? = some t) (hroom : t.room ≠ none) :
    t.id ≠ id ∧ ∃ s, w.sessions[p]? = some s ∧ s.seat = t.seat := by
  have hquiet : Quiet (w.withLobby (w.lobby.leave id).1) (w.leaveRoom id) := quiet_announce ..
  obtain ⟨s, hs, hseat⟩ :=
    Sessions.getElem?_of_map_eq (Session.map_seat_of_map_standing hquiet.standing) ht
  obtain ⟨hid, hsame⟩ := Prod.mk.inj hseat
  obtain ⟨hne, hold⟩ := h.consistent.stays_of_leave hs (by rwa [hsame])
  exact ⟨hid ▸ hne, s, hold, hseat⟩

/-- After a logout the rooms are in use, nobody of its number is in one, and whoever is in one
    was there before. -/
theorem inUse_logout (h : w.lobby.InUse) (id : SessionId) (carried : Option String) :
    (w.logout id carried).lobby.InUse ∧
      ∀ {p : Place} {t : Session}, (w.logout id carried).sessions[p]? = some t → t.room ≠ none →
        t.id ≠ id ∧ ∃ s, w.sessions[p]? = some s ∧ s.seat = t.seat := by
  obtain ⟨unnamed, hunname, hseats⟩ := w.unname_fst id carried
  have hunnamed : (w.unname id carried).1.lobby.InUse := by
    rw [hunname]
    exact inUse_of_seats h hseats
  obtain ⟨closed, hclose, hseats'⟩ :=
    (((w.unname id carried).1.leaveRoom id).release (w.unname id carried).2).lobby_closeAt
      (w.directory.find? id)
  rw [sessions, lobby_release] at hseats'
  rw [logout_eq, hclose, lobby_release]
  refine ⟨inUse_of_seats (inUse_leaveRoom hunnamed id) hseats', ?_⟩
  intro p t ht hroom
  rw [sessions, hclose] at ht
  -- backwards: before the closing, before the leaving, and before the name was taken
  obtain ⟨u, hu, hut⟩ := Sessions.getElem?_of_map_eq hseats' ht
  obtain ⟨huid, huroom⟩ := Prod.mk.inj hut
  obtain ⟨hne, v, hv, hvu⟩ := stays_leaveRoom hunnamed hu (by rwa [huroom])
  rw [sessions, hunname] at hv
  obtain ⟨s, hs, hsv⟩ := Sessions.getElem?_of_map_eq hseats hv
  exact ⟨huid ▸ hne, s, hs, hsv.trans (hvu.trans hut)⟩

/-- **A logout leaves nobody behind.**  Whoever is in a room afterwards is somebody else, and is
    vouched for as before. -/
theorem Housed.logout (hinUse : w.lobby.InUse) (henrolled : w.Enrolled) {id : SessionId}
    (hothers : ∀ {place : Place} {s : Session}, w.sessions[place]? = some s → s.room ≠ none →
      s.id ≠ id → w.Vouched s.badge) (carried : Option String) :
    (w.logout id carried).Housed := by
  obtain ⟨hafter, hstays⟩ := inUse_logout hinUse id carried
  obtain ⟨more, hqueue, -⟩ := w.queue_logout id carried
  refine ⟨hafter, ?_⟩
  intro place t ht hroom
  obtain ⟨hne, s, hs, hseat⟩ := hstays ht hroom
  obtain ⟨hid, hsame⟩ := Prod.mk.inj hseat
  have hother : s.badge.id ≠ id := by
    change s.id ≠ id
    rwa [hid]
  -- the logout has changed no badge but those of its number
  have hbadge := badges_eq_some.mpr ⟨t, ht, rfl⟩
  rw [henrolled.badges_logout, List.getElem?_map, badges_eq_some.mpr ⟨s, hs, rfl⟩,
    Option.map_some, gone, if_neg hother] at hbadge
  rw [← Option.some.inj hbadge]
  refine (hothers hs (by rwa [hsame]) hother).mono fun other username hwaits => ?_
  rw [hqueue, CommandQueue.pending_offerAll henrolled.live]
  exact List.mem_append_left _ hwaits

end Logout

/-! ### Rooms stay in use -/

theorem inUse_effect (h : w.lobby.InUse) {id : SessionId} {r : Request}
    (heffect : Effect w id r w') : w'.lobby.InUse := by
  cases heffect with
  | quiet done => exact done.inUse h
  | @login place s username gateway _ found isOpen nobody offline marked done =>
    apply done.inUse
    exact inUse_of_seats h (Sessions.map_modify_of_eq fun _ _ => rfl)
  | join found somebody joined done =>
    exact done.inUse (h.join (find?_eq_some.mp found).2 joined)
  | openRoom found somebody opened done =>
    exact done.inUse (h.openRoom (find?_eq_some.mp found).2 opened)
  | leave done => exact done.inUse (h.leave id)
  | logout asked => exact (inUse_logout h id none).1

/-- **Whatever happens, the records of who is where agree**, and no room stands empty. -/
theorem kept_inUse (allowed : World → Event → Prop) :
    Kept (fun w => w.lobby.InUse) allowed where
  quiet hquiet h := hquiet.inUse h
  enqueue _ _ h := h
  hangUp _ _ _ h := h
  connect _ _ h := { consistent := h.consistent.arrive _ rfl, peopled := h.peopled }
  disconnect {v} place _ h := inUse_of_seats h (v.seats_disconnect place)
  forget _ _ h := h
  drop {v place _} _ h := inUse_of_seats h (v.seats_disconnect place)
  dropAll {v} h := by
    rw [dropAll_eq]
    exact keeps_disconnectEach (P := fun v => v.lobby.InUse)
      (fun {u} place hu => inUse_of_seats hu (u.seats_disconnect place)) h v.directory.places
  execute {v} c _ h := by
    have hdequeued : (v.dequeue c).lobby.InUse := h
    cases c with
    | request id request => exact inUse_effect hdequeued (answer_effect _ id request)
    | hangUp id username => exact (inUse_logout hdequeued id (some username)).1

/-! ### Commands -/

/-- Somebody comes into a room on an open session that they are logged in on.  All others who are
    in a room were in it before. -/
theorem Housed.come (h : w.Housed) {place : Place} {s : Session} {lobby : Lobby}
    (hs : w.sessions[place]? = some s) (hopen : s.closed = false) (hsomebody : s.user ≠ none)
    (hinUse : lobby.InUse)
    (hbadges : lobby.sessions.map Session.badge = w.lobby.sessions.map Session.badge)
    (hstays : ∀ {p : Place} {t : Session}, place ≠ p → lobby.sessions[p]? = some t →
      t.room ≠ none → w.lobby.sessions[p]? = some t) : (w.withLobby lobby).Housed := by
  refine h.of_stays hinUse (fun _ _ hwaits => hwaits) ?_
  intro p t ht hroom
  by_cases hp : place = p
  · subst hp
    obtain ⟨u, hu, hsame⟩ := Sessions.getElem?_of_map_eq hbadges ht
    obtain rfl := Option.some.inj (hs.symm.trans hu)
    right
    rw [← hsame]
    exact .inl ⟨hopen, hsomebody⟩
  · exact .inl ⟨t, hstays hp ht hroom, hroom, rfl⟩

theorem Housed.effect (h : w.Housed) (henrolled : w.Enrolled) {id : SessionId} {r : Request}
    (heffect : Effect w id r w') : w'.Housed := by
  cases heffect with
  | quiet done => exact h.quiet done
  | @login place s username gateway _ found isOpen nobody offline marked done =>
    let loggedIn := { w with gateway }.modify place (·.login username)
    have hseats : loggedIn.sessions.map Session.seat = w.sessions.map Session.seat :=
      Sessions.map_modify_of_eq fun _ _ => rfl
    have hloggedIn : loggedIn.Housed := by
      refine h.of_stays (inUse_of_seats h.inUse hseats) (fun _ _ hwaits => hwaits) ?_
      intro p t ht hroom
      obtain ⟨-, hs⟩ := find?_eq_some.mp found
      have hmodified : (w.sessions.modify place (·.login username))[p]? = some t := ht
      by_cases hp : place = p
      · subst hp
        rw [List.getElem?_modify_eq, hs] at hmodified
        obtain rfl := Option.some.inj hmodified
        exact .inr (.inl ⟨isOpen, Option.some_ne_none username⟩)
      · rw [List.getElem?_modify_ne _ _ hp] at hmodified
        exact .inl ⟨t, hmodified, hroom, rfl⟩
    exact hloggedIn.quiet done
  | join found somebody joined done =>
    obtain ⟨-, hs⟩ := find?_eq_some.mp found
    obtain ⟨hopen, -⟩ := Lobby.join_ok h.inUse.consistent joined
    exact (h.come hs hopen somebody (h.inUse.join hs joined) (Lobby.map_badge_join joined)
      (h.inUse.consistent.stays_of_join joined)).quiet done
  | openRoom found somebody opened done =>
    obtain ⟨-, hs⟩ := find?_eq_some.mp found
    have hopen := Lobby.open_of_openRoom_ok opened
    exact (h.come hs hopen somebody (h.inUse.openRoom hs opened)
      (Lobby.map_badge_openRoom opened) (h.inUse.consistent.stays_of_openRoom opened)).quiet done
  | leave done =>
    have hleft : (w.withLobby (w.lobby.leave id).1).Housed := by
      refine h.of_stays (h.inUse.leave id) (fun _ _ hwaits => hwaits) ?_
      intro p t ht hroom
      exact .inl ⟨t, (h.inUse.consistent.stays_of_leave ht hroom).2, hroom, rfl⟩
    exact hleft.quiet done
  | logout asked =>
    exact Housed.logout h.inUse henrolled (fun hs hroom _ => h.vouched hs hroom) none

/-- **Executing a command leaves nobody behind.**  The `hangUp` that is taken from the
    queue is the one that was vouching for its session, and takes it out. -/
theorem Housed.executed (h : w.Housed) (henrolled : w.Enrolled) (c : Command) :
    (w.next (.execute c)).Housed := by
  have hinUse : (w.dequeue c).lobby.InUse := h.inUse
  have hrest : (w.dequeue c).Enrolled := henrolled.congr rfl rfl rfl
  cases c with
  | request id request =>
    refine Housed.effect ?_ hrest (answer_effect _ id request)
    refine h.of_stays hinUse ?_ fun ht hroom => .inl ⟨_, ht, hroom, rfl⟩
    intro other username hwaits
    have hother : Command.hangUp other username ≠ .request id request := nofun
    exact (List.mem_erase_of_ne hother).mpr hwaits
  | hangUp id username =>
    refine Housed.logout hinUse hrest ?_ (some username)
    intro place s hs hroom hne
    rcases h.vouched hs hroom with hopen | ⟨hclosed, name, hwaits⟩
    · exact .inl hopen
    · refine .inr ⟨hclosed, name, (List.mem_erase_of_ne fun heq => ?_).mpr hwaits⟩
      exact hne (Command.hangUp.inj heq).1

/-! ### Every run -/

theorem Pristine.housed (h : w.Pristine) : w.Housed where
  inUse :=
    { consistent :=
        { inOrder := fun hr => by rw [h.rooms] at hr; simp at hr
          room_id := fun hr => by rw [h.rooms] at hr; simp at hr
          index_iff := fun id room => by simp [Lobby.Seats, h.rooms, h.index]
          seated := by
            rintro room id place ⟨r, hr, -⟩
            rw [h.rooms] at hr
            simp at hr
          room_iff := fun hs => by
            have hnobody : w.lobby.sessions = [] := h.sessions
            rw [hnobody] at hs
            cases hs }
      peopled := by
        rintro room ⟨r, hr, -⟩
        rw [h.rooms] at hr
        simp at hr }
  vouched hs := by rw [h.sessions] at hs; cases hs

/-- **The roll is kept, and nobody is left behind.** -/
theorem kept_housed : Kept (fun w => w.Enrolled ∧ w.Housed) Enabled where
  quiet hquiet hv := ⟨hv.1.quiet hquiet, hv.2.quiet hquiet⟩
  enqueue id requests hv := ⟨hv.1.enqueue id requests, hv.2.enqueue hv.1.live id requests⟩
  hangUp _ _ hnever _ := hnever.elim
  connect capacity hfresh hv := ⟨kept_enrolled.connect capacity hfresh hv.1, hv.2.connect capacity⟩
  disconnect place _ hv := ⟨hv.1.disconnect place, hv.2.disconnect hv.1.live place⟩
  forget id hclosed hv := ⟨kept_enrolled.forget id hclosed hv.1, hv.2.withDirectory _⟩
  drop {v place b} hb hv := ⟨hv.1.drop hb, (hv.2.disconnect hv.1.live place).withDirectory _⟩
  dropAll {v} hv := by
    refine ⟨hv.1.dropAll, ?_⟩
    have heach := keeps_disconnectEach (P := fun v => v.Enrolled ∧ v.Housed)
      (fun place hv => ⟨hv.1.disconnect place, hv.2.disconnect hv.1.live place⟩) hv
      v.directory.places
    rw [dropAll_eq]
    exact heach.2.withDirectory _
  execute c hturn hv := ⟨kept_enrolled.execute c hturn hv.1, hv.2.executed hv.1 c⟩

/-- Whoever is in a room is an open session that somebody is logged in on and that is registered,
    or a closed one whose `hangUp` waits. -/
theorem Housed.accounted (h : w.Housed) (henrolled : w.Enrolled) {place : Place} {s : Session}
    (hs : w.sessions[place]? = some s) (hroom : s.room ≠ none) :
    s.closed = false ∧ s.user ≠ none ∧ w.find? s.id = some (place, s) ∨
      s.closed = true ∧ ∃ username, .hangUp s.id username ∈ w.queue.pending := by
  refine (h.vouched hs hroom).imp_left fun ⟨hopen, hsomebody⟩ => ⟨hopen, hsomebody, ?_⟩
  have hpresent := henrolled.present (badges_eq_some.mpr ⟨s, hs, rfl⟩) hopen
  exact find?_eq_some.mpr ⟨hpresent, hs⟩

/-- Whoever a room lists is a session that is bound to it. -/
theorem Housed.bound (h : w.Housed) {room : RoomId} {r : Room}
    (hr : w.lobby.rooms[room]? = some r) {id : SessionId} (hid : id ∈ r.players) :
    ∃ (place : Place) (s : Session),
      w.sessions[place]? = some s ∧ s.id = id ∧ s.room = some room := by
  have hmember := ((h.inUse.consistent.inOrder hr).player_iff_member id).mp hid
  obtain ⟨place, hplace⟩ := Option.isSome_iff_exists.mp
    (Std.ExtTreeMap.mem_iff_isSome_getElem?.mp hmember)
  obtain ⟨s, hs, heq⟩ := h.inUse.consistent.seated ⟨r, hr, hplace⟩
  exact ⟨place, s, hs, heq, (h.inUse.consistent.room_iff hs room).mpr ⟨r, hr, heq ▸ hplace⟩⟩

/-- **No room slot leaks and no room stays behind empty.**  At every moment of every run a session
    that is in a room is open, logged in and registered, or closed with its `hangUp` still
    waiting; whoever a room lists is such a session; and every room lists somebody.  And once the
    queue has been drained, whoever a room lists is open, logged in and registered. -/
theorem rooms_accounted (hstart : w.Pristine) (events : List Event)
    (hrun : Along next Enabled w events) :
    let v := after next w events
    (∀ (place : Place) (s : Session), v.sessions[place]? = some s → s.room ≠ none →
      s.closed = false ∧ s.user ≠ none ∧ v.find? s.id = some (place, s) ∨
        s.closed = true ∧ ∃ username, .hangUp s.id username ∈ v.queue.pending) ∧
    (∀ (room : RoomId) (r : Room), v.lobby.rooms[room]? = some r →
      (∃ id, id ∈ r.players) ∧ ∀ id ∈ r.players, ∃ (place : Place) (s : Session),
        v.sessions[place]? = some s ∧ s.id = id ∧ s.room = some room) ∧
    v.drain.1.queue.pending = [] ∧
    ∀ (room : RoomId) (r : Room), v.drain.1.lobby.rooms[room]? = some r → ∀ id ∈ r.players,
      ∃ (place : Place) (s : Session), v.drain.1.find? id = some (place, s) ∧
        s.closed = false ∧ s.user ≠ none ∧ s.room = some room := by
  intro v
  obtain ⟨henrolled, hhoused⟩ := kept_housed.after ⟨hstart.enrolled, hstart.housed⟩ events hrun
  obtain ⟨henrolled', hhoused'⟩ := kept_housed.drain (fun _ _ hturn => hturn) ⟨henrolled, hhoused⟩
  refine ⟨fun place s hs hroom => hhoused.accounted henrolled hs hroom, ?_, v.pending_drain, ?_⟩
  · intro room r hr
    exact ⟨hhoused.inUse.exists_player hr, fun id hid => hhoused.bound hr hid⟩
  · intro room r hr id hid
    obtain ⟨place, s, hs, rfl, hroom⟩ := hhoused'.bound hr hid
    rcases hhoused'.accounted henrolled' hs (by rw [hroom]; exact Option.some_ne_none room) with
      ⟨hopen, hsomebody, hfind⟩ | ⟨-, username, hwaits⟩
    · exact ⟨place, s, hfind, hopen, hsomebody, hroom⟩
    · rw [v.pending_drain] at hwaits
      cases hwaits

/-- Two players share a room, and the connection of the one who made it dies.  It is closed and
    still in the room, for its `hangUp` waits; executing that takes it out. -/
theorem rooms_accounted_closed_inside :
    let asks (place : Place) (r : Request) : Event := .hear place (r.encode.toOption.getD [])
    let database := (({} : Database).seed 1 "ann" "a").seed 2 "bob" "b"
    let w : World := { gateway := { database } }
    let events : List Event :=
      [.connect 256, .connect 256, asks 0 (.login "ann" "a"), asks 1 (.login "bob" "b"),
        asks 0 (.createRoom "Hall"), asks 1 (.enterRoom ⟨1⟩),
        .execute (.request ⟨1⟩ (.login "ann" "a")), .execute (.request ⟨2⟩ (.login "bob" "b")),
        .execute (.request ⟨1⟩ (.createRoom "Hall")), .execute (.request ⟨2⟩ (.enterRoom ⟨1⟩)),
        .disconnect 0]
    let v := after next w events
    w.Pristine ∧ Along next Enabled w events ∧
      v.sessions.map Session.standing =
        [⟨⟨1⟩, none, some ⟨1⟩, true⟩, ⟨⟨2⟩, some "bob", some ⟨1⟩, false⟩] ∧
      (∃ username, .hangUp ⟨1⟩ username ∈ v.queue.pending) ∧
      v.drain.1.sessions.map Session.standing =
        [⟨⟨1⟩, none, none, true⟩, ⟨⟨2⟩, some "bob", some ⟨1⟩, false⟩] := by
  intro asks database w events v
  have hstart : w.Pristine := pristine_start {} {} database true
  have hrun : Along next Enabled w events := by decide +kernel
  have hstanding : v.sessions.map Session.standing =
      [⟨⟨1⟩, none, some ⟨1⟩, true⟩, ⟨⟨2⟩, some "bob", some ⟨1⟩, false⟩] := by decide +kernel
  have hdrained : v.drain.1.sessions.map Session.standing =
      [⟨⟨1⟩, none, none, true⟩, ⟨⟨2⟩, some "bob", some ⟨1⟩, false⟩] := by decide +kernel
  refine ⟨hstart, hrun, hstanding, ?_, hdrained⟩
  have hfirst := congrArg (·[0]?) hstanding
  rw [List.getElem?_map] at hfirst
  obtain ⟨s, hs, hown⟩ := Option.map_eq_some_iff.mp hfirst
  have hid : s.id = ⟨1⟩ := congrArg Standing.id hown
  have hroom : s.room = some ⟨1⟩ := congrArg Standing.room hown
  have hclosed : s.closed = true := congrArg Standing.closed hown
  have hv : after next w events = v := rfl
  obtain ⟨hall, -⟩ := rooms_accounted hstart events hrun
  rw [hv] at hall
  rcases hall 0 s hs (by rw [hroom]; exact nofun) with ⟨hopen, -⟩ | ⟨-, hwaits⟩
  · exact absurd (hopen.symm.trans hclosed) Bool.false_ne_true
  · rw [hid] at hwaits
    exact hwaits

end World

end GameServer
