import GameServer.Proofs.Membership
import GameServer.Proofs.Players
import GameServer.Proofs.Talk

/-!
Under whose name something is said.

A player keeps the name under which the session was logged in when it came into the room.  What
is said goes out under the name of the session.  The two are the same as long as the session is
open.  Closing takes the name off the session at once and the player out of the room only later,
by a `hangUp` that carries the name; what the session asked for before that is still said, and
goes out under the name of a guest.
-/

namespace GameServer

open Wire

/-! ### Players' names -/

namespace Room

/-- The name of the player with a number. -/
def nameOf (r : Room) (id : SessionId) : Option String := r.players[id]?.map Player.name

theorem nameOf_of_shape_eq {r r' : Room} (h : r'.shape = r.shape) (id : SessionId) :
    r'.nameOf id = r.nameOf id := by
  have hplayers := congrArg (fun t : Shape => t.players[id]?.map fun p => p.2.1) h
  simp only [shape, Std.ExtTreeMap.getElem?_map, Option.map_map] at hplayers
  exact hplayers

end Room

namespace Lobby

/-- The name under which a session plays, if it does. -/
def nameOf (l : Lobby) (id : SessionId) : Option String := (l.player? id).map Player.name

variable {l l' : Lobby} {id other : SessionId} {room : RoomId} {r : Room}

theorem nameOf_of_listed (hi : l.index[id]? = some room) (hr : l.rooms[room]? = some r) :
    l.nameOf id = r.nameOf id := by
  simp [nameOf, player?, hi, hr, Room.nameOf]

theorem nameOf_of_index_none (hi : l.index[id]? = none) : l.nameOf id = none := by
  simp [nameOf, player?, hi]

/-- Names depend on the shapes of the rooms and on the index. -/
theorem nameOf_congr
    (hrooms : ∀ room : RoomId, l'.rooms[room]?.map Room.shape = l.rooms[room]?.map Room.shape)
    (hindex : l'.index = l.index) (id : SessionId) : l'.nameOf id = l.nameOf id := by
  cases hi : l.index[id]? with
  | none => rw [nameOf_of_index_none hi, nameOf_of_index_none (hindex ▸ hi)]
  | some room =>
    have hroom := hrooms room
    cases hr : l.rooms[room]? with
    | none =>
      rw [hr, Option.map_none, Option.map_eq_none_iff] at hroom
      simp [nameOf, player?, hindex, hi, hr, hroom]
    | some r =>
      rw [hr, Option.map_some] at hroom
      obtain ⟨r', hr', hshape⟩ := Option.map_eq_some_iff.mp hroom
      rw [nameOf_of_listed hi hr, nameOf_of_listed (hindex ▸ hi) hr',
        Room.nameOf_of_shape_eq hshape]

theorem Consistent.nameOf_leave (h : l.Consistent) (id other : SessionId) :
    (l.leave id).1.nameOf other = if other = id then none else l.nameOf other := by
  rw [nameOf, h.player?_leave]
  split <;> rfl

section Coming

variable {place : Place} {s : Session} {a : Arrival}

/-- Whoever comes into a room plays under the name of their session; all others keep theirs. -/
theorem Consistent.nameOf_join (h : l.Consistent) (hok : l.join place s room = .ok (a, l'))
    (id : SessionId) :
    l'.nameOf id = l.nameOf id ∨ id = s.id ∧ l'.nameOf id = some s.name := by
  rw [nameOf, h.player?_join hok]
  split
  · next hcomes => exact .inr ⟨hcomes.1, rfl⟩
  · exact .inl rfl

theorem Consistent.nameOf_openRoom (h : l.Consistent) {title : String}
    (hfree : (l.leave s.id).1.HasFreeId) (hok : l.openRoom place s title = .ok (a, l'))
    (id : SessionId) :
    l'.nameOf id = l.nameOf id ∨ id = s.id ∧ l'.nameOf id = some s.name := by
  rw [nameOf, h.player?_openRoom hfree hok]
  split
  · next heq => exact .inr ⟨heq, rfl⟩
  · exact .inl rfl

end Coming

end Lobby

namespace World

/-! ### Whoever plays under a name has it or owes it -/

/-- Somebody is logged in under a name on an open session, or the session is closed and the name is
    on its `hangUp`. -/
def Bears (w : World) (b : Badge) (name : String) : Prop :=
  b.closed = false ∧ b.user = some name ∨
    b.closed = true ∧ .hangUp b.id name ∈ w.queue.pending

/-- Every player bears the name under which they play. -/
structure TrueNames (w : World) : Prop where
  bears : ∀ {id : SessionId} {name : String}, w.lobby.nameOf id = some name →
    ∃ (place : Place) (b : Badge), w.badges[place]? = some b ∧ b.id = id ∧ w.Bears b name

variable {w w' : World}

theorem Bears.mono {b : Badge} {name : String} (h : w.Bears b name)
    (hpending : ∀ id username, .hangUp id username ∈ w.queue.pending →
      .hangUp id username ∈ w'.queue.pending) : w'.Bears b name :=
  h.imp_right fun ⟨hclosed, hwaits⟩ => ⟨hclosed, hpending _ _ hwaits⟩

/-- Whoever plays as before must keep their badge, and their `hangUp` must not be lost. -/
theorem TrueNames.of_keeps (h : w.TrueNames)
    (hplaying : ∀ {id : SessionId} {name : String}, w'.lobby.nameOf id = some name →
      w.lobby.nameOf id = some name)
    (hkeeps : ∀ {place : Place} {b : Badge} {name : String}, w'.lobby.nameOf b.id = some name →
      w.badges[place]? = some b → w.Bears b name →
      ∃ c : Badge, w'.badges[place]? = some c ∧ c.id = b.id ∧ w'.Bears c name) :
    w'.TrueNames where
  bears {id name} hname := by
    obtain ⟨place, b, hb, rfl, hbears⟩ := h.bears (hplaying hname)
    obtain ⟨c, hc, hid, hbears'⟩ := hkeeps hname hb hbears
    exact ⟨place, c, hc, hid, hbears'⟩

theorem TrueNames.congr (h : w.TrueNames) (hplaying : ∀ id, w'.lobby.nameOf id = w.lobby.nameOf id)
    (hbadges : w'.badges = w.badges)
    (hpending : ∀ id username, .hangUp id username ∈ w.queue.pending →
      .hangUp id username ∈ w'.queue.pending) : w'.TrueNames := by
  refine h.of_keeps (fun hname => hplaying _ ▸ hname) ?_
  intro place b name _ hb hbears
  exact ⟨b, hbadges ▸ hb, rfl, hbears.mono hpending⟩

theorem TrueNames.quiet (h : w.TrueNames) (hquiet : Quiet w w') : w'.TrueNames :=
  h.congr (Lobby.nameOf_congr hquiet.shapes hquiet.index) hquiet.badges
    fun _ _ hwaits => hquiet.queue ▸ hwaits

theorem mem_offerAll (hlive : w.queue.live = true) {c : Command} (commands : List Command)
    (hc : c ∈ w.queue.pending) : c ∈ (w.queue.offerAll commands).pending := by
  rw [CommandQueue.pending_offerAll hlive]
  exact List.mem_append_left _ hc

theorem TrueNames.enqueue (h : w.TrueNames) (hlive : w.queue.live = true) (id : SessionId)
    (requests : List Request) : (w.enqueue id requests).TrueNames :=
  h.congr (fun _ => rfl) rfl fun _ _ => mem_offerAll hlive _

theorem TrueNames.connect (h : w.TrueNames) (capacity : Nat) :
    (w.connect capacity).2.TrueNames := by
  refine h.of_keeps (fun hname => hname) ?_
  intro place b name _ hb hbears
  exact ⟨b, badges_connect_old capacity hb, rfl, hbears⟩

theorem TrueNames.withDirectory (h : w.TrueNames) (directory : Directory) :
    ({ w with directory } : World).TrueNames :=
  h.congr (fun _ => rfl) rfl fun _ _ hwaits => hwaits

/-- A session that closes puts its name on its `hangUp`. -/
theorem TrueNames.disconnect (h : w.TrueNames) (hlive : w.queue.live = true) (place : Place) :
    (w.disconnect place).2.TrueNames := by
  have hpending : (w.disconnect place).2.queue.pending = w.queue.pending ++ w.partingAt place := by
    rw [queue_disconnect, CommandQueue.pending_offerAll hlive]
  refine h.of_keeps (fun hname => hname) ?_
  intro p b name _ hb hbears
  rw [badges_disconnect, List.getElem?_modify, hb, Option.map_eq_map, Option.map_some]
  by_cases hp : place = p
  · subst hp
    rw [if_pos rfl]
    refine ⟨b.close, rfl, b.id_close, .inr ⟨b.closed_close, ?_⟩⟩
    rw [hpending, b.id_close]
    rcases hbears with ⟨hopen, huser⟩ | ⟨-, hwaits⟩
    · apply List.mem_append_right
      simp [partingAt, hb, Badge.parting, hopen, huser]
    · exact List.mem_append_left _ hwaits
  · rw [if_neg hp]
    refine ⟨b, rfl, rfl, hbears.mono ?_⟩
    intro id username hwaits
    rw [hpending]
    exact List.mem_append_left _ hwaits

/-! ### Logging out -/

/-- A logout takes its player's name away and leaves the others theirs. -/
theorem nameOf_logout (h : w.lobby.InUse) (id other : SessionId) (carried : Option String) :
    (w.logout id carried).lobby.nameOf other =
      if other = id then none else w.lobby.nameOf other := by
  obtain ⟨unnamed, hunname, hseats⟩ := w.unname_fst id carried
  obtain ⟨left, hleave⟩ := (w.unname id carried).1.leaveRoom_eq id
  obtain ⟨closed, hclose, -⟩ :=
    (((w.unname id carried).1.leaveRoom id).release (w.unname id carried).2).lobby_closeAt
      (w.directory.find? id)
  have hunnamed : (w.unname id carried).1.lobby.Consistent := by
    rw [hunname]
    exact (inUse_of_seats h hseats).consistent
  calc (w.logout id carried).lobby.nameOf other
    _ = ((w.unname id carried).1.leaveRoom id).lobby.nameOf other := by
      rw [logout_eq, hclose, lobby_release]
      rfl
    _ = ((w.unname id carried).1.lobby.leave id).1.nameOf other := by
      rw [hleave]
      rfl
    _ = if other = id then none else (w.unname id carried).1.lobby.nameOf other :=
      hunnamed.nameOf_leave id other
    _ = if other = id then none else w.lobby.nameOf other := by
      rw [hunname]
      rfl

theorem TrueNames.logout (hinUse : w.lobby.InUse) (henrolled : w.Enrolled) {id : SessionId}
    (hothers : ∀ {other : SessionId} {name : String}, w.lobby.nameOf other = some name →
      other ≠ id → ∃ (place : Place) (b : Badge),
        w.badges[place]? = some b ∧ b.id = other ∧ w.Bears b name)
    (carried : Option String) : (w.logout id carried).TrueNames where
  bears {other name} hname := by
    rw [nameOf_logout hinUse] at hname
    split at hname
    · cases hname
    · next hne =>
      obtain ⟨place, b, hb, rfl, hbears⟩ := hothers hname hne
      obtain ⟨more, hqueue, -⟩ := w.queue_logout id carried
      refine ⟨place, b, ?_, rfl, hbears.mono fun _ _ hwaits => ?_⟩
      · rw [henrolled.badges_logout, List.getElem?_map, hb, Option.map_some, gone, if_neg hne]
      · rw [hqueue]
        exact mem_offerAll henrolled.live more hwaits

/-! ### Commands -/

/-- Somebody comes into a room on an open session, and plays under the name they are logged in
    under. -/
theorem TrueNames.come (h : w.TrueNames) {place : Place} {s : Session} {lobby : Lobby}
    (hs : w.sessions[place]? = some s) (hopen : s.closed = false) (hsomebody : s.user ≠ none)
    (hbadges : lobby.sessions.map Session.badge = w.lobby.sessions.map Session.badge)
    (hnames : ∀ id, lobby.nameOf id = w.lobby.nameOf id ∨
      id = s.id ∧ lobby.nameOf id = some s.name) : (w.withLobby lobby).TrueNames where
  bears {id name} hname := by
    have hsame : (w.withLobby lobby).badges = w.badges := hbadges
    rw [hsame]
    rcases hnames id with hold | ⟨rfl, hnew⟩
    · obtain ⟨p, b, hb, hid, hbears⟩ := h.bears (hold.symm.trans hname)
      exact ⟨p, b, hb, hid, hbears⟩
    · obtain ⟨username, huser⟩ := Option.ne_none_iff_exists'.mp hsomebody
      have hcalled : s.name = username := by rw [Session.name, huser, Option.getD_some]
      have hname' : s.name = name := Option.some.inj (hnew.symm.trans hname)
      refine ⟨place, s.badge, badges_eq_some.mpr ⟨s, hs, rfl⟩, rfl, .inl ⟨hopen, ?_⟩⟩
      rw [← hname', hcalled]
      exact huser

theorem TrueNames.effect (h : w.TrueNames) (henrolled : w.Enrolled) (hhoused : w.Housed)
    {id : SessionId} {r : Request} (heffect : Effect w id r w') : w'.TrueNames := by
  have hinUse := hhoused.inUse
  cases heffect with
  | quiet done => exact h.quiet done
  | @login place s username gateway _ found isOpen nobody offline marked done =>
    obtain ⟨-, hs⟩ := find?_eq_some.mp found
    let loggedIn := { w with gateway }.modify place (·.login username)
    have hbadges : loggedIn.badges =
        w.badges.modify place fun b => { b with user := some username } :=
      badges_modify { w with gateway } fun _ => rfl
    have hloggedIn : loggedIn.TrueNames := by
      refine h.of_keeps (fun hname => hname) ?_
      intro p b name _ hb hbears
      refine ⟨b, ?_, rfl, hbears⟩
      -- nobody was logged in at the place, so no player is
      have hp : place ≠ p := by
        rintro rfl
        obtain rfl := Option.some.inj ((badges_eq_some.mpr ⟨s, hs, rfl⟩).symm.trans hb)
        rcases hbears with ⟨-, huser⟩ | ⟨hclosed, -⟩
        · cases nobody.symm.trans huser
        · exact absurd (isOpen.symm.trans hclosed) Bool.false_ne_true
      rw [hbadges, List.getElem?_modify_ne _ _ hp]
      exact hb
    exact hloggedIn.quiet done
  | join found somebody joined done =>
    obtain ⟨-, hs⟩ := find?_eq_some.mp found
    obtain ⟨hopen, -⟩ := Lobby.join_ok hinUse.consistent joined
    exact (h.come hs hopen somebody (Lobby.map_badge_join joined)
      (hinUse.consistent.nameOf_join joined)).quiet done
  | @openRoom place s title a lobby _ found somebody opened done =>
    obtain ⟨-, hs⟩ := find?_eq_some.mp found
    have hfree : (w.lobby.leave s.id).1.HasFreeId :=
      (hinUse.leave s.id).hasFreeId (hinUse.consistent.ready hs).1
    exact (h.come hs (Lobby.open_of_openRoom_ok opened) somebody
      (Lobby.map_badge_openRoom opened) (hinUse.consistent.nameOf_openRoom hfree opened)).quiet done
  | leave done =>
    have hleft : (w.withLobby (w.lobby.leave id).1).TrueNames := by
      refine h.of_keeps ?_ ?_
      · intro other name hname
        have hleave := hinUse.consistent.nameOf_leave id other
        have hname' : (w.lobby.leave id).1.nameOf other = some name := hname
        rw [hleave] at hname'
        split at hname'
        · cases hname'
        · exact hname'
      · intro p b name _ hb hbears
        exact ⟨b, (congrArg (·[p]?) (w.lobby.map_badge_leave id)).trans hb, rfl, hbears⟩
    exact hleft.quiet done
  | logout asked => exact TrueNames.logout hinUse henrolled (fun hname _ => h.bears hname) none

/-- **Executing a command keeps names true.**  If it is a `hangUp`, the player whose name it
    carries goes. -/
theorem TrueNames.executed (h : w.TrueNames) (henrolled : w.Enrolled) (hhoused : w.Housed)
    (c : Command) : (w.next (.execute c)).TrueNames := by
  have hrest : (w.dequeue c).Enrolled := henrolled.congr rfl rfl rfl
  cases c with
  | request id request =>
    let taken := w.dequeue (.request id request)
    have hkept : ∀ other username, .hangUp other username ∈ w.queue.pending →
        .hangUp other username ∈ taken.queue.pending := by
      intro other username hwaits
      have hother : Command.hangUp other username ≠ .request id request := nofun
      exact (List.mem_erase_of_ne hother).mpr hwaits
    have htaken : taken.TrueNames := h.congr (fun _ => rfl) rfl hkept
    have hinside : taken.Housed :=
      hhoused.of_stays hhoused.inUse hkept fun ht hroom => .inl ⟨_, ht, hroom, rfl⟩
    exact htaken.effect hrest hinside (taken.answer_effect id request)
  | hangUp id username =>
    have hinUse : (w.dequeue (.hangUp id username)).lobby.InUse := hhoused.inUse
    refine TrueNames.logout hinUse hrest ?_ (some username)
    intro other name hname hne
    obtain ⟨place, b, hb, rfl, hbears⟩ := h.bears hname
    refine ⟨place, b, hb, rfl, ?_⟩
    rcases hbears with hopen | ⟨hclosed, hwaits⟩
    · exact .inl hopen
    · refine .inr ⟨hclosed, (List.mem_erase_of_ne fun heq => ?_).mpr hwaits⟩
      exact hne (Command.hangUp.inj heq).1

/-! ### Every run -/

theorem Pristine.trueNames (h : w.Pristine) : w.TrueNames where
  bears hname := by
    rw [Lobby.nameOf_of_index_none (by simp [h.index])] at hname
    cases hname

theorem kept_trueNames : Kept (fun w => (w.Enrolled ∧ w.Housed) ∧ w.TrueNames) Enabled where
  quiet hquiet hv := ⟨kept_housed.quiet hquiet hv.1, hv.2.quiet hquiet⟩
  enqueue id requests hv :=
    ⟨kept_housed.enqueue id requests hv.1, hv.2.enqueue hv.1.1.live id requests⟩
  connect capacity hfresh hv :=
    ⟨kept_housed.connect capacity hfresh hv.1, hv.2.connect capacity⟩
  hangUp _ _ hnever _ := hnever.elim
  disconnect place hallowed hv :=
    ⟨kept_housed.disconnect place hallowed hv.1, hv.2.disconnect hv.1.1.live place⟩
  forget id hclosed hv := ⟨kept_housed.forget id hclosed hv.1, hv.2.withDirectory _⟩
  drop {v place b} hb hv :=
    ⟨kept_housed.drop hb hv.1, (hv.2.disconnect hv.1.1.live place).withDirectory _⟩
  dropAll {v} hv := by
    refine ⟨kept_housed.dropAll hv.1, ?_⟩
    have heach := keeps_disconnectEach (P := fun v => v.Enrolled ∧ v.TrueNames)
      (fun place hv => ⟨hv.1.disconnect place, hv.2.disconnect hv.1.live place⟩)
      ⟨hv.1.1, hv.2⟩ v.directory.places
    rw [dropAll_eq]
    exact heach.2.withDirectory _
  execute c hturn hv := ⟨kept_housed.execute c hturn hv.1, hv.2.executed hv.1.1 hv.1.2 c⟩

/-- Whatever is said is said by a player of the room that hears it, remembers it and logs it.  It
    goes out under the player's name as long as their session is open; and under the name of a
    guest if it is closed, while the `hangUp` that carries the player's name still waits. -/
theorem chat_attributed (hstart : w.Pristine) (events : List Event)
    (hrun : Along next Enabled w events) {e : Event} {u : ChatRow}
    (hsaid : (after next w events).spoken? e = some u) :
    let v := after next w events
    let chats : Command := .request u.session (.chat u.message)
    e = .execute chats ∧ v.next e = (v.dequeue chats).utter u ∧
      ∃ place s p, v.find? u.session = some (place, s) ∧
        v.lobby.player? u.session = some p ∧ p.room = u.room ∧
        (s.closed = false ∧ s.user = some p.name ∧ u.username = p.name ∨
          s.closed = true ∧ u.username = guestName ∧
            .hangUp u.session p.name ∈ (v.dequeue chats).queue.pending) := by
  intro v chats
  obtain ⟨⟨henrolled, hhoused⟩, hnames⟩ :=
    kept_trueNames.after ⟨⟨hstart.enrolled, hstart.housed⟩, hstart.trueNames⟩ events hrun
  obtain ⟨hevent, hrow⟩ := spoken?_eq_some.mp hsaid
  obtain ⟨room, place, s, hroom, hfind, hu⟩ := utterance?_eq_some.mp hrow
  have husername : u.username = s.name := by rw [hu]
  have hroom' : u.room = room := by rw [hu]
  have hconsistent := hhoused.inUse.consistent
  -- the player
  obtain ⟨r, -, hr, hin, -⟩ := hconsistent.seats_of_index hroom
  obtain ⟨p, hp⟩ := Option.isSome_iff_exists.mp (Std.ExtTreeMap.mem_iff_isSome_getElem?.mp hin)
  have hplayer : v.lobby.player? u.session = some p := by
    have hindex : v.lobby.index[u.session]? = some room := hroom
    simp [Lobby.player?, hindex, v, hr, hp]
  have hown : p.room = room :=
    ((hconsistent.inOrder hr).player_own hp).2.trans (hconsistent.room_id hr)
  refine ⟨hevent, next_of_spoken hsaid, place, s, p, hfind, hplayer, hown.trans hroom'.symm, ?_⟩
  -- whoever bears the player's name is the session that speaks
  have hplays : v.lobby.nameOf u.session = some p.name := by
    rw [Lobby.nameOf, hplayer, Option.map_some]
  obtain ⟨q, b, hb, hid, hbears⟩ := hnames.bears hplays
  obtain ⟨hplace, hs⟩ := find?_eq_some.mp hfind
  obtain ⟨c, hc, hcid⟩ := henrolled.registered hplace
  obtain rfl := henrolled.distinct hb hc (hid.trans hcid.symm)
  obtain ⟨t, ht, rfl⟩ := badges_eq_some.mp hb
  obtain rfl := Option.some.inj (hs.symm.trans ht)
  rcases hbears with ⟨hopen, huser⟩ | ⟨hclosed, hwaits⟩
  · have huser' : s.user = some p.name := huser
    refine .inl ⟨hopen, huser', ?_⟩
    rw [husername, Session.name, huser', Option.getD_some]
  · have hnobody : s.user = none := henrolled.nameless hb hclosed
    refine .inr ⟨hclosed, ?_, ?_⟩
    · rw [husername, Session.name, hnobody, Option.getD_none]
    · rw [hid] at hwaits
      have hother : Command.hangUp u.session p.name ≠ chats := by simp [chats]
      exact (List.mem_erase_of_ne hother).mpr hwaits

/-! ### Last words -/

/-- Two people have accounts. -/
def acquainted : World :=
  { gateway := { database := (({} : Database).seed 1 "ann" "a").seed 2 "bob" "b" } }

/-- They share a room; one says something, and her connection dies before it is heard. -/
def lastWords : List Event :=
  let asks (place : Place) (r : Request) : Event := .hear place (r.encode.toOption.getD [])
  [.connect 256, .connect 256, asks 0 (.login "ann" "a"), asks 1 (.login "bob" "b"),
    asks 0 (.enterRoom ⟨5⟩), asks 1 (.enterRoom ⟨5⟩),
    .execute (.request ⟨1⟩ (.login "ann" "a")), .execute (.request ⟨2⟩ (.login "bob" "b")),
    .execute (.request ⟨1⟩ (.enterRoom ⟨5⟩)), .execute (.request ⟨2⟩ (.enterRoom ⟨5⟩)),
    asks 0 (.chat "hi"), .disconnect 0]

theorem chat_attributed_last_words :
    let v := after next acquainted lastWords
    let chats : Command := .request ⟨1⟩ (.chat "hi")
    acquainted.Pristine ∧ Along next Enabled acquainted lastWords ∧
      v.queue.pending.head? = some chats ∧
      v.spoken? (.execute chats) = some ⟨⟨1⟩, guestName, "hi", ⟨5⟩⟩ ∧
      ∃ p, v.lobby.player? ⟨1⟩ = some p ∧ .hangUp ⟨1⟩ p.name ∈ (v.dequeue chats).queue.pending := by
  intro v chats
  have hstart : acquainted.Pristine := pristine_start {} {} _ true
  have hrun : Along next Enabled acquainted lastWords := by decide +kernel
  have hturn : v.queue.pending.head? = some chats := by decide +kernel
  have hsaid : v.spoken? (.execute chats) = some ⟨⟨1⟩, guestName, "hi", ⟨5⟩⟩ := by decide +kernel
  have hclosed : (v.find? ⟨1⟩).map (fun found => found.2.closed) = some true := by decide +kernel
  have hv : after next acquainted lastWords = v := rfl
  obtain ⟨-, -, place, s, p, hfind, hplayer, -, hname⟩ :=
    chat_attributed hstart lastWords hrun hsaid
  rw [hv] at hfind hplayer hname
  refine ⟨hstart, hrun, hturn, hsaid, p, hplayer, ?_⟩
  rcases hname with ⟨hopen, -⟩ | ⟨-, -, hwaits⟩
  · rw [hfind] at hclosed
    exact absurd (hopen.symm.trans (Option.some.inj hclosed)) Bool.false_ne_true
  · exact hwaits

/-- What a player said goes out, is remembered and is put up to be written under the name of a
    guest. -/
theorem guest_speaks_for_player :
    let v := after next acquainted lastWords
    let chats : Event := .execute (.request ⟨1⟩ (.chat "hi"))
    acquainted.Pristine ∧ Along next Enabled acquainted (lastWords ++ [chats]) ∧
      v.lobby.nameOf ⟨1⟩ = some "ann" ∧ v.lobby.roomOf ⟨1⟩ = some ⟨5⟩ ∧
      v.spoken? chats = some ⟨⟨1⟩, "Guest", "hi", ⟨5⟩⟩ ∧
      (v.next chats).gateway.history ⟨5⟩ = ["Guest: hi"] ∧
      (v.next chats).gateway.pending = [.saveChat ⟨⟨1⟩, "Guest", "hi", ⟨5⟩⟩] := by
  intro v chats
  have hstart : acquainted.Pristine := pristine_start {} {} _ true
  have hrun : Along next Enabled acquainted (lastWords ++ [chats]) := by decide +kernel
  have hplays : v.lobby.nameOf ⟨1⟩ = some "ann" ∧ v.lobby.roomOf ⟨1⟩ = some ⟨5⟩ := by
    decide +kernel
  have hsaid : v.spoken? chats = some ⟨⟨1⟩, "Guest", "hi", ⟨5⟩⟩ := by decide +kernel
  have hremembered : (v.next chats).gateway.history ⟨5⟩ = ["Guest: hi"] := by decide +kernel
  have hlogged : (v.next chats).gateway.pending = [.saveChat ⟨⟨1⟩, "Guest", "hi", ⟨5⟩⟩] := by
    decide +kernel
  exact ⟨hstart, hrun, hplays.1, hplays.2, hsaid, hremembered, hlogged⟩

end World

end GameServer
