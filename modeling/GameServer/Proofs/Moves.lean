import GameServer.Proofs.LobbyRun
import GameServer.Proofs.Players

/-!
Coming and going: what it changes, what it reports, and what it leaves alone.

Whoever is refused has changed nothing.  Whoever leaves a room is gone from it, and the room goes
with the last one.  Whoever comes into a room is new there and gone from the room they were in.
Everything else, that is every other room, every other player, every other entry of the index
and every session of another number, is as it was.
-/

namespace GameServer

/-! ### One room -/

namespace Room

/-- A room differs from another in no more than what it holds under one number. -/
structure Differs (r r' : Room) (id : SessionId) (player : Option Player) (place : Option Place) :
    Prop where
  id_eq : r'.id = r.id
  title_eq : r'.title = r.title
  player : ∀ other : SessionId, r'.players[other]? = if other = id then player else r.players[other]?
  member : ∀ other : SessionId, r'.members[other]? = if other = id then place else r.members[other]?

/-- Nobody else is in the room. -/
def Alone (r : Room) (id : SessionId) : Prop := ∀ other ∈ r.players, other = id

theorem differs_add (r : Room) (place : Place) (s : Session) :
    r.Differs (r.add place s) s.id (some (Lobby.newcomer s r.id)) (some place) :=
  ⟨rfl, rfl, fun _ => lookup_insert .., fun _ => lookup_insert ..⟩

theorem differs_erase (r : Room) (id : SessionId) : r.Differs (r.erase id) id none none :=
  ⟨rfl, rfl, fun _ => lookup_erase .., fun _ => lookup_erase ..⟩

theorem isEmpty_erase_iff (r : Room) (id : SessionId) :
    (r.erase id).isEmpty = true ↔ r.Alone id := by
  rw [← not_iff_not, Bool.not_eq_true, isEmpty_eq_false_iff, Alone, not_forall]
  refine exists_congr fun other => ?_
  simp only [erase, Std.ExtTreeMap.mem_erase, Classical.not_imp, ne_eq,
    Std.LawfulEqCmp.compare_eq_iff_eq]
  exact ⟨fun h => ⟨h.2, Ne.symm h.1⟩, fun h => ⟨Ne.symm h.2, h.1⟩⟩

end Room

/-! ### What is reported, and what is changed -/

/-- A departure names who left and the room they were in, the places of those who stay there, and
    whether there are none. -/
structure Departure.Tells (d : Departure) (l : Lobby) (id : SessionId) : Prop where
  session : d.session = id
  listed : l.index[id]? = some d.room
  stays : ∃ r, l.rooms[d.room]? = some r ∧ d.remaining = (r.members.erase id).values ∧
    (d.removed = true ↔ r.Alone id)

namespace Lobby

/-- Whoever was in a room is reported to have left it, and nobody else is. -/
def Reports (l : Lobby) (id : SessionId) : Option Departure → Prop
  | none => l.index[id]? = none
  | some d => d.Tells l id

/-- A room that somebody leaves goes with the last one; otherwise it stays as it was for the
    others. -/
structure Vacates (l l' : Lobby) (id : SessionId) (room : RoomId) : Prop where
  gone_iff : ∀ r, l.rooms[room]? = some r → (l'.rooms[room]? = none ↔ r.Alone id)
  kept : ∀ r r', l.rooms[room]? = some r → l'.rooms[room]? = some r' → r.Differs r' id none none

/-- All that it is to leave. -/
structure Leaves (l l' : Lobby) (id : SessionId) (left : Option Departure) : Prop where
  left : l.Reports id left
  vacated : ∀ room, l.index[id]? = some room → l.Vacates l' id room
  rooms : ∀ room, l.index[id]? ≠ some room → l'.rooms[room]? = l.rooms[room]?
  index : ∀ other : SessionId, l'.index[other]? = if other = id then none else l.index[other]?
  players : ∀ other, l'.player? other = if other = id then none else l.player? other
  sessions : ∀ place : Place, l'.sessions[place]? =
    l.sessions[place]?.map fun t => if t.id = id then t.setRoom none else t
  nextId : l'.nextId = l.nextId
  settings : l'.settings = l.settings

/-- All that it is for the session `s` at a place to come into a room it was not in.  A room that
    is made for it has the given title. -/
structure Enters (l l' : Lobby) (place : Place) (s : Session) (title : String) (a : Arrival) :
    Prop where
  left : l.Reports s.id a.left
  vacated : ∀ room, l.index[s.id]? = some room → room ≠ a.room → l.Vacates l' s.id room
  entered : ∃ r r', l'.rooms[a.room]? = some r' ∧
    r.Differs r' s.id (some (newcomer s a.room)) (some place) ∧
    if a.created then r = { id := a.room, title } else l.rooms[a.room]? = some r
  rooms : ∀ room, room ≠ a.room → l.index[s.id]? ≠ some room → l'.rooms[room]? = l.rooms[room]?
  index : ∀ other : SessionId,
    l'.index[other]? = if other = s.id then some a.room else l.index[other]?
  players : ∀ other,
    l'.player? other = if other = s.id then some (newcomer s a.room) else l.player? other
  sessions : ∀ p : Place, l'.sessions[p]? = l.sessions[p]?.map fun t =>
    if p = place then t.setRoom (some a.room) else if t.id = s.id then t.setRoom none else t
  settings : l'.settings = l.settings

/-! ### Leaving -/

section Leaving

variable {l : Lobby} {id : SessionId}

theorem nextId_leave (l : Lobby) (id : SessionId) : (l.leave id).1.nextId = l.nextId := by
  unfold leave
  split
  · rfl
  · dsimp only
    split
    · rfl
    · split <;> rfl

theorem settings_leave (l : Lobby) (id : SessionId) : (l.leave id).1.settings = l.settings := by
  unfold leave
  split
  · rfl
  · dsimp only
    split
    · rfl
    · split <;> rfl

/-- **Leaving takes one player out of one room.** -/
theorem Consistent.leaves (h : l.Consistent) (id : SessionId) :
    l.Leaves (l.leave id).1 id (l.leave id).2 where
  left := by
    cases hi : l.index[id]? with
    | none => rw [leave_of_index_none hi]; exact hi
    | some room =>
      obtain ⟨r, place, hr, -, hplace⟩ := h.seats_of_index hi
      rw [leave_of_listed hi hr hplace]
      exact ⟨rfl, hi, r, hr, rfl, r.isEmpty_erase_iff id⟩
  vacated room hi := by
    obtain ⟨r, place, hr, -, hplace⟩ := h.seats_of_index hi
    have hrooms := rooms_leave hi hr hplace room
    rw [if_pos rfl] at hrooms
    refine ⟨fun r₀ hr₀ => ?_, fun r₀ r' hr₀ hr' => ?_⟩
    · obtain rfl := Option.some.inj (hr.symm.trans hr₀)
      rw [hrooms, ← r.isEmpty_erase_iff id]
      split
      · next hempty => simp [hempty]
      · next hkept => simp [hkept]
    · obtain rfl := Option.some.inj (hr.symm.trans hr₀)
      rw [hrooms] at hr'
      split at hr'
      · cases hr'
      · rw [← Option.some.inj hr']
        exact r.differs_erase id
  rooms room hnot := by
    cases hi : l.index[id]? with
    | none => rw [leave_of_index_none hi]
    | some home =>
      obtain ⟨r, place, hr, -, hplace⟩ := h.seats_of_index hi
      rw [rooms_leave hi hr hplace, if_neg]
      rintro rfl
      exact hnot hi
  index _ := index_leave _
  players := h.player?_leave id
  sessions := h.sessions_leave
  nextId := l.nextId_leave id
  settings := l.settings_leave id

end Leaving

/-! ### Coming in -/

section Coming

variable {l l' : Lobby} {place : Place} {s : Session} {a : Arrival}

/-- Whoever leaves and then settles in a room, that was there or that is new, has come in. -/
theorem Consistent.enters_settle (h : l.Consistent) (hs : l.sessions[place]? = some s)
    {l₁ : Lobby} {n : Int32} (hl₁ : l₁ = { (l.leave s.id).1 with nextId := n }) {r : Room}
    {title : String} (hoffers : l₁.Offers r) (hroom : r.id = a.room)
    (hleft : a.left = (l.leave s.id).2)
    (hmade : if a.created then r = { id := a.room, title } else l.rooms[a.room]? = some r) :
    l.Enters (l₁.settle place s r) place s title a := by
  subst hl₁
  have hleaves := h.leaves s.id
  have hrooms : ∀ room, room ≠ a.room →
      (({ (l.leave s.id).1 with nextId := n } : Lobby).settle place s r).rooms[room]? =
        (l.leave s.id).1.rooms[room]? := by
    intro room hne
    rw [rooms_settle, if_neg (hroom ▸ hne)]
  refine {
    left := hleft ▸ hleaves.left
    vacated := fun room hi hne => ?_
    entered := ⟨r, r.add place s, ?_, hroom ▸ r.differs_add place s, hmade⟩
    rooms := fun room hne hnot => (hrooms room hne).trans (hleaves.rooms room hnot)
    index := fun other => ?_
    players := fun other => ?_
    sessions := fun p => ?_
    settings := hleaves.settings }
  · obtain ⟨hgone, hkept⟩ := hleaves.vacated room hi
    exact ⟨by rw [hrooms room hne]; exact hgone, by rw [hrooms room hne]; exact hkept⟩
  · rw [rooms_settle, if_pos hroom.symm]
  · rw [index_settle, hroom]
    split
    · rfl
    · next hne => exact (hleaves.index other).trans (if_neg hne)
  · have hwith : ({ (l.leave s.id).1 with nextId := n } : Lobby).Consistent :=
      (h.leave s.id).congr (fun _ => rfl) rfl rfl
    rw [hwith.player?_settle hoffers, hroom]
    split
    · rfl
    · next hne => exact (hleaves.players other).trans (if_neg hne)
  · rw [sessions_settle, List.getElem?_modify]
    show _ <$> (l.leave s.id).1.sessions[p]? = _
    rw [hleaves.sessions, hroom]
    cases hp : l.sessions[p]? with
    | none => rfl
    | some t =>
      by_cases heq : place = p
      · subst heq
        obtain rfl := Option.some.inj (hs.symm.trans hp)
        simp [Session.setRoom]
      · simp [heq, Ne.symm heq]

/-- Who is not let into a room: a closed session, and one that is not in the room yet when the
    room is there and full. -/
theorem Consistent.join_refused_iff (h : l.Consistent) {room : RoomId} {fault : RoomFault} :
    l.join place s room = .error fault ↔
      s.closed = true ∧ fault = .sessionClosed s.id ∨
      s.closed = false ∧ fault = .roomFull room ∧ ∃ r, l.rooms[room]? = some r ∧
        s.id ∉ r.players ∧ l.settings.maxPlayers.toNat ≤ r.size := by
  unfold Lobby.join isFull
  cases hclosed : s.closed with
  | true => simp [eq_comm]
  | false =>
    cases hr : l.rooms[room]? with
    | none =>
      simp only [Bool.false_eq_true, false_and, false_or, if_false]
      split
      · simp
      · split <;> simp
    | some r =>
      by_cases hi : l.index[s.id]? = some room
      · simp [hi, (h.mem_players_iff hr).mpr hi]
      · have hout : s.id ∉ r.players := fun hmem => hi ((h.mem_players_iff hr).mp hmem)
        by_cases hfull : l.settings.maxPlayers.toNat ≤ r.size
        · simp [hi, hout, hfull, eq_comm]
        · have hspace : r.size < l.settings.maxPlayers.toNat := Nat.not_le.mp hfull
          simp only [hi, hfull, Bool.false_eq_true, if_false, false_and, false_or, decide_false]
          split <;> simp [hspace]

/-- Coming into a room that one is in already is reported as no change. -/
theorem join_listed {room : RoomId} (hi : l.index[s.id]? = some room)
    (hok : l.join place s room = .ok (a, l')) : l' = l ∧ a = ⟨room, false, none⟩ := by
  refine ⟨join_of_listed hi hok, ?_⟩
  unfold join at hok
  rw [if_pos hi] at hok
  split at hok
  · cases hok
  · cases hok; rfl

/-- **Joining another room moves one session**, into the room that is there or a new one. -/
theorem Consistent.join_enters (h : l.Consistent) (hs : l.sessions[place]? = some s)
    {room : RoomId} (hi : l.index[s.id]? ≠ some room) (hok : l.join place s room = .ok (a, l')) :
    l.Enters l' place s (l.settings.defaultTitle ++ " " ++ room.digits) a ∧
      (a.created = true ↔ l.rooms[room]? = none) ∧ a.room = room ∧ l'.nextId = l.nextId := by
  have hsame := (h.leaves s.id).rooms room hi
  unfold Lobby.join at hok
  rw [if_neg hi] at hok
  split at hok
  · cases hok
  · split at hok
    · cases hok
    · dsimp only at hok
      split at hok
      · next r hr =>
        cases hok
        have hid := (h.leave s.id).room_id hr
        rw [hsame] at hr
        refine ⟨h.enters_settle hs rfl (.inl ?_) hid rfl hr, by simp [hr], rfl, nextId_leave ..⟩
        rw [hid]
        exact hsame.trans hr
      · next hr =>
        cases hok
        have hfree := lookup_eq_none_iff.mp hr
        rw [hsame] at hr
        refine ⟨h.enters_settle hs rfl (.inr ⟨hfree, rfl, rfl⟩) rfl rfl ?_, by simp [hr], rfl,
          nextId_leave ..⟩
        rw [if_pos rfl, settings_leave]

theorem openRoom_refused_iff {title : String} {fault : RoomFault} :
    l.openRoom place s title = .error fault ↔
      s.closed = true ∧ fault = .sessionClosed s.id := by
  unfold openRoom
  cases s.closed <;> simp [eq_comm]

/-- **Making a room moves one session**, into a room of a number that no room had, or none but
    the old room of the session, which has gone with it. -/
theorem Consistent.openRoom_enters (h : l.Consistent) (hs : l.sessions[place]? = some s)
    {title : String} (hfree : (l.leave s.id).1.HasFreeId)
    (hok : l.openRoom place s title = .ok (a, l')) :
    l.Enters l' place s title a ∧ a.created = true ∧ l'.nextId = a.room.val + 1 ∧
      (l.rooms[a.room]? = none ∨
        l.index[s.id]? = some a.room ∧ ∃ d, a.left = some d ∧ d.removed = true) := by
  have hnumber := freshId_free hfree
  unfold Lobby.openRoom at hok
  split at hok
  · cases hok
  · cases hok
    refine ⟨h.enters_settle hs rfl (.inr ⟨hnumber, rfl, rfl⟩) rfl rfl rfl, rfl, rfl, ?_⟩
    rw [← lookup_eq_none_iff] at hnumber
    by_cases hi : l.index[s.id]? = some (l.leave s.id).1.freshId.1
    · -- the number of the old room can be free only because the room has gone
      have hreport := (h.leaves s.id).left
      cases hleft : (l.leave s.id).2 with
      | none =>
        rw [hleft] at hreport
        cases hi.symm.trans hreport
      | some d =>
        rw [hleft] at hreport
        obtain ⟨-, hlisted, r, hr, -, hremoved⟩ := hreport
        have hroom := Option.some.inj (hlisted.symm.trans hi)
        have hgone := ((h.leaves s.id).vacated _ hi).gone_iff r (hroom ▸ hr)
        exact .inr ⟨hi, d, hleft, hremoved.mpr (hgone.mp hnumber)⟩
    · exact .inl (((h.leaves s.id).rooms _ hi).symm.trans hnumber)

end Coming

/-! ### In every state that a run reaches -/

section Run

variable {settings : RoomSettings} {sessions : List Session}

theorem Consistent.settings_welcome? {l l' : Lobby} (h : l.Consistent) {d : Deed}
    (hends : l.Ends d) {a : Arrival} (hwelcome : l.welcome? d = some (a, l')) :
    l'.settings = l.settings := by
  obtain ⟨place, s, hs, ⟨room, rfl, hok⟩ | ⟨title, rfl, hok⟩⟩ := welcome?_eq_some hwelcome
  · by_cases hi : l.index[s.id]? = some room
    · rw [join_of_listed hi hok]
    · exact (h.join_enters hs hi hok).1.settings
  · exact (h.openRoom_enters hs (hends s hs (open_of_openRoom_ok hok)) hok).1.settings

/-- Nothing that is done changes the settings. -/
theorem Consistent.settings_next {l : Lobby} (h : l.Consistent) (d : Deed) (hends : l.Ends d) :
    (l.next d).settings = l.settings := by
  have hwelcomed : (((l.welcome? d).map (·.2)).getD l).settings = l.settings := by
    cases hwelcome : l.welcome? d with
    | none => rfl
    | some arrived => exact h.settings_welcome? hends hwelcome
  cases d with
  | openRoom place title => exact hwelcomed
  | join place room => exact hwelcomed
  | leave id => exact l.settings_leave id
  | steer id vx vy =>
    cases hsteer : l.steer? id vx vy with
    | none => simp [Lobby.next, hsteer]
    | some l' =>
      obtain ⟨_, _, _, rfl⟩ := steer?_eq_some hsteer
      simp [Lobby.next, hsteer]
  | tell tick =>
    obtain ⟨_, htold, -⟩ := tellEach_traffic (l.views tick) l
    simp only [Lobby.next, tellAll, htold]
  | create | advance | arrive | login | disconnect => rfl

theorem settings_after {l : Lobby} (h : l.Consistent) (deeds : List Deed)
    (hrun : Along next Ends l deeds) : (after next l deeds).settings = l.settings := by
  induction deeds generalizing l with
  | nil => rfl
  | cons d rest ih => exact (ih (h.next d hrun.1) hrun.2).trans (h.settings_next d hrun.1)

/-- **Coming and going is all or nothing, and local.**  The lobby starts with any sessions, in no
    room, and any deeds follow.  Whoever is refused then has changed nothing, and it is told
    exactly who is: a closed session, and, for a room that exists and is full, one that is not in
    it.  Whoever is let in changes what `Enters` says, and whoever leaves what `Leaves` says, and
    what is reported is what was changed. -/
theorem moves_atomic_and_local (hnew : ∀ s ∈ sessions, s.room = none) (deeds : List Deed)
    (hrun : Along next Ends { settings, sessions } deeds) :
    let l := after next { settings, sessions } deeds
    (∀ place s, l.sessions[place]? = some s → ∀ room : RoomId,
      (∀ fault, l.join place s room = .error fault ↔
        s.closed = true ∧ fault = .sessionClosed s.id ∨
        s.closed = false ∧ fault = .roomFull room ∧ ∃ r, l.rooms[room]? = some r ∧
          s.id ∉ r.players ∧ settings.maxPlayers.toNat ≤ r.size) ∧
      (∀ fault, l.join place s room = .error fault → l.next (.join place room) = l) ∧
      ∀ a l', l.join place s room = .ok (a, l') → l.next (.join place room) = l' ∧
        a.room = room ∧
        (l.index[s.id]? = some room → l' = l ∧ a = ⟨room, false, none⟩) ∧
        (l.index[s.id]? ≠ some room →
          l.Enters l' place s (settings.defaultTitle ++ " " ++ room.digits) a ∧
          (a.created = true ↔ l.rooms[room]? = none) ∧ l'.nextId = l.nextId)) ∧
    (∀ place s, l.sessions[place]? = some s → ∀ title,
      (∀ fault, l.openRoom place s title = .error fault ↔
        s.closed = true ∧ fault = .sessionClosed s.id) ∧
      (∀ fault, l.openRoom place s title = .error fault →
        l.next (.openRoom place title) = l) ∧
      ∀ a l', (l.leave s.id).1.HasFreeId → l.openRoom place s title = .ok (a, l') →
        l.next (.openRoom place title) = l' ∧
        l.Enters l' place s title a ∧ a.created = true ∧ l'.nextId = a.room.val + 1 ∧
        (l.rooms[a.room]? = none ∨
          l.index[s.id]? = some a.room ∧ ∃ d, a.left = some d ∧ d.removed = true)) ∧
    ∀ id, l.next (.leave id) = (l.leave id).1 ∧ l.Leaves (l.leave id).1 id (l.leave id).2 := by
  intro l
  have h : l.Consistent := consistent_after (.start hnew) deeds hrun
  have hsettings : l.settings = settings := settings_after (.start hnew) deeds hrun
  refine ⟨fun place s hs room => ⟨fun fault => ?_, fun fault hrefused => ?_, ?_⟩,
    fun place s hs title => ⟨fun fault => openRoom_refused_iff, fun fault hrefused => ?_, ?_⟩,
    fun id => ⟨rfl, h.leaves id⟩⟩
  · rw [← hsettings]
    exact h.join_refused_iff
  · simp [Lobby.next, welcome?, hs, hrefused, Except.toOption]
  · intro a l' hok
    have hnext : l.next (.join place room) = l' := by
      simp [Lobby.next, welcome?, hs, hok, Except.toOption]
    obtain ⟨-, hroom, -⟩ := join_ok h hok
    refine ⟨hnext, hroom, fun hi => join_listed hi hok, fun hi => ?_⟩
    obtain ⟨henters, hcreated, -, hnumber⟩ := h.join_enters hs hi hok
    exact ⟨hsettings ▸ henters, hcreated, hnumber⟩
  · simp [Lobby.next, welcome?, hs, hrefused, Except.toOption]
  · intro a l' hfree hok
    have hnext : l.next (.openRoom place title) = l' := by
      simp [Lobby.next, welcome?, hs, hok, Except.toOption]
    exact ⟨hnext, h.openRoom_enters hs hfree hok⟩

/-- A room for one: whoever else asks is refused, and the one who is in it gets its number again
    for a room of their own, for nobody stays and the search begins there. -/
theorem moves_atomic_and_local_room_for_one :
    let sessions := [Session.new ⟨1⟩ 8, .new ⟨2⟩ 8]
    let deeds := [Deed.join 0 ⟨1⟩]
    let l := after next { settings := { maxPlayers := 1 }, sessions } deeds
    let s := (Session.new ⟨1⟩ 8).setRoom (some ⟨1⟩)
    (∀ s ∈ sessions, s.room = none) ∧
      Along next Ends { settings := { maxPlayers := 1 }, sessions } deeds ∧
      l.join 1 (.new ⟨2⟩ 8) ⟨1⟩ = .error (.roomFull ⟨1⟩) ∧
      ∃ a l', l.openRoom 0 s "Hall" = .ok (a, l') ∧ a.room = ⟨1⟩ ∧
        l.Enters l' 0 s "Hall" a ∧ l.index[s.id]? = some a.room := by
  intro sessions deeds l s
  have hnew : ∀ s ∈ sessions, s.room = none := by decide
  have hrun : Along next Ends { settings := { maxPlayers := 1 }, sessions } deeds :=
    ⟨trivial, trivial⟩
  obtain ⟨hjoin, hopen, -⟩ := moves_atomic_and_local hnew deeds hrun
  have hfull : (l.rooms[(⟨1⟩ : RoomId)]?.map fun r => (decide (⟨2⟩ ∈ r.players), r.size)) =
      some (false, 1) := by decide
  obtain ⟨r, hr, hsize⟩ := Option.map_eq_some_iff.mp hfull
  obtain ⟨hout, hone⟩ := Prod.mk.inj hsize
  have hrefused := (hjoin 1 (.new ⟨2⟩ 8) rfl ⟨1⟩).1 (.roomFull ⟨1⟩)
  have hopened := (hopen 0 s rfl "Hall").2.2 _ _ ⟨⟨99⟩, by decide⟩ rfl
  refine ⟨hnew, hrun, hrefused.mpr (.inr ⟨rfl, rfl, r, hr, of_decide_eq_false hout, ?_⟩), _, _, rfl,
    by decide, hopened.2.1, by decide⟩
  exact Nat.le_of_eq hone.symm

end Run

end Lobby

end GameServer
