import GameServer.Proofs.Gathering
import GameServer.Proofs.Letters

/-!
Snapshots: who is told of a tick, and what.

Every room sends its members where its players stand.  A snapshot of a room takes one frame, and a
frame has room for so many players and no more.  Where there are more the snapshot fits no frame,
and nobody in the room is told anything.
-/

namespace GameServer

open Wire

/-! ### One snapshot -/

instance (r : Response) : Decidable r.Fits := inferInstanceAs (Decidable (_ ≤ _))

/-- How many players a snapshot has space for. -/
def snapshotCapacity : Nat := (maxFrame - headerSize - 8) / snapshotEntrySize

theorem Wire.Response.fits_snapshot_iff (tick : UInt32) (entries : List SnapshotEntry) :
    (snapshot tick entries).Fits ↔ entries.length ≤ snapshotCapacity := by
  rw [Fits, length_snapshot]
  simp only [snapshotCapacity, headerSize, maxFrame, snapshotEntrySize]
  omega

example : snapshotCapacity = 5460 := by decide

namespace Room

/-- Some entries show every player of a room, by ascending number, each where they are. -/
structure Shown (r : Room) (entries : List SnapshotEntry) : Prop where
  ascending : entries.Pairwise fun e e' => e.session.val < e'.session.val
  exactly : ∀ e : SnapshotEntry,
    e ∈ entries ↔ ∃ p, r.players[e.session]? = some p ∧ e.x = p.x ∧ e.y = p.y

variable {r : Room}

theorem length_entries (r : Room) : r.entries.length = r.size := by
  rw [entries, List.length_map, values_eq_map_snd, List.length_map, Std.ExtTreeMap.length_toList]
  rfl

theorem InOrder.shown (h : r.InOrder) : r.Shown r.entries where
  ascending := by
    rw [entries, values_eq_map_snd, List.map_map, List.pairwise_map]
    refine Std.ExtTreeMap.ordered_keys_toList.imp_of_mem ?_
    intro a b ha hb hlt
    have hself : ∀ {entry : SessionId × Player}, entry ∈ r.players.toList →
        entry.2.session = entry.1 := fun hentry =>
      (h.player_own (Std.ExtTreeMap.mem_toList_iff_getElem?_eq_some.mp hentry)).1
    simp only [Function.comp_apply, Player.entry, hself ha, hself hb]
    exact Std.compare_eq_lt.mp hlt
  exactly e := by
    rw [entries, List.mem_map]
    constructor
    · rintro ⟨p, hp, rfl⟩
      obtain ⟨id, hid⟩ := mem_values_iff.mp hp
      refine ⟨p, ?_, rfl, rfl⟩
      rw [Player.entry, (h.player_own hid).1, hid]
    · rintro ⟨p, hp, hx, hy⟩
      refine ⟨p, mem_values_iff.mpr ⟨e.session, hp⟩, ?_⟩
      cases e
      simp_all [Player.entry, (h.player_own hp).1]

end Room

/-! ### Telling some places -/

namespace Sessions

variable {r : Response} {places : List Place} {sessions others : List Session} {p : Place}

/-- The session at a place can be told something. -/
def isOpenAt (sessions : List Session) (p : Place) : Bool :=
  sessions[p]?.map Session.closed = some false

theorem isOpenAt_congr (h : others.map Session.closed = sessions.map Session.closed) (p : Place) :
    isOpenAt others p = isOpenAt sessions p := by
  rw [isOpenAt, isOpenAt, ← List.getElem?_map, h, List.getElem?_map]

theorem isOpenAt_iff : isOpenAt sessions p = true ↔
    ∃ s, sessions[p]? = some s ∧ s.closed = false := by
  simp [isOpenAt]

theorem map_closed_of_standing (h : others.map Session.standing = sessions.map Session.standing) :
    others.map Session.closed = sessions.map Session.closed :=
  map_of_map_standing Standing.closed h

/-- What fits no frame is told to nobody, and counts for nothing. -/
theorem broadcast_of_not_fits (h : ¬ r.Fits) (places : List Place) (sessions : List Session) :
    broadcast r places sessions = (sessions, 0) := by
  have hrefused : ∀ s : Session, s.closed = false → ∃ fault, s.send r = .error fault := by
    intro s hopen
    cases hsend : s.send r with
    | error fault => exact ⟨fault, rfl⟩
    | ok t =>
      have hencode : ∃ frame, r.encode = .ok frame := by
        cases hencode : r.encode with
        | ok frame => exact ⟨frame, rfl⟩
        | error cause =>
          have hencode' : Frame.encode r.packet r.body = .error cause := hencode
          simp [Session.send, Session.enqueue, hopen, hencode'] at hsend
      obtain ⟨frame, hencode⟩ := hencode
      exact absurd (Response.encode_eq_ok hencode).1 h
  induction places with
  | nil => rfl
  | cons place rest ih =>
    rw [broadcast_step]
    split
    · exact ih
    · next s hs =>
      split
      · exact ih
      · next hclosed =>
        obtain ⟨fault, hfault⟩ := hrefused s (by simpa using hclosed)
        rw [hfault]
        exact ih

/-- Whoever is closed hears no broadcast. -/
theorem broadcast_of_closed (h : isOpenAt sessions p = false) :
    (broadcast r places sessions).1[p]? = sessions[p]? := by
  induction places generalizing sessions with
  | nil => rfl
  | cons place rest ih =>
    rw [broadcast_cons]
    split
    · next hopen =>
      have hp : place ≠ p := by
        rintro rfl
        simp [isOpenAt, hopen] at h
      have hstill : isOpenAt (send place r sessions) p = false := by
        rw [isOpenAt, send_elsewhere hp]
        exact h
      rw [ih hstill, send_elsewhere hp]
    · exact ih h

/-- A broadcast counts those who are open. -/
theorem broadcast_snd (h : r.Fits) (places : List Place) (sessions : List Session) :
    (broadcast r places sessions).2 = places.countP (isOpenAt sessions) := by
  induction places generalizing sessions with
  | nil => rfl
  | cons place rest ih =>
    rw [broadcast_step]
    split
    · next hnone =>
      rw [ih, List.countP_cons_of_neg (by simp [isOpenAt, hnone])]
    · next s hs =>
      split
      · next hclosed => rw [ih, List.countP_cons_of_neg (by simp [isOpenAt, hs, hclosed])]
      · next hopen =>
        have hopen : s.closed = false := by simpa using hopen
        obtain ⟨t, hsend, -, -⟩ := Session.frames_send hopen h
        have hsame : (sessions.set place t).map Session.closed = sessions.map Session.closed :=
          map_set_of_eq hs (Session.closed_of_standing_eq (Session.standing_send hsend))
        rw [hsend, List.countP_cons_of_pos (isOpenAt_iff.mpr ⟨s, hs, hopen⟩)]
        dsimp only
        rw [ih, funext (isOpenAt_congr hsame)]

end Sessions

/-! ### Telling every room -/

namespace Lobby

variable {l : Lobby} {p : Place} {s : Session} {room : RoomId} {r : Room}

/-- Those who hear a snapshot: the open sessions in a room whose players fit one frame. -/
def Hears (l : Lobby) (s : Session) : Bool :=
  !s.closed && (s.room.bind (l.rooms[·]?)).any (·.size ≤ snapshotCapacity)

theorem hears_iff : l.Hears s = true ↔ s.closed = false ∧
    ∃ room r, s.room = some room ∧ l.rooms[room]? = some r ∧ r.size ≤ snapshotCapacity := by
  rw [Hears, Bool.and_eq_true, Bool.not_eq_true', Option.any_eq_true]
  refine and_congr_right fun _ => ⟨?_, ?_⟩
  · rintro ⟨r, hr, hsize⟩
    obtain ⟨room, hroom, hr⟩ := Option.bind_eq_some_iff.mp hr
    exact ⟨room, r, hroom, hr, of_decide_eq_true hsize⟩
  · rintro ⟨room, r, hroom, hr, hsize⟩
    exact ⟨r, Option.bind_eq_some_iff.mpr ⟨room, hroom, hr⟩, decide_eq_true hsize⟩

theorem fits_view (tick : UInt32) (r : Room) :
    (RoomView.response ⟨r.id, tick, r.entries, r.places⟩).Fits ↔ r.size ≤ snapshotCapacity := by
  rw [RoomView.response, Response.fits_snapshot_iff, Room.length_entries]

/-- Nobody is a member of two rooms. -/
theorem Consistent.disjoint_views (h : l.Consistent) (tick : UInt32) :
    (l.views tick).Pairwise fun view other => List.Disjoint view.members other.members := by
  rw [views, values_eq_map_snd, List.map_map, List.pairwise_map]
  refine Std.ExtTreeMap.distinct_keys_toList.imp_of_mem ?_
  intro a b ha hb hkeys q hqa hqb
  have hra := Std.ExtTreeMap.mem_toList_iff_getElem?_eq_some.mp ha
  have hrb := Std.ExtTreeMap.mem_toList_iff_getElem?_eq_some.mp hb
  obtain ⟨s, hs, hroom⟩ := (h.mem_places_iff hra).mp hqa
  obtain ⟨t, ht, hroom'⟩ := (h.mem_places_iff hrb).mp hqb
  obtain rfl := Option.some.inj (hs.symm.trans ht)
  obtain hsame := Option.some.inj (hroom.symm.trans hroom')
  exact hkeys (Std.LawfulEqCmp.compare_eq_iff_eq.mpr hsame)

theorem tellEach_cons (view : RoomView) (rest : List RoomView) (l : Lobby) :
    tellEach (view :: rest) l =
      ((tellEach rest (l.broadcast view.members view.response).1).1,
        (l.broadcast view.members view.response).2 +
          (tellEach rest (l.broadcast view.members view.response).1).2) := rfl

theorem map_closed_broadcast (l : Lobby) (places : List Place) (r : Response) :
    (l.broadcast places r).1.sessions.map Session.closed = l.sessions.map Session.closed :=
  Sessions.map_closed_of_standing (Sessions.map_standing_broadcast r places l.sessions)

/-- Whoever is closed, or at none of the places that are told what fits a frame, is told nothing. -/
theorem sessions_tellEach_of_silent (views : List RoomView) (l : Lobby)
    (hsilent : Sessions.isOpenAt l.sessions p = false ∨
      ∀ view ∈ views, view.response.Fits → p ∉ view.members) :
    (tellEach views l).1.sessions[p]? = l.sessions[p]? := by
  induction views generalizing l with
  | nil => rfl
  | cons view rest ih =>
    have hopen := Sessions.isOpenAt_congr (map_closed_broadcast l view.members view.response) p
    have hfirst : (l.broadcast view.members view.response).1.sessions[p]? = l.sessions[p]? := by
      change (Sessions.broadcast view.response view.members l.sessions).1[p]? = _
      rcases hsilent with hclosed | hout
      · exact Sessions.broadcast_of_closed hclosed
      · by_cases hfits : view.response.Fits
        · exact Sessions.broadcast_elsewhere (hout view (List.mem_cons_self ..) hfits)
        · rw [Sessions.broadcast_of_not_fits hfits]
    rw [tellEach_cons, ih, hfirst]
    rcases hsilent with hclosed | hout
    · exact .inl (hopen.trans hclosed)
    · exact .inr fun view hview => hout view (List.mem_cons_of_mem _ hview)

/-- What is told of each room is told to so many. -/
theorem tellEach_snd (views : List RoomView) (l : Lobby) :
    (tellEach views l).2 =
      ((views.filter fun view => view.response.Fits).flatMap RoomView.members).countP
        (Sessions.isOpenAt l.sessions) := by
  induction views generalizing l with
  | nil => rfl
  | cons view rest ih =>
    have hopen := Sessions.isOpenAt_congr (map_closed_broadcast l view.members view.response)
    have hfirst : (l.broadcast view.members view.response).2 =
        (Sessions.broadcast view.response view.members l.sessions).2 := rfl
    rw [tellEach_cons]
    dsimp only
    rw [ih, funext hopen, hfirst]
    by_cases hfits : view.response.Fits
    · rw [Sessions.broadcast_snd hfits, List.filter_cons_of_pos (by simpa using hfits),
        List.flatMap_cons, List.countP_append]
    · rw [Sessions.broadcast_of_not_fits hfits, List.filter_cons_of_neg (by simpa using hfits),
        Nat.zero_add]

/-- The places that hear a snapshot are those of the open sessions in rooms that fit a frame. -/
theorem Consistent.tellAll_snd (h : l.Consistent) (tick : UInt32) :
    (l.tellAll tick).2 = l.sessions.countP l.Hears := by
  let fitting := (l.views tick).filter fun view => view.response.Fits
  have hnodup : (fitting.flatMap RoomView.members).Nodup := by
    refine List.nodup_flatMap.mpr ⟨?_, (h.disjoint_views tick).filter _⟩
    intro view hview
    obtain ⟨r, hr, rfl⟩ := List.mem_map.mp (List.mem_of_mem_filter hview)
    obtain ⟨room, hr⟩ := mem_values_iff.mp hr
    exact h.nodup_places hr
  rw [tellAll, tellEach_snd, List.countP_eq_length_filter]
  apply Sessions.length_eq_countP (hnodup.filter _)
  intro p
  rw [List.mem_filter, List.mem_flatMap, Sessions.isOpenAt_iff]
  constructor
  · rintro ⟨⟨view, hview, hp⟩, s, hs, hopen⟩
    obtain ⟨hview, hfits⟩ := List.mem_filter.mp hview
    obtain ⟨r, hr, rfl⟩ := List.mem_map.mp hview
    obtain ⟨room, hr⟩ := mem_values_iff.mp hr
    obtain ⟨t, ht, hroom⟩ := (h.mem_places_iff hr).mp hp
    obtain rfl := Option.some.inj (hs.symm.trans ht)
    exact ⟨s, hs, hears_iff.mpr
      ⟨hopen, room, r, hroom, hr, (fits_view tick r).mp (of_decide_eq_true hfits)⟩⟩
  · rintro ⟨s, hs, hhears⟩
    obtain ⟨hopen, room, r, hroom, hr, hsize⟩ := hears_iff.mp hhears
    refine ⟨⟨_, List.mem_filter.mpr ⟨List.mem_map_of_mem (mem_values_iff.mpr ⟨room, hr⟩), ?_⟩,
      (h.mem_places_iff hr).mpr ⟨s, hs, hroom⟩⟩, s, hs, hopen⟩
    exact decide_eq_true ((fits_view tick r).mpr hsize)

/-- **An open session in a room that fits a frame hears of its room once.** -/
theorem Consistent.heard_tellAll (h : l.Consistent) (tick : UInt32) (hs : l.sessions[p]? = some s)
    (hopen : s.closed = false) (hroom : s.room = some room) (hr : l.rooms[room]? = some r)
    (hsize : r.size ≤ snapshotCapacity) :
    ∃ t, (l.tellAll tick).1.sessions[p]? = some t ∧ t.closed = false ∧
      t.frames = s.frames ++ [(Response.snapshot tick r.entries).frame] := by
  have hp : p ∈ r.places := (h.mem_places_iff hr).mpr ⟨s, hs, hroom⟩
  have hview : ⟨r.id, tick, r.entries, r.places⟩ ∈ l.views tick :=
    List.mem_map_of_mem (mem_values_iff.mpr ⟨room, hr⟩)
  have hfits := (fits_view tick r).mpr hsize
  -- of all rooms only this one tells the session anything
  obtain ⟨before, later, hsplit⟩ := List.append_of_mem hview
  have hdisjoint := h.disjoint_views tick
  rw [hsplit, List.pairwise_append, List.pairwise_cons] at hdisjoint
  obtain ⟨-, ⟨hlater, -⟩, hbefore⟩ := hdisjoint
  have happend : ∀ (views more : List RoomView) (m : Lobby),
      (tellEach (views ++ more) m).1 = (tellEach more (tellEach views m).1).1 := by
    intro views more
    induction views with
    | nil => exact fun m => rfl
    | cons view rest ih => exact fun m => ih (m.broadcast view.members view.response).1
  have hreached : (tellEach before l).1.sessions[p]? = some s := by
    rw [sessions_tellEach_of_silent before l, hs]
    exact .inr fun view hin _ hpin => hbefore view hin _ (List.mem_cons_self ..) hpin hp
  obtain ⟨t, ht, hclosed, hframes⟩ :=
    Sessions.broadcast_at (h.nodup_places hr) hreached hfits
  refine ⟨t, ?_, hclosed.trans hopen, ?_⟩
  · rw [tellAll, hsplit, happend, tellEach_cons, sessions_tellEach_of_silent]
    · exact ht
    · exact .inr fun view hin _ hpin => hlater view hin hp hpin
  · rw [hframes, if_pos ⟨hopen, hp⟩]
    rfl

/-- **Everybody else is told nothing.** -/
theorem Consistent.unheard_tellAll (h : l.Consistent) (tick : UInt32)
    (hs : l.sessions[p]? = some s) (hears : l.Hears s = false) :
    (l.tellAll tick).1.sessions[p]? = some s := by
  rw [tellAll, sessions_tellEach_of_silent, hs]
  cases hclosed : s.closed with
  | true => exact .inl (by simp [Sessions.isOpenAt, hs, hclosed])
  | false =>
    right
    intro view hview hfits hp
    obtain ⟨r, hr, rfl⟩ := List.mem_map.mp hview
    obtain ⟨room, hr⟩ := mem_values_iff.mp hr
    obtain ⟨t, ht, hroom⟩ := (h.mem_places_iff hr).mp hp
    obtain rfl := Option.some.inj (hs.symm.trans ht)
    have hhears := hears_iff.mpr ⟨hclosed, room, r, hroom, hr, (fits_view tick r).mp hfits⟩
    rw [hears] at hhears
    cases hhears

end Lobby

namespace World

/-! ### In every run -/

section Run

variable {w : World}

/-- **A crowd is told nothing.**  More players than fit a frame are let into a room, if the settings
    allow so many, and then nobody in it hears of a tick. -/
theorem crowd_is_told_nothing {settings : RoomSettings} {n : Nat} (room : RoomId)
    (hspace : n ≤ settings.maxPlayers.toNat) (hn : n < UInt32.size) (hcrowd : snapshotCapacity < n)
    (tick : UInt32) :
    let l := (after next (venue settings n) (gathering room n)).lobby
    let told := l.tellAll tick
    l.sessions.length = n ∧ (∀ s ∈ l.sessions, s.closed = false ∧ s.room = some room) ∧
      told.2 = 0 ∧ told.1.sessions = l.sessions := by
  intro l told
  obtain ⟨hlength, hbound, hsize⟩ := room_fills room hspace hn
  have h : l.Consistent :=
    (((pristine_venue settings n).tracked ⟨0⟩).after (gathering room n)).inUse.consistent
  have hdeaf : ∀ s ∈ l.sessions, l.Hears s = false := by
    intro s hs
    rw [← Bool.not_eq_true, Lobby.hears_iff]
    rintro ⟨-, home, r, hroom, hr, hfits⟩
    obtain rfl := Option.some.inj (hroom.symm.trans (hbound s hs).2)
    rw [hsize r hr] at hfits
    omega
  refine ⟨hlength, hbound, (h.tellAll_snd tick).trans ?_, ?_⟩
  · exact List.countP_eq_zero.mpr fun s hs => by simp [hdeaf s hs]
  · have hstanding : told.1.sessions.map Session.standing = l.sessions.map Session.standing :=
      ((after next (venue settings n) (gathering room n)).quiet_tellAll tick).standing
    have hsame := congrArg List.length hstanding
    rw [List.length_map, List.length_map] at hsame
    refine List.ext_getElem? fun p => ?_
    cases hs : l.sessions[p]? with
    | none => exact List.getElem?_eq_none (hsame ▸ List.getElem?_eq_none_iff.mp hs)
    | some s => exact h.unheard_tellAll tick hs (hdeaf s (List.mem_of_getElem? hs))

/-- **A tick reaches every member of every room that fits a frame.**  In any run let everybody be
    told of a tick.  Each open session in such a room is sent one snapshot, which shows the players
    of its room and where they are, and no other session is sent anything.  They are counted.  In no
    room are there more players than fit a frame unless the settings allow more, and otherwise
    every open session in a room hears of it. -/
theorem snapshots_reach_members (hstart : w.Pristine) (events : List Event) (tick : UInt32) :
    let l := (after next w events).lobby
    let told := l.tellAll tick
    (∀ (p : Place) (s : Session), l.sessions[p]? = some s →
      ∃ t, told.1.sessions[p]? = some t ∧ t.standing = s.standing ∧
        (l.Hears s = true → ∃ room r entries frame, s.room = some room ∧
          l.rooms[room]? = some r ∧ r.Shown entries ∧
          (Response.snapshot tick entries).encode = .ok frame ∧ t.frames = s.frames ++ [frame]) ∧
        (l.Hears s = false → t = s)) ∧
    told.1.floor = l.floor ∧
    told.2 = l.sessions.countP l.Hears ∧
    (w.lobby.settings.maxPlayers.toNat ≤ snapshotCapacity →
      ∀ s ∈ l.sessions, l.Hears s = (!s.closed && s.room.isSome)) := by
  intro l told
  have h : l.Consistent := ((hstart.tracked ⟨0⟩).after events).inUse.consistent
  refine ⟨fun p s hs => ?_, l.floor_tellAll tick, h.tellAll_snd tick, fun hspace s hs => ?_⟩
  · have hstanding : told.1.sessions.map Session.standing = l.sessions.map Session.standing :=
      ((after next w events).quiet_tellAll tick).standing
    cases hhears : l.Hears s with
    | false =>
      exact ⟨s, h.unheard_tellAll tick hs hhears, rfl, nofun, fun _ => rfl⟩
    | true =>
      obtain ⟨hopen, room, r, hroom, hr, hsize⟩ := Lobby.hears_iff.mp hhears
      obtain ⟨t, ht, -, hframes⟩ := h.heard_tellAll tick hs hopen hroom hr hsize
      obtain ⟨u, hu, hsame⟩ := Sessions.getElem?_of_map_eq hstanding ht
      obtain rfl := Option.some.inj (hu.symm.trans hs)
      have hfits : (Response.snapshot tick r.entries).Fits := (Lobby.fits_view tick r).mpr hsize
      exact ⟨t, ht, hsame.symm, fun _ => ⟨room, r, r.entries, _, hroom, hr, (h.inOrder hr).shown,
        Response.encode_of_fits hfits, hframes⟩, nofun⟩
  · have hcapped : l.Capped w.lobby.settings :=
      capped_after hstart.capped events
    obtain ⟨p, hp⟩ := List.mem_iff_getElem?.mp hs
    rw [Bool.eq_iff_iff, Lobby.hears_iff, Bool.and_eq_true, Bool.not_eq_true',
      Option.isSome_iff_exists]
    refine and_congr_right fun _ => ⟨fun ⟨room, r, hroom, _⟩ => ⟨room, hroom⟩, ?_⟩
    rintro ⟨room, hroom⟩
    obtain ⟨r, hr, -⟩ := (h.room_iff hp room).mp hroom
    have hsize := hcapped.size_le room r hr
    refine ⟨room, r, hroom, hr, hsize.trans ?_⟩
    exact Nat.max_le.mpr ⟨by decide, hspace⟩

/-- Ann and Bob are in one room and Cid is in another, but Bob's connection has died.  Ann and Cid
    are told of the tick, and Bob is not. -/
theorem snapshots_reach_members_lost_connection :
    let database := ((({} : Database).seed 1 "ann" "a").seed 2 "bob" "b").seed 3 "cid" "c"
    let w : World := { gateway := { database } }
    let does (id : UInt32) (r : Request) : Event := .execute (.request ⟨id⟩ r)
    let events : List Event :=
      [.connect 64, .connect 64, .connect 64, does 1 (.login "ann" "a"), does 2 (.login "bob" "b"),
        does 3 (.login "cid" "c"), does 1 (.enterRoom ⟨5⟩), does 2 (.enterRoom ⟨5⟩),
        does 3 (.enterRoom ⟨6⟩), .tell 1, .disconnect 1]
    let l := (after next w events).lobby
    let told := l.tellAll 2
    w.Pristine ∧ told.2 = 2 ∧ told.1.sessions[1]? = l.sessions[1]? ∧
      (l.sessions[1]?.map fun s => (s.closed, s.room)) = some (true, some ⟨5⟩) := by
  intro database w does events l told
  have hstart : w.Pristine := pristine_start {} {} database true
  have hheard : l.sessions.countP l.Hears = 2 := by decide +kernel
  have hbob : (l.sessions[1]?.map fun s => (l.Hears s, s.closed, s.room)) =
      some (false, true, some ⟨5⟩) := by decide +kernel
  obtain ⟨hsessions, -, hcount, -⟩ := snapshots_reach_members hstart events 2
  obtain ⟨s, hs, hlost⟩ := Option.map_eq_some_iff.mp hbob
  obtain ⟨hdeaf, hlost⟩ := Prod.mk.inj hlost
  obtain ⟨t, ht, -, -, hsame⟩ := hsessions 1 s hs
  refine ⟨hstart, hcount.trans hheard, ?_, Option.map_eq_some_iff.mpr ⟨s, hs, hlost⟩⟩
  rw [ht, hsame hdeaf, hs]

/-- One player more than fit a frame fill a room.  All of them are open and in the room, and nobody
    is told of the tick. -/
theorem snapshot_of_crowd_reaches_nobody :
    let w := venue { maxPlayers := 5461 } 5461
    let l := (after next w (gathering ⟨1⟩ 5461)).lobby
    let told := l.tellAll 1
    w.Pristine ∧ l.sessions.length = 5461 ∧
      (∀ s ∈ l.sessions, s.closed = false ∧ s.room = some ⟨1⟩) ∧
      told.2 = 0 ∧ told.1.sessions = l.sessions :=
  ⟨pristine_venue _ _, crowd_is_told_nothing ⟨1⟩ (by decide) (by decide) (by decide) 1⟩

end Run

end World

end GameServer
