import GameServer.Proofs.Conversation
import GameServer.Proofs.Gathering
import Mathlib.Algebra.BigOperators.Ring.Finset
import Mathlib.Algebra.Order.BigOperators.Group.List
import Mathlib.Algebra.Order.Ring.Nat

/-!
The room list: what a session is told of the rooms that there are.

The rooms are listed by ascending number, as many as fit one frame, each with how many are in it and
with its title, cut to what a line has space for.  A number that a line cannot hold is as large as
it can be.  Since nobody is in two rooms, a list of all rooms counts every player once.
-/

namespace GameServer

open Wire

/-! ### One line -/

/-- A line of the room list says of a room what it is called, how many are in it, and its title: as
    many whole characters as fit a line, and of those the ones before the first zero character. -/
structure Wire.RoomEntry.Describes (e : RoomEntry) (r : Room) : Prop where
  room : e.room = r.id
  users : e.users.toInt = min r.size 2147483647
  title : ∃ text, Cuts 32 r.title text ∧
    e.title = String.ofList (text.toList.takeWhile (· ≠ Utf8.nul))

/-- The line of a room, as it is read. -/
def Room.line (r : Room) : RoomEntry :=
  ⟨r.id, World.userCount r.size, normalText titleWidth r.title⟩

theorem World.toInt_userCount (n : Nat) : (World.userCount n).toInt = min n 2147483647 := by
  rw [World.userCount, Int32.toInt_ofNat_of_lt (by omega)]

theorem Room.describes_line (r : Room) : r.line.Describes r where
  room := rfl
  users := World.toInt_userCount r.size
  title := by
    refine ⟨_, cuts_cut 32 r.title, ?_⟩
    rw [String.toList_ofList, Utf8.cut_eq_kept]
    rfl

namespace Lobby

variable {l : Lobby}

/-! ### All rooms -/

/-- No room has more players than a line can say. -/
def Countable (l : Lobby) : Prop :=
  ∀ (room : RoomId) (r : Room), l.rooms[room]? = some r → r.size ≤ 2147483647

/-- The lines of a room list are those of the first rooms, as many as there are or as a frame takes,
    each once, by ascending number.  If that are all rooms, and only if no room has more players
    than a line can say, the lines count every player. -/
structure Lists (l : Lobby) (lines : List RoomEntry) : Prop where
  length : lines.length = min 1638 l.roomCount
  ascending : lines.Pairwise fun e e' => e.room.val < e'.room.val
  described : ∀ e ∈ lines, ∃ r, l.rooms[e.room]? = some r ∧ e.Describes r
  first : ∀ room ∈ l.rooms, (∀ e ∈ lines, e.room ≠ room) → ∀ e ∈ lines, e.room.val < room.val
  total : l.roomCount ≤ 1638 → ((lines.map (·.users.toInt)).sum = l.playerCount ↔ l.Countable)

/-- Nobody plays in two rooms. -/
theorem Consistent.disjoint_players (h : l.Consistent) :
    l.rooms.toList.Pairwise fun entry other =>
      List.Disjoint entry.2.players.keys other.2.players.keys := by
  refine Std.ExtTreeMap.distinct_keys_toList.imp_of_mem ?_
  intro entry other hentry hother hkeys id hid hid'
  have hr := Std.ExtTreeMap.mem_toList_iff_getElem?_eq_some.mp hentry
  have hr' := Std.ExtTreeMap.mem_toList_iff_getElem?_eq_some.mp hother
  have hroom := (h.mem_players_iff hr).mp (Std.ExtTreeMap.mem_keys.mp hid)
  have hroom' := (h.mem_players_iff hr').mp (Std.ExtTreeMap.mem_keys.mp hid')
  have hsame := Option.some.inj (hroom.symm.trans hroom')
  exact hkeys (Std.LawfulEqCmp.compare_eq_iff_eq.mpr hsame)

/-- **Every player is in one room**: the rooms have as many players together as the index has. -/
theorem Consistent.sum_sizes (h : l.Consistent) :
    (l.rooms.toList.map fun entry => entry.2.size).sum = l.playerCount := by
  have hnodup : (l.rooms.toList.flatMap fun entry => entry.2.players.keys).Nodup :=
    List.nodup_flatMap.mpr ⟨fun _ _ => Std.ExtTreeMap.nodup_keys, h.disjoint_players⟩
  have hperm : (l.rooms.toList.flatMap fun entry => entry.2.players.keys).Perm l.index.keys := by
    refine (List.perm_ext_iff_of_nodup hnodup Std.ExtTreeMap.nodup_keys).mpr fun id => ?_
    rw [List.mem_flatMap, Std.ExtTreeMap.mem_keys, Std.ExtTreeMap.mem_iff_isSome_getElem?,
      Option.isSome_iff_exists]
    constructor
    · rintro ⟨⟨room, r⟩, hentry, hid⟩
      have hr := Std.ExtTreeMap.mem_toList_iff_getElem?_eq_some.mp hentry
      exact ⟨room, (h.mem_players_iff hr).mp (Std.ExtTreeMap.mem_keys.mp hid)⟩
    · rintro ⟨room, hi⟩
      obtain ⟨r, -, hr, hid, -⟩ := h.seats_of_index hi
      exact ⟨(room, r), Std.ExtTreeMap.mem_toList_iff_getElem?_eq_some.mpr hr,
        Std.ExtTreeMap.mem_keys.mpr hid⟩
  have hlength := hperm.length_eq
  rw [List.length_flatMap, Std.ExtTreeMap.length_keys] at hlength
  rw [playerCount, ← hlength]
  simp only [Std.ExtTreeMap.length_keys, Room.size]

/-- Numbers that are cut at a bound add up to the same only if none is above it. -/
theorem sum_map_min_eq_iff {sizes : List Nat} {bound : Nat} :
    (sizes.map (min · bound)).sum = sizes.sum ↔ ∀ n ∈ sizes, n ≤ bound := by
  induction sizes with
  | nil => simp
  | cons n rest ih =>
    have hless : (rest.map (min · bound)).sum ≤ (rest.map id).sum :=
      List.sum_le_sum fun m _ => Nat.min_le_left m bound
    rw [List.map_id] at hless
    rw [List.map_cons, List.sum_cons, List.sum_cons, List.forall_mem_cons]
    refine ⟨fun h => ⟨by omega, ih.mp (by omega)⟩, fun ⟨hfirst, hrest⟩ => ?_⟩
    rw [ih.mpr hrest, Nat.min_eq_left hfirst]

def lines (l : Lobby) : List RoomEntry :=
  (l.rooms.toList.take maxRoomEntries).map fun entry => entry.2.line

theorem Consistent.mem_lines_iff (h : l.Consistent) {e : RoomEntry} :
    e ∈ l.lines ↔ ∃ r, (e.room, r) ∈ l.rooms.toList.take maxRoomEntries ∧ e = r.line := by
  rw [lines, List.mem_map]
  constructor
  · rintro ⟨⟨room, r⟩, hentry, rfl⟩
    have hr := Std.ExtTreeMap.mem_toList_iff_getElem?_eq_some.mp (List.mem_of_mem_take hentry)
    refine ⟨r, ?_, rfl⟩
    rwa [← h.room_id hr] at hentry
  · rintro ⟨r, hentry, rfl⟩
    exact ⟨_, hentry, rfl⟩

/-- **The first rooms are listed.** -/
theorem Consistent.lists (h : l.Consistent) : l.Lists l.lines where
  length := by
    rw [lines, List.length_map, List.length_take, Std.ExtTreeMap.length_toList, roomCount]
    rfl
  ascending := by
    rw [lines, List.pairwise_map]
    refine Std.ExtTreeMap.ordered_keys_toList.take.imp_of_mem ?_
    intro entry other hentry hother hlt
    have hself : ∀ {entry : RoomId × Room}, entry ∈ l.rooms.toList.take maxRoomEntries →
        entry.2.id = entry.1 := fun hentry => h.room_id
      (Std.ExtTreeMap.mem_toList_iff_getElem?_eq_some.mp (List.mem_of_mem_take hentry))
    simp only [Room.line, hself hentry, hself hother]
    exact Std.compare_eq_lt.mp hlt
  described e he := by
    obtain ⟨r, hentry, hline⟩ := h.mem_lines_iff.mp he
    refine ⟨r, Std.ExtTreeMap.mem_toList_iff_getElem?_eq_some.mp (List.mem_of_mem_take hentry), ?_⟩
    rw [hline]
    exact r.describes_line
  first room hroom hunlisted e he := by
    obtain ⟨r, hr⟩ := Option.isSome_iff_exists.mp (Std.ExtTreeMap.mem_iff_isSome_getElem?.mp hroom)
    obtain ⟨r', hlisted, -⟩ := h.mem_lines_iff.mp he
    have hentry := Std.ExtTreeMap.mem_toList_iff_getElem?_eq_some.mpr hr
    have hordered : l.rooms.toList.Pairwise fun entry other => compare entry.1 other.1 = .lt :=
      Std.ExtTreeMap.ordered_keys_toList
    rw [← List.take_append_drop maxRoomEntries l.rooms.toList] at hentry hordered
    rcases List.mem_append.mp hentry with hfront | hback
    · have hid := h.room_id hr
      have hline : r.line ∈ l.lines := h.mem_lines_iff.mpr ⟨r, by rwa [← hid] at hfront, rfl⟩
      exact absurd hid (hunlisted _ hline)
    · obtain ⟨-, -, hacross⟩ := List.pairwise_append.mp hordered
      have hbehind := hacross (e.room, r') hlisted (room, r) hback
      exact Std.compare_eq_lt.mp hbehind
  total hall := by
    have hlines : l.lines.map (·.users.toInt) =
        ((l.rooms.toList.map fun entry => entry.2.size).map (min · 2147483647)).map Nat.cast := by
      rw [lines, List.take_of_length_le (by rwa [Std.ExtTreeMap.length_toList]), List.map_map,
        List.map_map, List.map_map]
      apply List.map_congr_left
      intro entry _
      simp only [Function.comp_apply, Room.line, World.toInt_userCount]
    rw [hlines, ← Nat.cast_list_sum, Nat.cast_inj, ← h.sum_sizes, sum_map_min_eq_iff,
      List.forall_mem_map]
    constructor
    · intro hsizes room r hr
      exact hsizes (room, r) (Std.ExtTreeMap.mem_toList_iff_getElem?_eq_some.mpr hr)
    · intro hsizes entry hentry
      exact hsizes entry.1 entry.2 (Std.ExtTreeMap.mem_toList_iff_getElem?_eq_some.mp hentry)

end Lobby

namespace World

variable {w : World} {id : SessionId} {place : Place} {s : Session}

/-! ### What is sent -/

theorem roomEntries_eq (w : World) : w.roomEntries.map RoomEntry.normal = w.lobby.lines := by
  rw [roomEntries, Lobby.listing, Lobby.lines, values_eq_map_snd, List.map_map, ← List.map_take,
    ← List.map_take, List.map_map, List.map_map]
  rfl

theorem send_eq_set (hs : w.sessions[place]? = some s) (r : Response) :
    w.send place r = w.withSessions (w.sessions.set place (s.tell r)) := by
  rw [send]
  congr 1
  apply List.ext_getElem?
  intro p
  rw [Sessions.getElem?_send, List.getElem?_set]
  split
  · next hp =>
    subst hp
    rw [hs, if_pos (List.getElem?_eq_some_iff.mp hs).1]
    rfl
  · cases w.sessions[p]? <;> rfl

theorem listRooms_of_found (hfind : w.find? id = some (place, s)) :
    w.execute (.request id .listRooms) =
      w.withSessions (w.sessions.set place (s.tell (.roomList w.roomEntries))) := by
  obtain ⟨hplace, hs⟩ := find?_eq_some.mp hfind
  rw [← send_eq_set hs]
  change w.listRooms id = _
  rw [listRooms, reply, hplace]

/-- Whoever is open and registered is sent the list in one frame. -/
theorem told_roomList (h : w.lobby.Consistent) (hfind : w.find? id = some (place, s))
    (hopen : s.closed = false) :
    ∃ t frame lines,
      w.execute (.request id .listRooms) = w.withSessions (w.sessions.set place t) ∧
      t.frames = s.frames ++ [frame] ∧ t.unsent = s.unsent ∧
      (Response.roomList w.roomEntries).encode = .ok frame ∧
      (∃ f, (∀ later, Frame.split (frame ++ later) = .ok (some f)) ∧
        Response.decode f.header.code f.body = .ok (.roomList lines)) ∧
      w.lobby.Lists lines := by
  have hfits : (Response.roomList w.roomEntries).Fits :=
    Response.fits_roomList w.length_roomEntries
  have htold := Session.told_tell hopen hfits
  obtain ⟨frame, f, hencode, hcode, hbody, -, hsplit⟩ :=
    Frame.split_encode (Response.roomList w.roomEntries).packet hfits
  obtain hframe := Except.ok.inj (htold.encoded.symm.trans hencode)
  refine ⟨_, _, w.lobby.lines, listRooms_of_found hfind, htold.frames, htold.unsent, htold.encoded,
    ⟨f, ?_, ?_⟩, h.lists⟩
  · rwa [hframe]
  · rw [hcode, hbody, Response.decode_body _ hfits, Response.normal, roomEntries_eq]

/-- **The room list always fits, and says what there is.**  In any run let an open session that is
    registered ask for the list.  It is sent one frame, and nothing else happens; whatever follows
    the frame, it is read back as the lines of the first rooms.  They say how many players there are,
    or 2147483647 if there are more; so if all rooms are listed they count every player exactly if
    no room has more, as is the case where the settings do not allow it. -/
theorem room_list_is_exact (hstart : w.Pristine) (events : List Event) (id : SessionId)
    (place : Place) (s : Session) :
    let v := after next w events
    v.find? id = some (place, s) → s.closed = false →
      ∃ t frame lines,
        v.execute (.request id .listRooms) = v.withSessions (v.sessions.set place t) ∧
        t.frames = s.frames ++ [frame] ∧ t.unsent = s.unsent ∧
        (Response.roomList v.roomEntries).encode = .ok frame ∧
        (∃ f, (∀ later, Frame.split (frame ++ later) = .ok (some f)) ∧
          Response.decode f.header.code f.body = .ok (.roomList lines)) ∧
        v.lobby.Lists lines ∧
        (w.lobby.settings.maxPlayers.toNat ≤ 2147483647 → v.lobby.Countable) := by
  intro v hfind hopen
  have h : v.lobby.Consistent := ((hstart.tracked ⟨0⟩).after events).inUse.consistent
  obtain ⟨t, frame, lines, hsent, hframes, hunsent, hencode, hread, hlists⟩ :=
    told_roomList h hfind hopen
  refine ⟨t, frame, lines, hsent, hframes, hunsent, hencode, hread, hlists, fun hspace => ?_⟩
  intro room r hr
  have hcapped : v.lobby.Capped w.lobby.settings := capped_after hstart.capped events
  exact (hcapped.size_le room r hr).trans (Nat.max_le.mpr ⟨by decide, hspace⟩)

/-- Ann makes a room, with a title that is one octet too long for a line, and Bob goes into another,
    whose number is below zero.  Cid is told of both, each with one player. -/
theorem room_list_is_exact_title_too_long :
    let database := ((({} : Database).seed 1 "ann" "a").seed 2 "bob" "b").seed 3 "cid" "c"
    let w : World := { gateway := { database } }
    let does (id : UInt32) (r : Request) : Event := .execute (.request ⟨id⟩ r)
    let events : List Event :=
      [.connect 64, .connect 64, .connect 64, does 1 (.login "ann" "a"), does 2 (.login "bob" "b"),
        does 3 (.login "cid" "c"), does 1 (.createRoom "a fine place for a round of caf\u00e9"),
        does 2 (.enterRoom ⟨-3⟩), .tell 1]
    let v := after next w events
    w.Pristine ∧ ∃ (s t : Session) (frame : Bytes) (lines : List RoomEntry),
      v.find? ⟨3⟩ = some (2, s) ∧ t.frames = s.frames ++ [frame] ∧
      (∃ f, Frame.split frame = .ok (some f) ∧
        Response.decode f.header.code f.body = .ok (.roomList lines)) ∧
      v.lobby.Lists lines ∧ lines.length = 2 ∧ (lines.map (·.users.toInt)).sum = 2 := by
  intro database w does events v
  have hstart : w.Pristine := pristine_start {} {} database true
  have hcid : (v.find? ⟨3⟩).map (fun f => (f.1, f.2.closed)) = some (2, false) := by
    decide +kernel
  have hrooms : v.lobby.roomCount = 2 ∧ v.lobby.playerCount = 2 := by decide +kernel
  obtain ⟨hcount, hplayers⟩ := hrooms
  obtain ⟨⟨place, s⟩, hfind, hown⟩ := Option.map_eq_some_iff.mp hcid
  obtain ⟨rfl, hopen⟩ := Prod.mk.inj hown
  have hlisted := room_list_is_exact hstart events ⟨3⟩ 2 s
  have hv : after next w events = v := rfl
  rw [hv] at hlisted
  -- nothing below looks into the run any more
  clear_value v
  obtain ⟨t, frame, lines, -, hframes, -, -, ⟨f, hsplit, hdecode⟩, hlists, hspace⟩ :=
    hlisted hfind hopen
  have hwhole := hsplit []
  rw [List.append_nil] at hwhole
  have htotal := (hlists.total (hcount ▸ by decide)).mpr (hspace (by decide))
  refine ⟨hstart, s, t, frame, lines, hfind, hframes, ⟨f, hwhole, hdecode⟩, hlists, ?_, ?_⟩
  · rw [hlists.length, hcount]
    rfl
  · rw [htotal, hplayers]
    rfl

/-! ### More players than a line can say -/

/-- Where one room has all players there is one line. -/
theorem Gathered.roomCount {settings : RoomSettings} {room : RoomId} {most n : Nat}
    (h : w.Gathered settings room most n []) (hn : n < UInt32.size) (hpositive : 0 < n) :
    w.lobby.roomCount = 1 := by
  have hperm : w.lobby.rooms.keys.Perm [room] := by
    refine (List.perm_ext_iff_of_nodup Std.ExtTreeMap.nodup_keys (List.nodup_singleton room)).mpr ?_
    intro other
    rw [Std.ExtTreeMap.mem_keys, h.mem_rooms_iff hn hpositive, List.mem_singleton]
  have hlength := hperm.length_eq
  rwa [Std.ExtTreeMap.length_keys] at hlength

/-- **A crowd is counted short.**  If the settings allow it, more players than a line can say are let
    into a room, and whoever of them asks for the list is told of fewer. -/
theorem crowd_is_counted_short {settings : RoomSettings} {n : Nat} (room : RoomId)
    (hspace : n ≤ settings.maxPlayers.toNat) (hn : n < UInt32.size) (hmany : 2147483647 < n) :
    let v := after next (venue settings n) (gathering room n)
    Along next Enabled (venue settings n) (gathering room n) ∧
      v.sessions.length = n ∧ v.lobby.roomCount = 1 ∧
      ∀ (place : Place) (s : Session), v.sessions[place]? = some s →
        v.find? s.id = some (place, s) ∧ s.closed = false ∧
        ∃ t frame f e r,
          v.execute (.request s.id .listRooms) = v.withSessions (v.sessions.set place t) ∧
          t.frames = s.frames ++ [frame] ∧ Frame.split frame = .ok (some f) ∧
          Response.decode f.header.code f.body = .ok (.roomList [e]) ∧
          v.lobby.rooms[e.room]? = some r ∧ r.size = n ∧ e.users.toInt = 2147483647 ∧
          e.users.toInt ≠ v.lobby.playerCount := by
  intro v
  have h : v.Gathered settings room n n [] := gathered_after room le_rfl hspace
  have hcount : v.lobby.roomCount = 1 := h.roomCount hn (by omega)
  obtain ⟨hlength, -, hsize⟩ := room_fills room hspace hn
  have hrun : Along next Enabled (venue settings n) (gathering room n) :=
    along_gathering room le_rfl hspace hn
  have henrolled : v.Enrolled :=
    kept_enrolled.after (pristine_venue settings n).enrolled _ hrun
  refine ⟨hrun, hlength, hcount, fun place s hs => ?_⟩
  have hopen : s.closed = false := (h.bound hn (List.mem_of_getElem? hs)).1
  have hfind : v.find? s.id = some (place, s) :=
    find?_eq_some.mpr ⟨henrolled.present (badges_eq_some.mpr ⟨s, hs, rfl⟩) hopen, hs⟩
  obtain ⟨t, frame, lines, hsent, hframes, -, -, ⟨f, hsplit, hdecode⟩, hlists⟩ :=
    told_roomList h.inUse.consistent hfind hopen
  obtain ⟨e, rfl⟩ : ∃ e, lines = [e] := by
    apply List.length_eq_one_iff.mp
    rw [hlists.length, hcount]
    rfl
  obtain ⟨r, hr, hline⟩ := hlists.described e (List.mem_singleton_self e)
  have hroom : e.room = room := by
    rw [← h.mem_rooms_iff hn (by omega), Std.ExtTreeMap.mem_iff_isSome_getElem?, hr]
    rfl
  subst hroom
  have hcrowd : r.size = n := hsize r hr
  refine ⟨hfind, hopen, t, frame, f, e, r, hsent, hframes, ?_, hdecode, hr, hcrowd, ?_, ?_⟩
  · have hwhole := hsplit []
    rwa [List.append_nil] at hwhole
  · rw [hline.users, hcrowd, Nat.min_eq_right (Nat.le_of_lt hmany)]
    rfl
  · intro hall
    have htotal := hlists.total (hcount ▸ by decide)
    rw [List.map_singleton, List.sum_singleton] at htotal
    have hsize := htotal.mp hall e.room r hr
    omega

/-- One player more than a line can say are in a room, all of them registered and open.  The one line
    that each of them is told of leaves one out. -/
theorem room_list_of_crowd_is_short :
    let w := venue { maxPlayers := 2147483648 } 2147483648
    let v := after next w (gathering ⟨1⟩ 2147483648)
    w.Pristine ∧ Along next Enabled w (gathering ⟨1⟩ 2147483648) ∧
      v.sessions.length = 2147483648 ∧ v.lobby.roomCount = 1 ∧
      ∀ (place : Place) (s : Session), v.sessions[place]? = some s →
        v.find? s.id = some (place, s) ∧ s.closed = false ∧
        ∃ t frame f e r,
          v.execute (.request s.id .listRooms) = v.withSessions (v.sessions.set place t) ∧
          t.frames = s.frames ++ [frame] ∧ Frame.split frame = .ok (some f) ∧
          Response.decode f.header.code f.body = .ok (.roomList [e]) ∧
          v.lobby.rooms[e.room]? = some r ∧ r.size = 2147483648 ∧ e.users.toInt = 2147483647 ∧
          e.users.toInt ≠ v.lobby.playerCount :=
  ⟨pristine_venue _ _, crowd_is_counted_short ⟨1⟩ (by decide) (by decide) (by decide)⟩

end World

end GameServer
