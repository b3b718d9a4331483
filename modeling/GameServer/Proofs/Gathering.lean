import GameServer.Proofs.Capacity
import GameServer.Proofs.Memory

/-!
Filling a room.

A room takes as many players as the settings allow, and it can come to that.  Clients who connect
one after the other, log in under names of their own and ask for the same room are all let in, until
it is full.
-/

namespace GameServer

open Wire

/-! ### Visitors -/

/-- The clients that come to a room, counted from none. -/
structure Visitor where
  rank : Nat

namespace Visitor

/-- The number that the client gets if nobody has connected before but the visitors of lower rank. -/
def id (v : Visitor) : SessionId := ⟨UInt32.ofNat (v.rank + 1)⟩

def username (v : Visitor) : String := toString v.rank

def password : String := "open sesame"

/-- A visitor who has been let in. -/
def badge (v : Visitor) : Badge := ⟨v.id, some v.username, false⟩

def login (v : Visitor) : Command := .request v.id (.login v.username password)

def enter (room : RoomId) (v : Visitor) : Command := .request v.id (.enterRoom room)

/-- What a visitor does: connect, log in and ask for a room, and each time it is done at once. -/
def visit (room : RoomId) (v : Visitor) : List World.Event :=
  [.connect 64, .ask v.login, .execute v.login, .ask (v.enter room), .execute (v.enter room)]

theorem visit_eq (room : RoomId) (v : Visitor) :
    v.visit room = [.connect 64] ++
      ([.ask v.login, .execute v.login] ++ [.ask (v.enter room), .execute (v.enter room)]) := rfl

theorem id_inj {v v' : Visitor} (hv : v.rank + 1 < UInt32.size) (hv' : v'.rank + 1 < UInt32.size)
    (h : v.id = v'.id) : v.rank = v'.rank := by
  have hval := congrArg (fun id => id.val.toNat) h
  simp only [id, UInt32.toNat_ofNat'] at hval
  rw [Nat.mod_eq_of_lt hv, Nat.mod_eq_of_lt hv'] at hval
  omega

theorem username_inj {v v' : Visitor} (h : v.username = v'.username) : v.rank = v'.rank :=
  Nat.repr_inj.mp h

end Visitor

/-- A database with the accounts of so many visitors. -/
def Database.ofVisitors : Nat → Database
  | 0 => {}
  | n + 1 =>
    (ofVisitors n).seed (UInt32.ofNat (n + 1)) (Visitor.mk n).username Visitor.password

theorem Database.query_ofVisitors {n k : Nat} (h : k < n) :
    (ofVisitors n).query (.selectUser (Visitor.mk k).username Visitor.password) =
      .ok [⟨UInt32.ofNat (k + 1), (Visitor.mk k).username, Visitor.password⟩] := by
  have hears : (ofVisitors n).deaf = false := by
    clear h
    induction n with
    | zero => rfl
    | succ n ih => exact ih
  have haccount : (ofVisitors n).users[(Visitor.mk k).username]? =
      some ⟨UInt32.ofNat (k + 1), (Visitor.mk k).username, Visitor.password⟩ := by
    clear hears
    induction n with
    | zero => cases h
    | succ n ih =>
      rw [ofVisitors, seed, lookup_insert]
      by_cases hlast : k = n
      · rw [hlast, if_pos rfl]
      · rw [if_neg fun hname => hlast (Visitor.username_inj hname)]
        exact ih (by omega)
  simp [query, hears, haccount]

namespace World

/-! ### What is granted -/

section Granted

variable {w : World} {id : SessionId} {place : Place} {s : Session}

/-- A command that is put into the empty queue waits no longer when it is executed. -/
theorem after_ask_execute (hqueue : w.queue = {}) (c : Command) :
    after next w [.ask c, .execute c] = w.execute c := by
  have hdequeued : (w.next (.ask c)).dequeue c = w := by
    cases w
    cases hqueue
    simp [next, dequeue, CommandQueue.offer, CommandQueue.push]
  exact congrArg (·.execute c) hdequeued

/-- It is the oldest then. -/
theorem along_ask_execute (hqueue : w.queue = {}) (id : SessionId) (r : Request) :
    Along next Enabled w [.ask (.request id r), .execute (.request id r)] := by
  refine ⟨trivial, ?_, trivial⟩
  change (w.next (.ask (.request id r))).queue.pending.head? = some (.request id r)
  simp [next, hqueue, CommandQueue.offer, CommandQueue.push]

/-- Whoever is not logged in yet, is known to the database and is not online is logged in. -/
theorem login_granted {username password : String} {user : UInt32}
    (hfind : w.find? id = some (place, s)) (hopen : s.closed = false) (hnobody : s.user = none)
    (hknown : w.gateway.authenticate username password = some user)
    (hup : w.gateway.cache.down = false) (hoffline : ¬ w.gateway.IsOnline username) :
    ∃ gateway, gateway.database = w.gateway.database ∧ gateway.cache.down = false ∧
      (∀ other, gateway.IsOnline other ↔ other = username ∨ w.gateway.IsOnline other) ∧
      Quiet ({ w with gateway }.modify place (·.login username))
        (w.login id username password) ∧
      (w.login id username password).gateway = gateway := by
  have hnew : ∃ gateway, w.gateway.addPresence username = (true, gateway) ∧
      gateway.database = w.gateway.database := by
    rw [Gateway.addPresence, Cache.add, Cache.whenUp, if_neg (by simp [hup])]
    refine ⟨_, Prod.ext ?_ rfl, rfl⟩
    simpa [Gateway.IsOnline, ← Std.ExtTreeSet.contains_iff_mem] using hoffline
  obtain ⟨gateway, hadd, hdatabase⟩ := hnew
  obtain ⟨-, hstill, -, hmarked⟩ := Gateway.isOnline_addPresence hadd
  have hlogin : w.login id username password =
      ({ w with gateway }.modify place (·.login username)).send place (.loginResult true user) := by
    simp [login, hfind, Session.loggedIn, hnobody, hknown, hadd, hopen]
  rw [hlogin]
  exact ⟨gateway, hdatabase, hstill, hmarked, quiet_send .., rfl⟩

/-- Whoever is let into a room is in it. -/
theorem enterRoom_granted {room : RoomId} {a : Arrival} {lobby : Lobby}
    (hentry : w.entry? id room = some (place, s, a, lobby)) :
    Quiet (w.withLobby lobby) (w.enterRoom id room) := by
  obtain ⟨hfind, hsomebody, hjoin⟩ := entry?_eq_some.mp hentry
  simp only [enterRoom, hfind, hsomebody, hjoin, if_true]
  exact ((quiet_announce ..).trans (quiet_send ..)).trans (quiet_retell ..)

end Granted

/-! ### One visitor after the other -/

/-- So many visitors are in a room.  Besides them, some clients are connected, who are not in it
    yet. -/
structure Gathered (settings : RoomSettings) (room : RoomId) (most n : Nat) (late : List Badge)
    (w : World) : Prop where
  inUse : w.lobby.InUse
  numbered : w.Numbered
  capped : w.lobby.Capped settings
  badges : w.badges = (List.range n).map (fun k => (Visitor.mk k).badge) ++ late
  indexed : ∀ k < n, w.lobby.index[(Visitor.mk k).id]? = some room
  found : ∀ b ∈ late, w.directory.find? b.id = some n
  nextId : w.directory.nextId = UInt32.ofNat (n + late.length + 1)
  queue : w.queue = {}
  database : w.gateway.database = .ofVisitors most
  up : w.gateway.cache.down = false
  online : ∀ name, w.gateway.IsOnline name → ∃ b ∈ w.badges, b.user = some name

section Steps

variable {settings : RoomSettings} {room : RoomId} {most : Nat} {v : Visitor} {w : World}

/-- So many sessions there are. -/
theorem Gathered.length_sessions {n : Nat} {late : List Badge}
    (h : w.Gathered settings room most n late) : w.sessions.length = n + late.length := by
  rw [← List.length_map Session.badge]
  change w.badges.length = _
  simp [h.badges]

theorem Gathered.connect (h : w.Gathered settings room most v.rank []) (capacity : Nat) :
    (w.connect capacity).2.Gathered settings room most v.rank [⟨v.id, none, false⟩] where
  inUse := (kept_inUse fun _ _ => True).connect capacity trivial h.inUse
  numbered := h.numbered.connect capacity
  capped := h.capped.of_floor rfl
  badges := by
    rw [badges_connect, h.badges, h.nextId, List.append_nil]
    rfl
  indexed := h.indexed
  found b hb := by
    change (w.directory.insert ⟨w.directory.nextId⟩ w.sessions.length).find? b.id = some v.rank
    rw [List.mem_singleton.mp hb, Directory.find?_insert, h.length_sessions, h.nextId]
    exact if_pos rfl
  nextId := by
    change w.directory.nextId + 1 = _
    rw [h.nextId, ← UInt32.ofNat_one, ← UInt32.ofNat_add]
    rfl
  queue := h.queue
  database := h.database
  up := h.up
  online name hname := by
    obtain ⟨b, hb, huser⟩ := h.online name hname
    rw [badges_connect]
    exact ⟨b, List.mem_append_left _ hb, huser⟩

/-- The client that is not in the room yet. -/
theorem Gathered.last {n : Nat} {b : Badge} (h : w.Gathered settings room most n [b]) :
    ∃ s, w.find? b.id = some (n, s) ∧ s.badge = b := by
  have hlast : w.badges[n]? = some b := by simp [h.badges]
  obtain ⟨s, hs, hbadge⟩ := badges_eq_some.mp hlast
  exact ⟨s, find?_eq_some.mpr ⟨h.found b (List.mem_singleton_self b), hs⟩, hbadge⟩

/-- No name is online but those of the visitors who are in the room. -/
theorem Gathered.visitor_of_online (h : w.Gathered settings room most v.rank [⟨v.id, none, false⟩])
    {name : String} (hname : w.gateway.IsOnline name) :
    ∃ k < v.rank, (Visitor.mk k).username = name := by
  obtain ⟨b, hb, huser⟩ := h.online name hname
  rw [h.badges] at hb
  rcases List.mem_append.mp hb with hb | hb
  · obtain ⟨k, hk, rfl⟩ := List.mem_map.mp hb
    exact ⟨k, List.mem_range.mp hk, Option.some.inj huser⟩
  · rw [List.mem_singleton.mp hb] at huser
    cases huser

theorem Gathered.login (h : w.Gathered settings room most v.rank [⟨v.id, none, false⟩])
    (hv : v.rank < most) :
    (w.login v.id v.username Visitor.password).Gathered settings room most v.rank [v.badge] := by
  obtain ⟨s, hfind, hbadge⟩ := h.last
  have hknown : w.gateway.authenticate v.username Visitor.password =
      some (UInt32.ofNat (v.rank + 1)) := by
    rw [Gateway.authenticate, h.database, Database.query_ofVisitors hv]
    rfl
  have hoffline : ¬ w.gateway.IsOnline v.username := by
    intro hname
    obtain ⟨k, hk, hsame⟩ := h.visitor_of_online hname
    exact absurd (Visitor.username_inj hsame) (Nat.ne_of_lt hk)
  obtain ⟨gateway, hdatabase, hup, honline, hquiet, hgateway⟩ :=
    login_granted hfind (congrArg Badge.closed hbadge) (congrArg Badge.user hbadge) hknown h.up
      hoffline
  have hfloor := w.floor_login v.id v.username Visitor.password
  have hbadges : (w.login v.id v.username Visitor.password).badges =
      (List.range v.rank).map (fun k => (Visitor.mk k).badge) ++ [v.badge] := by
    rw [hquiet.badges, badges_login]
    change w.badges.modify v.rank _ = _
    rw [h.badges, List.modify_eq_take_cons_drop (by simp)]
    simp [Visitor.badge]
  refine {
    inUse := inUse_effect h.inUse (w.login_effect v.id v.username Visitor.password)
    numbered := h.numbered.execute (.request v.id (.login v.username Visitor.password))
    capped := h.capped.of_floor hfloor
    badges := hbadges
    indexed := fun k hk => ?_
    found := fun b hb => ?_
    nextId := (congrArg Directory.nextId hquiet.directory).trans h.nextId
    queue := hquiet.queue.trans h.queue
    database := by rw [hgateway, hdatabase, h.database]
    up := by rw [hgateway, hup]
    online := fun name hname => ?_ }
  · rw [Lobby.eq_of_floor_eq (·.index) (fun _ => rfl) hfloor]
    exact h.indexed k hk
  · rw [hquiet.directory, List.mem_singleton.mp hb]
    exact h.found ⟨v.id, none, false⟩ (List.mem_singleton_self _)
  · rw [hgateway, honline] at hname
    rw [hbadges]
    rcases hname with rfl | hname
    · exact ⟨v.badge, by simp, rfl⟩
    · obtain ⟨k, hk, rfl⟩ := h.visitor_of_online hname
      refine ⟨(Visitor.mk k).badge, List.mem_append_left _ ?_, rfl⟩
      exact List.mem_map_of_mem (List.mem_range.mpr hk)

/-- As long as there is space, whoever asks for the room is let in. -/
theorem Gathered.entry (h : w.Gathered settings room most v.rank [v.badge])
    (hspace : v.rank < settings.maxPlayers.toNat) :
    ∃ s a lobby, w.entry? v.id room = some (v.rank, s, a, lobby) := by
  have hconsistent := h.inUse.consistent
  obtain ⟨s, hfind, hbadge⟩ := h.last
  obtain ⟨-, hs⟩ := find?_eq_some.mp hfind
  have hopen : s.closed = false := congrArg Badge.closed hbadge
  have hsomebody : s.loggedIn = true := by
    have huser : s.user = some v.username := congrArg Badge.user hbadge
    rw [Session.loggedIn, huser]
    rfl
  cases hjoin : w.lobby.join v.rank s room with
  | ok entered => exact ⟨s, entered.1, entered.2, entry?_eq_some.mpr ⟨hfind, hsomebody, hjoin⟩⟩
  | error fault =>
    rcases hconsistent.join_refused_iff.mp hjoin with ⟨hclosed, -⟩ | ⟨-, -, r, hr, hout, hfull⟩
    · rw [hopen] at hclosed
      cases hclosed
    · -- one session is not in the room, so that the others cannot fill it
      have hsize : r.size < w.sessions.length := by
        rw [hconsistent.size_eq_countP hr]
        refine Nat.lt_of_le_of_ne List.countP_le_length fun hall => hout ?_
        have hroom := List.countP_eq_length.mp hall s (List.mem_of_getElem? hs)
        have hseat := (hconsistent.room_iff hs room).mp (of_decide_eq_true hroom)
        exact (hconsistent.mem_players_iff hr).mpr
          ((hconsistent.index_iff s.id room).mpr ⟨v.rank, hseat⟩)
      have hlength := h.length_sessions
      rw [h.capped.settings_eq] at hfull
      rw [List.length_singleton] at hlength
      omega

theorem Gathered.enterRoom (h : w.Gathered settings room most v.rank [v.badge])
    (hspace : v.rank < settings.maxPlayers.toNat) :
    (w.enterRoom v.id room).Gathered settings room most (v.rank + 1) [] := by
  obtain ⟨s, a, lobby, hentry⟩ := h.entry hspace
  have hquiet := enterRoom_granted hentry
  have hgateway := w.gateway_enterRoom v.id room
  have hbadges : (w.enterRoom v.id room).badges = w.badges :=
    hquiet.badges.trans (Lobby.map_badge_join (entry?_eq_some.mp hentry).2.2)
  have hinUse : (w.enterRoom v.id room).lobby.InUse :=
    inUse_effect h.inUse (w.enterRoom_effect v.id room)
  have hcomes : ∃ p, w.playerLeft (.request v.id (.enterRoom room)) = some p ∧ p.room = room := by
    dsimp only [playerLeft]
    rw [hentry]
    dsimp only
    split
    · next hthere => exact h.inUse.consistent.index_iff_player?.mp hthere
    · exact ⟨_, rfl, rfl⟩
  refine {
    inUse := hinUse
    numbered := h.numbered.execute (.request v.id (.enterRoom room))
    capped := capped_execute h.capped (.request v.id (.enterRoom room))
    badges := ?_
    indexed := fun k hk => ?_
    found := nofun
    nextId := (congrArg Directory.nextId hquiet.directory).trans h.nextId
    queue := hquiet.queue.trans h.queue
    database := by rw [hgateway, h.database]
    up := by rw [hgateway, h.up]
    online := fun name hname => ?_ }
  · rw [hbadges, h.badges, List.range_succ, List.map_append, List.append_nil]
    rfl
  · rw [hinUse.consistent.index_iff_player?, player?_enterRoom h.inUse h.numbered]
    split
    · exact hcomes
    · next hother =>
      rw [← h.inUse.consistent.index_iff_player?]
      apply h.indexed k
      have hne : k ≠ v.rank := fun heq => hother (by rw [heq])
      omega
  · rw [hgateway] at hname
    rw [hbadges]
    exact h.online name hname

/-- **One visitor more.** -/
theorem Gathered.visit (h : w.Gathered settings room most v.rank []) (hv : v.rank < most)
    (hspace : v.rank < settings.maxPlayers.toNat) :
    (after next w (v.visit room)).Gathered settings room most (v.rank + 1) [] := by
  have hconnected := h.connect 64
  have hknown := hconnected.login hv
  rw [Visitor.visit_eq, after_append, after_append]
  change (after next (after next (w.connect 64).2 [.ask v.login, .execute v.login]) _).Gathered
    settings room most _ _
  rw [after_ask_execute hconnected.queue v.login]
  change (after next ((w.connect 64).2.login v.id v.username Visitor.password) _).Gathered
    settings room most _ _
  rw [after_ask_execute hknown.queue (v.enter room)]
  exact hknown.enterRoom hspace

/-- The number that the next visitor gets is nobody's. -/
theorem Gathered.fresh (h : w.Gathered settings room most v.rank [])
    (hv : v.rank + 1 < UInt32.size) : ∀ s ∈ w.sessions, s.id ≠ ⟨w.directory.nextId⟩ := by
  intro s hs hid
  have hb : s.badge ∈ w.badges := List.mem_map_of_mem hs
  rw [h.badges, List.append_nil] at hb
  obtain ⟨k, hk, hbadge⟩ := List.mem_map.mp hb
  have hearlier : k < v.rank := List.mem_range.mp hk
  have hsame : (Visitor.mk k).id = v.id := by
    rw [h.nextId] at hid
    exact (congrArg Badge.id hbadge).trans hid
  have hk' : k + 1 < UInt32.size := by omega
  exact Nat.ne_of_lt hearlier (Visitor.id_inj (by exact hk') hv hsame)

/-- A visit is made of events that a live server sees to. -/
theorem Gathered.along_visit (h : w.Gathered settings room most v.rank []) (hv : v.rank < most)
    (hsize : v.rank + 1 < UInt32.size) : Along next Enabled w (v.visit room) := by
  have hconnected := h.connect 64
  have hknown := hconnected.login hv
  rw [Visitor.visit_eq, along_append, along_append]
  refine ⟨⟨h.fresh hsize, trivial⟩, along_ask_execute hconnected.queue .., ?_⟩
  change Along next Enabled
    (after next (w.connect 64).2 [.ask v.login, .execute v.login]) _
  rw [after_ask_execute hconnected.queue v.login]
  exact along_ask_execute hknown.queue ..

end Steps

/-! ### The room is full -/

/-- A server that so many visitors have accounts on. -/
def venue (settings : RoomSettings) (most : Nat) : World :=
  { lobby := { settings }, gateway := { database := .ofVisitors most } }

/-- So many visitors come into a room. -/
def gathering (room : RoomId) (n : Nat) : List Event :=
  (List.range n).flatMap fun k => (Visitor.mk k).visit room

theorem gathering_succ (room : RoomId) (n : Nat) :
    gathering room (n + 1) = gathering room n ++ (Visitor.mk n).visit room := by
  simp [gathering, List.range_succ]

theorem pristine_venue (settings : RoomSettings) (most : Nat) : (venue settings most).Pristine :=
  pristine_start settings {} (.ofVisitors most) true

section Full

variable {settings : RoomSettings} {most n : Nat}

/-- **As many as there is space for come in**, one after the other. -/
theorem gathered_after (room : RoomId) (hn : n ≤ most) (hspace : n ≤ settings.maxPlayers.toNat) :
    (after next (venue settings most) (gathering room n)).Gathered settings room most n [] := by
  induction n with
  | zero =>
    have hstart := pristine_venue settings most
    exact {
      inUse := hstart.housed.inUse
      numbered := hstart.numbered
      capped := hstart.capped
      badges := rfl
      indexed := fun k hk => absurd hk (Nat.not_lt_zero k)
      found := nofun
      nextId := rfl
      queue := rfl
      database := rfl
      up := rfl
      online := fun name hname => absurd hname (hstart.offline name) }
  | succ n ih =>
    rw [gathering_succ, after_append]
    have hbefore := ih (by omega) (by omega)
    exact Gathered.visit (v := ⟨n⟩) hbefore (by exact hn) (by exact hspace)

/-- A live server can see all of them come. -/
theorem along_gathering (room : RoomId) (hn : n ≤ most) (hspace : n ≤ settings.maxPlayers.toNat)
    (hsize : n < UInt32.size) :
    Along next Enabled (venue settings most) (gathering room n) := by
  induction n with
  | zero => trivial
  | succ n ih =>
    rw [gathering_succ, along_append]
    refine ⟨ih (by omega) (by omega) (by omega), ?_⟩
    have hspace' : n ≤ settings.maxPlayers.toNat := by omega
    let v := after next (venue settings most) (gathering room n)
    have hbefore : v.Gathered settings room most n [] := gathered_after room (by omega) hspace'
    exact Gathered.along_visit (v := ⟨n⟩) hbefore (by exact hn) (by exact hsize)

/-- Everybody who has come is in the room. -/
theorem Gathered.bound {w : World} {room : RoomId} (h : w.Gathered settings room most n [])
    (hn : n < UInt32.size) {s : Session} (hs : s ∈ w.sessions) :
    s.closed = false ∧ s.room = some room := by
  have hconsistent := h.inUse.consistent
  have hbadges : w.badges = (List.range n).map fun k => (Visitor.mk k).badge := by
    rw [h.badges, List.append_nil]
  have hvisitor : ∀ {place : Place} {t : Session}, w.sessions[place]? = some t →
      place < n ∧ t.badge = (Visitor.mk place).badge := by
    intro place t ht
    have hb := badges_eq_some.mpr ⟨t, ht, rfl⟩
    rw [hbadges, List.getElem?_map, Option.map_eq_some_iff] at hb
    obtain ⟨k, hk, hbadge⟩ := hb
    obtain ⟨hlt, rfl⟩ := List.getElem?_eq_some_iff.mp hk
    rw [List.length_range] at hlt
    rw [List.getElem_range] at hbadge
    exact ⟨hlt, hbadge.symm⟩
  obtain ⟨place, hs⟩ := List.mem_iff_getElem?.mp hs
  obtain ⟨hplace, hbadge⟩ := hvisitor hs
  refine ⟨congrArg Badge.closed hbadge, ?_⟩
  obtain ⟨other, hseat⟩ := (hconsistent.index_iff _ _).mp (h.indexed place hplace)
  obtain ⟨t, ht, hid⟩ := hconsistent.seated hseat
  -- no two visitors have one number, so that the room lists this very session
  obtain ⟨hother, hbadge'⟩ := hvisitor ht
  have hsame : other = place := by
    have hids : (Visitor.mk other).id = (Visitor.mk place).id :=
      (congrArg Badge.id hbadge').symm.trans hid
    exact Visitor.id_inj (by exact Nat.lt_of_le_of_lt hother hn)
      (by exact Nat.lt_of_le_of_lt hplace hn) hids
  subst hsame
  rw [hconsistent.room_iff hs]
  exact (show s.id = (Visitor.mk other).id from congrArg Badge.id hbadge) ▸ hseat

/-- There is no other room. -/
theorem Gathered.mem_rooms_iff {w : World} {room : RoomId} (h : w.Gathered settings room most n [])
    (hn : n < UInt32.size) (hpositive : 0 < n) (other : RoomId) :
    other ∈ w.lobby.rooms ↔ other = room := by
  have hconsistent := h.inUse.consistent
  rw [Std.ExtTreeMap.mem_iff_isSome_getElem?, Option.isSome_iff_exists]
  constructor
  · rintro ⟨r, hr⟩
    obtain ⟨id, hid⟩ := h.inUse.exists_player hr
    have hindex := (hconsistent.mem_players_iff hr).mp hid
    obtain ⟨place, hseat⟩ := (hconsistent.index_iff _ _).mp hindex
    obtain ⟨s, hs, rfl⟩ := hconsistent.seated hseat
    have hroom := (hconsistent.room_iff hs other).mpr hseat
    exact Option.some.inj (hroom.symm.trans (h.bound hn (List.mem_of_getElem? hs)).2)
  · rintro rfl
    have hlength : 0 < w.sessions.length := by
      rw [h.length_sessions]
      exact hpositive
    obtain ⟨s, hs⟩ : ∃ s, w.sessions[0]? = some s := ⟨_, List.getElem?_eq_getElem hlength⟩
    obtain ⟨r, hr, -⟩ :=
      (hconsistent.room_iff hs other).mp (h.bound hn (List.mem_of_getElem? hs)).2
    exact ⟨r, hr⟩

/-- **A room can be filled.**  As many clients as a room takes players can be in it at once. -/
theorem room_fills (room : RoomId) (hspace : n ≤ settings.maxPlayers.toNat)
    (hn : n < UInt32.size) :
    let v := after next (venue settings n) (gathering room n)
    v.sessions.length = n ∧ (∀ s ∈ v.sessions, s.closed = false ∧ s.room = some room) ∧
      ∀ r, v.lobby.rooms[room]? = some r → r.size = n := by
  intro v
  have h : v.Gathered settings room n n [] := gathered_after room le_rfl hspace
  have hlength : v.sessions.length = n := h.length_sessions
  refine ⟨hlength, fun s hs => h.bound hn hs, fun r hr => ?_⟩
  rw [h.inUse.consistent.size_eq_countP hr, ← hlength]
  exact List.countP_eq_length.mpr fun s hs => decide_eq_true (h.bound hn hs).2

end Full

end World

end GameServer
