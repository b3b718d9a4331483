import GameServer.Room.Basic

/-!
The lobby: all sessions, all rooms, and who is where.

A session is in at most one room.  Four things say which: the index, the room's players,
the room's members, and the session itself.  Every operation here keeps them in step:
whoever comes in has first left the room they were in, and a room that is left empty is
gone.

`Lobby` is `RoomManager` of `skirmish-room` with its `Registry`, and with the sessions that
it refers to.  There `leave` is `remove_player`, `freshId` is `next_free_id`, `openRoom` is
`create_room_for`, `join` is `join_room`, `steer?` is `set_velocity`, `advance` is
`update_all`, `views` is `snapshots`, `tellAll` is `broadcast_snapshots` and `listing` is
`list_rooms`; `Arrival` is `Joined`, `RoomLine` is `RoomSummary` and `RoomView` is
`RoomSnapshot`.  `announce` is `announce_departure` of `skirmish`.
-/

namespace GameServer

open Wire

structure Departure where
  room : RoomId
  session : SessionId
  /-- The places of those who stay. -/
  remaining : List Place
  /-- Nobody stayed, and the room is gone. -/
  removed : Bool
deriving DecidableEq, Repr

structure Arrival where
  room : RoomId
  /-- The room was made for them. -/
  created : Bool
  /-- The room they left for it. -/
  left : Option Departure
deriving DecidableEq, Repr

structure RoomLine where
  room : RoomId
  title : String
  users : Nat
deriving DecidableEq, Repr

/-- A room as it stands at one tick. -/
structure RoomView where
  room : RoomId
  tick : UInt32
  entries : List SnapshotEntry
  members : List Place
deriving DecidableEq, Repr

def RoomView.response (s : RoomView) : Response := .snapshot s.tick s.entries

structure Lobby where
  settings : RoomSettings := {}
  sessions : List Session := []
  rooms : Std.ExtTreeMap RoomId Room := ∅
  /-- The room each player is in. -/
  index : Std.ExtTreeMap SessionId RoomId := ∅
  /-- The number to try first for a room that asks for none. -/
  nextId : Int32 := 1

namespace Lobby

/-! ### Questions -/

def roomOf (l : Lobby) (id : SessionId) : Option RoomId := l.index[id]?

/-- The places of a room's members; none if there is no such room. -/
def members (l : Lobby) (room : RoomId) : List Place :=
  match l.rooms[room]? with
  | none => []
  | some r => r.places

def player? (l : Lobby) (id : SessionId) : Option Player := do
  let room ← l.index[id]?
  let r ← l.rooms[room]?
  r.players[id]?

/-- Every room, by ascending number. -/
def listing (l : Lobby) : List RoomLine :=
  l.rooms.values.map fun r => ⟨r.id, r.title, r.size⟩

def roomCount (l : Lobby) : Nat := l.rooms.size

def playerCount (l : Lobby) : Nat := l.index.size

/-! ### Leaving -/

/-- Records on the session at a place which room it is in. -/
def bind (l : Lobby) (place : Place) (room : Option RoomId) : Lobby :=
  { l with sessions := l.sessions.modify place (·.setRoom room) }

/-- Takes a session out of the room it is in. -/
def leave (l : Lobby) (id : SessionId) : Lobby × Option Departure :=
  match l.index[id]? with
  | none => (l, none)
  | some room =>
    let l := { l with index := l.index.erase id }
    match l.rooms[room]? with
    | none => (l, none)
    | some r =>
      let rest := r.erase id
      let l :=
        match r.members[id]? with
        | none => l
        | some place => l.bind place none
      let rooms := if rest.isEmpty then l.rooms.erase room else l.rooms.insert room rest
      ({ l with rooms }, some ⟨room, id, rest.places, rest.isEmpty⟩)

/-! ### Making rooms -/

/-- The first number that no room has, looking from `n` upwards and around, in so many
    tries. -/
def firstFree (rooms : Std.ExtTreeMap RoomId Room) : Nat → Int32 → Int32
  | 0, n => n
  | tries + 1, n => if rooms.contains ⟨n⟩ then firstFree rooms tries (n + 1) else n

/-- A number that no room has; the search for the next one begins behind it.  With as
    many tries as there are rooms, the search passes over all of them.  Where every number
    is taken the program would search forever, and the number given here is taken too. -/
def freshId (l : Lobby) : RoomId × Lobby :=
  let n := firstFree l.rooms l.rooms.size l.nextId
  (⟨n⟩, { l with nextId := n + 1 })

/-- Makes an empty room. -/
def createRoom (l : Lobby) (title : String) : RoomId × Lobby :=
  let (id, l) := l.freshId
  (id, { l with rooms := l.rooms.insert id { id, title } })

/-! ### Coming in -/

/-- Puts the session `s` at a place into a room that is given as it stands. -/
def settle (l : Lobby) (place : Place) (s : Session) (r : Room) : Lobby :=
  { l with rooms := l.rooms.insert r.id (r.add place s), index := l.index.insert s.id r.id }.bind
    place (some r.id)

/-- Makes a room for the session `s` at a place and moves it there.  The room never
    stands empty. -/
def openRoom (l : Lobby) (place : Place) (s : Session) (title : String) :
    Except RoomFault (Arrival × Lobby) :=
  if s.closed then .error (.sessionClosed s.id)
  else
    let (l, left) := l.leave s.id
    let (id, l) := l.freshId
    .ok (⟨id, true, left⟩, l.settle place s { id, title })

/-- Whether a room exists and has no space. -/
def isFull (l : Lobby) (room : RoomId) : Bool :=
  match l.rooms[room]? with
  | none => false
  | some r => l.settings.maxPlayers.toNat ≤ r.size

/-- Moves the session `s` at a place into a room, made for it if there is none.  Whoever
    is there already stays as they are, and whoever is refused stays where they are. -/
def join (l : Lobby) (place : Place) (s : Session) (room : RoomId) :
    Except RoomFault (Arrival × Lobby) :=
  if s.closed then .error (.sessionClosed s.id)
  else if l.index[s.id]? = some room then .ok (⟨room, false, none⟩, l)
  else if l.isFull room then .error (.roomFull room)
  else
    let (l, left) := l.leave s.id
    match l.rooms[room]? with
    | some r => .ok (⟨room, false, left⟩, l.settle place s r)
    | none =>
      let title := l.settings.defaultTitle ++ " " ++ room.digits
      .ok (⟨room, true, left⟩, l.settle place s { id := room, title })

/-! ### Moving -/

/-- Sends a player elsewhere; nothing when the session is in no room. -/
def steer? (l : Lobby) (id : SessionId) (vx vy : Single) : Option Lobby :=
  match l.index[id]? with
  | none => none
  | some room =>
    match l.rooms[room]? with
    | none => none
    | some r =>
      if r.players.contains id then
        some { l with rooms := l.rooms.insert room (r.steer id vx vy) }
      else none

def advance (l : Lobby) (dt : Single) : Lobby :=
  { l with rooms := l.rooms.map fun _ r => r.advance dt }

/-! ### Telling everybody -/

def views (l : Lobby) (tick : UInt32) : List RoomView :=
  l.rooms.values.map fun r => ⟨r.id, tick, r.entries, r.places⟩

/-- Sends a response to the open sessions at some places.  Counts them. -/
def broadcast (l : Lobby) (places : List Place) (r : Response) : Lobby × Nat :=
  let (sessions, count) := Sessions.broadcast r places l.sessions
  ({ l with sessions }, count)

def tellEach : List RoomView → Lobby → Lobby × Nat
  | [], l => (l, 0)
  | s :: rest, l =>
    let (l, count) := l.broadcast s.members s.response
    let (l, more) := tellEach rest l
    (l, count + more)

/-- Tells every room's members how it stands.  Counts the frames. -/
def tellAll (l : Lobby) (tick : UInt32) : Lobby × Nat :=
  tellEach (l.views tick) l

/-- Tells those who stay that somebody left. -/
def announce (l : Lobby) (d : Departure) : Lobby :=
  (l.broadcast d.remaining (.playerLeft d.session)).1

end Lobby

end GameServer
