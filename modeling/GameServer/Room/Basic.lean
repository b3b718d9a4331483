import GameServer.Room.Player
import GameServer.Session.Directory

/-!
One room, its limits, and what can be refused.

A room keeps two tables under the same session numbers: the players it moves, and the
places of the sessions it speaks to.

The settings are `RoomConfig` of `skirmish-room`, the refusals its `RoomError`, and `Room`
has the name it has there: `size` is its `len`, `erase` its `remove`, `advance` its
`update`, `entries` its `snapshot_entries`, and `steer` what `set_velocity` does to a room.
-/

namespace GameServer

open Wire

/-! ### Settings -/

structure RoomSettings where
  /-- A room that exists admits nobody while it has this many players. -/
  maxPlayers : UInt64 := 64
  /-- The title of a room that nobody named. -/
  defaultTitle : String := "Room"
deriving DecidableEq, Repr

/-! ### Refusals -/

inductive RoomFault where
  | roomFull (room : RoomId)
  | sessionClosed (session : SessionId)
deriving DecidableEq, Repr

def RoomFault.message : RoomFault → String
  | roomFull room => "room " ++ room.label ++ " is full"
  | sessionClosed session => "session " ++ session.label ++ " is closed"

/-! ### A room -/

structure Room where
  id : RoomId
  title : String
  players : Std.ExtTreeMap SessionId Player := ∅
  members : Std.ExtTreeMap SessionId Place := ∅

namespace Room

def size (r : Room) : Nat := r.players.size

def isEmpty (r : Room) : Bool := r.players.isEmpty

/-- Lets the session at a place in, as a player at the origin. -/
def add (r : Room) (place : Place) (s : Session) : Room :=
  { r with
    players := r.players.insert s.id { session := s.id, name := s.name, room := r.id }
    members := r.members.insert s.id place }

def erase (r : Room) (id : SessionId) : Room :=
  { r with players := r.players.erase id, members := r.members.erase id }

/-- The places of the members, by ascending session number. -/
def places (r : Room) : List Place := r.members.values

def steer (r : Room) (id : SessionId) (vx vy : Single) : Room :=
  { r with players := r.players.modify id (Player.steer vx vy) }

def advance (dt : Single) (r : Room) : Room :=
  { r with players := r.players.map fun _ p => p.integrate dt }

/-- Where everybody stands, by ascending session number. -/
def entries (r : Room) : List SnapshotEntry := r.players.values.map Player.entry

end Room

end GameServer
