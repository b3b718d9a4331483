import GameServer.Wire.Response

/-!
A player: somebody's body in a room.

A player appears at the origin, standing still, and is moved by the room alone, one
fixed step at a time.

`Player` is `PlayerState` of `skirmish-room`, and `entry` is its `snapshot`.
-/

namespace GameServer

open Wire

structure Player where
  session : SessionId
  /-- The display name when the player came in. -/
  name : String
  room : RoomId
  x : Single := .zero
  y : Single := .zero
  vx : Single := .zero
  vy : Single := .zero
deriving DecidableEq, Repr

namespace Player

def integrate (dt : Single) (p : Player) : Player :=
  { p with x := p.x + p.vx * dt, y := p.y + p.vy * dt }

def steer (vx vy : Single) (p : Player) : Player := { p with vx, vy }

def entry (p : Player) : SnapshotEntry := ⟨p.session, p.x, p.y⟩

end Player

end GameServer
