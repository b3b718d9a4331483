import GameServer.Wire.Reader
import GameServer.Wire.Frame

/-!
Requests: what a client asks for.

A body may be longer than its layout; what is left over is ignored.  A chat text has
no width of its own and ends with the body.

`Request` is that of `skirmish-protocol`: `packet` is its `packet_id`, `body` its
`encode_body`, `encode` its `encode_frame`.
-/

namespace GameServer.Wire

inductive Request where
  | register (username password : String)
  | login (username password : String)
  | enterRoom (room : RoomId)
  | leaveRoom
  | move (vx vy : Single)
  | chat (message : String)
  | createRoom (title : String)
  | listRooms
  | logout
deriving DecidableEq, Repr

namespace Request

def packet : Request → Packet
  | register .. => .registerRequest
  | login .. => .loginRequest
  | enterRoom .. => .enterRoom
  | leaveRoom => .leaveRoom
  | move .. => .move
  | chat .. => .chat
  | createRoom .. => .createRoomRequest
  | listRooms => .roomListRequest
  | logout => .logoutRequest

def body : Request → Bytes
  | register username password | login username password =>
    Write.field usernameWidth username ++ Write.field passwordWidth password
  | enterRoom room => Write.room room
  | move vx vy => Write.single vx ++ Write.single vy
  | chat message => Write.tail chatLimit message
  | createRoom title => Write.field titleWidth title
  | leaveRoom | listRooms | logout => []

def encode (r : Request) : Except WireFault Bytes := Frame.encode r.packet r.body

def read : Packet → Reader Request
  | .registerRequest => do
    return register (← Reader.field usernameWidth) (← Reader.field passwordWidth)
  | .loginRequest => do
    return login (← Reader.field usernameWidth) (← Reader.field passwordWidth)
  | .enterRoom => do return enterRoom (← Reader.room)
  | .leaveRoom => return leaveRoom
  | .move => do return move (← Reader.single) (← Reader.single)
  | .chat => do return chat (← Reader.tail chatLimit)
  | .createRoomRequest => do return createRoom (← Reader.field titleWidth)
  | .roomListRequest => return listRooms
  | .logoutRequest => return logout
  | .registerResult | .loginResult | .snapshot | .roomListResult | .createRoomResult =>
    failure

/-- The request a body holds under a packet number.  The length is checked against the
    layout before anything is read, so reading never runs out. -/
def decode (code : UInt16) (body : Bytes) : Except WireFault Request :=
  match Packet.ofCode? code with
  | none => .error (.unknownPacket code)
  | some packet =>
    match packet.minRequestBody with
    | none => .error (.unknownPacket code)
    | some expected =>
      if body.length < expected then .error (.bodyTooShort packet expected body.length)
      else
        match read packet body with
        | some (request, _) => .ok request
        | none => .error (.bodyTooShort packet expected body.length)

end Request

end GameServer.Wire
