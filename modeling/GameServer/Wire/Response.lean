import GameServer.Wire.Reader
import GameServer.Wire.Frame

/-!
Responses: what the server tells a client.

Two kinds carry a list behind a count.  The count comes from the wire, so before a
list is read the body is measured once more, against the length the count calls for.

`Response` is that of `skirmish-protocol`, named as `Request` is; `RoomEntry` is its
`RoomListEntry`.
-/

namespace GameServer.Wire

structure SnapshotEntry where
  session : SessionId
  x : Single
  y : Single
deriving DecidableEq, Repr

structure RoomEntry where
  room : RoomId
  users : Int32
  title : String
deriving DecidableEq, Repr

inductive Response where
  | registerResult (success : Bool)
  | loginResult (success : Bool) (user : UInt32)
  | enterRoomResult (success : Bool) (room : RoomId)
  | playerLeft (session : SessionId)
  | chat (sender : UInt32) (text : String)
  | snapshot (tick : UInt32) (entries : List SnapshotEntry)
  | roomList (rooms : List RoomEntry)
  | createRoomResult (success : Bool) (room : RoomId)
deriving DecidableEq, Repr

/-! ### Entries -/

def SnapshotEntry.bytes (e : SnapshotEntry) : Bytes :=
  Write.session e.session ++ Write.single e.x ++ Write.single e.y

def SnapshotEntry.read : Reader SnapshotEntry := do
  return ⟨← Reader.session, ← Reader.single, ← Reader.single⟩

def RoomEntry.bytes (e : RoomEntry) : Bytes :=
  Write.room e.room ++ Write.int e.users ++ Write.field titleWidth e.title

def RoomEntry.read : Reader RoomEntry := do
  return ⟨← Reader.room, ← Reader.int, ← Reader.field titleWidth⟩

namespace Response

/-! ### Writing -/

def packet : Response → Packet
  | registerResult .. => .registerResult
  | loginResult .. => .loginResult
  | enterRoomResult .. => .enterRoom
  | playerLeft .. => .leaveRoom
  | chat .. => .chat
  | snapshot .. => .snapshot
  | roomList .. => .roomListResult
  | createRoomResult .. => .createRoomResult

def body : Response → Bytes
  | registerResult success => Write.flag success
  | loginResult success user => Write.flag success ++ Write.word user
  | enterRoomResult success room | createRoomResult success room =>
    Write.flag success ++ Write.room room
  | playerLeft session => Write.session session
  | chat sender text => Write.word sender ++ Write.tail chatLimit text
  | snapshot tick entries =>
    Write.word tick ++ Write.word (UInt32.ofNat entries.length)
      ++ entries.flatMap SnapshotEntry.bytes
  | roomList rooms => Write.int (Int32.ofNat rooms.length) ++ rooms.flatMap RoomEntry.bytes

def encode (r : Response) : Except WireFault Bytes := Frame.encode r.packet r.body

/-! ### Reading -/

/-- How many entries a signed count calls for: none when it is negative. -/
def entryCount (n : Int32) : Nat := n.toInt.toNat

/-- The bytes of the list that a body of the given kind announces. -/
def listLength (packet : Packet) (body : Bytes) : Nat :=
  match packet with
  | .snapshot =>
    match Reader.word (body.drop 4) with
    | some (count, _) => snapshotEntrySize * count.toNat
    | none => 0
  | .roomListResult =>
    match Reader.int body with
    | some (count, _) => roomEntrySize * entryCount count
    | none => 0
  | _ => 0

def read : Packet → Reader Response
  | .registerResult => do return registerResult (← Reader.flag)
  | .loginResult => do return loginResult (← Reader.flag) (← Reader.word)
  | .enterRoom => do return enterRoomResult (← Reader.flag) (← Reader.room)
  | .createRoomResult => do return createRoomResult (← Reader.flag) (← Reader.room)
  | .leaveRoom => do return playerLeft (← Reader.session)
  | .chat => do return chat (← Reader.word) (← Reader.tail chatLimit)
  | .snapshot => do
    let tick ← Reader.word
    let count ← Reader.word
    return snapshot tick (← SnapshotEntry.read.times count.toNat)
  | .roomListResult => do
    let count ← Reader.int
    return roomList (← RoomEntry.read.times (entryCount count))
  | .registerRequest | .loginRequest | .move | .roomListRequest | .createRoomRequest
  | .logoutRequest => failure

def decode (code : UInt16) (body : Bytes) : Except WireFault Response :=
  match Packet.ofCode? code with
  | none => .error (.unknownPacket code)
  | some packet =>
    match packet.minResponseBody with
    | none => .error (.unknownPacket code)
    | some fixed =>
      let expected := fixed + listLength packet body
      if body.length < fixed then .error (.bodyTooShort packet fixed body.length)
      else if body.length < expected then
        .error (.bodyTooShort packet expected body.length)
      else
        match read packet body with
        | some (response, _) => .ok response
        | none => .error (.bodyTooShort packet expected body.length)

end Response

end GameServer.Wire
