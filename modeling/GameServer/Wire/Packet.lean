import GameServer.Wire.Word

/-!
The kinds of packet, their numbers on the wire, and the ways bytes can be wrong.

One number may serve both directions: a client's `enterRoom` asks, the server's
answers.  The kinds that only the server sends have no request layout at all.

`Packet` is `PacketId` of `skirmish-protocol`: `code` is its `as_u16`, `ofCode?` its
`from_u16`.  `WireFault` is `ProtocolError`.  The limits are `HEADER_SIZE`,
`MAX_FRAME_SIZE`, `USERNAME_LEN`, `PASSWORD_LEN`, `TITLE_LEN`, `CHAT_LEN` and
`MAX_ROOM_LIST_ENTRIES`.
-/

namespace GameServer.Wire

/-! ### Limits -/

def headerSize : Nat := 4

/-- The longest frame the 16-bit size field can declare. -/
def maxFrame : Nat := 65535

def usernameWidth : Nat := 50

def passwordWidth : Nat := 50

def titleWidth : Nat := 32

/-- Longest chat text, in bytes. -/
def chatLimit : Nat := 256

/-- Bytes of one snapshot entry: a session id and two coordinates. -/
def snapshotEntrySize : Nat := 12

/-- Bytes of one room list entry: room id, user count, title. -/
def roomEntrySize : Nat := 8 + titleWidth

/-- The most entries a room list can hold and still fit one frame. -/
def maxRoomEntries : Nat := (maxFrame - headerSize - 4) / roomEntrySize

/-! ### Kinds of packet -/

inductive Packet where
  | registerRequest
  | registerResult
  | loginRequest
  | loginResult
  | enterRoom
  | leaveRoom
  | chat
  | move
  | snapshot
  | roomListRequest
  | roomListResult
  | createRoomRequest
  | createRoomResult
  | logoutRequest
deriving DecidableEq, Repr

namespace Packet

def code : Packet → UInt16
  | registerRequest => 1
  | registerResult => 2
  | loginRequest => 3
  | loginResult => 4
  | enterRoom => 5
  | leaveRoom => 6
  | chat => 7
  | move => 8
  | snapshot => 9
  | roomListRequest => 10
  | roomListResult => 11
  | createRoomRequest => 12
  | createRoomResult => 13
  | logoutRequest => 14

def ofCode? (n : UInt16) : Option Packet :=
  match n.toNat with
  | 1 => some registerRequest
  | 2 => some registerResult
  | 3 => some loginRequest
  | 4 => some loginResult
  | 5 => some enterRoom
  | 6 => some leaveRoom
  | 7 => some chat
  | 8 => some move
  | 9 => some snapshot
  | 10 => some roomListRequest
  | 11 => some roomListResult
  | 12 => some createRoomRequest
  | 13 => some createRoomResult
  | 14 => some logoutRequest
  | _ => none

def name : Packet → String
  | registerRequest => "RegisterReq"
  | registerResult => "RegisterRes"
  | loginRequest => "LoginReq"
  | loginResult => "LoginRes"
  | enterRoom => "EnterRoom"
  | leaveRoom => "LeaveRoom"
  | chat => "Chat"
  | move => "Move"
  | snapshot => "Snapshot"
  | roomListRequest => "RoomListReq"
  | roomListResult => "RoomListRes"
  | createRoomRequest => "CreateRoomReq"
  | createRoomResult => "CreateRoomRes"
  | logoutRequest => "LogoutReq"

/-- The least body a client may send under a kind; nothing for the kinds that only
    the server sends. -/
def minRequestBody : Packet → Option Nat
  | registerRequest | loginRequest => some (usernameWidth + passwordWidth)
  | enterRoom => some 4
  | move => some 8
  | createRoomRequest => some titleWidth
  | leaveRoom | chat | roomListRequest | logoutRequest => some 0
  | registerResult | loginResult | snapshot | roomListResult | createRoomResult => none

/-- The least body the server may send under a kind, before any list in it is counted;
    nothing for the kinds that only a client sends. -/
def minResponseBody : Packet → Option Nat
  | registerResult => some 1
  | loginResult | enterRoom | createRoomResult => some 5
  | leaveRoom | chat | roomListResult => some 4
  | snapshot => some 8
  | registerRequest | loginRequest | move | roomListRequest | createRoomRequest
  | logoutRequest => none

theorem ofCode?_code (p : Packet) : ofCode? p.code = some p := by
  cases p <;> rfl

theorem code_of_ofCode? {n : UInt16} {p : Packet} (h : ofCode? n = some p) : p.code = n := by
  rw [ofCode?] at h
  split at h <;> cases h <;> exact UInt16.toNat_inj.mp (Eq.symm ‹n.toNat = _›)

theorem code_inj {p q : Packet} : p.code = q.code ↔ p = q := by
  constructor
  · intro h
    have hsame := congrArg ofCode? h
    rw [ofCode?_code, ofCode?_code] at hsame
    exact Option.some.inj hsame
  · exact congrArg code

end Packet

/-! ### Faults -/

/-- A way in which bytes fail to be a packet, or a packet fails to be bytes. -/
inductive WireFault where
  /-- No packet of that number is expected here. -/
  | unknownPacket (code : UInt16)
  /-- The body is shorter than the layout of its kind. -/
  | bodyTooShort (packet : Packet) (expected actual : Nat)
  /-- The header declares a frame shorter than a header. -/
  | invalidSize (size : Nat)
  /-- The frame would not fit the 16-bit size field. -/
  | frameTooLarge (size : Nat)
deriving DecidableEq, Repr

def WireFault.message : WireFault → String
  | .unknownPacket code => "unknown packet id " ++ toString code.toNat
  | .bodyTooShort packet expected actual =>
    packet.name ++ " body too short: expected at least " ++ toString expected
      ++ " bytes, got " ++ toString actual
  | .invalidSize size => "invalid frame size " ++ toString size
  | .frameTooLarge size =>
    "frame of " ++ toString size ++ " bytes exceeds the 65535-byte limit"

end GameServer.Wire
