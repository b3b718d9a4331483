import GameServer.Wire.Packet

/-!
What can go wrong on one connection.

Every one of these makes the connection unusable; none of them concerns anybody else.

`SessionFault` is `SessionError` of `skirmish-session`, which has `MalformedPacket` too.
-/

namespace GameServer

open Wire

/-- A whole packet whose body is not what its number promises. -/
structure MalformedPacket where
  code : UInt16
  /-- The size of the whole packet. -/
  size : Nat
  cause : WireFault
deriving DecidableEq, Repr

def MalformedPacket.message (m : MalformedPacket) : String :=
  "malformed packet id " ++ toString m.code.toNat ++ " (" ++ toString m.size ++ " bytes): "
    ++ m.cause.message

inductive SessionFault where
  /-- More bytes arrived than the buffer has room for. -/
  | bufferOverflow (needed free : Nat)
  /-- The next packet declares a size that no packet can have here. -/
  | framing (declared : Nat)
  /-- A packet does not decode. -/
  | malformed (packet : MalformedPacket)
  /-- An outgoing packet does not fit a frame. -/
  | protocol (cause : WireFault)
  /-- Nobody takes commands any more. -/
  | queueClosed
deriving DecidableEq, Repr

def SessionFault.message : SessionFault → String
  | bufferOverflow needed free =>
    "receive buffer overflow: " ++ toString needed ++ " bytes arrived with " ++ toString free
      ++ " free"
  | framing declared => "framing error: packet declares " ++ toString declared ++ " bytes"
  | malformed packet => packet.message
  | protocol cause => "cannot frame outbound packet: " ++ cause.message
  | queueClosed => "command queue closed"

end GameServer
