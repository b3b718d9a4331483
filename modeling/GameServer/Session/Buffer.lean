import GameServer.Session.Command
import GameServer.Session.Fault

/-!
The receive buffer: from a stream of bytes to whole packets.

A transport hands over whatever has arrived: half a header, or three packets and the
start of a fourth.  The buffer is a region of fixed capacity.  Bytes are appended
behind what is there, packets are taken off the front, and when room at the end gets
short the bytes still unread are moved to the start.  The region never grows, so a
peer cannot make the server hold more than its capacity.

`ReceiveBuffer` is `RecvBuffer` of `skirmish-session`, without the octets that are of no use
any more: `peek?` is its `peek_header`, `hasPacket` its `has_complete_packet`, `fault?` its
`pending_fault`, `extract` its `extract_next_command`, `skip?` its `skip_packet`.  `drain`
is the loop of `on_received`, and a login is tolerated as `is_login` says.
-/

namespace GameServer

open Wire

/-- Bytes received and not yet all consumed.  The region begins with the bytes that have
    been consumed, and those still unread come behind them. -/
structure ReceiveBuffer where
  /-- The most bytes the region holds. -/
  capacity : Nat
  /-- How many bytes have been consumed since the unread ones were last moved. -/
  read : Nat
  /-- The bytes received but not consumed. -/
  unread : Bytes
deriving DecidableEq, Repr

namespace ReceiveBuffer

def defaultCapacity : Nat := 8192

/-- With less room than this at the end, the unread bytes are moved to the start. -/
def lowWater : Nat := 1024

def empty (capacity : Nat) : ReceiveBuffer := ⟨capacity, 0, []⟩

/-! ### What is in it -/

/-- Where the next byte will be written. -/
def write (b : ReceiveBuffer) : Nat := b.read + b.unread.length

def free (b : ReceiveBuffer) : Nat := b.capacity - b.write

def peek? (b : ReceiveBuffer) : Option Header := Header.decode? b.unread

/-- The next packet, if all of it has arrived and its size is possible. -/
def next? (b : ReceiveBuffer) : Option Frame :=
  match Frame.split b.unread with
  | .ok frame => frame
  | .error _ => none

def hasPacket (b : ReceiveBuffer) : Bool := b.next?.isSome

/-- The declared size of a next packet that can never be completed: shorter than a
    header, or longer than the region. -/
def fault? (b : ReceiveBuffer) : Option Nat :=
  match b.peek? with
  | none => none
  | some header =>
    if header.total < headerSize ∨ b.capacity < header.total then some header.total else none

/-! ### Changing it -/

/-- Appends received bytes, all of them or none. -/
def append (b : ReceiveBuffer) (bytes : Bytes) : Except SessionFault ReceiveBuffer :=
  if b.free < bytes.length then .error (.bufferOverflow bytes.length b.free)
  else .ok { b with unread := b.unread ++ bytes }

/-- Counts bytes at the front of the unread ones as consumed. -/
def consume (b : ReceiveBuffer) (count : Nat) : ReceiveBuffer :=
  { b with read := b.read + count, unread := b.unread.drop count }

/-- Takes the next packet as a command of a session.  A packet that does not decode
    stays where it is. -/
def extract (b : ReceiveBuffer) (session : SessionId) :
    Except MalformedPacket (Option (Command × ReceiveBuffer)) :=
  match b.next? with
  | none => .ok none
  | some frame =>
    match Request.decode frame.header.code frame.body with
    | .error cause => .error ⟨frame.header.code, frame.size, cause⟩
    | .ok request => .ok (some (.request session request, b.consume frame.size))

/-- Steps over the next packet without decoding it. -/
def skip? (b : ReceiveBuffer) : Option ReceiveBuffer :=
  b.next?.map fun frame => b.consume frame.size

/-- Moves the unread bytes to the start of the region. -/
def compact (b : ReceiveBuffer) : ReceiveBuffer := { b with read := 0 }

def isLow (b : ReceiveBuffer) : Bool := b.free < lowWater

def compactIfLow (b : ReceiveBuffer) : ReceiveBuffer := if b.isLow then b.compact else b

/-! ### Emptying it -/

/-- A malformed login is stepped over where that is allowed; nothing else is. -/
def tolerates (tolerant : Bool) (m : MalformedPacket) : Bool :=
  tolerant && m.code == Packet.loginRequest.code

/-- Moves whole packets towards a command queue until none is left or one is faulty: what
    remains, the commands, and the fault.  With nobody to take them (`live` is false) the
    first command is lost, and the fault says so.  A packet has at least a header, so no more
    rounds are needed than there are unread bytes. -/
def drainFor (tolerant live : Bool) (session : SessionId) :
    Nat → ReceiveBuffer → ReceiveBuffer × List Command × Option SessionFault
  | 0, b => (b, [], none)
  | rounds + 1, b =>
    match b.extract session with
    | .ok none => (b, [], none)
    | .ok (some (command, rest)) =>
      if live then
        let (last, commands, fault) := drainFor tolerant live session rounds rest
        (last, command :: commands, fault)
      else (rest, [], some .queueClosed)
    | .error fault =>
      if tolerates tolerant fault then
        drainFor tolerant live session rounds (b.skip?.getD b)
      else (b, [], some (.malformed fault))

/-- Moves every whole packet onto a command queue and counts the commands.  A fault leaves
    the commands before it in the queue. -/
def drain (tolerant : Bool) (session : SessionId) (b : ReceiveBuffer) (q : CommandQueue) :
    ReceiveBuffer × CommandQueue × Except SessionFault Nat :=
  let (rest, commands, fault) := drainFor tolerant q.live session b.unread.length b
  (rest, q.offerAll commands,
    match fault with
    | none => .ok commands.length
    | some fault => .error fault)

end ReceiveBuffer

end GameServer
