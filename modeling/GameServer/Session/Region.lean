import GameServer.Session.Buffer

/-!
The receive buffer as it lies in memory.

A region of bytes that is laid out once, and two cursors into it:

    0          read                write          capacity
    |  consumed  |  unread bytes     |  free space   |

Whatever is consumed or left behind when the unread bytes are moved stays where it is until it is
written over.  `ReceiveBuffer` is what can be told of a region from outside.

This is `RecvBuffer` of `skirmish-session`, octet by octet: `read` and `write` are its
`read_pos` and `write_pos`, `window` is its `unread_bytes`, and the rest is named as for
`ReceiveBuffer`.
-/

namespace GameServer

open Wire

/-- A region of bytes, and where it is read and written. -/
structure Region where
  data : Bytes
  /-- Where the unread bytes begin. -/
  read : Nat
  /-- Where the unread bytes end and the next will be written. -/
  write : Nat
deriving DecidableEq, Repr

namespace Region

/-- A region of zeros with nothing in it. -/
def fresh (capacity : Nat) : Region := ⟨List.replicate capacity 0, 0, 0⟩

/-! ### What is in it -/

def capacity (r : Region) : Nat := r.data.length

def unread (r : Region) : Nat := r.write - r.read

def free (r : Region) : Nat := r.capacity - r.write

/-- The bytes received and not yet consumed. -/
def window (r : Region) : Bytes := (r.data.take r.write).drop r.read

def peek? (r : Region) : Option Header := Header.decode? r.window

/-- The next packet, if all of it has arrived and its size is possible. -/
def next? (r : Region) : Option Frame :=
  match Frame.split r.window with
  | .ok frame => frame
  | .error _ => none

def hasPacket (r : Region) : Bool := r.next?.isSome

/-- The declared size of a next packet that can never be completed. -/
def fault? (r : Region) : Option Nat :=
  match r.peek? with
  | none => none
  | some header =>
    if header.total < headerSize ∨ r.capacity < header.total then some header.total else none

/-! ### Changing it -/

/-- The region with some bytes written over what was there. -/
def overwrite (data : Bytes) (position : Nat) (bytes : Bytes) : Bytes :=
  data.take position ++ bytes ++ data.drop (position + bytes.length)

/-- Copies bytes in behind the unread ones and moves the write cursor over them. -/
def extend (r : Region) (bytes : Bytes) : Region :=
  { r with data := overwrite r.data r.write bytes, write := r.write + bytes.length }

/-- Appends received bytes, all of them or none. -/
def append (r : Region) (bytes : Bytes) : Region × Except SessionFault Unit :=
  if r.free < bytes.length then (r, .error (.bufferOverflow bytes.length r.free))
  else (r.extend bytes, .ok ())

def consume (r : Region) (count : Nat) : Region := { r with read := r.read + count }

/-- Takes the next packet as a command of a session.  At a packet that does not decode the cursor
    stays where it is. -/
def extract (r : Region) (session : SessionId) :
    Region × Except MalformedPacket (Option Command) :=
  match r.next? with
  | none => (r, .ok none)
  | some frame =>
    match Request.decode frame.header.code frame.body with
    | .error cause => (r, .error ⟨frame.header.code, frame.size, cause⟩)
    | .ok request => (r.consume frame.size, .ok (some (.request session request)))

/-- Steps over the next packet without decoding it, and tells whether there was one. -/
def skip (r : Region) : Region × Bool :=
  match r.next? with
  | none => (r, false)
  | some frame => (r.consume frame.size, true)

/-- Moves the unread bytes to the start. -/
def compact (r : Region) : Region where
  data := if 0 < r.read then overwrite r.data 0 r.window else r.data
  read := 0
  write := r.unread

/-- Compacts when room at the end has run low, and tells whether it did. -/
def compactIfLow (r : Region) : Region × Bool :=
  if ReceiveBuffer.lowWater ≤ r.free then (r, false) else (r.compact, true)

end Region

end GameServer
