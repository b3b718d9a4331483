import GameServer.Session.Buffer
import GameServer.Session.Link
import GameServer.Wire.Response

/-!
A session: one connected client.

Inbound, it reassembles packets and queues commands.  Outbound, frames wait in order
and at most one is being sent: a frame is begun when it finds nothing in flight, and
every completed send begins the next one.  A session knows who is logged in on it and
which room it is in.  It closes once; from then on it takes no bytes and sends no frames.

`Session` is that of `skirmish-session`: `receive` is its `on_received`, `enqueue` its
`enqueue_outbound`, `beginNext` its `deliver_next`, `sendCompleted` its `on_send_completed`
and `login` its `bind_login`.  A user name is there exactly if the session is logged in, so
one field says both.
-/

namespace GameServer

open Wire

/-- What a connection is called before anybody logs in. -/
def guestName : String := "Guest"

structure Session where
  id : SessionId
  buffer : ReceiveBuffer
  /-- Frames waiting behind the one being sent. -/
  outbox : List Bytes := []
  /-- Whether a send is under way. -/
  sending : Bool := false
  /-- Who is logged in. -/
  user : Option String := none
  room : Option RoomId := none
  closed : Bool := false
  link : Link := {}
deriving DecidableEq, Repr

namespace Session

def new (id : SessionId) (capacity : Nat) : Session :=
  { id, buffer := .empty capacity }

def name (s : Session) : String := s.user.getD guestName

def loggedIn (s : Session) : Bool := s.user.isSome

/-- A short description for a log. -/
def describe (s : Session) : String :=
  "Session \x7b id: SessionId(" ++ toString s.id.val.toNat ++ "), closed: "
    ++ (if s.closed then "true" else "false") ++ ", .. \x7d"

/-! ### Inbound -/

/-- Asks for the first bytes. -/
def start (s : Session) : Session := { s with link := s.link.arm s.buffer.free }

/-- Takes received bytes: appends them, queues every whole packet, makes room and asks
    for more.  A fault leaves the commands queued before it in the queue and asks for
    nothing. -/
def receive (tolerant : Bool) (bytes : Bytes) (s : Session) (q : CommandQueue) :
    Session × CommandQueue × Except SessionFault Nat :=
  if s.closed then (s, q, .ok 0)
  else
    match s.buffer.append bytes with
    | .error fault => (s, q, .error fault)
    | .ok filled =>
      match filled.drain tolerant s.id q with
      | (rest, q, .error fault) => ({ s with buffer := rest }, q, .error fault)
      | (rest, q, .ok count) =>
        match rest.fault? with
        | some declared => ({ s with buffer := rest }, q, .error (.framing declared))
        | none =>
          let ready := rest.compactIfLow
          ({ s with buffer := ready, link := s.link.arm ready.free }, q, .ok count)

/-! ### Outbound -/

/-- Begins the next waiting frame, if there is one and the session is open. -/
def beginNext (s : Session) : Session :=
  if s.closed then { s with outbox := [], sending := false }
  else
    match s.outbox with
    | [] => { s with sending := false }
    | frame :: rest => { s with outbox := rest, link := s.link.send frame }

/-- Frames a body and lets it wait its turn.  A closed session drops it. -/
def enqueue (s : Session) (packet : Packet) (body : Bytes) : Except SessionFault Session :=
  if s.closed then .ok s
  else
    match Frame.encode packet body with
    | .error cause => .error (.protocol cause)
    | .ok frame =>
      let waiting := { s with outbox := s.outbox ++ [frame] }
      .ok (if s.sending then waiting else { waiting with sending := true }.beginNext)

def send (s : Session) (r : Response) : Except SessionFault Session := s.enqueue r.packet r.body

def sendCompleted (s : Session) : Session := s.beginNext

/-- The connection finishes the send in flight, if there is one, and the session is told
    that a send is done.  Tells whether one was in flight. -/
def completeSend (s : Session) : Bool × Session :=
  match s.link.complete? with
  | none => (false, s.sendCompleted)
  | some link => (true, { s with link }.sendCompleted)

def completeSendsFor : Nat → Session → Session
  | 0, s => s
  | n + 1, s => if s.link.inFlight = 0 then s else completeSendsFor n s.completeSend.2

/-- Finishes sends until none is in flight.  There is one for every frame that waits and
    one for every send under way. -/
def completeSends (s : Session) : Session :=
  completeSendsFor (s.link.inFlight + s.outbox.length) s

/-! ### Identity -/

def login (s : Session) (username : String) : Session := { s with user := some username }

/-- Whoever is logged in is no longer; their name is given back. -/
def logout (s : Session) : Session × Option String := ({ s with user := none }, s.user)

def setRoom (s : Session) (room : Option RoomId) : Session := { s with room }

/-! ### Teardown -/

/-- Closes the session, once.  Whoever is logged in leaves a `hangUp` behind.  Tells
    whether this call was the one that closed it. -/
def disconnect (s : Session) (q : CommandQueue) : Session × CommandQueue × Bool :=
  if s.closed then (s, q, false)
  else
    let (s, username) := { s with closed := true, link := s.link.close, outbox := [] }.logout
    match username with
    | none => (s, q, true)
    | some username => (s, q.offer (.hangUp s.id username), true)

end Session

end GameServer
