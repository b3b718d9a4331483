import GameServer.Room.Lobby
import GameServer.Store.Gateway
import GameServer.World.Completion

/-!
The world: everything the server holds, and how a connection comes, speaks and goes.

Completions act on one session at a time.  They never touch rooms or stores: what a
packet asks for only queues up as a command, and a connection that dies only leaves its
`hangUp`.

`World` is `GameContext` of `skirmish` and what it refers to.  `connect` is `open_session`
of the `Acceptor`, `dispatch` that of the reactor, `drop` its `close`, and `dropAll` is
`disconnect_all` of `skirmish-session`.
-/

namespace GameServer

open Wire

structure World where
  lobby : Lobby := {}
  directory : Directory := {}
  queue : CommandQueue := {}
  gateway : Gateway := {}
  tolerant : Bool := true

namespace World

/-! ### Finding sessions -/

/-- All sessions ever made, in order. -/
def sessions (w : World) : List Session := w.lobby.sessions

/-- The registered session with a number, and its place. -/
def find? (w : World) (id : SessionId) : Option (Place × Session) := do
  let place ← w.directory.find? id
  let s ← w.sessions[place]?
  return (place, s)

def withSessions (w : World) (sessions : List Session) : World :=
  { w with lobby := { w.lobby with sessions } }

def modify (w : World) (place : Place) (f : Session → Session) : World :=
  w.withSessions (w.sessions.modify place f)

def send (w : World) (place : Place) (r : Response) : World :=
  w.withSessions (Sessions.send place r w.sessions)

/-- Sends a response to the registered session with a number, if there is one. -/
def reply (w : World) (id : SessionId) (r : Response) : World :=
  match w.directory.find? id with
  | none => w
  | some place => w.send place r

/-! ### Coming and going -/

/-- A client connects: a session is made, registered, and asks for its first bytes. -/
def connect (w : World) (capacity : Nat) : SessionId × World :=
  let (id, directory) := w.directory.allocate
  let place := w.sessions.length
  let w := { w with directory := directory.insert id place }
  (id, w.withSessions (w.sessions ++ [(Session.new id capacity).start]))

/-- Closes the session at a place; it stays registered.  Tells whether this closed it. -/
def disconnect (w : World) (place : Place) : Bool × World :=
  let (sessions, queue, closed) := Sessions.disconnect place w.sessions w.queue
  (closed, { w with queue }.withSessions sessions)

def forget (w : World) (id : SessionId) : World :=
  { w with directory := w.directory.erase id }

/-- Closes the session at a place and takes its number out of the directory. -/
def drop (w : World) (place : Place) (id : SessionId) : World :=
  (w.disconnect place).2.forget id

/-- Closes and forgets every registered session.  Counts them. -/
def dropAll (w : World) : Nat × World :=
  let (sessions, queue) := Sessions.disconnectEach w.directory.places w.sessions w.queue
  (w.directory.size, { w with directory := w.directory.clear, queue }.withSessions sessions)

/-! ### Completions -/

/-- Whether a worker goes on after a completion. -/
inductive Flow where
  | proceed
  | halt
deriving DecidableEq, Repr

/-- Bytes arrived for the session `s` at a place. -/
def receive (w : World) (place : Place) (s : Session) (bytes : Bytes) : World :=
  match bytes with
  | [] => w.drop place s.id
  | _ =>
    let (s, queue, outcome) := s.receive w.tolerant bytes w.queue
    let w := { w with queue }.modify place fun _ => s
    match outcome with
    | .ok _ => w
    | .error _ => w.drop place s.id

/-- Deals with a completion.  One that names no registered session is ignored. -/
def dispatch (w : World) (c : Completion) : Flow × World :=
  match c.session? with
  | none => (.halt, w)
  | some id =>
    match w.find? id with
    | none => (.proceed, w)
    | some (place, s) =>
      match c with
      | .received _ bytes => (.proceed, w.receive place s bytes)
      | .sent .. => (.proceed, w.modify place Session.sendCompleted)
      | .failed .. => (.proceed, w.drop place s.id)
      | .shutdown => (.halt, w)

/-! ### Sends -/

/-- The connection at a place finishes the send in flight, if there is one, and reports that
    a send is done.  Tells whether one was in flight. -/
def completeSend (w : World) (place : Place) : Bool × World :=
  match w.sessions[place]? with
  | none => (false, w)
  | some s =>
    match s.link.complete? with
    | none => (false, (w.dispatch (.sent s.id 0)).2)
    | some link => (true, ((w.modify place fun s => { s with link }).dispatch (.sent s.id 0)).2)

def isSending (w : World) (place : Place) : Bool :=
  match w.sessions[place]? with
  | none => false
  | some s => s.link.inFlight ≠ 0

def completeSendsFor (place : Place) : Nat → World → World
  | 0, w => w
  | n + 1, w =>
    if w.isSending place then completeSendsFor place n (w.completeSend place).2 else w

def completeSends (w : World) (place : Place) : World :=
  match w.sessions[place]? with
  | none => w
  | some s => completeSendsFor place (s.link.inFlight + s.outbox.length) w

/-- Finishes the sends of every connection, in order of place. -/
def settle (w : World) : World :=
  (List.range w.sessions.length).foldl completeSends w

end World

end GameServer
