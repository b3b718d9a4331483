import GameServer.Session.Basic

/-!
Sessions by place and by number.

Every session ever made has a place, its position in the order of making, and keeps it.
The directory finds the place of a session by its number.  The two are kept apart
because they answer different questions: a room or a connection holds on to one
particular session, while a packet names whichever session now has a number.

`Directory` is `SessionDirectory` of `skirmish-session`: `allocate` is its `allocate_id`,
`find?` its `get`, `erase` its `remove`, and `clear` with `disconnectEach` is its
`disconnect_all`.  `broadcast` is that of `skirmish-room`.
-/

namespace GameServer

open Wire

/-- The place of a session among all sessions ever made. -/
abbrev Place := Nat

/-! ### All sessions -/

namespace Sessions

/-- Closes the session at a place.  Tells whether this call closed it. -/
def disconnect (place : Place) (sessions : List Session) (q : CommandQueue) :
    List Session × CommandQueue × Bool :=
  match sessions[place]? with
  | none => (sessions, q, false)
  | some s =>
    let (s, q, closed) := s.disconnect q
    (sessions.set place s, q, closed)

def disconnectEach : List Place → List Session → CommandQueue → List Session × CommandQueue
  | [], sessions, q => (sessions, q)
  | place :: rest, sessions, q =>
    let (sessions, q, _) := disconnect place sessions q
    disconnectEach rest sessions q

/-- Sends a response to the session at a place.  A response that does not fit a frame is
    dropped. -/
def send (place : Place) (r : Response) (sessions : List Session) : List Session :=
  match sessions[place]? with
  | none => sessions
  | some s =>
    match s.send r with
    | .error _ => sessions
    | .ok s => sessions.set place s

/-- Queues a packet on every open session at some places.  Counts those it was queued on. -/
def enqueueEach (packet : Packet) (body : Bytes) :
    List Place → List Session → List Session × Nat
  | [], sessions => (sessions, 0)
  | place :: rest, sessions =>
    match sessions[place]? with
    | none => enqueueEach packet body rest sessions
    | some s =>
      if s.closed then enqueueEach packet body rest sessions
      else
        match s.enqueue packet body with
        | .error _ => enqueueEach packet body rest sessions
        | .ok s =>
          let (sessions, count) := enqueueEach packet body rest (sessions.set place s)
          (sessions, count + 1)

/-- Sends a response to every open session at some places.  Counts those it was queued
    on.  The body is written once for all. -/
def broadcast (r : Response) : List Place → List Session → List Session × Nat :=
  enqueueEach r.packet r.body

theorem broadcast_step (r : Response) (place : Place) (rest : List Place)
    (sessions : List Session) :
    broadcast r (place :: rest) sessions =
      match sessions[place]? with
      | none => broadcast r rest sessions
      | some s =>
        if s.closed then broadcast r rest sessions
        else
          match s.send r with
          | .error _ => broadcast r rest sessions
          | .ok s =>
            let (sessions, count) := broadcast r rest (sessions.set place s)
            (sessions, count + 1) := rfl

end Sessions

/-! ### Sessions by number -/

structure Directory where
  entries : Std.ExtTreeMap SessionId Place := ∅
  /-- The number the next connection gets. -/
  nextId : UInt32 := 1

namespace Directory

/-- A fresh number.  Numbers count up and wrap around. -/
def allocate (d : Directory) : SessionId × Directory :=
  (⟨d.nextId⟩, { d with nextId := d.nextId + 1 })

/-- Registers a session under a number, in place of whichever had it. -/
def insert (d : Directory) (id : SessionId) (place : Place) : Directory :=
  { d with entries := d.entries.insert id place }

def find? (d : Directory) (id : SessionId) : Option Place := d.entries[id]?

def erase (d : Directory) (id : SessionId) : Directory :=
  { d with entries := d.entries.erase id }

def size (d : Directory) : Nat := d.entries.size

/-- The registered numbers, ascending. -/
def ids (d : Directory) : List SessionId := d.entries.keys

/-- The places of the registered sessions, by ascending number. -/
def places (d : Directory) : List Place := d.entries.values

def clear (d : Directory) : Directory := { d with entries := ∅ }

end Directory

end GameServer
