import GameServer.Wire.Request

/-!
Commands: what waits for the game logic.

Every command belongs to a session.  Most are requests that a client sent.  One kind
is not: a connection that closes while somebody is logged in on it leaves a `hangUp`
behind, with the name to be released, because by the time it is executed the session
no longer knows the name.

`Command` is that of `skirmish-session`, where a `Logout` that carries a name is a `hangUp`,
and `CommandQueue` is its `command_queue`.
-/

namespace GameServer

open Wire

inductive Command where
  | request (session : SessionId) (request : Request)
  /-- The session closed while logged in under a name. -/
  | hangUp (session : SessionId) (username : String)
deriving DecidableEq, Repr

def Command.session : Command → SessionId
  | request session _ | hangUp session _ => session

/-- Commands waiting in order.  Once the consumer has gone the queue holds nothing and
    takes nothing. -/
structure CommandQueue where
  pending : List Command := []
  live : Bool := true
deriving DecidableEq, Repr

namespace CommandQueue

/-- Puts a command at the end; nothing when the consumer has gone. -/
def push (q : CommandQueue) (c : Command) : Option CommandQueue :=
  if q.live then some { q with pending := q.pending ++ [c] } else none

/-- Puts a command at the end if there is somebody to take it. -/
def offer (q : CommandQueue) (c : Command) : CommandQueue := (q.push c).getD q

/-- Puts commands at the end, in their order; none of them when the consumer has gone. -/
def offerAll (q : CommandQueue) (cs : List Command) : CommandQueue :=
  if q.live then { q with pending := q.pending ++ cs } else q

def pop? (q : CommandQueue) : Option (Command × CommandQueue) :=
  match q.pending with
  | [] => none
  | c :: rest => some (c, { q with pending := rest })

/-- The queue after its consumer has gone. -/
def abandoned : CommandQueue := { pending := [], live := false }

end CommandQueue

end GameServer
