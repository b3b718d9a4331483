import GameServer.Session.Directory

/-!
Completions: what the transport reports, and the queue they wait in.

Each completion names the session it is about, except the one that tells a worker to
stop.  The queue is a plain one: whoever takes, takes the oldest.

`Completion` is that of `skirmish-transport`, `Transfer` is its `IoOp`, and
`CompletionQueue` its `CompletionPort`.
-/

namespace GameServer

open Wire

/-- What was being done when it failed. -/
inductive Transfer where
  | receive
  | send
deriving DecidableEq, Repr

inductive Completion where
  /-- Bytes arrived; none at all means that the peer has closed. -/
  | received (session : SessionId) (bytes : Bytes)
  /-- A send of so many bytes is done. -/
  | sent (session : SessionId) (count : Nat)
  | failed (session : SessionId) (transfer : Transfer)
  /-- A worker is to stop. -/
  | shutdown
deriving DecidableEq, Repr

def Completion.session? : Completion → Option SessionId
  | received session _ | sent session _ | failed session _ => some session
  | shutdown => none

/-- Completions waiting to be taken, oldest first. -/
structure CompletionQueue where
  pending : List Completion := []
deriving DecidableEq, Repr

namespace CompletionQueue

def post (q : CompletionQueue) (c : Completion) : CompletionQueue := ⟨q.pending ++ [c]⟩

def take? (q : CompletionQueue) : Option (Completion × CompletionQueue) :=
  match q.pending with
  | [] => none
  | c :: rest => some (c, ⟨rest⟩)

end CompletionQueue

end GameServer
