import GameServer.Wire.Word

/-!
The link: what a session has asked of its connection.

A session only ever does three things to its connection: it asks to receive at most so
many bytes, it begins to send a frame, and it closes.  The link keeps the record of all
three, in order, so that what happened on the wire can be read off the state.

The calls are those of `Link` of `skirmish-transport`: `arm` is its `arm_receive` and `send`
its `begin_send`.  The record is the one that `MemoryLink` keeps, and `complete?` is its
`complete_send`.
-/

namespace GameServer

open Wire

structure Link where
  /-- The size of every receive asked for. -/
  armed : List Nat := []
  /-- Every frame begun. -/
  begun : List Bytes := []
  /-- Sends begun and not yet done. -/
  inFlight : Nat := 0
  /-- The most sends that were ever in flight at once. -/
  mostInFlight : Nat := 0
  closes : Nat := 0
deriving DecidableEq, Repr

namespace Link

/-- Asks for at most `limit` bytes. -/
def arm (l : Link) (limit : Nat) : Link := { l with armed := l.armed ++ [limit] }

def send (l : Link) (frame : Bytes) : Link :=
  { l with
    begun := l.begun ++ [frame]
    inFlight := l.inFlight + 1
    mostInFlight := max l.mostInFlight (l.inFlight + 1) }

/-- One send is done; nothing when none was in flight. -/
def complete? (l : Link) : Option Link :=
  match l.inFlight with
  | 0 => none
  | n + 1 => some { l with inFlight := n }

def close (l : Link) : Link := { l with closes := l.closes + 1 }

end Link

end GameServer
