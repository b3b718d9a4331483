import GameServer.Proofs.Run
import GameServer.Proofs.Standing

/-!
Runs of one session.

Bytes arrive, frames are handed over and sent, somebody logs in or out, a room is bound, the
connection closes: all of this comes from different callers and in any order.  A run starts
from a session and the queue that its commands go to, and keeps what every receive came to.
-/

namespace GameServer

open Wire

namespace Session

inductive Event where
  | start
  | receive (tolerant : Bool) (chunk : Bytes)
  | enqueue (packet : Packet) (body : Bytes)
  | send (r : Response)
  /-- The connection finishes a send, and the session is told. -/
  | finishSend
  | login (username : String)
  | logout
  | setRoom (room : Option RoomId)
  | disconnect
deriving DecidableEq, Repr

/-- A session in the course of a run. -/
structure Course where
  session : Session
  queue : CommandQueue := {}
  /-- What each receive so far came to. -/
  outcomes : List (Except SessionFault Nat) := []

namespace Course

/-- What an event makes of a session.  A frame that is refused changes nothing. -/
def next (c : Course) : Event → Course
  | .start => { c with session := c.session.start }
  | .receive tolerant chunk =>
    let (session, queue, outcome) := c.session.receive tolerant chunk c.queue
    { session, queue, outcomes := c.outcomes ++ [outcome] }
  | .enqueue packet body =>
    { c with session := (c.session.enqueue packet body).toOption.getD c.session }
  | .send r => { c with session := (c.session.send r).toOption.getD c.session }
  | .finishSend => { c with session := c.session.completeSend.2 }
  | .login username => { c with session := c.session.login username }
  | .logout => { c with session := c.session.logout.1 }
  | .setRoom room => { c with session := c.session.setRoom room }
  | .disconnect =>
    let (session, queue, _) := c.session.disconnect c.queue
    { c with session, queue }

/-- A response is framed and waits like any other body. -/
theorem next_send (c : Course) (r : Response) :
    c.next (.send r) = c.next (.enqueue r.packet r.body) := rfl

theorem closed_enqueue (c : Course) (packet : Packet) (body : Bytes) :
    (c.next (.enqueue packet body)).session.closed = c.session.closed := by
  simp only [next]
  cases h : c.session.enqueue packet body with
  | error cause => rfl
  | ok t => exact congrArg Standing.closed (standing_enqueue h)

/-- A session is closed by a disconnect, and by nothing else. -/
theorem closed_next (c : Course) (e : Event) :
    (c.next e).session.closed = true ↔ c.session.closed = true ∨ e = .disconnect := by
  cases e with
  | receive tolerant chunk =>
    have h := congrArg Standing.closed (standing_receive tolerant chunk c.session c.queue)
    simp only [standing] at h
    simp [next, h]
  | enqueue packet body => simp [closed_enqueue]
  | send r => simp [next_send, closed_enqueue]
  | finishSend =>
    have h : ∀ s : Session, s.beginNext.closed = s.closed :=
      fun s => congrArg Standing.closed (standing_beginNext s)
    simp only [next, completeSend, sendCompleted]
    split <;> simp [h]
  | disconnect =>
    cases hclosed : c.session.closed with
    | true => simp [next, disconnect_of_closed hclosed, hclosed]
    | false => simp [next, disconnect_of_open hclosed]
  | start => simp [next, start]
  | login username => simp [next, login]
  | logout => simp [next, logout]
  | setRoom room => simp [next, setRoom]

theorem closed_after (c : Course) (events : List Event) :
    (after next c events).session.closed = true ↔
      c.session.closed = true ∨ .disconnect ∈ events := by
  induction events generalizing c with
  | nil => simp [after]
  | cons e rest ih =>
    change (after next (c.next e) rest).session.closed = true ↔ _
    rw [ih, closed_next, List.mem_cons, or_assoc, eq_comm (a := e)]

end Course

end Session

end GameServer
