import GameServer.Proofs.WorldRun

/-!
What is said.

A request to chat comes to nothing if its session is in no room or is not registered any more.
Otherwise it comes to one row: who spoke, under which name, what was said, and in which room.
That row is what the room hears, what the room remembers, and what waits to be written.
-/

namespace GameServer

open Wire

def ChatRow.line (u : ChatRow) : String := chatLine u.username u.message

/-- What the room hears. -/
def ChatRow.response (u : ChatRow) : Response := .chat u.session.val u.line

namespace World

/-- What comes of a session's request to chat, if anything does. -/
def utterance? (w : World) (id : SessionId) (message : String) : Option ChatRow :=
  match w.lobby.roomOf id, w.find? id with
  | some room, some (_, s) => some ⟨id, s.name, message, room⟩
  | _, _ => none

def utter (w : World) (u : ChatRow) : World :=
  let gateway := w.gateway.remember u.room u.username u.message
  { w with
    lobby := (w.lobby.broadcast (w.lobby.members u.room) u.response).1
    gateway := (gateway.post? (.saveChat u)).getD gateway }

variable {w : World} {id : SessionId} {message : String} {u : ChatRow}

theorem utterance?_eq_some :
    w.utterance? id message = some u ↔
      ∃ room place s, w.lobby.roomOf id = some room ∧ w.find? id = some (place, s) ∧
        u = ⟨id, s.name, message, room⟩ := by
  unfold utterance?
  constructor
  · intro hu
    split at hu
    · next room place s hroom hfind =>
      cases hu
      exact ⟨room, place, s, hroom, hfind, rfl⟩
    · cases hu
  · rintro ⟨room, place, s, hroom, hfind, rfl⟩
    simp only [hroom, hfind]

theorem chat_of_none (hu : w.utterance? id message = none) : w.chat id message = w := by
  unfold chat
  split
  · rfl
  · next room hroom =>
    split
    · rfl
    · next place s hfind =>
      rw [utterance?, hroom, hfind] at hu
      cases hu

/-- **What is heard, what is remembered and what is to be written is the same row.** -/
theorem chat_of_some (hu : w.utterance? id message = some u) : w.chat id message = w.utter u := by
  obtain ⟨room, place, s, hroom, hfind, rfl⟩ := utterance?_eq_some.mp hu
  simp only [chat, hroom, hfind]
  rfl

/-- What is said when an event happens. -/
def spoken? (w : World) : Event → Option ChatRow
  | .execute (.request id (.chat message)) => w.utterance? id message
  | _ => none

theorem spoken?_eq_some {e : Event} :
    w.spoken? e = some u ↔
      e = .execute (.request u.session (.chat u.message)) ∧
        w.utterance? u.session u.message = some u := by
  constructor
  · intro hu
    unfold spoken? at hu
    split at hu
    · have hsame := hu
      obtain ⟨room, place, s, -, -, rfl⟩ := utterance?_eq_some.mp hu
      exact ⟨rfl, hsame⟩
    · cases hu
  · rintro ⟨rfl, hu⟩
    exact hu

/-- The command is taken, and what it says is said. -/
theorem next_of_spoken {e : Event} (hu : w.spoken? e = some u) :
    w.next e = (w.dequeue (.request u.session (.chat u.message))).utter u := by
  obtain ⟨rfl, hrow⟩ := spoken?_eq_some.mp hu
  exact chat_of_some (w := w.dequeue _) hrow

end World

end GameServer
