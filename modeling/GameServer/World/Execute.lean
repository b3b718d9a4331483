import GameServer.World.Basic

/-!
Executing commands: what each one does to the world.

Commands are executed one at a time, so none of them has to think of another.  A request
that makes no sense where its session stands is dropped or answered with a refusal; it
never costs a client the connection.

`execute` is that of `skirmish`, and so are the functions that it calls; `retell` is
`replay_history`, `drain` is `drain_commands`, `report` is `register_completed` of the
`DirectorySink`, and `move` is what `execute` itself does with `set_velocity`.
-/

namespace GameServer

open Wire

/-- The sender of a line of chat that was said earlier. -/
def historySender : UInt32 := 0

namespace World

def withLobby (w : World) (lobby : Lobby) : World := { w with lobby }

def announce (w : World) : Option Departure → World
  | none => w
  | some d => w.withLobby (w.lobby.announce d)

/-! ### Accounts -/

/-- A registration waits for a worker; once the gateway has stopped it is refused at
    once. -/
def register (w : World) (id : SessionId) (username password : String) : World :=
  match w.gateway.post? (.register id username password) with
  | some gateway => { w with gateway }
  | none => w.reply id (.registerResult false)

def refuseLogin (w : World) (place : Place) : World := w.send place (.loginResult false 0)

/-- Logs a session in, if nobody is logged in on it, the password is right, and the name is
    not online already.  A session that is closed by then gives the name back, for its
    closing knew no name to release. -/
def login (w : World) (id : SessionId) (username password : String) : World :=
  match w.find? id with
  | none => w
  | some (place, s) =>
    if s.loggedIn then w.refuseLogin place
    else
      match w.gateway.authenticate username password with
      | none => w.refuseLogin place
      | some user =>
        match w.gateway.addPresence username with
        | (false, gateway) => { w with gateway }.refuseLogin place
        | (true, gateway) =>
          if s.closed then { w with gateway := gateway.removePresence username }
          else
            ({ w with gateway }.modify place (·.login username)).send place
              (.loginResult true user)

def takeName (w : World) (place : Place) : World × Option String :=
  match w.sessions[place]? with
  | none => (w, none)
  | some s =>
    let (s, username) := s.logout
    (w.modify place fun _ => s, username)

/-- Logs a session out for good: it is forgotten, taken out of its room, its name is
    released, and it is closed.  The name is the one the command carries; a client's own
    logout carries none, and it is taken off the session. -/
def logout (w : World) (id : SessionId) (carried : Option String) : World :=
  let found := w.directory.find? id
  let w := w.forget id
  let (w, username) :=
    match carried, found with
    | some username, _ => (w, some username)
    | none, some place => w.takeName place
    | none, none => (w, none)
  let (lobby, departure) := w.lobby.leave id
  let w := (w.withLobby lobby).announce departure
  let w :=
    match username with
    | none => w
    | some username => { w with gateway := w.gateway.removePresence username }
  match found with
  | none => w
  | some place => (w.disconnect place).2

/-! ### Rooms -/

/-- Sends the session at a place what a room remembers, oldest first. -/
def retell (w : World) (place : Place) (room : RoomId) : World :=
  (w.gateway.history room).reverse.foldl
    (fun w text => w.send place (.chat historySender text)) w

def enterRoom (w : World) (id : SessionId) (room : RoomId) : World :=
  match w.find? id with
  | none => w
  | some (place, s) =>
    if s.loggedIn then
      match w.lobby.join place s room with
      | .ok (joined, lobby) =>
        (((w.withLobby lobby).announce joined.left).send place
          (.enterRoomResult true room)).retell place room
      | .error (.roomFull _) => w.send place (.enterRoomResult false room)
      | .error (.sessionClosed _) => w
    else w.send place (.enterRoomResult false room)

def leaveRoom (w : World) (id : SessionId) : World :=
  let (lobby, departure) := w.lobby.leave id
  (w.withLobby lobby).announce departure

/-- The title a room gets when this one is asked for. -/
def titleFor (w : World) (title : String) : String :=
  if title = "" then w.lobby.settings.defaultTitle else title

def createRoom (w : World) (id : SessionId) (title : String) : World :=
  match w.find? id with
  | none => w
  | some (place, s) =>
    if s.loggedIn then
      match w.lobby.openRoom place s (w.titleFor title) with
      | .ok (joined, lobby) =>
        ((w.withLobby lobby).announce joined.left).send place
          (.createRoomResult true joined.room)
      | .error _ => w
    else w.send place (.createRoomResult false ⟨0⟩)

/-- A number of users as a signed word; what does not fit becomes the greatest. -/
def userCount (n : Nat) : Int32 := Int32.ofNat (min n 2147483647)

/-- The lines of a room list, as many as fit a frame. -/
def roomEntries (w : World) : List RoomEntry :=
  (w.lobby.listing.take maxRoomEntries).map fun r => ⟨r.room, userCount r.users, r.title⟩

def listRooms (w : World) (id : SessionId) : World := w.reply id (.roomList w.roomEntries)

/-! ### Moving and talking -/

def move (w : World) (id : SessionId) (vx vy : Single) : World :=
  match w.lobby.steer? id vx vy with
  | none => w
  | some lobby => w.withLobby lobby

/-- A session says something: everybody in its room hears it, the room remembers it, and it
    waits to be written to the log. -/
def chat (w : World) (id : SessionId) (message : String) : World :=
  match w.lobby.roomOf id with
  | none => w
  | some room =>
    match w.find? id with
    | none => w
    | some (_, s) =>
      let line := chatLine s.name message
      let lobby := (w.lobby.broadcast (w.lobby.members room) (.chat id.val line)).1
      let gateway := w.gateway.remember room s.name message
      let gateway := (gateway.post? (.saveChat ⟨id, s.name, message, room⟩)).getD gateway
      { w with lobby, gateway }

/-! ### Commands -/

def answer (w : World) (id : SessionId) : Request → World
  | .register username password => w.register id username password
  | .login username password => w.login id username password
  | .enterRoom room => w.enterRoom id room
  | .leaveRoom => w.leaveRoom id
  | .move vx vy => w.move id vx vy
  | .chat message => w.chat id message
  | .createRoom title => w.createRoom id title
  | .listRooms => w.listRooms id
  | .logout => w.logout id none

def execute (w : World) : Command → World
  | .request id request => w.answer id request
  | .hangUp id username => w.logout id (some username)

def drainFor : Nat → World → World × Nat
  | 0, w => (w, 0)
  | n + 1, w =>
    match w.queue.pop? with
    | none => (w, 0)
    | some (c, queue) =>
      let (w, count) := drainFor n ({ w with queue }.execute c)
      (w, count + 1)

/-- Executes commands until none is left.  A command queues another only by closing a
    registered session, and forgets that session in doing so; hence there are never more
    of them than commands waiting and sessions registered. -/
def drain (w : World) : World × Nat :=
  drainFor (w.queue.pending.length + w.directory.size) w

/-! ### Writing -/

/-- Tells each client how its registration ended, if it is still there. -/
def report (w : World) : List Registration → World
  | [] => w
  | r :: rest => (w.reply r.session (.registerResult r.success)).report rest

def work (w : World) : World × List Registration :=
  let (gateway, outcomes) := w.gateway.work
  ({ w with gateway }.report outcomes, outcomes)

end World

end GameServer
