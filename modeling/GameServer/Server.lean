import GameServer.World.Tick
import GameServer.World.Workers
import GameServer.Settings.Basic
import GameServer.Fault

/-!
The server: a world that is started and stopped.

Starting opens the stores.  While the server runs, clients connect and send bytes, and every
exchange ends with a tick.  Stopping closes every connection first, so that the names still
online are released by the last commands, and stops the stores last, so that what was asked
for is still written.

`Server` is `SkirmishServer` of `skirmish`, and `start` is that of its
`SkirmishServerBuilder`.  A client connects through `open_session` of the `Acceptor`;
`exchange` stands for the reactor and the game loop.
-/

namespace GameServer

open Wire

/-- A server, running until its world is shut down. -/
structure Server where
  settings : ServerSettings
  world : World
  stopped : Bool := false

namespace Server

/-- Starts a server over a database and an empty cache. -/
def start (settings : ServerSettings) (database : Database) : Except ServerFault Server :=
  match Gateway.start settings.persistence database {} with
  | .error cause => .error (.persistence cause)
  | .ok gateway =>
    .ok
      { settings
        world :=
          { lobby := { settings := settings.room }, gateway, tolerant := settings.tolerant } }

def sessionCount (s : Server) : Nat := s.world.directory.size

def connect (s : Server) : SessionId × Server :=
  let (id, world) := s.world.connect ReceiveBuffer.defaultCapacity
  (id, { s with world })

/-- Every frame begun for the session at a place. -/
def framesAt (s : Server) (place : Place) : List Bytes :=
  match s.world.sessions[place]? with
  | none => []
  | some session => session.link.begun

/-- Bytes arrive from a client, a tick passes, and everything begun is sent.  Gives the
    frames that this brings the client. -/
def exchange (s : Server) (id : SessionId) (tick : UInt32) (bytes : Bytes) :
    List Bytes × Server :=
  match s.world.directory.find? id with
  | none => ([], s)
  | some place =>
    let heard := (s.world.dispatch (.received id bytes)).2
    let ticked := (heard.tick tick (secondsOf s.settings.tick.validated.length)).2
    let next := { s with world := ticked.work.1.settle }
    ((next.framesAt place).drop (s.framesAt place).length, next)

/-- Shuts a server down.  Shutting it down again does nothing. -/
def shutdown (s : Server) : Server :=
  if s.stopped then s
  else
    let world := s.world.dropAll.2.finish.work.1
    { s with world := { world with gateway := world.gateway.stop }, stopped := true }

end Server

end GameServer
