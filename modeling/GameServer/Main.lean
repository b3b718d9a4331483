import GameServer.Server
import GameServer.Settings.Json

/-!
The command line: a server for the client at the other end of standard input and output.

The argument, if there is one, names a file of settings.  The server runs until the client
closes its end.

This is `main` of `skirmish`, with one client in place of a socket.
-/

namespace GameServer

/-- The settings that the arguments ask for: those of a file, or none but the defaults. -/
def settingsFrom : List String → IO (Except ServerFault ServerSettings)
  | [] => return .ok {}
  | path :: _ => do
    try
      let text ← IO.FS.readFile path
      return (ServerSettings.ofJson text).mapError .settings
    catch reason => return .error (.io (toString reason))

partial def serve (input output : IO.FS.Stream) (id : SessionId) (tick : UInt32)
    (server : Server) : IO Server := do
  let bytes ← input.read 4096
  let (frames, next) := server.exchange id tick bytes.toList
  for frame in frames do
    output.write frame.toByteArray
  output.flush
  if bytes.isEmpty then return next else serve input output id (tick + 1) next

def run (settings : ServerSettings) : IO (Except ServerFault Unit) := do
  match Server.start settings {} with
  | .error fault => return .error fault
  | .ok server =>
    let (id, server) := server.connect
    let last ← serve (← IO.getStdin) (← IO.getStdout) id 1 server
    IO.eprintln ("stopped, sessions left: " ++ toString last.shutdown.sessionCount)
    return .ok ()

end GameServer

/-- Serves a client; a fault is told on standard error and by the exit code. -/
def main (args : List String) : IO UInt32 := do
  let outcome ←
    match ← GameServer.settingsFrom args with
    | .error fault => pure (.error fault)
    | .ok settings => GameServer.run settings
  match outcome with
  | .ok _ => return 0
  | .error fault =>
    IO.eprintln ("error: " ++ fault.message)
    return 1
