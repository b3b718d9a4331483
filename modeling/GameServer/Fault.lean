import GameServer.Session.Fault
import GameServer.Room.Basic
import GameServer.Store.Database
import GameServer.Json.Scan

/-!
Everything that can go wrong, under one roof.

A fault of a part is a fault of the server with the text unchanged.

`ServerFault` is `SkirmishError` of `skirmish`.
-/

namespace GameServer

open Wire

inductive ServerFault where
  /-- The address cannot be listened at. -/
  | bindFailed (reason : String)
  | protocol (cause : WireFault)
  | session (cause : SessionFault)
  | room (cause : RoomFault)
  | persistence (cause : DatabaseFault)
  /-- The settings do not read. -/
  | settings (fault : Json.Fault)
  /-- A file cannot be read. -/
  | io (reason : String)
deriving DecidableEq, Repr

def Json.Fault.message : Json.Fault → String
  | malformed => "not well formed"
  | mismatch => "not the settings that were expected"
  | truncated => "the text ends too early"

def ServerFault.message : ServerFault → String
  | bindFailed reason => "bind failed: " ++ reason
  | protocol cause => cause.message
  | session cause => cause.message
  | room cause => cause.message
  | persistence cause => cause.message
  | settings fault => "invalid configuration: " ++ fault.message
  | io reason => "I/O error: " ++ reason

end GameServer
