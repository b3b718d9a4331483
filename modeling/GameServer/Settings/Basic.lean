import GameServer.Room.Basic
import GameServer.Store.Gateway
import GameServer.Tick.Settings

/-!
Settings of the whole server.

Everything has a default, so that settings only ever have to say what is to be different.

`ServerSettings` is `ServerConfig` of `skirmish`, and `tick` is its `tick_config`.
-/

namespace GameServer

structure ServerSettings where
  bindAddress : String := "0.0.0.0:9190"
  /-- Threads that move bytes. -/
  ioThreads : UInt64 := 4
  /-- Threads that deal with completions. -/
  reactorThreads : UInt64 := 4
  tickRate : UInt32 := 60
  tickPolicy : LatePolicy := .skip
  /-- Whether a malformed login is stepped over. -/
  tolerant : Bool := true
  persistence : StoreSettings := {}
  room : RoomSettings := {}
deriving DecidableEq, Repr

def ServerSettings.tick (c : ServerSettings) : TickSettings :=
  { rate := c.tickRate, policy := c.tickPolicy }

end GameServer
