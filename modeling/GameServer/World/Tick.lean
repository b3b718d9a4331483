import GameServer.World.Execute

/-!
One tick of the game.

First everything that was asked for is done, then everybody moves, then everybody is told.
A client therefore sees in a tick's snapshot what was asked for before that tick.

`tick` is `run_tick` of `skirmish`, `TickTally` is its `TickReport`, and `finish` is how
`run` of the `GameLoop` ends.
-/

namespace GameServer

open Wire

structure TickTally where
  /-- How many commands were executed. -/
  commands : Nat
  /-- How many snapshot frames were queued. -/
  frames : Nat
deriving DecidableEq, Repr

namespace World

def tick (w : World) (number : UInt32) (dt : Single) : TickTally × World :=
  let (w, commands) := w.drain
  let (lobby, frames) := (w.lobby.advance dt).tellAll number
  (⟨commands, frames⟩, w.withLobby lobby)

/-- The end of the game loop: what was still asked for is done. -/
def finish (w : World) : World := w.drain.1

end World

end GameServer
