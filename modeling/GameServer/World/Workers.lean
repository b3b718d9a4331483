import GameServer.World.Basic

/-!
Workers that take completions from a queue and deal with them.

Every worker goes on until it takes a sentinel, so one sentinel for each stops them all,
and what was reported before the sentinels is dealt with first.

`WorkerPool` is `ReactorPool` of `skirmish`, and `serve` is its `worker_loop`.
-/

namespace GameServer

namespace World

/-- Workers serve a queue, oldest completion first, until every one of them has taken a
    sentinel or nothing is left.  Gives what stays in the queue. -/
def serve : Nat → List Completion → World → World × List Completion
  | 0, left, w => (w, left)
  | _ + 1, [], w => (w, [])
  | workers + 1, c :: rest, w =>
    match w.dispatch c with
    | (.proceed, w) => serve (workers + 1) rest w
    | (.halt, w) => serve workers rest w

end World

structure WorkerPool where
  workers : Nat
deriving DecidableEq, Repr

namespace WorkerPool

/-- Starts so many workers, at least one. -/
def start (threads : Nat) : WorkerPool := ⟨max threads 1⟩

/-- Stops the workers: a sentinel for each, behind what is in the queue.  A pool that has
    stopped has no workers, and stopping it again does nothing. -/
def stop (pool : WorkerPool) (q : CompletionQueue) (w : World) :
    WorkerPool × CompletionQueue × World :=
  let sentinels := List.replicate pool.workers Completion.shutdown
  let (w, rest) := w.serve pool.workers (q.pending ++ sentinels)
  (⟨0⟩, ⟨rest⟩, w)

end WorkerPool

end GameServer
