import GameServer.Store.Database
import GameServer.Store.Cache

/-!
The gateway: how the game reaches what is stored.

What the game has to know at once it asks for directly: whether a password is right,
whether a name is already online, what was said in a room.  What merely has to be
written waits in a queue for a worker.  An outage never stops the game: a failed question
is answered "no", a failed write is lost.

`Gateway` is `PersistenceGateway` of `skirmish-persistence`: `addPresence` is its
`check_and_register_presence`, `removePresence` its `remove_presence`, `history` its
`recent_chat`, `remember` its `cache_chat`, `post?` its `post_async`.  `perform` is
`handle_request`, and `work` is the `worker_loop` of a single worker.  The settings are
`PersistenceConfig`, the requests `PersistenceRequest`.
-/

namespace GameServer

/-! ### Settings -/

structure StoreSettings where
  /-- How many workers write; at least one does. -/
  workers : UInt64 := 2
  /-- How many lines of chat are remembered per room. -/
  historyLength : UInt64 := 50
deriving DecidableEq, Repr

/-! ### Keys and lines -/

def presenceKey : String := "presence:online"

def chatKey (room : RoomId) : String := "chat:room:" ++ room.digits

def chatLine (username message : String) : String := username ++ ": " ++ message

/-! ### Requests -/

/-- Something that waits to be written. -/
inductive StoreRequest where
  | saveChat (row : ChatRow)
  | register (session : SessionId) (username password : String)
deriving DecidableEq, Repr

structure Registration where
  session : SessionId
  success : Bool
deriving DecidableEq, Repr

/-! ### The gateway -/

structure Gateway where
  settings : StoreSettings := {}
  database : Database := {}
  cache : Cache := {}
  /-- Requests waiting for a worker, oldest first. -/
  pending : List StoreRequest := []
  /-- Whether requests are still taken. -/
  running : Bool := true

namespace Gateway

/-- Opens one connection for every worker and one for questions. -/
def start (settings : StoreSettings) (database : Database) (cache : Cache) :
    Except DatabaseFault Gateway := do
  let database ← database.connect (max settings.workers.toNat 1 + 1)
  return { settings, database, cache }

def stop (g : Gateway) : Gateway := { g with running := false }

/-! ### Questions -/

/-- The number of the account with this name and password. -/
def authenticate (g : Gateway) (username password : String) : Option UInt32 :=
  match g.database.query (.selectUser username password) with
  | .ok rows => rows.head?.map Account.id
  | .error _ => none

/-- Marks a name as online.  Tells whether it was not before. -/
def addPresence (g : Gateway) (username : String) : Bool × Gateway :=
  match g.cache.add presenceKey username with
  | .ok (added, cache) => (added, { g with cache })
  | .error _ => (false, g)

def removePresence (g : Gateway) (username : String) : Gateway :=
  match g.cache.remove presenceKey username with
  | .ok (_, cache) => { g with cache }
  | .error _ => g

def online (g : Gateway) : List String := g.cache.members presenceKey

def historyLength (g : Gateway) : Nat := g.settings.historyLength.toNat

/-- The lines a room remembers, newest first. -/
def history (g : Gateway) (room : RoomId) : List String :=
  if g.historyLength = 0 then []
  else
    match g.cache.range (chatKey room) 0 (g.historyLength - 1) with
    | .ok lines => lines
    | .error _ => []

/-- Remembers a line of chat, and forgets what is too old. -/
def remember (g : Gateway) (room : RoomId) (username message : String) : Gateway :=
  if g.historyLength = 0 then g
  else
    match g.cache.push (chatKey room) (chatLine username message) with
    | .error _ => g
    | .ok (_, cache) =>
      match cache.trim (chatKey room) 0 (g.historyLength - 1) with
      | .error _ => { g with cache }
      | .ok cache => { g with cache }

/-! ### Requests -/

/-- Lets a request wait for a worker; nothing once the gateway has stopped. -/
def post? (g : Gateway) (r : StoreRequest) : Option Gateway :=
  if g.running then some { g with pending := g.pending ++ [r] } else none

/-- Carries a request out on the database.  A registration has an outcome to report. -/
def perform (d : Database) : StoreRequest → Database × Option Registration
  | .saveChat row => ((d.execute (.insertChat row)).1, none)
  | .register session username password =>
    let (d, outcome) := d.execute (.insertUser username password)
    (d, some ⟨session, outcome.isOk⟩)

def take? (g : Gateway) : Option (StoreRequest × Gateway) :=
  match g.pending with
  | [] => none
  | r :: rest => some (r, { g with pending := rest })

/-- Carries out requests, oldest first, at most so many. -/
def workFor : Nat → Gateway → Gateway × List Registration
  | 0, g => (g, [])
  | n + 1, g =>
    match g.take? with
    | none => (g, [])
    | some (r, g) =>
      let (database, outcome) := perform g.database r
      let (g, later) := workFor n { g with database }
      (g, outcome.toList ++ later)

def work (g : Gateway) : Gateway × List Registration := workFor g.pending.length g

end Gateway

end GameServer
