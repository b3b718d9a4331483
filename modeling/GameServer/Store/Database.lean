import GameServer.Ident

/-!
The database: accounts and the chat log.

Statements that write are executed, the one that reads is a query, and neither takes the
other's place.  A name has at most one account, and no account is ever overwritten by a
new one; numbers are handed out counting up, past every number that was put in by hand.

Two kinds of outage are part of the state: the next few executions may be set to fail,
and queries or new connections may be refused altogether.

`Database` is `MemoryDatabase` of `skirmish-persistence`, together with its connections:
`seed` is `seed_user`, `failNext` is `fail_next_execute`, `refuse` is `refuse_connections`.
An account is what `Row` says of a user, and `DatabaseFault` is `DbError`.
-/

namespace GameServer

/-! ### Rows and statements -/

structure Account where
  id : UInt32
  username : String
  password : String
deriving DecidableEq, Repr

structure ChatRow where
  session : SessionId
  username : String
  message : String
  room : RoomId
deriving DecidableEq, Repr

inductive Statement where
  | insertChat (row : ChatRow)
  | insertUser (username password : String)
  | selectUser (username password : String)
deriving DecidableEq, Repr

def Statement.name : Statement → String
  | insertChat _ => "INSERT_CHAT_LOG"
  | insertUser .. => "INSERT_USER"
  | selectUser .. => "SELECT_USER"

/-! ### Faults -/

inductive DatabaseFault where
  | duplicateKey (key : String)
  | connection (reason : String)
  | query (reason : String)
deriving DecidableEq, Repr

def DatabaseFault.message : DatabaseFault → String
  | duplicateKey key => "duplicate key: " ++ key
  | connection reason => "connection error: " ++ reason
  | query reason => "query failed: " ++ reason

/-! ### The database -/

structure Database where
  users : Std.ExtTreeMap String Account := ∅
  /-- The number the next new account gets. -/
  nextUserId : UInt32 := 1
  chatLog : List ChatRow := []
  /-- How many executions are still to fail. -/
  failing : Nat := 0
  /-- Whether queries fail. -/
  deaf : Bool := false
  /-- Whether connections are refused. -/
  refusing : Bool := false
  opened : Nat := 0

namespace Database

/-- Puts an account in by hand, whatever had the name before. -/
def seed (d : Database) (id : UInt32) (username password : String) : Database :=
  let beyond := UInt32.ofNat (min (id.toNat + 1) 4294967295)
  { d with
    users := d.users.insert username { id, username, password }
    nextUserId := max d.nextUserId beyond }

def failNext (d : Database) (n : Nat) : Database := { d with failing := n }

def refuse (d : Database) : Database := { d with refusing := true }

def account? (d : Database) (username : String) : Option Account := d.users[username]?

/-- Opens `n` connections, or none. -/
def connect (d : Database) (n : Nat) : Except DatabaseFault Database :=
  if d.refusing then .error (.connection "connection refused")
  else .ok { d with opened := d.opened + n }

/-- Writes.  Gives the number of rows written. -/
def execute (d : Database) (statement : Statement) : Database × Except DatabaseFault Nat :=
  match d.failing with
  | n + 1 => ({ d with failing := n }, .error (.connection "injected failure"))
  | 0 =>
    match statement with
    | .insertChat row => ({ d with chatLog := d.chatLog ++ [row] }, .ok 1)
    | .insertUser username password =>
      if d.users.contains username then (d, .error (.duplicateKey username))
      else
        ({ d with
            users := d.users.insert username { id := d.nextUserId, username, password }
            nextUserId := d.nextUserId + 1 }, .ok 1)
    | .selectUser .. => (d, .error (.query (statement.name ++ " is not a write statement")))

/-- Reads: the account with this name and this password, if there is one. -/
def query (d : Database) (statement : Statement) : Except DatabaseFault (List Account) :=
  if d.deaf then .error (.query "no answer")
  else
    match statement with
    | .selectUser username password =>
      .ok ((d.users[username]?.filter fun row => row.password = password).toList)
    | other => .error (.query (other.name ++ " is not a query"))

end Database

end GameServer
