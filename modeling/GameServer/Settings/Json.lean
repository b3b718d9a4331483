import GameServer.Settings.Basic
import GameServer.Json.Record

/-!
Settings as JSON.

Settings are written as objects with every field, in a fixed order and without blanks.  What
is read may leave out whatever is to keep its default, except that catching up always says
how far.

The members have the names that `serde` gives to the fields of `ServerConfig`,
`PersistenceConfig`, `RoomConfig` and `TickConfig` and to the cases of `TickPolicy`;
`ofJson` is `from_json` of `skirmish`.
-/

namespace GameServer

open Json

/-! ### Policies -/

namespace LatePolicy

def catchUpName : String := "catch_up"

/-- The policies that are nothing but a name. -/
def plain? (name : String) : Option LatePolicy :=
  if name = "skip" then some .skip
  else if name = "drop" then some .drop
  else none

/-- The content of a policy that catches up: how far, which has to be said. -/
def scanCatchUp : Scan LatePolicy := fun s => do
  let bound : RecordField (Option UInt32) := .of "max_catchup" word32 fun n _ => some n
  match ← record [bound] none s with
  | (some most, rest) => .ok (.catchUp most, rest)
  | (none, _) => .error .mismatch

def scanContent (name : String) : Scan LatePolicy := fun s =>
  match plain? name with
  | some policy => do
    let (_, rest) ← null s
    return (policy, rest)
  | none => scanCatchUp s

def isName (name : String) : Bool := (plain? name).isSome || name = catchUpName

/-- A policy: a name, or an object whose one key is a name. -/
def scan : Scan LatePolicy := fun s =>
  match Json.skip s with
  | [] => .error .truncated
  | c :: rest =>
    if c = '"' then do
      let (cs, rest) ← pieces false rest
      match plain? (String.ofList cs) with
      | some policy => return (policy, rest)
      | none => .error .mismatch
    else if c = '\x7b' then do
      let (name, rest) ← key rest
      if isName name then
        let (policy, rest) ← scanContent name (← mark ':' rest)
        return (policy, ← mark '\x7d' rest)
      else .error .mismatch
    else .error .malformed

end LatePolicy

/-! ### Reading -/

def RoomSettings.fields : List (RecordField RoomSettings) :=
  [.of "max_players" word64 fun n c => { c with maxPlayers := n },
   .of "default_title" string fun t c => { c with defaultTitle := t }]

def RoomSettings.scan : Scan RoomSettings := record RoomSettings.fields {}

def StoreSettings.fields : List (RecordField StoreSettings) :=
  [.of "workers" word64 fun n c => { c with workers := n },
   .of "chat_history_len" word64 fun n c => { c with historyLength := n }]

def StoreSettings.scan : Scan StoreSettings := record StoreSettings.fields {}

def TickSettings.fields : List (RecordField TickSettings) :=
  [.of "tick_rate_hz" word32 fun n c => { c with rate := n },
   .of "policy" LatePolicy.scan fun p c => { c with policy := p },
   .of "budget_warn_threshold" double fun x c => { c with warn := x },
   .of "budget_critical_threshold" double fun x c => { c with critical := x },
   .of "metrics_enabled" truth fun b c => { c with metrics := b }]

def TickSettings.scan : Scan TickSettings := record TickSettings.fields {}

def ServerSettings.fields : List (RecordField ServerSettings) :=
  [.of "bind_addr" string fun t c => { c with bindAddress := t },
   .of "io_threads" word64 fun n c => { c with ioThreads := n },
   .of "reactor_threads" word64 fun n c => { c with reactorThreads := n },
   .of "tick_rate_hz" word32 fun n c => { c with tickRate := n },
   .of "tick_policy" LatePolicy.scan fun p c => { c with tickPolicy := p },
   .of "tolerate_malformed_login" truth fun b c => { c with tolerant := b },
   .of "persistence" StoreSettings.scan fun p c => { c with persistence := p },
   .of "room" RoomSettings.scan fun r c => { c with room := r }]

def ServerSettings.scan : Scan ServerSettings := record ServerSettings.fields {}

def ServerSettings.ofJson (text : String) : Except Fault ServerSettings :=
  document ServerSettings.scan text

/-! ### Writing -/

def writeObject (members : List (String × List Char)) : List Char :=
  let written := members.map fun (name, value) => quote name ++ ':' :: value
  '\x7b' :: (written.intersperse [',']).flatten ++ ['\x7d']

def writeTruth (b : Bool) : List Char := if b then "true".toList else "false".toList

def LatePolicy.write : LatePolicy → List Char
  | skip => quote "skip"
  | drop => quote "drop"
  | catchUp most =>
    writeObject [(catchUpName, writeObject [("max_catchup", digits most.toNat)])]

def StoreSettings.write (c : StoreSettings) : List Char :=
  writeObject
    [("workers", digits c.workers.toNat),
     ("chat_history_len", digits c.historyLength.toNat)]

def RoomSettings.write (c : RoomSettings) : List Char :=
  writeObject
    [("max_players", digits c.maxPlayers.toNat),
     ("default_title", quote c.defaultTitle)]

def ServerSettings.write (c : ServerSettings) : List Char :=
  writeObject
    [("bind_addr", quote c.bindAddress),
     ("io_threads", digits c.ioThreads.toNat),
     ("reactor_threads", digits c.reactorThreads.toNat),
     ("tick_rate_hz", digits c.tickRate.toNat),
     ("tick_policy", c.tickPolicy.write),
     ("tolerate_malformed_login", writeTruth c.tolerant),
     ("persistence", c.persistence.write),
     ("room", c.room.write)]

def ServerSettings.toJson (c : ServerSettings) : String := String.ofList c.write

end GameServer
