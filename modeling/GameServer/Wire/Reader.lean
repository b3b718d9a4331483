import GameServer.Text.Utf8
import GameServer.Wire.Word
import GameServer.Ident
import GameServer.Single

/-!
The fields of a packet body: how each is written, and how it is taken off the front
of the bytes that remain.

A reader never looks past the end.  It either takes what it needs and hands back the
rest, or says that the body ran out.  Text comes in two shapes: a *field* of fixed
width, padded with zero bytes, and a *tail* that ends with the body.  Both end at the
first zero byte, and both are cut between characters when they are written.

These are `Reader` and `Writer` of `skirmish-protocol`; `field` is their `fixed_str`, and
the `tail` of a writer is its `bounded_str`.  `textOf` is the part of `fixed_str` that makes
text of octets.
-/

namespace GameServer.Wire

/-! ### Readers -/

/-- Takes a value off the front of the bytes, or fails because there are too few. -/
abbrev Reader (α : Type) := StateT Bytes Option α

namespace Reader

/-- The next `n` bytes.  What stands behind them is not counted. -/
def bytes (n : Nat) : Reader Bytes := fun body =>
  let taken := body.take n
  if taken.length = n then some (taken, body.drop n) else none

/-- One byte, true unless it is zero. -/
def flag : Reader Bool
  | a :: rest => some (a != 0, rest)
  | [] => none

def word : Reader UInt32
  | a :: b :: c :: d :: rest => some (word32 a b c d, rest)
  | _ => none

def int : Reader Int32 := do return (← word).toInt32

def single : Reader Single := do return ⟨← word⟩

def session : Reader SessionId := do return ⟨← word⟩

def room : Reader RoomId := do return ⟨← int⟩

/-- The text of some bytes: everything before the first zero byte. -/
def textOf (octets : Bytes) : String :=
  String.ofList (Utf8.decode (octets.takeWhile (· != 0)))

/-- A text field of fixed width. -/
def field (width : Nat) : Reader String := do return textOf (← bytes width)

/-- A text that takes what remains, up to a limit. -/
def tail (limit : Nat) : Reader String := fun body =>
  field (min limit body.length) body

def times (item : Reader α) : Nat → Reader (List α)
  | 0 => pure []
  | n + 1 => do
    let a ← item
    let rest ← times item n
    return a :: rest

end Reader

/-! ### Writers -/

namespace Write

/-- A truth value in one byte. -/
def flag (b : Bool) : Bytes := [if b then 1 else 0]

def word (w : UInt32) : Bytes := bytes32 w

def int (i : Int32) : Bytes := bytes32 i.toUInt32

def single (x : Single) : Bytes := bytes32 x.bits

def session (s : SessionId) : Bytes := bytes32 s.val

def room (r : RoomId) : Bytes := int r.val

/-- The bytes of a text, cut between characters to a limit. -/
def tail (limit : Nat) (text : String) : Bytes :=
  Utf8.encode (Utf8.cut limit text.toList)

/-- A text field of fixed width: the cut text, then zero bytes. -/
def field (width : Nat) (text : String) : Bytes :=
  let kept := tail width text
  kept ++ List.replicate (width - kept.length) 0

end Write

end GameServer.Wire
