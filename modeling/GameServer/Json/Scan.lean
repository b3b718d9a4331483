/-!
Reading JSON from left to right.

A scanner takes what it wants off the front of a text and hands back the rest, or stops at
the first fault.  There are three faults, and callers tell them apart: the text is no JSON,
the text is JSON but not of the wanted kind, the text ends too early.

The rules are those of `serde_json`, and the faults are its categories `Syntax`, `Data` and
`Eof`.
-/

namespace GameServer.Json

inductive Fault where
  /-- The text is not JSON. -/
  | malformed
  /-- The text is JSON, but of another kind. -/
  | mismatch
  /-- The text ends too early. -/
  | truncated
deriving DecidableEq, Repr

/-- What a scanner makes of a text: a value and the rest, or a fault. -/
abbrev Scan (α : Type) := List Char → Except Fault (α × List Char)

def isBlank (c : Char) : Bool := c = ' ' || c = '\n' || c = '\t' || c = '\r'

def skip (s : List Char) : List Char := s.dropWhile isBlank

/-- What remains of a word is there, letter for letter. -/
def word : List Char → List Char → Except Fault (List Char)
  | [], s => .ok s
  | _ :: _, [] => .error .truncated
  | e :: more, c :: rest => if c = e then word more rest else .error .malformed

/-- A mark is next, after blanks. -/
def mark (m : Char) (s : List Char) : Except Fault (List Char) :=
  match skip s with
  | [] => .error .truncated
  | c :: rest => if c = m then .ok rest else .error .malformed

/-- A whole text: one value, and nothing but blanks after it. -/
def document (scan : Scan α) (text : String) : Except Fault α := do
  let (a, rest) ← scan text.toList
  match skip rest with
  | [] => .ok a
  | _ => .error .malformed

end GameServer.Json
