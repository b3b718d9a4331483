import GameServer.Json.Text
import GameServer.Json.Number

/-!
Passing over a JSON value that nobody asked for.

It has to be well formed, but it is not kept, so it may be nested as deeply as it likes:
all that is remembered is which lists and objects are still open.

This is how `serde_json` reads a value that it ignores.
-/

namespace GameServer.Json

/-- What is open around a value. -/
inductive Enclosing where
  | list
  | object
deriving DecidableEq, Repr

def Enclosing.close : Enclosing → Char
  | list => ']'
  | object => '\x7d'

def skimString (s : List Char) : Except Fault (List Char) := do
  let (_, rest) ← pieces true s
  return rest

/-- Passes over the key of a member and the colon behind it. -/
def skimKey (s : List Char) : Except Fault (List Char) := do
  mark ':' (← skimString (← mark '"' s))

/-- Passes over what has to stand before the next value inside. -/
def skimLead : Enclosing → List Char → Except Fault (List Char)
  | .list, s => .ok s
  | .object, s => skimKey s

def skimScalar : List Char → Except Fault (List Char)
  | [] => .error .truncated
  | c :: rest =>
    if c = 'n' then word "ull".toList rest
    else if c = 't' then word "rue".toList rest
    else if c = 'f' then word "alse".toList rest
    else if c = '"' then skimString rest
    else if c = '-' then skimNumber rest
    else if c.isDigit then skimNumber (c :: rest)
    else .error .malformed

/-- Passes over the rest of a value, in at most as many steps as the first text has
    characters: either a value is next, or one has just ended inside what is open. -/
def skimFor : List Char → (ended : Bool) → List Enclosing → List Char →
    Except Fault (List Char)
  | _, true, [], s => .ok s
  | [], _, _, _ => .error .truncated
  | _ :: n, true, e :: outer, s =>
    match skip s with
    | [] => .error .truncated
    | c :: rest =>
      if c = ',' then do skimFor n false (e :: outer) (← skimLead e rest)
      else if c = e.close then skimFor n true outer rest
      else .error .malformed
  | _ :: n, false, outer, s =>
    match skip s with
    | [] => .error .truncated
    | c :: rest =>
      let enter (e : Enclosing) : Except Fault (List Char) :=
        match skip rest with
        | [] => .error .truncated
        | d :: more =>
          if d = e.close then skimFor n true outer more
          else do skimFor n false (e :: outer) (← skimLead e (d :: more))
      if c = '[' then enter .list
      else if c = '\x7b' then enter .object
      else do skimFor n true outer (← skimScalar (c :: rest))

/-- Passes over a value.  Every step takes a character at least, so the text itself is the
    measure of how many there can be; once it is used up nothing more can be next. -/
def skim (s : List Char) : Except Fault (List Char) := skimFor s false [] s

end GameServer.Json
