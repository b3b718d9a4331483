import GameServer.Json.Skim

/-!
Records with known fields, out of JSON.

A record may be an object or a list.  In an object the members come in any order, unknown
ones are passed over, and a known one may come once.  In a list the values come in the order
of the fields, and there may be fewer of them.  Either way a field that is not given stays
as it was in the record one starts from.

The rules are those that `serde` derives for a structure whose fields have defaults.
-/

namespace GameServer.Json

/-! ### Single values -/

/-- The fault of a text that begins another kind of value than the wanted one.  It has to be
    read a little way to tell whether it begins any value at all. -/
def wrongKind (s : List Char) : Fault :=
  let verdict {α : Type} : Except Fault α → Fault
    | .ok _ => .mismatch
    | .error fault => fault
  match s with
  | [] => .malformed
  | c :: rest =>
    if c = 'n' then verdict (word "ull".toList rest)
    else if c = 't' then verdict (word "rue".toList rest)
    else if c = 'f' then verdict (word "alse".toList rest)
    else if c = '"' then verdict (pieces false rest)
    else if c = '-' ∨ c.isDigit then verdict (number s)
    else if c = '[' ∨ c = '\x7b' then .mismatch
    else .malformed

def anyNumber : Scan Number := fun s =>
  match skip s with
  | [] => .error .truncated
  | c :: rest =>
    if c = '-' ∨ c.isDigit then number (c :: rest) else .error (wrongKind (c :: rest))

/-- A whole number from zero up to a limit. -/
def natUpTo (limit : Nat) : Scan Nat := fun s => do
  match ← anyNumber s with
  | (.natural n, rest) => if n ≤ limit then .ok (n, rest) else .error .mismatch
  | (.real _, _) => .error .mismatch

def word32 : Scan UInt32 := fun s => do
  let (n, rest) ← natUpTo 4294967295 s
  return (UInt32.ofNat n, rest)

def word64 : Scan UInt64 := fun s => do
  let (n, rest) ← natUpTo maxNatural s
  return (UInt64.ofNat n, rest)

/-- A double; whole numbers are doubles too. -/
def double : Scan Float := fun s => do
  let (n, rest) ← anyNumber s
  return (n.toFloat, rest)

def truth : Scan Bool := fun s =>
  match skip s with
  | [] => .error .truncated
  | c :: rest =>
    if c = 't' then do return (true, ← word "rue".toList rest)
    else if c = 'f' then do return (false, ← word "alse".toList rest)
    else .error (wrongKind (c :: rest))

def string : Scan String := fun s =>
  match skip s with
  | [] => .error .truncated
  | c :: rest =>
    if c = '"' then do
      let (cs, rest) ← pieces false rest
      return (String.ofList cs, rest)
    else .error (wrongKind (c :: rest))

/-- The name of a member.  Whatever is no string cannot name one, so it is not read any
    further. -/
def key : Scan String := fun s => do
  let (cs, rest) ← pieces false (← mark '"' s)
  return (String.ofList cs, rest)

def null : Scan Unit := fun s =>
  match skip s with
  | [] => .error .truncated
  | c :: rest =>
    if c = 'n' then do return ((), ← word "ull".toList rest)
    else .error (wrongKind (c :: rest))

/-! ### Records -/

/-- A field of a record: what it is called, and how its value changes the record. -/
structure RecordField (σ : Type) where
  name : String
  scan : σ → Scan σ

def RecordField.of (name : String) (scan : Scan α) (put : α → σ → σ) : RecordField σ where
  name
  scan record s := do
    let (a, rest) ← scan s
    return (put a record, rest)

/-- Whether another element or member follows, and the text from it on.  The first needs no
    comma before it, and behind a comma there has to be one. -/
def another (close : Char) (first : Bool) (s : List Char) :
    Except Fault (Option (List Char)) :=
  match skip s with
  | [] => .error .truncated
  | c :: rest =>
    if c = close then .ok none
    else if first then .ok (some (c :: rest))
    else if c = ',' then
      match skip rest with
      | [] => .error .truncated
      | d :: more => if d = close then .error .malformed else .ok (some (d :: more))
    else .error .malformed

def elements : List (RecordField σ) → (first : Bool) → σ → Scan σ
  | [], _, record, s => .ok (record, s)
  | f :: fields, first, record, s => do
    match ← another ']' first s with
    | none => return (record, s)
    | some s =>
      let (record, rest) ← f.scan record s
      elements fields false record rest

/-- The members of an object, at most so many.  `seen` are the known names that have come. -/
def membersFor (fields : List (RecordField σ)) :
    Nat → (seen : List String) → (first : Bool) → σ → Scan σ
  | 0, _, _, _, _ => .error .truncated
  | n + 1, seen, first, record, s => do
    match ← another '\x7d' first s with
    | none => return (record, s)
    | some s =>
      let (name, rest) ← key s
      match fields.find? (·.name = name) with
      | some f =>
        if name ∈ seen then .error .mismatch
        else
          let (record, rest) ← f.scan record (← mark ':' rest)
          membersFor fields n (name :: seen) false record rest
      | none =>
        membersFor fields n seen false record (← skim (← mark ':' rest))

/-- A record, from the one that stands for no fields at all. -/
def record (fields : List (RecordField σ)) (start : σ) : Scan σ := fun s =>
  match skip s with
  | [] => .error .truncated
  | c :: rest =>
    if c = '[' then do
      let (a, rest) ← elements fields true start rest
      return (a, ← mark ']' rest)
    else if c = '\x7b' then do
      let (a, rest) ← membersFor fields (rest.length + 1) [] true start rest
      return (a, ← mark '\x7d' rest)
    else .error (wrongKind (c :: rest))

end GameServer.Json
