import GameServer.Json.Scan

/-!
JSON strings, written and read.

What has to be escaped is written in the shortest form there is for it; everything else
stands for itself.  Reading takes every form, and wants surrogates in pairs.  A string that
nobody will look at is read more leniently: its escapes need not make sense as characters.

The rules are those of `serde_json`; `quote` is how it writes a string.
-/

namespace GameServer.Json

/-! ### Writing -/

def hexDigit (n : Nat) : Char :=
  if n < 10 then Char.ofNat (48 + n) else Char.ofNat (87 + n)

/-- The letter of a short escape. -/
def shortEscape (c : Char) : Option Char :=
  if c = '"' then some '"'
  else if c = '\\' then some '\\'
  else if c.toNat = 8 then some 'b'
  else if c.toNat = 9 then some 't'
  else if c.toNat = 10 then some 'n'
  else if c.toNat = 12 then some 'f'
  else if c.toNat = 13 then some 'r'
  else none

def quoteChar (c : Char) : List Char :=
  match shortEscape c with
  | some letter => ['\\', letter]
  | none =>
    if c.toNat < 32 then
      ['\\', 'u', '0', '0', hexDigit (c.toNat / 16), hexDigit (c.toNat % 16)]
    else [c]

def quote (text : String) : List Char := '"' :: text.toList.flatMap quoteChar ++ ['"']

/-! ### Reading -/

def hexValue (c : Char) : Option Nat :=
  if c.isDigit then some (c.toNat - 48)
  else if 'a' ≤ c ∧ c ≤ 'f' then some (c.toNat - 87)
  else if 'A' ≤ c ∧ c ≤ 'F' then some (c.toNat - 55)
  else none

/-- Four hexadecimal digits.  Where fewer than four bytes are left at all, the text is
    merely too short. -/
def hexUnit (s : List Char) : Except Fault (Nat × List Char) :=
  let left := (s.take 4).foldr (fun c n => c.utf8Size + n) 0
  let short := if left < 4 then Fault.truncated else Fault.malformed
  match s with
  | a :: b :: c :: d :: rest =>
    match hexValue a, hexValue b, hexValue c, hexValue d with
    | some a, some b, some c, some d => .ok (((a * 16 + b) * 16 + c) * 16 + d, rest)
    | _, _, _, _ => .error short
  | _ => .error short

/-- The first of a pair of surrogates. -/
def isLeading (n : Nat) : Bool := 0xD800 ≤ n && n < 0xDC00

/-- The second of a pair of surrogates. -/
def isTrailing (n : Nat) : Bool := 0xDC00 ≤ n && n < 0xE000

/-- A character that has to be next, with no blanks before it. -/
def exactly (m : Char) : List Char → Except Fault (List Char)
  | [] => .error .truncated
  | c :: rest => if c = m then .ok rest else .error .malformed

/-- The character of a numeric escape, behind its `u`. -/
def unicodeEscape (s : List Char) : Except Fault (Char × List Char) := do
  let (n, rest) ← hexUnit s
  if isTrailing n then .error .malformed
  else if isLeading n then
    let rest ← exactly '\\' rest
    let rest ← exactly 'u' rest
    let (m, rest) ← hexUnit rest
    if isTrailing m then
      .ok (Char.ofNat (0x10000 + (n - 0xD800) * 1024 + (m - 0xDC00)), rest)
    else .error .malformed
  else .ok (Char.ofNat n, rest)

def escaped (letter : Char) : Option Char :=
  if letter = '"' ∨ letter = '\\' ∨ letter = '/' then some letter
  else if letter = 'b' then some (Char.ofNat 8)
  else if letter = 't' then some '\t'
  else if letter = 'n' then some '\n'
  else if letter = 'f' then some (Char.ofNat 12)
  else if letter = 'r' then some '\r'
  else none

def escape (lenient : Bool) : List Char → Except Fault (Char × List Char)
  | [] => .error .truncated
  | letter :: rest =>
    match escaped letter with
    | some c => .ok (c, rest)
    | none =>
      if letter = 'u' then
        if lenient then (hexUnit rest).map fun (n, rest) => (Char.ofNat n, rest)
        else unicodeEscape rest
      else .error .malformed

/-- The next character of a string, or its end. -/
def piece (lenient : Bool) : List Char → Except Fault (Option Char × List Char)
  | [] => .error .truncated
  | c :: rest =>
    if c = '"' then .ok (none, rest)
    else if c = '\\' then (escape lenient rest).map fun (c, rest) => (some c, rest)
    else if c.toNat < 32 then .error .malformed
    else .ok (some c, rest)

/-- The characters of a string up to its end, in at most as many pieces as the first text
    has characters. -/
def piecesFor (lenient : Bool) :
    List Char → List Char → Except Fault (List Char × List Char)
  | [], _ => .error .truncated
  | _ :: n, s => do
    match ← piece lenient s with
    | (none, rest) => return ([], rest)
    | (some c, rest) =>
      let (cs, rest) ← piecesFor lenient n rest
      return (c :: cs, rest)

/-- The characters of a string, behind its opening quote.  Every piece takes a character
    at least, so the text itself is the measure of how many there can be; that saves
    counting what stands behind the string. -/
def pieces (lenient : Bool) (s : List Char) : Except Fault (List Char × List Char) :=
  piecesFor lenient s s

end GameServer.Json
