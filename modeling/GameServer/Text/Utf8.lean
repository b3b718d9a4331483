/-!
UTF-8, as the wire carries it.

Text is written out character by character and read back octet by octet.  Reading
never fails: what is not well formed becomes the replacement character, once for
every maximal ill-formed piece, that is, once for the longest run of octets that
could still have begun a character.  The reader is therefore a machine that holds at
most one character begun; an octet that cannot continue that character ends the
piece and is looked at afresh.

Cutting text to a byte limit keeps whole characters only.

The reader is the lossy one that `fixed_str` of `skirmish-protocol` uses, and `cut` is
`truncate_utf8` of the same package.
-/

namespace GameServer.Utf8

/-! ### Writing -/

def encode (cs : List Char) : List UInt8 := cs.flatMap String.utf8EncodeChar

/-! ### Reading -/

/-- Stands for a piece that is not well formed. -/
def replacement : Char := '\uFFFD'

/-- A character begun but not finished. -/
structure Begun where
  /-- The bits read so far. -/
  value : Nat
  /-- How many octets are still owed. -/
  owed : Nat
  /-- The least octet that may come next. -/
  low : UInt8
  /-- The greatest octet that may come next. -/
  high : UInt8
deriving DecidableEq, Repr

/-- What an octet says when no character is begun.  The ranges leave out overlong
    forms, surrogates and everything past the last code point, so an octet that
    continues a character never has to be taken back. -/
def first (b : UInt8) : List Char × Option Begun :=
  if b < 0x80 then ([Char.ofNat b.toNat], none)
  else if b < 0xC2 then ([replacement], none)
  else if b < 0xE0 then ([], some ⟨b.toNat % 32, 1, 0x80, 0xBF⟩)
  else if b < 0xF0 then
    ([], some ⟨b.toNat % 16, 2,
      if b = 0xE0 then 0xA0 else 0x80, if b = 0xED then 0x9F else 0xBF⟩)
  else if b < 0xF5 then
    ([], some ⟨b.toNat % 8, 3,
      if b = 0xF0 then 0x90 else 0x80, if b = 0xF4 then 0x8F else 0xBF⟩)
  else ([replacement], none)

/-- One octet: the characters it settles, and the character it leaves begun. -/
def step : Option Begun → UInt8 → List Char × Option Begun
  | none, b => first b
  | some p, b =>
    if p.low ≤ b ∧ b ≤ p.high then
      let value := p.value * 64 + b.toNat % 64
      if p.owed ≤ 1 then ([Char.ofNat value], none)
      else ([], some ⟨value, p.owed - 1, 0x80, 0xBF⟩)
    else
      let (settled, begun) := first b
      (replacement :: settled, begun)

/-- The characters of the octets that follow a begun character.  A character that the
    text ends in the middle of is one more ill-formed piece. -/
def decodeFrom : Option Begun → List UInt8 → List Char
  | none, [] => []
  | some _, [] => [replacement]
  | begun, b :: rest =>
    let (settled, next) := step begun b
    settled ++ decodeFrom next rest

def decode (octets : List UInt8) : List Char := decodeFrom none octets

/-! ### Cutting -/

/-- The longest run of whole characters off the front whose octets fit a limit. -/
def cut : Nat → List Char → List Char
  | _, [] => []
  | limit, c :: cs => if c.utf8Size ≤ limit then c :: cut (limit - c.utf8Size) cs else []

end GameServer.Utf8
