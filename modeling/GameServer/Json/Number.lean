import GameServer.Json.Scan

/-!
JSON numbers.

A number without fraction, exponent or sign that fits 64 bits is a natural number.  Every
other number is a double.  Of its digits as many count as fit 64 bits; what follows them
only moves the point.  The digits and the power of ten are then rounded one after the other,
which is why the result is not always the double nearest to what is written.

The rules are those of `serde_json`; `digits` is how it writes an integer.
-/

namespace GameServer.Json

/-! ### Writing -/

/-- The decimal digits of a number, in at most so many of them. -/
def digitsFor : Nat → Nat → List Char → List Char
  | 0, _, tail => tail
  | n + 1, k, tail =>
    let tail := Char.ofNat (48 + k % 10) :: tail
    if k < 10 then tail else digitsFor n (k / 10) tail

def digits (k : Nat) : List Char := digitsFor (k + 1) k []

/-! ### Numbers -/

inductive Number where
  /-- A whole number from zero up that fits 64 bits. -/
  | natural (n : Nat)
  /-- Any other number. -/
  | real (x : Float)

def maxNatural : Nat := 18446744073709551615

/-- The greatest exponent that is looked at. -/
def maxExponent : Nat := 2147483647

def Number.toFloat : Number → Float
  | natural n => (UInt64.ofNat n).toFloat
  | real x => x

def digitValue (c : Char) : Nat := c.toNat - 48

/-- Appends digits to a number as long as it fits 64 bits.  Gives the digits left over. -/
def absorb : Nat → List Char → Nat × List Char
  | k, [] => (k, [])
  | k, d :: ds =>
    if maxNatural < k * 10 + digitValue d then (k, d :: ds)
    else absorb (k * 10 + digitValue d) ds

/-! ### Scaling -/

/-- A power of ten, as near as a double comes to it. -/
def pow10 (n : Nat) : Float := Float.ofScientific 1 false n

/-- Multiplies by a power of ten, in at most so many steps.  No step goes beyond `10 ^ 308`
    either way; whatever is not zero by then and still to be made larger is too large. -/
def scaleFor : Nat → Float → Int → Except Fault Float
  | 0, _, _ => .ok 0.0
  | n + 1, x, e =>
    if e.natAbs ≤ 308 then
      if 0 ≤ e then
        let y := x * pow10 e.natAbs
        if y.isInf then .error .malformed else .ok y
      else .ok (x / pow10 e.natAbs)
    else if x == 0.0 then .ok x
    else if 0 ≤ e then .error .malformed
    else scaleFor n (x / pow10 308) (e + 308)

/-- The double of some digits and a power of ten.  The digits fit 64 bits, so three steps
    down leave nothing of them. -/
def scale (positive : Bool) (k : Nat) (e : Int) : Except Fault Float := do
  let x ← scaleFor 4 (UInt64.ofNat k).toFloat e
  return if positive then x else -x

/-! ### Reading -/

def leadingDigits (s : List Char) : List Char := s.takeWhile Char.isDigit

def afterDigits (s : List Char) : List Char := s.dropWhile Char.isDigit

/-- A text that does not begin with a digit ends here, or is something else. -/
def noDigit : List Char → Fault
  | [] => .truncated
  | _ => .malformed

/-- The number that some digits of an exponent write; beyond the greatest exponent that is
    looked at it grows no further. -/
def exponentOf (ds : List Char) : Nat :=
  ds.foldl (fun n d => min (n * 10 + digitValue d) (maxExponent + 1)) 0

/-- A number whose exponent is next, behind its `e`. -/
def exponent (positive : Bool) (k : Nat) (e : Int) (s : List Char) :
    Except Fault (Number × List Char) :=
  let (up, s) :=
    match s with
    | '+' :: rest => (true, rest)
    | '-' :: rest => (false, rest)
    | _ => (true, s)
  let ds := leadingDigits s
  if ds = [] then .error (noDigit s)
  else
    let n := exponentOf ds
    if maxExponent < n then
      if k ≠ 0 ∧ up then .error .malformed
      else .ok (.real (if positive then 0.0 else -0.0), afterDigits s)
    else do
      let x ← scale positive k (if up then e + n else e - n)
      return (.real x, afterDigits s)

def isExponent (c : Char) : Bool := c = 'e' || c = 'E'

/-- A number whose fraction is next, behind its point. -/
def fraction (positive : Bool) (k : Nat) (e : Int) (s : List Char) :
    Except Fault (Number × List Char) :=
  let ds := leadingDigits s
  if ds = [] then .error (noDigit s)
  else
    let (k, left) := absorb k ds
    let e := e - (ds.length - left.length)
    match afterDigits s with
    | c :: rest =>
      if isExponent c then exponent positive k e rest
      else do return (.real (← scale positive k e), c :: rest)
    | [] => do return (.real (← scale positive k e), [])

/-- A number whose digits have been read: `k`, and so many digits that did not fit. -/
def behindDigits (positive : Bool) (k dropped : Nat) (s : List Char) :
    Except Fault (Number × List Char) :=
  let whole : Except Fault (Number × List Char) :=
    if dropped ≠ 0 then do return (.real (← scale positive k dropped), s)
    else if positive then .ok (.natural k, s)
    else .ok (.real (-(UInt64.ofNat k).toFloat), s)
  match s with
  | c :: rest =>
    if c = '.' then fraction positive k dropped rest
    else if isExponent c then exponent positive k dropped rest
    else whole
  | [] => whole

/-- A number behind its sign.  No digit may follow a leading zero. -/
def unsigned (positive : Bool) (s : List Char) : Except Fault (Number × List Char) :=
  match leadingDigits s with
  | [] => .error (noDigit s)
  | '0' :: _ :: _ => .error .malformed
  | ds =>
    let (k, left) := absorb 0 ds
    behindDigits positive k left.length (afterDigits s)

def number (s : List Char) : Except Fault (Number × List Char) :=
  match s with
  | '-' :: rest => unsigned false rest
  | _ => unsigned true s

/-! ### Passing over -/

/-- Passes over a number behind its sign.  Only its shape matters, however large it is. -/
def skimNumber (s : List Char) : Except Fault (List Char) :=
  match leadingDigits s with
  | [] => .error .malformed
  | '0' :: _ :: _ => .error .malformed
  | _ =>
    let fractional (s : List Char) : Except Fault (List Char) :=
      match s with
      | '.' :: rest => if leadingDigits rest = [] then .error .malformed else .ok (afterDigits rest)
      | _ => .ok s
    let exponential (s : List Char) : Except Fault (List Char) :=
      match s with
      | c :: rest =>
        if isExponent c then
          let rest :=
            match rest with
            | '+' :: more => more
            | '-' :: more => more
            | _ => rest
          if leadingDigits rest = [] then .error .malformed else .ok (afterDigits rest)
        else .ok s
      | [] => .ok s
    fractional (afterDigits s) >>= exponential

end GameServer.Json
