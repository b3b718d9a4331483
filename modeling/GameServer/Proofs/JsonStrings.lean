import GameServer.Json.Text
import Mathlib.Tactic.SplitIfs

/-!
Strings in JSON: in how many ways a text can be written, and that each of them is read.

A character may stand for itself, unless it is a quote, a backslash or a control character; some
have an escape of one letter; and any may be given by its number in hexadecimal digits, of either
case, as one unit of sixteen bits or as a pair of surrogates.  What is written by the server is the
shortest of these.
-/

namespace GameServer.Json

/-! ### How a character may stand in a string -/

inductive HexDigit : Nat → Char → Prop
  | lower {n : Nat} (h : n < 16) : HexDigit n n.digitChar
  | upper {n : Nat} (h : n < 16) : HexDigit n n.digitChar.toUpper

inductive HexUnit : Nat → List Char → Prop
  | digits {a b c d : Nat} {w x y z : Char} (ha : HexDigit a w) (hb : HexDigit b x)
      (hc : HexDigit c y) (hd : HexDigit d z) :
      HexUnit (((a * 16 + b) * 16 + c) * 16 + d) [w, x, y, z]

/-- The escapes of one letter, and what they stand for. -/
def letters : List (Char × Char) :=
  [('"', '"'), ('\\', '\\'), ('/', '/'), ('b', Char.ofNat 8), ('f', Char.ofNat 12), ('n', '\n'),
    ('r', '\r'), ('t', '\t')]

/-- The ways in which a character may stand in a string. -/
inductive SpelledChar (c : Char) : List Char → Prop
  | itself (hprintable : 32 ≤ c.toNat) (hquote : c ≠ '"') (hslash : c ≠ '\\') : SpelledChar c [c]
  | letter {letter : Char} (h : (letter, c) ∈ letters) : SpelledChar c ['\\', letter]
  | unit {t : List Char} (h : HexUnit c.toNat t) : SpelledChar c ('\\' :: 'u' :: t)
  | pair {t t' : List Char} (hlarge : 0x10000 ≤ c.toNat)
      (h : HexUnit (0xD800 + (c.toNat - 0x10000) / 1024) t)
      (h' : HexUnit (0xDC00 + (c.toNat - 0x10000) % 1024) t') :
      SpelledChar c ('\\' :: 'u' :: t ++ '\\' :: 'u' :: t')

inductive Spelled : List Char → List Char → Prop
  | nil : Spelled [] []
  | cons {c : Char} {cs t more : List Char} (hc : SpelledChar c t) (hcs : Spelled cs more) :
      Spelled (c :: cs) (t ++ more)

/-! ### Reading -/

variable {n : Nat} {c : Char} {cs t rest : List Char}

theorem hexValue_of (h : HexDigit n c) : hexValue c = some n := by
  have hlower : ∀ n < 16, hexValue n.digitChar = some n := by decide
  have hupper : ∀ n < 16, hexValue n.digitChar.toUpper = some n := by decide
  cases h with
  | lower h => exact hlower n h
  | upper h => exact hupper n h

theorem hexUnit_append (h : HexUnit n t) : hexUnit (t ++ rest) = .ok (n, rest) := by
  cases h with
  | digits ha hb hc hd =>
    simp only [hexUnit, List.cons_append, List.nil_append, hexValue_of ha, hexValue_of hb,
      hexValue_of hc, hexValue_of hd]

/-- No character is half of a pair. -/
theorem isLeading_toNat (c : Char) : isLeading c.toNat = false ∧ isTrailing c.toNat = false := by
  have hvalid : c.toNat < 0xD800 ∨ 0xDFFF < c.toNat ∧ c.toNat < 0x110000 := c.valid
  simp only [isLeading, isTrailing, Bool.and_eq_false_iff, decide_eq_false_iff_not]
  omega

theorem unicodeEscape_unit (h : HexUnit c.toNat t) : unicodeEscape (t ++ rest) = .ok (c, rest) := by
  obtain ⟨hleading, htrailing⟩ := isLeading_toNat c
  simp only [unicodeEscape, hexUnit_append h, bind, Except.bind, hleading, htrailing,
    Bool.false_eq_true, if_false, Char.ofNat_toNat]

theorem unicodeEscape_pair {t' : List Char} (hlarge : 0x10000 ≤ c.toNat)
    (h : HexUnit (0xD800 + (c.toNat - 0x10000) / 1024) t)
    (h' : HexUnit (0xDC00 + (c.toNat - 0x10000) % 1024) t') :
    unicodeEscape (t ++ '\\' :: 'u' :: (t' ++ rest)) = .ok (c, rest) := by
  have hvalid : c.toNat < 0xD800 ∨ 0xDFFF < c.toNat ∧ c.toNat < 0x110000 := c.valid
  have hleading : isLeading (0xD800 + (c.toNat - 0x10000) / 1024) = true := by
    simp only [isLeading, Bool.and_eq_true, decide_eq_true_eq]
    omega
  have hnot : isTrailing (0xD800 + (c.toNat - 0x10000) / 1024) = false := by
    simp only [isTrailing, Bool.and_eq_false_iff, decide_eq_false_iff_not]
    omega
  have htrailing : isTrailing (0xDC00 + (c.toNat - 0x10000) % 1024) = true := by
    simp only [isTrailing, Bool.and_eq_true, decide_eq_true_eq]
    omega
  have hvalue : 0x10000 + (0xD800 + (c.toNat - 0x10000) / 1024 - 0xD800) * 1024 +
      (0xDC00 + (c.toNat - 0x10000) % 1024 - 0xDC00) = c.toNat := by omega
  simp only [unicodeEscape, hexUnit_append h, hexUnit_append h', bind, Except.bind, hleading, hnot,
    htrailing, exactly, Bool.false_eq_true, if_false, if_true, hvalue, Char.ofNat_toNat]

theorem escape_letter {letter : Char} (h : (letter, c) ∈ letters) :
    escape false (letter :: rest) = .ok (c, rest) := by
  have hescaped : ∀ entry ∈ letters, escaped entry.1 = some entry.2 := by decide
  simp only [escape, hescaped (letter, c) h]

/-- **Every way of writing a character is read as that character.** -/
theorem piece_spelled (h : SpelledChar c t) : piece false (t ++ rest) = .ok (some c, rest) := by
  cases h with
  | itself hprintable hquote hslash =>
    simp only [piece, List.cons_append, List.nil_append, if_neg hquote, if_neg hslash,
      if_neg (Nat.not_lt.mpr hprintable)]
  | letter h =>
    simp only [piece, List.cons_append, List.nil_append, escape_letter h]
    rfl
  | unit h =>
    have hescape : unicodeEscape (_ ++ rest) = .ok (c, rest) := unicodeEscape_unit h
    simp only [piece, List.cons_append, escape, hescape]
    rfl
  | pair hlarge h h' =>
    have hescape : unicodeEscape (_ ++ '\\' :: 'u' :: (_ ++ rest)) = .ok (c, rest) :=
      unicodeEscape_pair hlarge h h'
    simp only [piece, List.cons_append, List.append_assoc, escape, hescape]
    rfl

theorem SpelledChar.length_pos (h : SpelledChar c t) : 0 < t.length := by
  cases h <;> simp

/-- **Every way of writing a string is read as that string**, up to the quote behind it. -/
theorem pieces_spelled (h : Spelled cs t) : pieces false (t ++ '"' :: rest) = .ok (cs, rest) := by
  suffices ∀ fuel : List Char, t.length < fuel.length →
      piecesFor false fuel (t ++ '"' :: rest) = .ok (cs, rest) from
    this _ (by rw [List.length_append, List.length_cons]; omega)
  -- every way of writing a character is at least one character long, so the bound is never met
  induction h with
  | nil =>
    rintro (_ | ⟨_, fuel⟩) hfuel
    · exact absurd hfuel (Nat.not_lt_zero _)
    · rfl
  | cons hc _ ih =>
    rintro (_ | ⟨_, fuel⟩) hfuel
    · exact absurd hfuel (Nat.not_lt_zero _)
    · have hpos := hc.length_pos
      rw [List.length_append, List.length_cons] at hfuel
      simp only [piecesFor, List.append_assoc, piece_spelled hc, bind, Except.bind,
        ih fuel (by omega)]
      rfl

/-! ### Writing -/

theorem hexDigit_hexDigit (h : n < 16) : HexDigit n (hexDigit n) := by
  have hsame : ∀ n < 16, hexDigit n = n.digitChar := by decide
  rw [hsame n h]
  exact .lower h

theorem mem_letters_of_shortEscape {letter : Char} (h : shortEscape c = some letter) :
    (letter, c) ∈ letters := by
  have hchar (n : Nat) (hn : c.toNat = n) : c = Char.ofNat n := by rw [← hn, Char.ofNat_toNat]
  unfold shortEscape at h
  split_ifs at h with hquote hslash hbackspace htab hline hfeed hreturn <;> cases h
  · rw [hquote]
    decide
  · rw [hslash]
    decide
  · rw [hchar 8 hbackspace]
    decide
  · rw [hchar 9 htab]
    decide
  · rw [hchar 10 hline]
    decide
  · rw [hchar 12 hfeed]
    decide
  · rw [hchar 13 hreturn]
    decide

/-- **What is written for a character is one of the ways.** -/
theorem spelled_quoteChar (c : Char) : SpelledChar c (quoteChar c) := by
  unfold quoteChar
  split
  · next letter hletter => exact .letter (mem_letters_of_shortEscape hletter)
  · next hnone =>
    split
    · next hcontrol =>
      have hzero : HexDigit 0 '0' := .lower (by decide)
      have hunit := HexUnit.digits hzero hzero
        (hexDigit_hexDigit (n := c.toNat / 16) (by omega))
        (hexDigit_hexDigit (n := c.toNat % 16) (by omega))
      have hvalue : ((0 * 16 + 0) * 16 + c.toNat / 16) * 16 + c.toNat % 16 = c.toNat := by omega
      rw [hvalue] at hunit
      exact .unit hunit
    · next hprintable =>
      refine .itself (Nat.le_of_not_lt hprintable) ?_ ?_
      · rintro rfl
        cases hnone
      · rintro rfl
        cases hnone

theorem spelled_quote (cs : List Char) : Spelled cs (cs.flatMap quoteChar) := by
  induction cs with
  | nil => exact .nil
  | cons c cs ih => exact .cons (spelled_quoteChar c) ih

end GameServer.Json
