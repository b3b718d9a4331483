import GameServer.Proofs.JsonStrings
import GameServer.Json.Record
import Mathlib.Data.List.Perm.Basic
import Mathlib.Data.List.TakeWhile

/-!
Values in JSON: in how many ways they can be written, and that each of them is read.

A scanner reads a form if it takes every text of that form off the front of whatever it stands in
front of, with the blanks before it.  It need not look at what follows, except that a number ends
only where no more of it can follow; behind a value there is always the end of the text, a blank, a
comma or a bracket.  Whole numbers have one form, strings have many, and an object has one for every
order of its members and every way of putting blanks between them.
-/

namespace GameServer.Json

/-! ### Blanks -/

/-- The characters that may stand between tokens. -/
def blankChars : List Char := [' ', '\n', '\t', '\r']

def Blanks (s : List Char) : Prop := ∀ c ∈ s, c ∈ blankChars

variable {blanks text rest s : List Char} {c : Char}

theorem isBlank_iff : isBlank c = true ↔ c ∈ blankChars := by
  simp [isBlank, blankChars, or_assoc]

theorem blanks_nil : Blanks [] := fun _ hc => absurd hc List.not_mem_nil

theorem skip_blanks (hblanks : Blanks blanks) : skip (blanks ++ s) = skip s :=
  List.dropWhile_append_of_pos fun _ hc => isBlank_iff.mpr (hblanks _ hc)

theorem skip_all (hblanks : Blanks blanks) : skip blanks = [] :=
  List.dropWhile_eq_nil_iff.mpr fun _ hc => isBlank_iff.mpr (hblanks _ hc)

theorem skip_cons (hc : isBlank c = false) : skip (c :: s) = c :: s :=
  List.dropWhile_cons_of_neg (by simp [hc])

/-- What may stand behind a value: the end, a blank, a comma or a closing bracket. -/
def Stops (rest : List Char) : Prop := ∀ c ∈ rest.head?, c ∈ blankChars ++ [',', ']', '\x7d']

theorem stops_blanks (hblanks : Blanks blanks) (hrest : Stops rest) : Stops (blanks ++ rest) := by
  cases blanks with
  | nil => exact hrest
  | cons b more =>
    intro c hc
    obtain rfl := Option.some.inj hc
    exact List.mem_append_left _ (hblanks b List.mem_cons_self)

/-- No number goes on where a value ends. -/
theorem Stops.not_number (hrest : Stops rest) (hc : c ∈ rest.head?) :
    c.isDigit = false ∧ c ≠ '.' ∧ isExponent c = false := by
  have hall : ∀ c ∈ blankChars ++ [',', ']', '\x7d'],
      c.isDigit = false ∧ c ≠ '.' ∧ isExponent c = false := by
    simp only [blankChars, List.cons_append, List.nil_append, List.forall_mem_cons,
      List.not_mem_nil, false_implies, implies_true, and_true]
    decide
  exact hall c (hrest c hc)

/-! ### Forms -/

/-- The texts that may stand for a value. -/
abbrev Form := List Char → Prop

/-- A scanner takes every text of a form off the front, and makes the same value of each. -/
def Reads {α : Type} (scan : Scan α) (form : Form) (a : α) : Prop :=
  ∀ blanks text rest, Blanks blanks → form text → Stops rest →
    scan (blanks ++ (text ++ rest)) = .ok (a, rest)

def Quoted (text : String) : Form := fun t =>
  ∃ inner, Spelled text.toList inner ∧ t = '"' :: (inner ++ ['"'])

def Whole (n : Nat) : Form := fun t => t = Nat.toDigits 10 n

def Truth (b : Bool) : Form := fun t => t = (if b then "true" else "false").toList

/-! ### Strings and truth values -/

theorem reads_string (text : String) : Reads string (Quoted text) text := by
  rintro blanks _ rest hblanks ⟨inner, hinner, rfl⟩ -
  rw [string, skip_blanks hblanks]
  simp only [List.cons_append, List.append_assoc, List.nil_append, skip_cons (c := '"') rfl,
    if_true, pieces_spelled hinner, bind, Except.bind, String.ofList_toList]
  rfl

theorem key_quoted {name : String} {inner : List Char} (hblanks : Blanks blanks)
    (hinner : Spelled name.toList inner) :
    key (blanks ++ '"' :: (inner ++ '"' :: rest)) = .ok (name, rest) := by
  simp only [key, mark, skip_blanks hblanks, skip_cons (c := '"') rfl, if_true, bind, Except.bind,
    pieces_spelled hinner, String.ofList_toList]
  rfl

theorem mark_blanks {m : Char} (hblanks : Blanks blanks) (hm : isBlank m = false) :
    mark m (blanks ++ m :: rest) = .ok rest := by
  simp only [mark, skip_blanks hblanks, skip_cons hm, if_true]

theorem reads_truth (b : Bool) : Reads truth (Truth b) b := by
  rintro blanks _ rest hblanks rfl -
  rw [truth, skip_blanks hblanks]
  cases b <;> rfl

/-- What is written for a string is one of its forms. -/
theorem quoted_quote (text : String) : Quoted text (quote text) :=
  ⟨_, spelled_quote text.toList, rfl⟩

/-! ### Numbers -/

section Numbers

variable {n : Nat} {ds : List Char}

/-- Digits that write a number have no leading zero, unless it is the only one. -/
theorem toDigits_ne_zero_cons (n : Nat) (more : List Char) :
    Nat.toDigits 10 n ≠ '0' :: c :: more := by
  -- a zero in front would be in front of the number without its last digit, too
  induction n using Nat.base_induction 10 (by decide) generalizing c more with
  | single m hm =>
    rw [Nat.toDigits_of_lt_base hm]
    simp
  | digit m k hk hm ih =>
    rw [← Nat.toDigits_append_toDigits (by decide) hm hk, Nat.toDigits_of_lt_base hk]
    intro heq
    cases hfront : Nat.toDigits 10 m with
    | nil => exact Nat.toDigits_ne_nil hfront
    | cons d ds =>
      rw [hfront, List.cons_append] at heq
      obtain ⟨rfl, -⟩ := List.cons_eq_cons.mp heq
      cases ds with
      | nil =>
        have hvalue := Nat.ofDigitChars_ten_toDigits (n := m)
        rw [hfront] at hvalue
        exact hm.ne hvalue
      | cons e ds => exact ih ds hfront

theorem le_ofDigitChars (ds : List Char) (n : Nat) : n ≤ Nat.ofDigitChars 10 ds n := by
  rw [Nat.ofDigitChars_eq_ofDigitChars_zero]
  have hpow : 0 < 10 ^ ds.length := Nat.pow_pos (by decide)
  have := Nat.le_mul_of_pos_left n hpow
  omega

/-- Digits are taken in to the last one while the number fits. -/
theorem absorb_of_le (hfits : Nat.ofDigitChars 10 ds n ≤ maxNatural) :
    absorb n ds = (Nat.ofDigitChars 10 ds n, []) := by
  induction ds generalizing n with
  | nil => rfl
  | cons d ds ih =>
    have hvalue : n * 10 + digitValue d = 10 * n + (d.toNat - '0'.toNat) := by
      rw [Nat.mul_comm, digitValue]
      rfl
    rw [Nat.ofDigitChars_cons, ← hvalue] at hfits ⊢
    have hnext := Nat.le_trans (le_ofDigitChars ds (n * 10 + digitValue d)) hfits
    rw [absorb, if_neg (Nat.not_lt.mpr hnext), ih hfits]

theorem isDigit_of_toDigits (hc : c ∈ Nat.toDigits 10 n) : c.isDigit = true :=
  Nat.isDigit_of_mem_toDigits (by decide) (by decide) hc

theorem leadingDigits_toDigits (hrest : Stops rest) :
    leadingDigits (Nat.toDigits 10 n ++ rest) = Nat.toDigits 10 n ∧
      afterDigits (Nat.toDigits 10 n ++ rest) = rest := by
  have hnone : leadingDigits rest = [] ∧ afterDigits rest = rest := by
    cases rest with
    | nil => exact ⟨rfl, rfl⟩
    | cons c more =>
      have hc := (hrest.not_number (c := c) rfl).1
      simp [leadingDigits, afterDigits, hc]
  constructor
  · rw [leadingDigits, List.takeWhile_append_of_pos fun _ hc => isDigit_of_toDigits hc,
      ← leadingDigits, hnone.1, List.append_nil]
  · rw [afterDigits, List.dropWhile_append_of_pos fun _ hc => isDigit_of_toDigits hc,
      ← afterDigits, hnone.2]

/-- A number in decimal digits is read as it is, up to the greatest. -/
theorem unsigned_toDigits (hn : n ≤ maxNatural) (hrest : Stops rest) :
    unsigned true (Nat.toDigits 10 n ++ rest) = .ok (.natural n, rest) := by
  have habsorb : absorb 0 (Nat.toDigits 10 n) = (n, []) := by
    rw [absorb_of_le (by rwa [Nat.ofDigitChars_ten_toDigits]), Nat.ofDigitChars_ten_toDigits]
  have hbehind : behindDigits true n 0 rest = .ok (.natural n, rest) := by
    cases rest with
    | nil => rfl
    | cons c more =>
      obtain ⟨-, hpoint, hexponent⟩ := hrest.not_number (c := c) rfl
      simp [behindDigits, hpoint, hexponent]
  obtain ⟨hleading, hafter⟩ := leadingDigits_toDigits (n := n) hrest
  unfold unsigned
  rw [hleading, hafter]
  split
  · next hnil => exact absurd hnil Nat.toDigits_ne_nil
  · next hzero => exact absurd hzero (toDigits_ne_zero_cons n _)
  · rw [habsorb]
    exact hbehind

theorem not_blank_of_isDigit (hc : c.isDigit = true) : isBlank c = false ∧ c ≠ '-' := by
  constructor
  · rw [Bool.eq_false_iff]
    intro hblank
    have hall : ∀ c ∈ blankChars, c.isDigit = false := by
      simp only [blankChars, List.forall_mem_cons, List.not_mem_nil,
        false_implies, implies_true, and_true]
      decide
    exact Bool.false_ne_true ((hall c (isBlank_iff.mp hblank)).symm.trans hc)
  · rintro rfl
    exact absurd hc (by decide)

theorem reads_anyNumber (hn : n ≤ maxNatural) : Reads anyNumber (Whole n) (.natural n) := by
  rintro blanks _ rest hblanks rfl hrest
  have hunsigned := unsigned_toDigits hn hrest
  cases hds : Nat.toDigits 10 n with
  | nil => exact absurd hds Nat.toDigits_ne_nil
  | cons d ds =>
    have hdigit : d.isDigit = true := isDigit_of_toDigits (n := n) (hds ▸ List.mem_cons_self)
    obtain ⟨hblank, hsign⟩ := not_blank_of_isDigit hdigit
    rw [hds, List.cons_append] at hunsigned
    rw [anyNumber, skip_blanks hblanks, List.cons_append, skip_cons hblank]
    simp only [hdigit, or_true, if_true]
    unfold number
    split
    · next heq => exact absurd (List.cons_eq_cons.mp heq).1 hsign
    · exact hunsigned

theorem reads_natUpTo {limit : Nat} (hn : n ≤ limit) (hlimit : limit ≤ maxNatural) :
    Reads (natUpTo limit) (Whole n) n := by
  intro blanks text rest hblanks htext hrest
  have hread := reads_anyNumber (Nat.le_trans hn hlimit) blanks text rest hblanks htext hrest
  simp only [natUpTo, hread, bind, Except.bind, if_pos hn]

theorem reads_word32 (w : UInt32) : Reads word32 (Whole w.toNat) w := by
  intro blanks text rest hblanks htext hrest
  have hmost : w.toNat ≤ 4294967295 := Nat.le_of_lt_succ w.toNat_lt
  have hread := reads_natUpTo hmost (by decide) blanks text rest hblanks htext hrest
  simp only [word32, hread, bind, Except.bind, UInt32.ofNat_toNat]
  rfl

theorem reads_word64 (w : UInt64) : Reads word64 (Whole w.toNat) w := by
  intro blanks text rest hblanks htext hrest
  have hmost : w.toNat ≤ maxNatural := Nat.le_of_lt_succ w.toNat_lt
  have hread := reads_natUpTo hmost (Nat.le_refl _) blanks text rest hblanks htext hrest
  simp only [word64, hread, bind, Except.bind, UInt64.ofNat_toNat]
  rfl

/-- What is written for a number is its form. -/
theorem whole_digits (n : Nat) : Whole n (digits n) := by
  have hdigit : ∀ d < 10, Char.ofNat (48 + d) = Nat.digitChar d := by decide
  suffices ∀ fuel k tail, k < fuel → digitsFor fuel k tail = Nat.toDigits 10 k ++ tail by
    rw [Whole, digits, this _ _ _ (Nat.lt_succ_self n), List.append_nil]
  intro fuel
  induction fuel with
  | zero => exact fun k tail hk => absurd hk (Nat.not_lt_zero k)
  | succ fuel ih =>
    intro k tail hk
    rw [digitsFor, hdigit (k % 10) (Nat.mod_lt k (by decide))]
    split
    · next hlast =>
      rw [Nat.toDigits_of_lt_base hlast, Nat.mod_eq_of_lt hlast, List.singleton_append]
    · next hmore =>
      rw [ih (k / 10) _ (by omega), Nat.toDigits_of_base_le (by decide) (Nat.le_of_not_lt hmore),
        List.append_assoc, List.singleton_append]

end Numbers

end GameServer.Json
