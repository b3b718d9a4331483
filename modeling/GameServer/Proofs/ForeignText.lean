import GameServer.Proofs.WholeText
import Mathlib.Algebra.Ring.Nat

/-!
Text that others have written: whatever the octets, reading them gives characters.

Nobody vouches for what a client sends as text.  It may be no text at all, or text that a field
has cut in the middle of a character.  Still no more characters are read than there are octets, and
the zero character only where there is a zero octet: the ranges for the octets of a character leave
out its overlong forms, the surrogates, and everything past the last code point.
-/

namespace GameServer

namespace Utf8

/-! ### Characters begun -/

namespace Begun

/-- The least value that a character begun can still come to. -/
def least (p : Begun) : Nat := (p.value * 64 + (p.low.toNat - 0x80)) * 64 ^ (p.owed - 1)

/-- What lies behind the greatest value that a character begun can still come to. -/
def bound (p : Begun) : Nat := (p.value * 64 + (p.high.toNat - 0x80) + 1) * 64 ^ (p.owed - 1)

/-- Whatever octets come next, a character begun comes to a code point, and not to the zero
    character. -/
structure Sound (p : Begun) : Prop where
  low : 0x80 ≤ p.low.toNat
  high : p.high.toNat ≤ 0xBF
  positive : 0 < p.least
  valid : p.bound ≤ 0xD800 ∨ 0xDFFF < p.least ∧ p.bound ≤ 0x110000

variable {p : Begun} {b : UInt8}

/-- One more octet narrows the values that a character can come to. -/
theorem narrows (hlow : p.low ≤ b) (hhigh : b ≤ p.high) (h : p.Sound) :
    p.least ≤ (p.value * 64 + b.toNat % 64) * 64 ^ (p.owed - 1) ∧
      (p.value * 64 + b.toNat % 64 + 1) * 64 ^ (p.owed - 1) ≤ p.bound := by
  have hleast := h.low
  have hmost := h.high
  rw [UInt8.le_iff_toNat_le] at hlow hhigh
  constructor
  · apply Nat.mul_le_mul_right
    omega
  · apply Nat.mul_le_mul_right
    omega

/-- A character that is finished is a code point, and not the zero character. -/
theorem Sound.finish (h : p.Sound) (hlow : p.low ≤ b) (hhigh : b ≤ p.high) (howed : p.owed ≤ 1) :
    Char.ofNat (p.value * 64 + b.toNat % 64) ≠ nul := by
  obtain ⟨hleast, hbound⟩ := narrows hlow hhigh h
  have hlast : p.owed - 1 = 0 := by omega
  rw [hlast, Nat.pow_zero, Nat.mul_one] at hleast hbound
  have hpositive := h.positive
  have hvalid : (p.value * 64 + b.toNat % 64).isValidChar := by
    rcases h.valid with hbelow | ⟨habove, hbelow⟩
    · exact .inl (by omega)
    · exact .inr ⟨by omega, by omega⟩
  intro hnul
  have hzero : p.value * 64 + b.toNat % 64 = 0 := by
    have hsame := congrArg Char.toNat hnul
    rwa [Char.ofNat, dif_pos hvalid] at hsame
  omega

/-- A character that owes more stays sound. -/
theorem Sound.more (h : p.Sound) (hlow : p.low ≤ b) (hhigh : b ≤ p.high) (howed : ¬ p.owed ≤ 1) :
    Sound ⟨p.value * 64 + b.toNat % 64, p.owed - 1, 0x80, 0xBF⟩ := by
  obtain ⟨hleast, hbound⟩ := narrows hlow hhigh h
  obtain ⟨n, hn⟩ : ∃ n, p.owed - 1 = n + 1 := ⟨p.owed - 2, by omega⟩
  rw [hn, Nat.pow_succ', ← Nat.mul_assoc] at hleast hbound
  rw [hn]
  have hpositive := h.positive
  have hleast' : p.least ≤ least ⟨p.value * 64 + b.toNat % 64, n + 1, 0x80, 0xBF⟩ := by
    simpa only [least, UInt8.reduceToNat, Nat.sub_self, Nat.add_zero, Nat.add_sub_cancel]
      using hleast
  have hbound' : bound ⟨p.value * 64 + b.toNat % 64, n + 1, 0x80, 0xBF⟩ ≤ p.bound := by
    rw [Nat.add_mul (p.value * 64 + b.toNat % 64)] at hbound
    simpa only [bound, UInt8.reduceToNat, Nat.add_sub_cancel] using hbound
  refine ⟨Nat.le_refl 0x80, Nat.le_refl 0xBF, by omega, ?_⟩
  rcases h.valid with hbelow | ⟨habove, hbelow⟩
  · exact .inl (Nat.le_trans hbound' hbelow)
  · exact .inr ⟨Nat.lt_of_lt_of_le habove hleast', Nat.le_trans hbound' hbelow⟩

end Begun

/-! ### One octet -/

/-- A range is narrowed behind one of the first octets. -/
theorem toNat_narrowed (b lead narrow wide : UInt8) :
    (if b = lead then narrow else wide).toNat = narrow.toNat ∧ b.toNat = lead.toNat ∨
      (if b = lead then narrow else wide).toNat = wide.toNat ∧ b.toNat ≠ lead.toNat := by
  split
  · next hlead => exact .inl ⟨rfl, congrArg UInt8.toNat hlead⟩
  · next hother => exact .inr ⟨rfl, fun h => hother (UInt8.toNat_inj.mp h)⟩

/-- What an octet says where no character is begun: it settles one character, or it begins one. -/
theorem first_cases (b : UInt8) :
    (b.toNat < 0x80 ∧ first b = ([Char.ofNat b.toNat], none)) ∨
      first b = ([replacement], none) ∨ ∃ p, first b = ([], some p) ∧ p.Sound := by
  have hb := b.toNat_lt
  by_cases hone : b.toNat < 0x80
  · exact .inl ⟨hone, first_of_one hone⟩
  right
  by_cases hlone : b.toNat < 0xC2
  · left
    simp only [first, UInt8.lt_iff_toNat_lt, UInt8.reduceToNat]
    rw [if_neg hone, if_pos hlone]
  by_cases hbeyond : 0xF5 ≤ b.toNat
  · left
    simp only [first, UInt8.lt_iff_toNat_lt, UInt8.reduceToNat]
    rw [if_neg (by omega), if_neg (by omega), if_neg (by omega), if_neg (by omega),
      if_neg (by omega)]
  right
  by_cases htwo : b.toNat < 0xE0
  · refine ⟨_, first_of_two (by omega) htwo, ?_⟩
    constructor <;> simp only [Begun.least, Begun.bound, UInt8.reduceToNat] <;> omega
  by_cases hthree : b.toNat < 0xF0
  · refine ⟨_, first_of_three (by omega) hthree, ?_⟩
    have hlow := toNat_narrowed b 0xE0 0xA0 0x80
    have hhigh := toNat_narrowed b 0xED 0x9F 0xBF
    generalize (if b = 0xE0 then 0xA0 else 0x80 : UInt8) = low at hlow
    generalize (if b = 0xED then 0x9F else 0xBF : UInt8) = high at hhigh
    simp only [UInt8.reduceToNat] at hlow hhigh
    constructor <;> simp only [Begun.least, Begun.bound] <;> omega
  · refine ⟨_, first_of_four (by omega) (by omega), ?_⟩
    have hlow := toNat_narrowed b 0xF0 0x90 0x80
    have hhigh := toNat_narrowed b 0xF4 0x8F 0xBF
    generalize (if b = 0xF0 then 0x90 else 0x80 : UInt8) = low at hlow
    generalize (if b = 0xF4 then 0x8F else 0xBF : UInt8) = high at hhigh
    simp only [UInt8.reduceToNat] at hlow hhigh
    constructor <;> simp only [Begun.least, Begun.bound] <;> omega

/-- An octet under `0x80` is not part of a longer character. -/
theorem step_of_one {begun : Option Begun} (hbegun : ∀ p ∈ begun, p.Sound) {b : UInt8}
    (hb : b.toNat < 0x80) :
    step begun b = (decodeFrom begun [] ++ [Char.ofNat b.toNat], none) := by
  cases begun with
  | none => exact first_of_one hb
  | some p =>
    have hlow := (hbegun p rfl).low
    have houtside : ¬ (p.low ≤ b ∧ b ≤ p.high) := by
      rw [UInt8.le_iff_toNat_le]
      omega
    simp only [step, if_neg houtside, first_of_one hb]
    rfl

/-- One octet settles a character or begins one, the zero character only if it is zero. -/
theorem first_settles (b : UInt8) :
    (∀ p ∈ (first b).2, p.Sound) ∧ (b ≠ 0 → nul ∉ (first b).1) ∧
      (first b).1.length + (first b).2.toList.length = 1 := by
  rcases first_cases b with ⟨hone, hb⟩ | hb | ⟨p, hb, hsound⟩
  · rw [hb]
    refine ⟨by simp, fun hne hmem => hne ?_, rfl⟩
    have hvalid : b.toNat.isValidChar := .inl (by omega)
    have hsame := congrArg Char.toNat (List.mem_singleton.mp hmem)
    rw [Char.ofNat, dif_pos hvalid] at hsame
    exact UInt8.toNat_inj.mp hsame.symm
  · rw [hb]
    exact ⟨by simp, fun _ => by decide, rfl⟩
  · rw [hb]
    exact ⟨by simpa using hsound, by simp, rfl⟩

/-- **What one octet does.**  A sound character goes on, ends, or is given up for the octet to be
    looked at afresh. -/
theorem step_settles {begun : Option Begun} (hbegun : ∀ p ∈ begun, p.Sound) (b : UInt8) :
    (∀ p ∈ (step begun b).2, p.Sound) ∧ (b ≠ 0 → nul ∉ (step begun b).1) ∧
      (step begun b).1.length + (step begun b).2.toList.length ≤ 1 + begun.toList.length := by
  obtain ⟨hsound, hnul, hcount⟩ := first_settles b
  cases begun with
  | none => exact ⟨hsound, hnul, Nat.le_of_eq hcount⟩
  | some p =>
    have hp := hbegun p rfl
    by_cases hrange : p.low ≤ b ∧ b ≤ p.high
    · by_cases howed : p.owed ≤ 1
      · simp only [step, if_pos hrange, if_pos howed]
        exact ⟨by simp, fun _ => by simpa using (hp.finish hrange.1 hrange.2 howed).symm,
          by simp⟩
      · simp only [step, if_pos hrange, if_neg howed]
        exact ⟨by simpa using hp.more hrange.1 hrange.2 howed, by simp, by simp⟩
    · simp only [step, if_neg hrange]
      refine ⟨hsound, fun hb => ?_, ?_⟩
      · rw [List.mem_cons, not_or]
        exact ⟨by decide, hnul hb⟩
      · simp only [List.length_cons, Option.toList_some, List.length_nil]
        omega

/-! ### Many octets -/

section Decode

variable {begun : Option Begun} {octets : List UInt8}

/-- The zero character is read from a zero octet only. -/
theorem nul_notMem_decodeFrom (hbegun : ∀ p ∈ begun, p.Sound) (h : 0 ∉ octets) :
    nul ∉ decodeFrom begun octets := by
  induction octets generalizing begun with
  | nil => cases begun with
    | none => exact List.not_mem_nil
    | some p => simp [decodeFrom, (by decide : nul ≠ replacement)]
  | cons b rest ih =>
    rw [List.mem_cons, not_or] at h
    obtain ⟨hsound, hnul, -⟩ := step_settles hbegun b
    simp only [decodeFrom, List.mem_append, not_or]
    exact ⟨hnul (Ne.symm h.1), ih hsound h.2⟩

/-- There are no more characters than octets. -/
theorem length_decodeFrom_le (hbegun : ∀ p ∈ begun, p.Sound) :
    (decodeFrom begun octets).length ≤ octets.length + begun.toList.length := by
  induction octets generalizing begun with
  | nil => cases begun <;> simp [decodeFrom]
  | cons b rest ih =>
    obtain ⟨hsound, -, hcount⟩ := step_settles hbegun b
    have hrest := ih hsound
    simp only [decodeFrom, List.length_append, List.length_cons]
    omega

/-- An octet under `0x80` at the end is one more character. -/
theorem decodeFrom_concat (hbegun : ∀ p ∈ begun, p.Sound) {b : UInt8} (hb : b.toNat < 0x80) :
    decodeFrom begun (octets ++ [b]) = decodeFrom begun octets ++ [Char.ofNat b.toNat] := by
  induction octets generalizing begun with
  | nil => simp [decodeFrom, step_of_one hbegun hb]
  | cons a rest ih =>
    obtain ⟨hsound, -, -⟩ := step_settles hbegun a
    simp only [List.cons_append, decodeFrom, ih hsound, List.append_assoc]

end Decode

end Utf8

end GameServer
