import GameServer.Wire.Reader
import Mathlib.Data.Nat.Find

/-!
Text on the wire: what is cut off, what is read back.

Text is cut between characters, so that what is written is always well formed, and reading
gives back every character of it.  A reader stops at the first zero byte; since no character
but the zero character has a zero byte in it, that is the first zero character.
-/

namespace GameServer

namespace Utf8

/-- The zero character, which ends a text on the wire. -/
def nul : Char := Char.ofNat 0

/-! ### Octets -/

theorem encode_cons (c : Char) (cs : List Char) :
    encode (c :: cs) = String.utf8EncodeChar c ++ encode cs := rfl

theorem length_encode_cons (c : Char) (cs : List Char) :
    (encode (c :: cs)).length = c.utf8Size + (encode cs).length := by
  rw [encode_cons, List.length_append, String.length_utf8EncodeChar]

theorem length_encode (s : String) : (encode s.toList).length = s.utf8ByteSize := by
  rw [← String.size_toByteArray, ← String.ofList_toList (s := s), String.toByteArray_ofList,
    String.toList_ofList, List.utf8Encode, List.size_toByteArray, encode]

/-! ### Cutting -/

section Cut

variable {limit : Nat} {cs : List Char}

theorem cut_isPrefix (limit : Nat) (cs : List Char) : cut limit cs <+: cs := by
  induction cs generalizing limit with
  | nil => exact List.prefix_rfl
  | cons c rest ih =>
    unfold cut
    split
    · exact (List.cons_prefix_cons).mpr ⟨rfl, ih _⟩
    · exact List.nil_prefix

theorem length_encode_cut_le (limit : Nat) (cs : List Char) :
    (encode (cut limit cs)).length ≤ limit := by
  induction cs generalizing limit with
  | nil => exact Nat.zero_le _
  | cons c rest ih =>
    unfold cut
    split
    · next hfits =>
      have := ih (limit - c.utf8Size)
      rw [length_encode_cons]
      omega
    · exact Nat.zero_le _

/-- Whatever fits is kept. -/
theorem prefix_cut {front : List Char} (hfront : front <+: cs)
    (hfits : (encode front).length ≤ limit) : front <+: cut limit cs := by
  induction cs generalizing limit front with
  | nil =>
    rw [List.prefix_nil.mp hfront]
    exact List.nil_prefix
  | cons c rest ih =>
    cases front with
    | nil => exact List.nil_prefix
    | cons d front =>
      obtain ⟨rfl, hrest⟩ := List.cons_prefix_cons.mp hfront
      rw [length_encode_cons] at hfits
      rw [cut, if_pos (by omega)]
      exact List.cons_prefix_cons.mpr ⟨rfl, ih hrest (by omega)⟩

/-- The characters off the front of a text, as many as fit a limit. -/
def kept (limit : Nat) (cs : List Char) : List Char :=
  cs.take (Nat.findGreatest (fun count => (encode (cs.take count)).length ≤ limit) cs.length)

/-- **Cutting keeps as many whole characters as fit.** -/
theorem cut_eq_kept (limit : Nat) (cs : List Char) : cut limit cs = kept limit cs := by
  have hfront := cut_isPrefix limit cs
  have htake := List.prefix_iff_eq_take.mp hfront
  suffices Nat.findGreatest (fun count => (encode (cs.take count)).length ≤ limit) cs.length =
      (cut limit cs).length by rw [kept, this, ← htake]
  rw [Nat.findGreatest_eq_iff]
  refine ⟨hfront.length_le, fun _ => ?_, ?_⟩
  · rw [← htake]
    exact length_encode_cut_le limit cs
  · intro count hmore hcount hfits
    have hlonger := (prefix_cut (List.take_prefix count cs) hfits).length_le
    rw [List.length_take_of_le hcount] at hlonger
    omega

theorem cut_of_fits (hfits : (encode cs).length ≤ limit) : cut limit cs = cs :=
  List.IsPrefix.eq_of_length_le (cut_isPrefix limit cs)
    (prefix_cut List.prefix_rfl hfits).length_le

end Cut

/-! ### Reading back -/

section First

variable {b : UInt8}

theorem first_of_one (h : b.toNat < 0x80) : first b = ([Char.ofNat b.toNat], none) := by
  rw [first, if_pos (UInt8.lt_iff_toNat_lt.mpr h)]

theorem first_of_two (hleast : 0xC2 ≤ b.toNat) (hmost : b.toNat < 0xE0) :
    first b = ([], some ⟨b.toNat % 32, 1, 0x80, 0xBF⟩) := by
  simp only [first, UInt8.lt_iff_toNat_lt, UInt8.reduceToNat]
  rw [if_neg (by omega), if_neg (by omega), if_pos hmost]

theorem first_of_three (hleast : 0xE0 ≤ b.toNat) (hmost : b.toNat < 0xF0) :
    first b = ([], some ⟨b.toNat % 16, 2,
      if b = 0xE0 then 0xA0 else 0x80, if b = 0xED then 0x9F else 0xBF⟩) := by
  simp only [first, UInt8.lt_iff_toNat_lt, UInt8.reduceToNat]
  rw [if_neg (by omega), if_neg (by omega), if_neg (by omega), if_pos hmost]

theorem first_of_four (hleast : 0xF0 ≤ b.toNat) (hmost : b.toNat < 0xF5) :
    first b = ([], some ⟨b.toNat % 8, 3,
      if b = 0xF0 then 0x90 else 0x80, if b = 0xF4 then 0x8F else 0xBF⟩) := by
  simp only [first, UInt8.lt_iff_toNat_lt, UInt8.reduceToNat]
  rw [if_neg (by omega), if_neg (by omega), if_neg (by omega), if_neg (by omega), if_pos hmost]

end First

section Next

variable {value owed n : Nat} {low high : UInt8} {rest : List UInt8}

theorem toNat_tail (n : Nat) : (UInt8.ofNat (n % 64 + 128)).toNat = n % 64 + 128 := by
  rw [UInt8.toNat_ofNat']
  omega

/-- An octet begins a character and owes more. -/
theorem decodeFrom_begin {b : UInt8} {p : Begun} (hfirst : first b = ([], some p)) :
    decodeFrom none (b :: rest) = decodeFrom (some p) rest := by
  simp only [decodeFrom, step, hfirst, List.nil_append]

/-- An octet in the range goes on with a character and owes more. -/
theorem decodeFrom_more (howed : 1 < owed) (hlow : low.toNat ≤ n % 64 + 128)
    (hhigh : n % 64 + 128 ≤ high.toNat) :
    decodeFrom (some ⟨value, owed, low, high⟩) (UInt8.ofNat (n % 64 + 128) :: rest) =
      decodeFrom (some ⟨value * 64 + n % 64, owed - 1, 0x80, 0xBF⟩) rest := by
  have hbits : (n % 64 + 128) % 64 = n % 64 := by omega
  simp only [decodeFrom, step, UInt8.le_iff_toNat_le, toNat_tail, hlow, hhigh, and_self, if_true,
    if_neg (Nat.not_le.mpr howed), List.nil_append, hbits]

/-- The last octet of a character. -/
theorem decodeFrom_last (hlow : low.toNat ≤ n % 64 + 128) (hhigh : n % 64 + 128 ≤ high.toNat) :
    decodeFrom (some ⟨value, 1, low, high⟩) (UInt8.ofNat (n % 64 + 128) :: rest) =
      Char.ofNat (value * 64 + n % 64) :: decodeFrom none rest := by
  have hbits : (n % 64 + 128) % 64 = n % 64 := by omega
  simp only [decodeFrom, step, UInt8.le_iff_toNat_le, toNat_tail, hlow, hhigh, and_self, if_true,
    Nat.le_refl, List.singleton_append, hbits]

/-- Any tail octet is in the range that is not narrowed. -/
theorem tail_in_range (n : Nat) :
    (0x80 : UInt8).toNat ≤ n % 64 + 128 ∧ n % 64 + 128 ≤ (0xBF : UInt8).toNat := by
  simp only [UInt8.reduceToNat]
  omega

theorem low_le_tail {lead narrowed : UInt8}
    (h : lead = narrowed → low.toNat ≤ n % 64 + 128) :
    (if lead = narrowed then low else 0x80 : UInt8).toNat ≤ n % 64 + 128 := by
  split
  · next hlead => exact h hlead
  · exact (tail_in_range n).1

theorem tail_le_high {lead narrowed : UInt8}
    (h : lead = narrowed → n % 64 + 128 ≤ high.toNat) :
    n % 64 + 128 ≤ (if lead = narrowed then high else 0xBF : UInt8).toNat := by
  split
  · next hlead => exact h hlead
  · exact (tail_in_range n).2

end Next

section Whole

variable {v : Nat} (rest : List UInt8)

theorem decodeFrom_one (hmost : v ≤ 0x7F) :
    decodeFrom none (UInt8.ofNat v :: rest) = Char.ofNat v :: decodeFrom none rest := by
  have hlead : (UInt8.ofNat v).toNat = v := by
    rw [UInt8.toNat_ofNat']
    omega
  simp only [decodeFrom, step, first_of_one (hlead ▸ Nat.lt_succ_of_le hmost), hlead,
    List.singleton_append]

theorem decodeFrom_two (hleast : 0x7F < v) (hmost : v ≤ 0x7FF) :
    decodeFrom none (UInt8.ofNat (v / 64 % 32 + 192) :: UInt8.ofNat (v % 64 + 128) :: rest) =
      Char.ofNat v :: decodeFrom none rest := by
  have hlead : (UInt8.ofNat (v / 64 % 32 + 192)).toNat = v / 64 + 192 := by
    rw [UInt8.toNat_ofNat']
    omega
  obtain ⟨hlow, hhigh⟩ := tail_in_range v
  have hvalue : (v / 64 + 192) % 32 * 64 + v % 64 = v := by omega
  rw [decodeFrom_begin (first_of_two (by omega) (by omega)), hlead, decodeFrom_last hlow hhigh,
    hvalue]

/-- Behind two of the first octets the second one is held to a narrower range.  A character
    keeps to it, being neither overlong nor a surrogate. -/
theorem decodeFrom_three (hleast : 0x7FF < v) (hmost : v ≤ 0xFFFF)
    (hvalid : v < 0xD800 ∨ 0xDFFF < v) :
    decodeFrom none (UInt8.ofNat (v / 4096 % 16 + 224) :: UInt8.ofNat (v / 64 % 64 + 128) ::
        UInt8.ofNat (v % 64 + 128) :: rest) =
      Char.ofNat v :: decodeFrom none rest := by
  have hlead : (UInt8.ofNat (v / 4096 % 16 + 224)).toNat = v / 4096 + 224 := by
    rw [UInt8.toNat_ofNat']
    omega
  have hlow : UInt8.ofNat (v / 4096 % 16 + 224) = 0xE0 →
      (0xA0 : UInt8).toNat ≤ v / 64 % 64 + 128 := by
    intro h
    rw [h] at hlead
    simp only [UInt8.reduceToNat] at hlead ⊢
    omega
  have hhigh : UInt8.ofNat (v / 4096 % 16 + 224) = 0xED →
      v / 64 % 64 + 128 ≤ (0x9F : UInt8).toNat := by
    intro h
    rw [h] at hlead
    simp only [UInt8.reduceToNat] at hlead ⊢
    omega
  have hvalue : ((v / 4096 + 224) % 16 * 64 + v / 64 % 64) * 64 + v % 64 = v := by omega
  rw [decodeFrom_begin (first_of_three (by omega) (by omega)), hlead,
    decodeFrom_more Nat.one_lt_two (low_le_tail hlow) (tail_le_high hhigh),
    decodeFrom_last (tail_in_range v).1 (tail_in_range v).2, hvalue]

theorem decodeFrom_four (hleast : 0xFFFF < v) (hvalid : v < 0x110000) :
    decodeFrom none (UInt8.ofNat (v / 262144 % 8 + 240) :: UInt8.ofNat (v / 4096 % 64 + 128) ::
        UInt8.ofNat (v / 64 % 64 + 128) :: UInt8.ofNat (v % 64 + 128) :: rest) =
      Char.ofNat v :: decodeFrom none rest := by
  have hlead : (UInt8.ofNat (v / 262144 % 8 + 240)).toNat = v / 262144 + 240 := by
    rw [UInt8.toNat_ofNat']
    omega
  have hlow : UInt8.ofNat (v / 262144 % 8 + 240) = 0xF0 →
      (0x90 : UInt8).toNat ≤ v / 4096 % 64 + 128 := by
    intro h
    rw [h] at hlead
    simp only [UInt8.reduceToNat] at hlead ⊢
    omega
  have hhigh : UInt8.ofNat (v / 262144 % 8 + 240) = 0xF4 →
      v / 4096 % 64 + 128 ≤ (0x8F : UInt8).toNat := by
    intro h
    rw [h] at hlead
    simp only [UInt8.reduceToNat] at hlead ⊢
    omega
  have hvalue :
      (((v / 262144 + 240) % 8 * 64 + v / 4096 % 64) * 64 + v / 64 % 64) * 64 + v % 64 = v := by
    omega
  rw [decodeFrom_begin (first_of_four (by omega) (by omega)), hlead,
    decodeFrom_more (by decide) (low_le_tail hlow) (tail_le_high hhigh),
    decodeFrom_more Nat.one_lt_two (tail_in_range _).1 (tail_in_range _).2,
    decodeFrom_last (tail_in_range v).1 (tail_in_range v).2, hvalue]

end Whole

/-- The octets of one character are read as that character. -/
theorem decodeFrom_char (c : Char) (rest : List UInt8) :
    decodeFrom none (String.utf8EncodeChar c ++ rest) = c :: decodeFrom none rest := by
  have hvalid : c.toNat < 0xD800 ∨ 0xDFFF < c.toNat ∧ c.toNat < 0x110000 := c.valid
  simp only [String.utf8EncodeChar, Char.toNat_val]
  split
  · next hone =>
    simpa only [Char.ofNat_toNat, List.cons_append, List.nil_append] using
      decodeFrom_one rest hone
  · split
    · next hone htwo =>
      simpa only [Char.ofNat_toNat, List.cons_append, List.nil_append] using
        decodeFrom_two rest (Nat.lt_of_not_le hone) htwo
    · split
      · next hone htwo hthree =>
        simpa only [Char.ofNat_toNat, List.cons_append, List.nil_append] using
          decodeFrom_three rest (Nat.lt_of_not_le htwo) hthree (by omega)
      · next hone htwo hthree =>
        simpa only [Char.ofNat_toNat, List.cons_append, List.nil_append] using
          decodeFrom_four rest (Nat.lt_of_not_le hthree) (by omega)

/-- **What is written is read back**, character by character. -/
theorem decode_encode (cs : List Char) : decode (encode cs) = cs := by
  induction cs with
  | nil => rfl
  | cons c rest ih => rw [decode, encode_cons, decodeFrom_char, ← decode, ih]

/-! ### Up to the first zero -/

theorem ofNat_ne_zero {n : Nat} (h : n % 256 ≠ 0) : UInt8.ofNat n ≠ 0 := by
  intro hzero
  apply h
  have := congrArg UInt8.toNat hzero
  rwa [UInt8.toNat_ofNat'] at this

/-- No character but the zero character has a zero octet. -/
theorem ne_zero_of_mem {c : Char} (hc : c ≠ nul) {b : UInt8} (hb : b ∈ String.utf8EncodeChar c) :
    b ≠ 0 := by
  have hvalid : c.toNat < 0xD800 ∨ 0xDFFF < c.toNat ∧ c.toNat < 0x110000 := c.valid
  have hpos : c.toNat ≠ 0 := fun h => hc (by rw [← Char.ofNat_toNat c, h]; rfl)
  simp only [String.utf8EncodeChar, Char.toNat_val] at hb
  split at hb
  · obtain rfl := List.mem_singleton.mp hb
    exact ofNat_ne_zero (by omega)
  · split at hb
    · simp only [List.mem_cons, List.not_mem_nil, or_false] at hb
      rcases hb with rfl | rfl <;> exact ofNat_ne_zero (by omega)
    · split at hb
      · simp only [List.mem_cons, List.not_mem_nil, or_false] at hb
        rcases hb with rfl | rfl | rfl <;> exact ofNat_ne_zero (by omega)
      · simp only [List.mem_cons, List.not_mem_nil, or_false] at hb
        rcases hb with rfl | rfl | rfl | rfl <;> exact ofNat_ne_zero (by omega)

/-- Behind a text there may be padding: the octets before the first zero are those of the
    characters before the first zero character. -/
theorem takeWhile_encode (cs : List Char) (padding : Nat) :
    (encode cs ++ List.replicate padding 0).takeWhile (· != 0) =
      encode (cs.takeWhile (· ≠ nul)) := by
  induction cs with
  | nil => cases padding <;> rfl
  | cons c rest ih =>
    rw [encode_cons, List.append_assoc]
    by_cases hc : c = nul
    · subst hc
      rfl
    · rw [List.takeWhile_append_of_pos fun b hb => by simpa using ne_zero_of_mem hc hb, ih,
        List.takeWhile_cons_of_pos (by simpa using hc), encode_cons]

end Utf8

end GameServer
