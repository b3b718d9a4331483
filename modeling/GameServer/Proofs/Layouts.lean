import GameServer.Proofs.Fields
import GameServer.Proofs.ForeignText
import Mathlib.Data.List.Forall2

/-!
Layouts: what a reader makes of octets that nobody vouches for.

Most readers take a number of octets that is known before they look at any of them.  Where that
many are there they read on, whatever the octets and whatever follows; and the octets that they
took are the ones their value is written with, but for texts, of which all that can be said is
what characters they have.
-/

namespace GameServer.Wire

/-! ### Words in four octets -/

theorem bytes32_word32 (a b c d : UInt8) : bytes32 (word32 a b c d) = [a, b, c, d] := by
  have ha := a.toNat_lt
  have hb := b.toNat_lt
  have hc := c.toNat_lt
  have hd := d.toNat_lt
  have hword : (word32 a b c d).toNat =
      a.toNat + 256 * b.toNat + 65536 * c.toNat + 16777216 * d.toNat := by
    rw [word32, UInt32.toNat_ofNat']
    omega
  have hoctet : ∀ {n : Nat} {b : UInt8}, n % 256 = b.toNat → UInt8.ofNat n = b := by
    intro n b h
    rw [← UInt8.toNat_inj, UInt8.toNat_ofNat', h]
  simp only [bytes32, hword, List.cons.injEq, and_true]
  exact ⟨hoctet (by omega), hoctet (by omega), hoctet (by omega), hoctet (by omega)⟩

theorem eq_word_of_length {taken : Bytes} (h : taken.length = 4) :
    ∃ w, taken = Write.word w := by
  match taken, h with
  | [a, b, c, d], _ => exact ⟨word32 a b c d, (bytes32_word32 a b c d).symm⟩

namespace Reader

/-! ### Texts -/

section Text

variable {octets : Bytes}

/-- A text holds no zero character, whatever it is read from. -/
theorem nul_notMem_textOf (octets : Bytes) : Utf8.nul ∉ (textOf octets).toList := by
  rw [textOf, String.toList_ofList]
  apply Utf8.nul_notMem_decodeFrom (by simp)
  intro hzero
  have := List.mem_takeWhile_imp hzero
  simp at this

/-- A text has no more characters than its field has octets. -/
theorem length_textOf_le (octets : Bytes) : (textOf octets).length ≤ octets.length := by
  rw [textOf, String.length_ofList]
  calc (Utf8.decode (octets.takeWhile (· != 0))).length
      ≤ (octets.takeWhile (· != 0)).length := Utf8.length_decodeFrom_le (by simp)
    _ ≤ octets.length := (List.takeWhile_prefix _).length_le

/-- Behind the first zero octet nothing counts. -/
theorem textOf_append (hzero : 0 ∈ octets) (more : Bytes) :
    textOf (octets ++ more) = textOf octets := by
  have hends : (octets.takeWhile (· != 0)).length ≠ octets.length := by
    intro hall
    have hself := (List.takeWhile_sublist (· != 0)).eq_of_length hall
    simpa using List.takeWhile_eq_self_iff.mp hself 0 hzero
  rw [textOf, textOf, List.takeWhile_append, if_neg hends]

/-- Where there is no zero octet, all of it is text. -/
theorem textOf_of_notMem (hzero : 0 ∉ octets) :
    textOf octets = String.ofList (Utf8.decode octets) := by
  have hall : ∀ b ∈ octets, (b != 0) = true := by
    intro b hb
    simpa using fun h : b = 0 => hzero (h ▸ hb)
  rw [textOf, List.takeWhile_eq_self_iff.mpr hall]

/-- There one more letter is read as one more letter. -/
theorem textOf_concat_ne (hzero : 0 ∉ octets) : textOf (octets ++ [0x41]) ≠ textOf octets := by
  have hmore : 0 ∉ octets ++ [0x41] := by
    rw [List.mem_append, not_or]
    exact ⟨hzero, by decide⟩
  intro hsame
  have hlength := congrArg String.length hsame
  rw [textOf_of_notMem hmore, textOf_of_notMem hzero, String.length_ofList, String.length_ofList,
    Utf8.decode, Utf8.decodeFrom_concat (by simp) (by decide), List.length_append] at hlength
  exact Nat.succ_ne_self _ hlength

end Text

/-! ### Readers of so many octets -/

variable {α β : Type} {x : Reader α} {f : α → Reader β} {m n : Nat}
variable {Holds Wider : Bytes → α → Prop} {HoldsNext : α → Bytes → β → Prop}

/-- A reader takes the next `n` octets, whatever they are and whatever follows them, and what it
    makes of them holds. -/
def Takes (x : Reader α) (n : Nat) (Holds : Bytes → α → Prop) : Prop :=
  ∀ taken : Bytes, taken.length = n →
    ∃ a, Holds taken a ∧ ∀ rest, x (taken ++ rest) = some (a, rest)

theorem Takes.mono (h : Takes x n Holds) (hwider : ∀ taken a, Holds taken a → Wider taken a) :
    Takes x n Wider := by
  intro taken hlength
  obtain ⟨a, ha, hread⟩ := h taken hlength
  exact ⟨a, hwider taken a ha, hread⟩

theorem Takes.pure (a : α) : Takes (pure a) 0 fun taken b => taken = [] ∧ b = a := by
  intro taken hlength
  obtain rfl := List.length_eq_zero_iff.mp hlength
  exact ⟨a, ⟨rfl, rfl⟩, fun _ => rfl⟩

/-- One reader behind the other, which may depend on what was read. -/
theorem Takes.bind (hx : Takes x m Holds) (hf : ∀ a, Takes (f a) n (HoldsNext a)) :
    Takes (x >>= f) (m + n) fun taken b =>
      ∃ front back a, taken = front ++ back ∧ Holds front a ∧ HoldsNext a back b := by
  intro taken hlength
  obtain ⟨a, ha, hread⟩ := hx (taken.take m) (by rw [List.length_take]; omega)
  obtain ⟨b, hb, hnext⟩ := hf a (taken.drop m) (by rw [List.length_drop]; omega)
  refine ⟨b, ⟨_, _, a, (List.take_append_drop m taken).symm, ha, hb⟩, fun rest => ?_⟩
  rw [← List.take_append_drop m taken, List.append_assoc, bind_of_some (hread _), hnext]

/-- What was read, made into something else. -/
theorem Takes.map (hx : Takes x n Holds) (g : α → β) :
    Takes (x >>= fun a => Pure.pure (g a)) n fun taken b => ∃ a, b = g a ∧ Holds taken a := by
  intro taken hlength
  obtain ⟨a, ha, hread⟩ := hx taken hlength
  exact ⟨g a, ⟨a, rfl, ha⟩, fun rest => bind_of_some (hread rest)⟩

/-- The same reader, over and over: the octets fall into as many parts. -/
theorem Takes.times (hx : Takes x n Holds) (count : Nat) :
    Takes (x.times count) (n * count) fun taken items =>
      items.length = count ∧ ∃ parts, taken = parts.flatten ∧ List.Forall₂ Holds parts items := by
  induction count with
  | zero =>
    apply (Takes.pure []).mono
    rintro taken items ⟨rfl, rfl⟩
    exact ⟨rfl, [], rfl, .nil⟩
  | succ count ih =>
    rw [Nat.mul_succ, Nat.add_comm (n * count)]
    apply (hx.bind fun a => ih.map (a :: ·)).mono
    rintro taken items ⟨front, back, a, rfl, ha, later, rfl, hcount, parts, rfl, hparts⟩
    exact ⟨congrArg (· + 1) hcount, front :: parts, rfl, .cons ha hparts⟩

/-- Where the octets are there they are read, and what is there besides is left. -/
theorem Takes.split (hx : Takes x n Holds) {body : Bytes} (hbody : n ≤ body.length) :
    ∃ front rest a, body = front ++ rest ∧ Holds front a ∧
      ∀ later, x (front ++ later) = some (a, later) := by
  obtain ⟨a, ha, hread⟩ := hx (body.take n) (List.length_take_of_le hbody)
  exact ⟨_, _, a, (List.take_append_drop n body).symm, ha, hread⟩

/-! ### Fields -/

theorem takes_flag : Takes flag 1 fun _ _ => True := by
  intro taken hlength
  obtain ⟨a, rfl⟩ := List.length_eq_one_iff.mp hlength
  exact ⟨a != 0, trivial, fun _ => rfl⟩

theorem takes_word : Takes word 4 fun taken w => taken = Write.word w := by
  intro taken hlength
  obtain ⟨w, rfl⟩ := eq_word_of_length hlength
  exact ⟨w, rfl, fun rest => word_append rest w⟩

theorem takes_int : Takes int 4 fun taken i => taken = Write.int i := by
  apply (takes_word.map UInt32.toInt32).mono
  rintro taken i ⟨w, rfl, rfl⟩
  rw [Write.int, UInt32.toUInt32_toInt32, Write.word]

theorem takes_single : Takes single 4 fun taken x => taken = Write.single x := by
  apply (takes_word.map Single.mk).mono
  rintro taken x ⟨w, rfl, rfl⟩
  rfl

theorem takes_session : Takes session 4 fun taken s => taken = Write.session s := by
  apply (takes_word.map SessionId.mk).mono
  rintro taken s ⟨w, rfl, rfl⟩
  rfl

theorem takes_room : Takes room 4 fun taken r => taken = Write.room r := by
  apply (takes_int.map RoomId.mk).mono
  rintro taken r ⟨i, rfl, rfl⟩
  rfl

theorem takes_bytes (n : Nat) : Takes (bytes n) n fun taken a => taken.length = n ∧ a = taken := by
  intro taken hlength
  exact ⟨taken, ⟨hlength, rfl⟩, fun rest => bytes_append rest hlength⟩

theorem takes_field (width : Nat) :
    Takes (field width) width fun taken text =>
      taken.length = width ∧ text = textOf taken := by
  apply ((takes_bytes width).map textOf).mono
  rintro taken text ⟨octets, rfl, hlength, rfl⟩
  exact ⟨hlength, rfl⟩

/-- A text that takes what remains takes it up to the limit. -/
theorem tail_apply (limit : Nat) (body : Bytes) :
    tail limit body = some (textOf (body.take limit), body.drop limit) := by
  have hbytes := bytes_append (body.drop limit) (List.length_take (i := limit) (l := body))
  rw [List.take_append_drop] at hbytes
  rw [tail, field, bind_of_some hbytes]
  rfl

end Reader

end GameServer.Wire
