import GameServer.Proofs.RoundTrip

/-!
Cutting a text to a limit: whole characters, and as many as fit.

A text is cut by going through its characters from the front.  What remains can be said from the
other end as well: starting from the limit, one goes back to the first place that lies between two
characters.  Both ways come to the same octets, and it takes fewer than four steps back, since no
character has more than four octets.  A field is therefore always filled to its width, and no
request is shorter than its layout.
-/

namespace GameServer

namespace Utf8

/-! ### Between characters -/

/-- A place, counted in octets, that lies between two characters of a text or at an end of it. -/
def Boundary (text : String) (n : Nat) : Prop := String.Pos.Raw.IsValid text ⟨n⟩

instance (text : String) : DecidablePred (Boundary text) := fun _ =>
  inferInstanceAs (Decidable (String.Pos.Raw.IsValid _ _))

theorem toByteArray_encode (text : String) :
    (encode text.toList).toByteArray = text.toByteArray := by
  conv => rhs; rw [← String.ofList_toList (s := text), String.toByteArray_ofList]
  rfl

theorem encode_isPrefix {front cs : List Char} (h : front <+: cs) : encode front <+: encode cs := by
  obtain ⟨back, rfl⟩ := h
  rw [encode, encode, List.flatMap_append]
  exact List.prefix_append _ _

/-- The places between characters are where the octets of so many characters end. -/
theorem boundary_iff {text : String} {n : Nat} :
    Boundary text n ↔ ∃ front, front <+: text.toList ∧ (encode front).length = n := by
  have hvalid : Boundary text n ↔ ∃ count, n = (encode (text.toList.take count)).length := by
    conv => lhs; rw [Boundary, ← String.ofList_toList (s := text), String.Pos.Raw.isValid_ofList]
    simp only [← length_encode, String.toList_ofList]
  rw [hvalid]
  constructor
  · rintro ⟨count, hcount⟩
    exact ⟨text.toList.take count, List.take_prefix count _, hcount.symm⟩
  · rintro ⟨front, hfront, rfl⟩
    exact ⟨front.length, by rw [← List.prefix_iff_eq_take.mp hfront]⟩

/-! ### What is lost -/

section Cut

variable {limit : Nat} {cs : List Char}

/-- A text that does not fit loses no more than a character could take. -/
theorem lt_length_encode_cut_add_four (hlong : limit < (encode cs).length) :
    limit < (encode (cut limit cs)).length + 4 := by
  induction cs generalizing limit with
  | nil => exact absurd hlong (Nat.not_lt_zero _)
  | cons c rest ih =>
    rw [length_encode_cons] at hlong
    unfold cut
    split
    · next hfits =>
      have hrest : limit - c.utf8Size < (encode (cut (limit - c.utf8Size) rest)).length + 4 :=
        ih (by omega)
      rw [length_encode_cons]
      omega
    · next hlarge =>
      -- the character that does not fit is all that stands between the end and the limit
      have hfour := c.utf8Size_le_four
      have hempty : (encode []).length = 0 := rfl
      omega

/-- Cutting twice is cutting to the smaller limit. -/
theorem cut_cut (a b : Nat) (cs : List Char) : cut b (cut a cs) = cut (min a b) cs := by
  induction cs generalizing a b with
  | nil => rfl
  | cons c rest ih =>
    by_cases ha : c.utf8Size ≤ a
    · by_cases hb : c.utf8Size ≤ b
      · have hrest : min (a - c.utf8Size) (b - c.utf8Size) = min a b - c.utf8Size := by omega
        simp only [cut, if_pos ha, if_pos hb, if_pos (Nat.le_min.mpr ⟨ha, hb⟩), ih, hrest]
      · have hmin : ¬ c.utf8Size ≤ min a b := fun h => hb (Nat.le_min.mp h).2
        simp only [cut, if_pos ha, if_neg hb, if_neg hmin]
    · have hmin : ¬ c.utf8Size ≤ min a b := fun h => ha (Nat.le_min.mp h).1
      simp only [cut, if_neg ha, if_neg hmin]

end Cut

end Utf8

namespace Wire

open Utf8

/-! ### The octets that are written -/

section Tail

variable (limit : Nat) (text : String)

theorem tail_isPrefix : Write.tail limit text <+: encode text.toList :=
  encode_isPrefix (cut_isPrefix limit text.toList)

theorem boundary_tail : Boundary text (Write.tail limit text).length :=
  boundary_iff.mpr ⟨_, cut_isPrefix limit text.toList, rfl⟩

/-- No place between characters that is within the limit lies further on. -/
theorem le_length_tail {n : Nat} (hn : n ≤ limit) (hboundary : Boundary text n) :
    n ≤ (Write.tail limit text).length := by
  obtain ⟨front, hfront, rfl⟩ := boundary_iff.mp hboundary
  exact (encode_isPrefix (prefix_cut hfront hn)).length_le

/-- Going back from the limit to the first place between characters. -/
theorem findGreatest_boundary :
    Nat.findGreatest (Boundary text) limit = (Write.tail limit text).length := by
  rw [Nat.findGreatest_eq_iff]
  refine ⟨length_tail_le limit text, fun _ => boundary_tail limit text, ?_⟩
  intro n hlater hn hboundary
  exact Nat.not_lt.mpr (le_length_tail limit text hn hboundary) hlater

theorem isValidUTF8_tail : (Write.tail limit text).toByteArray.IsValidUTF8 :=
  ByteArray.isValidUTF8_utf8Encode

/-- What remains of a text is a text, and cutting that goes on from there. -/
theorem tail_ofList_cut (next : Nat) :
    Write.tail next (String.ofList (cut limit text.toList)) =
      Write.tail (min limit next) text := by
  rw [Write.tail, String.toList_ofList, cut_cut, Write.tail]

end Tail

/-- **A text that is cut keeps whole characters, and as many as fit.**  Its octets are cut at the
    first place between characters that is met on the way back from the limit: they are those at
    the front of the text, end between characters, are within the limit, and no longer run of them
    would be both.  They are well formed; they are all of the text when it fits, and otherwise fewer
    than four are missing up to the limit.  They are the octets of a text again, and to cut that
    further is to cut the whole to the smaller limit.  With zeros behind them they fill a field to
    its width, so no request is shorter than the least body of its kind. -/
theorem cut_between_characters (text : String) (limit : Nat) :
    ((encode text.toList).toByteArray = text.toByteArray ∧
        Write.tail limit text =
          (encode text.toList).take (Nat.findGreatest (Boundary text) limit)) ∧
      (Write.tail limit text <+: encode text.toList ∧ (Write.tail limit text).length ≤ limit ∧
        Boundary text (Write.tail limit text).length ∧
        ∀ n ≤ limit, Boundary text n → n ≤ (Write.tail limit text).length) ∧
      (Write.tail limit text).toByteArray.IsValidUTF8 ∧
      ((encode text.toList).length ≤ limit → Write.tail limit text = encode text.toList) ∧
      (limit < (encode text.toList).length → limit < (Write.tail limit text).length + 4) ∧
      (∃ short : String, short.toByteArray = (Write.tail limit text).toByteArray ∧
        Write.tail limit short = Write.tail limit text ∧
        ∀ next, Write.tail next short = Write.tail (min limit next) text) ∧
      (Write.field limit text = Write.tail limit text ++
          List.replicate (limit - (Write.tail limit text).length) 0 ∧
        (Write.field limit text).length = limit) ∧
      ∀ r : Request, ∃ least, r.packet.minRequestBody = some least ∧ least ≤ r.body.length := by
  have hprefix := List.prefix_iff_eq_take.mp (tail_isPrefix limit text)
  have htake : Write.tail limit text =
      (encode text.toList).take (Nat.findGreatest (Boundary text) limit) := by
    rw [findGreatest_boundary, ← hprefix]
  refine ⟨⟨toByteArray_encode text, htake⟩, ⟨tail_isPrefix limit text, length_tail_le limit text,
    boundary_tail limit text, fun n hn => le_length_tail limit text hn⟩,
    isValidUTF8_tail limit text, fun hfits => congrArg encode (cut_of_fits hfits),
    lt_length_encode_cut_add_four, ?_, ⟨rfl, length_field limit text⟩, Request.minRequestBody_le⟩
  refine ⟨String.ofList (cut limit text.toList), ?_, ?_, tail_ofList_cut limit text⟩
  · rw [← toByteArray_encode, String.toList_ofList]
    rfl
  · rw [tail_ofList_cut, Nat.min_self]

/-- Two characters in five octets, cut to four: the second character, which takes four of them, is
    gone, and three octets up to the limit are missing. -/
theorem cut_between_characters_last_octet :
    let text := "a😀"
    Write.tail 4 text = [97] ∧
      (4 < (encode text.toList).length ∧ 4 < (Write.tail 4 text).length + 4) ∧
      (1 ≤ 4 ∧ Boundary text 1 ∧ 1 ≤ (Write.tail 4 text).length) ∧
      ((encode text.toList).length ≤ 5 ∧ Write.tail 5 text = encode text.toList) := by
  intro text
  have hlong : 4 < (encode text.toList).length := by decide
  have hfits : (encode text.toList).length ≤ 5 := by decide
  have hfirst : Boundary text 1 := boundary_iff.mpr ⟨['a'], by decide, by decide⟩
  obtain ⟨-, ⟨-, -, -, hlongest⟩, -, -, hmissing, -⟩ := cut_between_characters text 4
  obtain ⟨-, -, -, hwhole, -⟩ := cut_between_characters text 5
  exact ⟨by decide, ⟨hlong, hmissing hlong⟩, ⟨by decide, hfirst, hlongest 1 (by decide) hfirst⟩,
    hfits, hwhole hfits⟩

end Wire

end GameServer
