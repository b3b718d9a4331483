import GameServer.Proofs.WholeText
import Mathlib.Data.List.TakeWhile

/-!
Fields on the wire: what is written is read back, and the reader stops right behind it.

Words come back bit for bit.  A text comes back in its normal form: as many whole characters
as fit its field, and of those the ones before the first zero character.
-/

namespace GameServer.Wire

/-! ### Normal form -/

/-- What is left of a text by a field that holds so many octets. -/
def normalText (limit : Nat) (text : String) : String :=
  String.ofList ((Utf8.kept limit text.toList).takeWhile (· ≠ Utf8.nul))

/-- A text that fits, without a zero character, is left as it is. -/
theorem normalText_of_fits {limit : Nat} {text : String} (hnul : Utf8.nul ∉ text.toList)
    (hfits : text.utf8ByteSize ≤ limit) : normalText limit text = text := by
  rw [← Utf8.length_encode] at hfits
  have hall : ∀ c ∈ text.toList, decide (c ≠ Utf8.nul) = true := by
    intro c hc
    simpa using fun h : c = Utf8.nul => hnul (h ▸ hc)
  rw [normalText, ← Utf8.cut_eq_kept, Utf8.cut_of_fits hfits,
    List.takeWhile_eq_self_iff.mpr hall, String.ofList_toList]

/-! ### Writers -/

theorem length_tail_le (limit : Nat) (text : String) : (Write.tail limit text).length ≤ limit :=
  Utf8.length_encode_cut_le limit text.toList

@[simp] theorem length_field (width : Nat) (text : String) :
    (Write.field width text).length = width := by
  have := length_tail_le width text
  simp only [Write.field, List.length_append, List.length_replicate]
  omega

@[simp] theorem length_word (w : UInt32) : (Write.word w).length = 4 := rfl

@[simp] theorem length_int (i : Int32) : (Write.int i).length = 4 := rfl

@[simp] theorem length_single (x : Single) : (Write.single x).length = 4 := rfl

@[simp] theorem length_session (s : SessionId) : (Write.session s).length = 4 := rfl

@[simp] theorem length_room (r : RoomId) : (Write.room r).length = 4 := rfl

@[simp] theorem length_flag (b : Bool) : (Write.flag b).length = 1 := rfl

/-! ### Readers -/

namespace Reader

/-- Readers one after the other. -/
theorem bind_of_some {α β : Type} {x : Reader α} {f : α → Reader β} {body rest : Bytes} {a : α}
    (h : x body = some (a, rest)) : (x >>= f) body = f a rest := by
  change (x body >>= fun p => f p.1 p.2) = f a rest
  rw [h]
  rfl

/-- What is read in front of anything is read where nothing follows. -/
theorem to_end {α : Type} {x : Reader α} {written : Bytes} {a : α}
    (h : ∀ rest, x (written ++ rest) = some (a, rest)) : x written = some (a, []) := by
  have hend := h []
  rwa [List.append_nil] at hend

variable (rest : Bytes)

theorem flag_append (b : Bool) : flag (Write.flag b ++ rest) = some (b, rest) := by
  cases b <;> rfl

theorem word_append (w : UInt32) : word (Write.word w ++ rest) = some (w, rest) := by
  change some (word32 _ _ _ _, rest) = _
  rw [word32_bytes32]

theorem int_append (i : Int32) : int (Write.int i ++ rest) = some (i, rest) := by
  rw [int, Write.int, ← Write.word, bind_of_some (word_append rest i.toUInt32),
    Int32.toInt32_toUInt32]
  rfl

theorem single_append (x : Single) : single (Write.single x ++ rest) = some (x, rest) := by
  rw [single, Write.single, ← Write.word, bind_of_some (word_append rest x.bits)]
  rfl

theorem session_append (s : SessionId) : session (Write.session s ++ rest) = some (s, rest) := by
  rw [session, Write.session, ← Write.word, bind_of_some (word_append rest s.val)]
  rfl

theorem room_append (r : RoomId) : room (Write.room r ++ rest) = some (r, rest) := by
  rw [room, Write.room, bind_of_some (int_append rest r.val)]
  rfl

theorem bytes_append {taken : Bytes} {n : Nat} (h : taken.length = n) :
    bytes n (taken ++ rest) = some (taken, rest) := by
  subst h
  simp [bytes]

/-- A text with padding behind it is read in its normal form. -/
theorem textOf_padded (limit : Nat) (text : String) (padding : Nat) :
    textOf (Write.tail limit text ++ List.replicate padding 0) = normalText limit text := by
  rw [textOf, Write.tail, Utf8.takeWhile_encode, Utf8.decode_encode, Utf8.cut_eq_kept, normalText]

theorem field_append (width : Nat) (text : String) :
    field width (Write.field width text ++ rest) = some (normalText width text, rest) := by
  have hbytes := bytes_append rest (length_field width text)
  rw [field, bind_of_some hbytes, Write.field, textOf_padded]
  rfl

/-- A text that ends with the body has no padding, and takes all of it. -/
theorem tail_eq (limit : Nat) (text : String) :
    tail limit (Write.tail limit text) = some (normalText limit text, []) := by
  have hall : min limit (Write.tail limit text).length = (Write.tail limit text).length :=
    Nat.min_eq_right (length_tail_le limit text)
  have hbytes := to_end fun rest => bytes_append rest (rfl : (Write.tail limit text).length = _)
  have htext := textOf_padded limit text 0
  rw [List.replicate_zero, List.append_nil] at htext
  rw [tail, hall, field, bind_of_some hbytes, htext]
  rfl

/-- Items one after the other, each read back in its own way. -/
theorem times_append {α : Type} {item : Reader α} {write : α → Bytes} {back : α → α}
    (hitem : ∀ a rest, item (write a ++ rest) = some (back a, rest)) (items : List α) :
    item.times items.length (items.flatMap write ++ rest) = some (items.map back, rest) := by
  induction items with
  | nil => rfl
  | cons a later ih =>
    rw [List.length_cons, times, List.flatMap_cons, List.append_assoc,
      bind_of_some (hitem a _), bind_of_some ih]
    rfl

end Reader

end GameServer.Wire
