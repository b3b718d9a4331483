import Mathlib.Data.List.Forall2
import GameServer.Proofs.RoundTrip

/-!
Frames delimit themselves.

A frame says how long it is, so frames that are written one behind the other can be taken off one
by one without anything between them.  What is taken off is the front of the bytes, header and
body, and at least a header; the taking stops at bytes that are no whole frame.
-/

namespace GameServer.Wire

theorem bytes16_word16 (a b : UInt8) : bytes16 (word16 a b) = [a, b] := by
  have ha := a.toNat_lt
  have hb := b.toNat_lt
  have hword : (word16 a b).toNat = a.toNat + 256 * b.toNat := by
    rw [word16, UInt16.toNat_ofNat']
    omega
  have hlow : UInt8.ofNat (word16 a b).toNat = a := by
    apply UInt8.toNat_inj.1
    rw [UInt8.toNat_ofNat', hword]
    omega
  have hhigh : UInt8.ofNat ((word16 a b).toNat / 256) = b := by
    apply UInt8.toNat_inj.1
    rw [UInt8.toNat_ofNat', hword]
    omega
  rw [bytes16, hlow, hhigh]

/-- A header that is read is the front of the bytes. -/
theorem Header.encode_of_decode? {stream : Bytes} {header : Header}
    (h : decode? stream = some header) : ∃ rest, stream = header.encode ++ rest := by
  unfold decode? at h
  split at h
  · next a b c d rest =>
    cases h
    exact ⟨rest, by rw [encode, bytes16_word16, bytes16_word16]; rfl⟩
  · cases h

namespace Frame

/-! ### One frame -/

def bytes (f : Frame) : Bytes := f.header.encode ++ f.body

def Whole (f : Frame) : Prop := f.bytes.length = f.size

theorem Whole.headerSize_le {f : Frame} (h : f.Whole) : headerSize ≤ f.size := by
  rw [← h, bytes, List.length_append, Header.length_encode]
  exact Nat.le_add_right ..

/-- A whole frame is split off whatever it is the front of. -/
theorem Whole.split_append {f : Frame} (h : f.Whole) (later : Bytes) :
    split (f.bytes ++ later) = .ok (some f) := by
  have htake : (f.bytes ++ later).take f.header.total = f.bytes := List.take_left' h
  have hdrop : f.bytes.drop headerSize = f.body := List.drop_left' f.header.length_encode
  have hheader : Header.decode? (f.bytes ++ later) = some f.header := by
    rw [bytes, List.append_assoc]
    exact Header.decode?_encode ..
  unfold split
  rw [hheader]
  have hleast : ¬ f.header.total < headerSize := Nat.not_lt.mpr h.headerSize_le
  simp only [if_neg hleast, htake, hdrop]
  exact if_pos h

/-- **What is split off is a whole frame**, and the front of the bytes. -/
theorem split_eq_some_iff {stream : Bytes} {f : Frame} :
    split stream = .ok (some f) ↔ f.Whole ∧ ∃ later, stream = f.bytes ++ later := by
  constructor
  · intro h
    unfold split at h
    cases hheader : Header.decode? stream with
    | none => rw [hheader] at h; cases h
    | some header =>
      rw [hheader] at h
      by_cases hless : header.total < headerSize
      · simp only [if_pos hless] at h
        cases h
      by_cases hwhole : (stream.take header.total).length = header.total
      · simp only [if_neg hless, if_pos hwhole] at h
        cases h
        obtain ⟨rest, rfl⟩ := Header.encode_of_decode? hheader
        have hlength : header.encode.length ≤ header.total := Nat.not_lt.mp hless
        have hfront : bytes ⟨header, ((header.encode ++ rest).take header.total).drop headerSize⟩ =
            (header.encode ++ rest).take header.total := by
          rw [List.take_append, List.take_of_length_le hlength,
            List.drop_left' header.length_encode]
          rfl
        refine ⟨?_, (header.encode ++ rest).drop header.total, ?_⟩
        · rw [Whole, hfront]
          exact hwhole
        · rw [hfront, List.take_append_drop]
      · simp only [if_neg hless, if_neg hwhole] at h
        cases h
  · rintro ⟨hwhole, later, rfl⟩
    exact hwhole.split_append later

/-- Where no frame is split off, more bytes are needed, or the declared size is less than a
    header's. -/
theorem split_of_not_some {stream : Bytes} (h : ∀ f, split stream ≠ .ok (some f)) :
    split stream = .ok none ∨ ∃ size < headerSize, split stream = .error (.invalidSize size) := by
  unfold split at h ⊢
  cases hheader : Header.decode? stream with
  | none => exact .inl rfl
  | some header =>
    rw [hheader] at h
    by_cases hless : header.total < headerSize
    · simp only [if_pos hless]
      exact .inr ⟨header.total, hless, rfl⟩
    by_cases hwhole : (stream.take header.total).length = header.total
    · simp only [if_neg hless, if_pos hwhole] at h
      exact absurd rfl (h _)
    · simp only [if_neg hless, if_neg hwhole]
      exact .inl trivial

/-! ### Frame after frame -/

/-- The frames at the front of some bytes, one after the other, and the bytes behind the last. -/
def splitAll (stream : Bytes) : List Frame × Bytes :=
  match _h : split stream with
  | .ok (some f) =>
    let (frames, rest) := splitAll (stream.drop f.size)
    (f :: frames, rest)
  | _ => ([], stream)
termination_by stream.length
decreasing_by
  obtain ⟨hwhole, later, hfront⟩ := split_eq_some_iff.mp _h
  have hleast := hwhole.headerSize_le
  have htotal := congrArg List.length hfront
  rw [List.length_append, hwhole] at htotal
  simp only [headerSize] at hleast
  rw [List.length_drop]
  omega

theorem splitAll_of_not_some {stream : Bytes} (h : ∀ f, split stream ≠ .ok (some f)) :
    splitAll stream = ([], stream) := by
  rw [splitAll]
  split
  · next f hf => exact absurd hf (h f)
  · rfl

theorem splitAll_bytes_append {f : Frame} (h : f.Whole) (later : Bytes) :
    splitAll (f.bytes ++ later) = (f :: (splitAll later).1, (splitAll later).2) := by
  have hsplit := h.split_append later
  rw [splitAll]
  split
  · next g hg =>
    obtain rfl : g = f := Option.some.inj (Except.ok.inj (hg.symm.trans hsplit))
    rw [List.drop_left' h]
  · next hnone => exact absurd hsplit (hnone f)

/-- **Whole frames, written one behind the other, are taken off one by one.** -/
theorem splitAll_flatMap_bytes {frames : List Frame} (hwhole : ∀ f ∈ frames, f.Whole)
    (rest : Bytes) :
    splitAll (frames.flatMap bytes ++ rest) = (frames ++ (splitAll rest).1, (splitAll rest).2) := by
  induction frames with
  | nil => rfl
  | cons f frames ih =>
    obtain ⟨hfirst, hlater⟩ := List.forall_mem_cons.mp hwhole
    rw [List.flatMap_cons, List.append_assoc, splitAll_bytes_append hfirst, ih hlater]
    rfl

/-! ### Writing -/

/-- A body is refused when, with its header, it is longer than a size can say. -/
theorem encode_eq_error_iff (packet : Packet) (body : Bytes) (fault : WireFault) :
    encode packet body = .error fault ↔
      maxFrame < headerSize + body.length ∧ fault = .frameTooLarge (headerSize + body.length) := by
  unfold encode
  by_cases hlarge : headerSize + body.length > maxFrame
  · simp only [if_pos hlarge, Except.error.injEq]
    exact ⟨fun h => ⟨hlarge, h.symm⟩, fun h => h.2.symm⟩
  · simp only [if_neg hlarge, reduceCtorEq, false_iff]
    exact fun h => hlarge h.1

/-- What is written is a whole frame. -/
theorem whole_of_encode {packet : Packet} {body framed : Bytes}
    (h : encode packet body = .ok framed) :
    ∃ f : Frame, f.Whole ∧ f.bytes = framed ∧ f.header.code = packet.code ∧ f.body = body := by
  obtain ⟨written, f, hencode, hcode, hbody, hsize, hsplit⟩ :=
    split_encode packet (fits_of_encode h)
  obtain rfl : written = framed := Except.ok.inj (hencode.symm.trans h)
  obtain ⟨hwhole, later, hfront⟩ := split_eq_some_iff.mp (hsplit [])
  have hbytes : f.bytes = written :=
    (List.append_inj_left hfront (hsize.symm.trans hwhole.symm)).symm
  exact ⟨f, hwhole, hbytes, hcode, hbody⟩

/-- Bodies that all fit are all framed, and what is written is whole frames. -/
theorem whole_of_fits {items : List (Packet × Bytes)}
    (hfits : ∀ item ∈ items, headerSize + item.2.length ≤ maxFrame) :
    ∃ frames : List Frame, (∀ f ∈ frames, f.Whole) ∧
      List.Forall₂ (fun item framed => encode item.1 item.2 = .ok framed) items
        (frames.map bytes) ∧
      frames.map (fun f => (f.header.code, f.body)) =
        items.map (fun item => (item.1.code, item.2)) := by
  induction items with
  | nil => exact ⟨[], nofun, .nil, rfl⟩
  | cons item items ih =>
    obtain ⟨hitem, hitems⟩ := List.forall_mem_cons.mp hfits
    obtain ⟨frames, hwhole, hencoded, hbodies⟩ := ih hitems
    obtain ⟨framed, -, hencode, -⟩ := split_encode item.1 hitem
    obtain ⟨f, hf, rfl, hcode, hbody⟩ := whole_of_encode hencode
    refine ⟨f :: frames, List.forall_mem_cons.mpr ⟨hf, hwhole⟩, .cons hencode hencoded, ?_⟩
    rw [List.map_cons, List.map_cons, hbodies, hcode, hbody]

/-- **Frames delimit themselves.**  Bodies that fit are all framed; the frames, written one behind
    the other, are taken off again one by one, each with its own bytes, body and number, whatever
    follows them that is no whole frame, and there the taking stops: for more bytes, or at a size
    less than a header's.  A body is refused exactly if it is longer than 65531 bytes, and the
    refusal tells the true length; the size of a frame that is written is its length.  Whatever
    the bytes, a frame that is taken off has at least a header and is all there. -/
theorem frames_self_delimiting (items : List (Packet × Bytes)) (rest : Bytes)
    (hfits : ∀ item ∈ items, item.2.length ≤ 65531)
    (hrest : ∀ f, split rest ≠ .ok (some f)) :
    (∃ encoded frames,
      List.Forall₂ (fun item framed => encode item.1 item.2 = .ok framed) items encoded ∧
        splitAll (encoded.flatten ++ rest) = (frames, rest) ∧
        frames.map (fun f => (f.header.code, f.body)) =
          items.map (fun item => (item.1.code, item.2)) ∧
        frames.map bytes = encoded ∧ frames.map size = encoded.map List.length) ∧
      (split rest = .ok none ∨
        ∃ size < headerSize, split rest = .error (.invalidSize size)) ∧
      (∀ packet body fault, encode packet body = .error fault ↔
        65531 < body.length ∧ fault = .frameTooLarge (headerSize + body.length)) ∧
      (∀ packet body framed, encode packet body = .ok framed →
        ∃ header, Header.decode? framed = some header ∧ header.total = framed.length) ∧
      ∀ stream f, split stream = .ok (some f) →
        headerSize ≤ f.size ∧ f.size ≤ stream.length ∧ f.bytes = stream.take f.size := by
  have hlimit : ∀ body : Bytes, headerSize + body.length ≤ maxFrame ↔ body.length ≤ 65531 := by
    intro body
    simp only [headerSize, maxFrame]
    omega
  refine ⟨?_, split_of_not_some hrest, ?_, ?_, ?_⟩
  · obtain ⟨frames, hwhole, hencoded, hbodies⟩ :=
      whole_of_fits fun item h => (hlimit item.2).mpr (hfits item h)
    refine ⟨frames.map bytes, frames, hencoded, ?_, hbodies, rfl, ?_⟩
    · rw [← List.flatMap_def, splitAll_flatMap_bytes hwhole, splitAll_of_not_some hrest,
        List.append_nil]
    · rw [List.map_map]
      exact List.map_congr_left fun f hf => (hwhole f hf).symm
  · intro packet body fault
    rw [encode_eq_error_iff, ← not_le, hlimit, not_le]
  · intro packet body framed hencode
    obtain ⟨f, hwhole, rfl, -⟩ := whole_of_encode hencode
    exact ⟨f.header, f.header.decode?_encode f.body, hwhole.symm⟩
  · intro stream f hsplit
    obtain ⟨hwhole, later, rfl⟩ := split_eq_some_iff.mp hsplit
    refine ⟨hwhole.headerSize_le, ?_, (List.take_left' hwhole).symm⟩
    rw [← hwhole, List.length_append]
    exact Nat.le_add_right ..

/-- A line, a request to leave, and three bytes that would be the size of less than a header if
    there were a fourth: the taking waits for it. -/
theorem frames_self_delimiting_waits :
    let items : List (Packet × Bytes) := [(.chat, [104, 105]), (.leaveRoom, [])]
    let rest : Bytes := [3, 0, 0]
    ∃ encoded frames,
      List.Forall₂ (fun item framed => encode item.1 item.2 = .ok framed) items encoded ∧
        splitAll (encoded.flatten ++ rest) = (frames, rest) ∧
        frames.map (·.body) = [[104, 105], []] ∧ split rest = .ok none := by
  intro items rest
  have hrest : split rest = .ok none := rfl
  obtain ⟨⟨encoded, frames, hencoded, hframes, hbodies, -⟩, -⟩ :=
    frames_self_delimiting items rest (by decide) fun f => by simp [hrest]
  have hbody := congrArg (List.map Prod.snd) hbodies
  rw [List.map_map] at hbody
  exact ⟨encoded, frames, hencoded, hframes, hbody, hrest⟩

end Frame

end GameServer.Wire
