import GameServer.Session.Basic

/-!
A stream of packets, read from left to right.

`parse` says what a stream of bytes holds for a session, without saying when its bytes
arrive: a header, then a body of the declared length, over and over.  The front of a stream
is always in one of three states: it waits for bytes, it declares a size that no packet can
have, or it begins with a whole packet.  Bytes that arrive later end only the first state, so a
stream may be parsed piece by piece.
-/

namespace GameServer

open Wire

namespace PacketStream

/-! ### The parse -/

/-- How a parse ends: with bytes that wait for more, or with a fault. -/
inductive Ending where
  | waiting (rest : Bytes)
  | failed (fault : SessionFault)
deriving DecidableEq, Repr

/-- What a stream holds for a session whose buffer has the given capacity: the commands in
    order, and how the parse ends.  A malformed login is stepped over where that is
    tolerated. -/
def parse (capacity : Nat) (tolerant : Bool) (id : SessionId) (stream : Bytes) :
    List Command × Ending :=
  match Header.decode? stream with
  | none => ([], .waiting stream)
  | some header =>
    if _ : header.total < headerSize ∨ capacity < header.total then
      ([], .failed (.framing header.total))
    else if _ : stream.length < header.total then ([], .waiting stream)
    else
      let body := (stream.take header.total).drop headerSize
      let later := parse capacity tolerant id (stream.drop header.total)
      match Request.decode header.code body with
      | .ok request => (.request id request :: later.1, later.2)
      | .error cause =>
        if tolerant = true ∧ header.code = Packet.loginRequest.code then later
        else ([], .failed (.malformed ⟨header.code, header.total, cause⟩))
termination_by stream.length
decreasing_by
  simp only [List.length_drop, headerSize] at *
  omega

/-! ### The front of a stream -/

variable {capacity : Nat} {stream : Bytes} {header : Header}

/-- The front of the stream waits for bytes: its header is not there yet, or declares a size
    that a packet can have and that has not arrived. -/
def Waits (capacity : Nat) (stream : Bytes) : Prop :=
  ∀ header, Header.decode? stream = some header →
    headerSize ≤ header.total ∧ header.total ≤ capacity ∧ stream.length < header.total

/-- The front of the stream declares a size that no packet can have. -/
def Declares (capacity : Nat) (stream : Bytes) (header : Header) : Prop :=
  Header.decode? stream = some header ∧ (header.total < headerSize ∨ capacity < header.total)

def Begins (capacity : Nat) (stream : Bytes) (header : Header) : Prop :=
  Header.decode? stream = some header ∧
    headerSize ≤ header.total ∧ header.total ≤ capacity ∧ header.total ≤ stream.length

/-- The front of a stream is in one of three states. -/
theorem front_cases (capacity : Nat) (stream : Bytes) :
    Waits capacity stream ∨ (∃ header, Declares capacity stream header) ∨
      ∃ header, Begins capacity stream header := by
  cases hheader : Header.decode? stream with
  | none => exact .inl fun header h => by rw [hheader] at h; cases h
  | some header =>
    by_cases hsize : header.total < headerSize ∨ capacity < header.total
    · exact .inr (.inl ⟨header, hheader, hsize⟩)
    · by_cases hlength : stream.length < header.total
      · left
        intro other hother
        obtain rfl := Option.some.inj (hheader.symm.trans hother)
        omega
      · exact .inr (.inr ⟨header, hheader, by omega, by omega, by omega⟩)

/-- A packet has at least a header, so that less is left behind it. -/
theorem Begins.length_drop_lt (h : Begins capacity stream header) :
    (stream.drop header.total).length < stream.length := by
  obtain ⟨-, hleast, -, hlength⟩ := h
  simp only [headerSize] at hleast
  rw [List.length_drop]
  omega

def bodyOf (stream : Bytes) (header : Header) : Bytes :=
  (stream.take header.total).drop headerSize

section Parse

variable {tolerant : Bool} {id : SessionId}

theorem parse_of_waits (h : Waits capacity stream) :
    parse capacity tolerant id stream = ([], .waiting stream) := by
  rw [parse]
  cases hheader : Header.decode? stream with
  | none => rfl
  | some header =>
    obtain ⟨hleast, hmost, hlength⟩ := h header hheader
    have hsize : ¬ (header.total < headerSize ∨ capacity < header.total) := by omega
    simp only [dif_neg hsize, dif_pos hlength]

theorem parse_of_declares (h : Declares capacity stream header) :
    parse capacity tolerant id stream = ([], .failed (.framing header.total)) := by
  rw [parse, h.1]
  simp only [dif_pos h.2]

theorem parse_of_begins (h : Begins capacity stream header) :
    parse capacity tolerant id stream =
      match Request.decode header.code (bodyOf stream header) with
      | .ok request =>
        (.request id request :: (parse capacity tolerant id (stream.drop header.total)).1,
          (parse capacity tolerant id (stream.drop header.total)).2)
      | .error cause =>
        if tolerant = true ∧ header.code = Packet.loginRequest.code then
          parse capacity tolerant id (stream.drop header.total)
        else ([], .failed (.malformed ⟨header.code, header.total, cause⟩)) := by
  obtain ⟨hheader, hleast, hmost, hlength⟩ := h
  have hsize : ¬ (header.total < headerSize ∨ capacity < header.total) := by omega
  rw [parse, hheader]
  simp only [dif_neg hsize, dif_neg (Nat.not_lt.mpr hlength)]
  rfl

end Parse

/-! ### More bytes -/

theorem decode?_append {later : Bytes} (h : Header.decode? stream = some header) :
    Header.decode? (stream ++ later) = some header := by
  unfold Header.decode? at h ⊢
  split at h
  · next a b c d rest => exact h
  · cases h

theorem Declares.append (h : Declares capacity stream header) (later : Bytes) :
    Declares capacity (stream ++ later) header := ⟨decode?_append h.1, h.2⟩

theorem Begins.append (h : Begins capacity stream header) (later : Bytes) :
    Begins capacity (stream ++ later) header :=
  ⟨decode?_append h.1, h.2.1, h.2.2.1, by rw [List.length_append]; have := h.2.2.2; omega⟩

theorem Begins.bodyOf_append (h : Begins capacity stream header) (later : Bytes) :
    bodyOf (stream ++ later) header = bodyOf stream header := by
  unfold bodyOf
  rw [List.take_append_of_le_length h.2.2.2]

/-- **A stream may be parsed in pieces**: a fault found in a piece is the fault of the whole, and
    what a piece leaves waiting is parsed again in front of the next. -/
theorem parse_append (tolerant : Bool) (id : SessionId) (stream later : Bytes) :
    parse capacity tolerant id (stream ++ later) =
      match parse capacity tolerant id stream with
      | (commands, .failed fault) => (commands, .failed fault)
      | (commands, .waiting rest) =>
        (commands ++ (parse capacity tolerant id (rest ++ later)).1,
          (parse capacity tolerant id (rest ++ later)).2) := by
  induction hn : stream.length using Nat.strongRecOn generalizing stream with
  | _ n ih =>
    rcases front_cases capacity stream with h | ⟨header, h⟩ | ⟨header, h⟩
    · rw [parse_of_waits h]
      rfl
    · rw [parse_of_declares h, parse_of_declares (h.append later)]
    · have hshorter := hn ▸ h.length_drop_lt
      have hrest := ih _ hshorter (stream.drop header.total) rfl
      rw [← List.drop_append_of_le_length h.2.2.2] at hrest
      rw [parse_of_begins h, parse_of_begins (h.append later), h.bodyOf_append later, hrest]
      cases hdecode : Request.decode header.code (bodyOf stream header) with
      | ok request =>
        rcases parse capacity tolerant id (stream.drop header.total) with ⟨commands, ending⟩
        cases ending <;> rfl
      | error cause =>
        dsimp only
        split
        · rfl
        · rfl

/-- What a parse leaves waiting waits. -/
theorem waits_of_parse {tolerant : Bool} {id : SessionId} {stream rest : Bytes}
    {commands : List Command}
    (hparse : parse capacity tolerant id stream = (commands, .waiting rest)) :
    Waits capacity rest := by
  induction hn : stream.length using Nat.strongRecOn generalizing stream commands with
  | _ n ih =>
    rcases front_cases capacity stream with h | ⟨header, h⟩ | ⟨header, h⟩
    · rw [parse_of_waits h] at hparse
      cases hparse
      exact h
    · rw [parse_of_declares h] at hparse
      cases hparse
    · have hshorter := hn ▸ h.length_drop_lt
      rw [parse_of_begins h] at hparse
      split at hparse
      · obtain ⟨-, hending⟩ := Prod.mk.inj hparse
        exact ih _ hshorter (Prod.ext rfl hending) rfl
      · split at hparse
        · exact ih _ hshorter hparse rfl
        · cases hparse

end PacketStream

end GameServer
