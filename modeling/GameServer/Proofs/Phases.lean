import GameServer.Proofs.Arming
import GameServer.Proofs.ByteQueue

/-!
What lies at the front of a receive buffer.

Three tests look at the front: whether a whole packet is there, whether the declared size is one
that no packet can have, and whether there is room for more.  Whatever has arrived, they agree on
one of three answers: there is a packet to be had; there never will be one; or more bytes are
waited for, and there is room for them.
-/

namespace GameServer

open Wire PacketStream

namespace Region

/-- What lies at the front of a region. -/
inductive Phase where
  | complete
  | impossible (declared : Nat)
  | waiting
deriving DecidableEq, Repr

def afterAll (r : Region) (operations : List Operation) : Region :=
  after (fun r o => (r.perform o).1) r operations

/-! ### The three phases -/

/-- There is a packet to be had. -/
structure Offers (r : Region) : Prop where
  hasPacket : r.hasPacket = true
  possible : r.fault? = none
  skips : r.skip.2 = true
  extracts : ∀ session, (r.extract session).2 ≠ .ok none

/-- There is no packet to be had, and whoever tries changes nothing. -/
structure Withholds (r : Region) : Prop where
  hasPacket : r.hasPacket = false
  skips : r.skip = (r, false)
  extracts : ∀ session, r.extract session = (r, .ok none)

/-- A size is declared that no packet can have. -/
structure Stuck (r : Region) (declared : Nat) : Prop extends r.Withholds where
  declares : r.peek?.map Header.total = some declared
  fault : r.fault? = some declared

/-- More bytes are waited for.  Once the unread bytes have been moved to the start there is room for
    one at least, and for all that is missing from a packet whose header is known; with these the
    packet is there. -/
structure Awaits (r : Region) : Prop extends r.Withholds where
  possible : r.fault? = none
  room : 1 ≤ r.compact.free
  completes : ∀ header, r.peek? = some header →
    ∃ missing, 0 < missing ∧ r.unread + missing = header.total ∧ missing ≤ r.compact.free ∧
      ∀ bytes : Bytes, bytes.length = missing →
        (r.compact.append bytes).2 = .ok () ∧ (r.compact.append bytes).1.Offers

/-- What it is to be in a phase.  There is no way out of `impossible`. -/
def Shows (r : Region) : Phase → Prop
  | .complete => r.Offers
  | .impossible declared => ∀ later, (r.afterAll later).Stuck declared
  | .waiting => r.Awaits

/-! ### Whether there is a packet -/

section Front

variable {r : Region} {header : Header}

theorem withholds_of_next?_none (hnext : r.next? = none) : r.Withholds where
  hasPacket := by rw [hasPacket, hnext, Option.isSome_none]
  skips := by rw [skip, hnext]
  extracts session := by rw [extract, hnext]

theorem offers_of_begins (h : Begins r.capacity r.window header) : r.Offers := by
  have hnext : r.next? = some ⟨header, bodyOf r.window header⟩ :=
    ReceiveBuffer.next?_of_begins (b := r.buffer) h
  obtain ⟨hheader, hleast, hmost, -⟩ := h
  have hsize : ¬ (header.total < headerSize ∨ r.capacity < header.total) := by omega
  constructor
  · rw [hasPacket, hnext, Option.isSome_some]
  · rw [fault?, peek?, hheader]
    exact if_neg hsize
  · rw [skip, hnext]
  · intro session
    rw [extract, hnext]
    cases hdecode : Request.decode header.code (bodyOf r.window header) <;> simp [hdecode]

theorem stuck_of_declares (hordered : r.Ordered) (h : Declares r.capacity r.window header) :
    r.Stuck header.total := by
  have hfits : r.window.length ≤ r.capacity := by
    rw [length_window hordered, unread]
    exact (Nat.sub_le ..).trans hordered.write_le
  have hnext : r.next? = none := ReceiveBuffer.next?_of_declares (b := r.buffer) h hfits
  have hfault : r.fault? = some header.total := ReceiveBuffer.fault?_of_declares (b := r.buffer) h
  refine { withholds_of_next?_none hnext with declares := ?_, fault := hfault }
  rw [peek?, h.1, Option.map_some]

/-- Moving the unread bytes to the start leaves all other bytes free. -/
theorem free_compact (hordered : r.Ordered) : r.compact.free = r.capacity - r.unread := by
  rw [free, capacity_compact hordered]
  rfl

theorem awaits_of_waits (hordered : r.Ordered) (hleast : headerSize ≤ r.capacity)
    (h : Waits r.capacity r.window) : r.Awaits := by
  have hnext : r.next? = none := ReceiveBuffer.next?_of_waits (b := r.buffer) h
  have hfault : r.fault? = none := ReceiveBuffer.fault?_of_waits (b := r.buffer) h
  have hlength : r.window.length = r.unread := length_window hordered
  have hfree := free_compact hordered
  have hshort := h.length_lt hleast
  refine { withholds_of_next?_none hnext with possible := hfault, room := by omega, completes := ?_ }
  intro header hheader
  obtain ⟨hmost, hpossible, hpart⟩ := h header hheader
  refine ⟨header.total - r.unread, by omega, by omega, by omega, fun bytes hbytes => ?_⟩
  have hroom : bytes.length ≤ r.compact.free := by omega
  have hcompact := ordered_compact hordered
  have happend : r.compact.append bytes = (r.compact.extend bytes, .ok ()) :=
    if_neg (Nat.not_lt.mpr hroom)
  have hwindow : (r.compact.extend bytes).window = r.window ++ bytes := by
    rw [window_extend hcompact, window_compact hordered]
  have hcapacity : (r.compact.extend bytes).capacity = r.capacity := by
    rw [capacity_extend hcompact (Nat.not_lt.mpr hroom), capacity_compact hordered]
  have hbegins : Begins r.capacity (r.window ++ bytes) header := by
    refine ⟨decode?_append hheader, hmost, hpossible, ?_⟩
    rw [List.length_append]
    omega
  rw [← hwindow, ← hcapacity] at hbegins
  rw [happend]
  exact ⟨rfl, offers_of_begins hbegins⟩

end Front

/-! ### What operations do -/

variable {r : Region}

theorem Ordered.afterAll (h : r.Ordered) (operations : List Operation) :
    (r.afterAll operations).Ordered ∧ (r.afterAll operations).capacity = r.capacity := by
  induction operations generalizing r with
  | nil => exact ⟨h, rfl⟩
  | cons o rest ih =>
    obtain ⟨hordered, hcapacity, -⟩ := perform_spec h o
    obtain ⟨hlast, hsame⟩ := ih hordered
    exact ⟨hlast, hsame.trans hcapacity⟩

/-- A size that no packet can have stays at the front, whatever is done. -/
theorem declares_perform {header : Header} (hordered : r.Ordered)
    (h : Declares r.capacity r.window header) (o : Operation) :
    Declares (r.perform o).1.capacity (r.perform o).1.window header := by
  obtain ⟨hstays, -, -⟩ := stuck_of_declares hordered h
  have hcompact : Declares r.compact.capacity r.compact.window header := by
    rw [capacity_compact hordered, window_compact hordered]
    exact h
  cases o with
  | append bytes =>
    rw [perform, append]
    by_cases hfull : r.free < bytes.length
    · rw [if_pos hfull]
      exact h
    · rw [if_neg hfull]
      dsimp only [Prod.map, id]
      rw [window_extend hordered, capacity_extend hordered hfull]
      exact h.append bytes
  | extract session =>
    rw [perform, hstays.extracts]
    exact h
  | skip =>
    rw [perform, hstays.skips]
    exact h
  | peek => exact h
  | compact => exact hcompact
  | compactIfLow =>
    change Declares r.compactIfLow.1.capacity r.compactIfLow.1.window header
    rcases r.fst_compactIfLow with hsame | hmoved
    · rw [hsame]
      exact h
    · rw [hmoved]
      exact hcompact

theorem stuck_afterAll {header : Header} (hordered : r.Ordered)
    (h : Declares r.capacity r.window header) (later : List Operation) :
    (r.afterAll later).Stuck header.total := by
  induction later generalizing r with
  | nil => exact stuck_of_declares hordered h
  | cons o rest ih => exact ih (perform_spec hordered o).1 (declares_perform hordered h o)

/-! ### Exactly one -/

/-- No two phases fit together: one has a packet and the others have none, and of these one has a
    fault. -/
theorem Shows.unique {phase other : Phase} (h : r.Shows phase) (h' : r.Shows other) :
    other = phase := by
  have hstuck : ∀ {declared}, r.Shows (.impossible declared) → r.Stuck declared := fun h => h []
  cases phase with
  | complete =>
    cases other with
    | complete => rfl
    | impossible declared => cases h.hasPacket.symm.trans (hstuck h').hasPacket
    | waiting => cases h.hasPacket.symm.trans h'.hasPacket
  | impossible declared =>
    cases other with
    | complete => cases h'.hasPacket.symm.trans (hstuck h).hasPacket
    | impossible declared' =>
      exact congrArg _ (Option.some.inj ((hstuck h').fault.symm.trans (hstuck h).fault))
    | waiting => cases (hstuck h).fault.symm.trans h'.possible
  | waiting =>
    cases other with
    | complete => cases h'.hasPacket.symm.trans h.hasPacket
    | impossible declared => cases (hstuck h').fault.symm.trans h.possible
    | waiting => rfl

/-- **A receive buffer is in exactly one of three phases**, whatever has been done to it.  Either a
    whole packet is there, so that it can be skipped, and extracting it gives a command or a
    malformed packet.  Or the next packet declares a size that none can have: that size is
    reported, nothing can be extracted or skipped, and it stays so whatever follows.  Or more is
    waited for: extracting and skipping change nothing, and compacting makes room for one byte at
    least and for all that is missing from a packet whose header is known, which then is there. -/
theorem exactly_one_phase (capacity : Nat) (hcapacity : 4 ≤ capacity)
    (operations : List Operation) :
    ∃! phase, ((fresh capacity).afterAll operations).Shows phase := by
  obtain ⟨hordered, hsame⟩ := (ordered_fresh capacity).afterAll operations
  have hleast : headerSize ≤ ((fresh capacity).afterAll operations).capacity := by
    rw [hsame, capacity_fresh]
    exact hcapacity
  generalize (fresh capacity).afterAll operations = r at hordered hleast
  have hsome : ∃ phase, r.Shows phase := by
    rcases front_cases r.capacity r.window with h | ⟨header, h⟩ | ⟨header, h⟩
    · exact ⟨.waiting, awaits_of_waits hordered hleast h⟩
    · exact ⟨.impossible header.total, stuck_afterAll hordered h⟩
    · exact ⟨.complete, offers_of_begins h⟩
  obtain ⟨phase, h⟩ := hsome
  exact ⟨phase, h, fun other h' => h.unique h'⟩

/-- A region is full of a packet that has been skipped and of two thirds of one that is as long as
    the region.  There is no room at its end, but compacting makes room for just the rest. -/
theorem exactly_one_phase_full :
    let r := (fresh 12).afterAll [.append [4, 0, 10, 0, 12, 0, 7, 0, 97, 98, 99, 100], .skip]
    4 ≤ 12 ∧ r.free = 0 ∧ r.Awaits ∧ r.compact.free = 4 ∧
      (r.compact.append [101, 102, 103, 104]).1.hasPacket = true := by
  intro r
  obtain ⟨phase, h, -⟩ := exactly_one_phase 12 (by decide)
    [.append [4, 0, 10, 0, 12, 0, 7, 0, 97, 98, 99, 100], .skip]
  have htests : r.hasPacket = false ∧ r.fault? = none ∧ r.free = 0 ∧ r.compact.free = 4 ∧
      r.unread = 8 := by decide +kernel
  obtain ⟨hpacket, hfault, hfull, hroom, hunread⟩ := htests
  have hwaits : r.Awaits := by
    cases phase with
    | complete => cases h.hasPacket.symm.trans hpacket
    | impossible declared => cases (h []).fault.symm.trans hfault
    | waiting => exact h
  have hpeek : r.peek? = some ⟨12, 7⟩ := by decide +kernel
  obtain ⟨missing, -, htotal, -, hcompletes⟩ := hwaits.completes _ hpeek
  have hmissing : missing = 4 := by
    rw [hunread] at htotal
    exact Nat.add_left_cancel htotal
  have hoffers := (hcompletes [101, 102, 103, 104] hmissing.symm).2
  exact ⟨by decide, hfull, hwaits, hroom, hoffers.hasPacket⟩

end Region

end GameServer
