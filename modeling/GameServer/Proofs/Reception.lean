import GameServer.Proofs.PacketStream

/-!
Receiving a stream: however it is cut into chunks, its commands are those of its parse.

A session takes what has arrived, queues every whole packet, checks that the next one is
possible, makes room and asks for more.  Each time it leaves behind bytes that wait, and
they are parsed again in front of the next chunk; so a stream fed chunk by chunk gives the
commands, the fault and the bytes left over that its parse gives.
-/

namespace GameServer

open Wire PacketStream

/-! ### What a buffer sees at the front -/

namespace ReceiveBuffer

variable {b : ReceiveBuffer} {header : Header}

theorem next?_of_waits (h : Waits b.capacity b.unread) : b.next? = none := by
  unfold next? Frame.split
  cases hheader : Header.decode? b.unread with
  | none => rfl
  | some header =>
    obtain ⟨hleast, -, hlength⟩ := h header hheader
    have hpart : ¬ (b.unread.take header.total).length = header.total := by
      rw [List.length_take]
      omega
    simp only [if_neg (Nat.not_lt.mpr hleast), if_neg hpart]

theorem next?_of_declares (h : Declares b.capacity b.unread header)
    (hfits : b.unread.length ≤ b.capacity) : b.next? = none := by
  obtain ⟨hheader, hsize⟩ := h
  unfold next? Frame.split
  rw [hheader]
  by_cases hleast : header.total < headerSize
  · simp only [if_pos hleast]
  · -- longer than the region, so that it cannot all be there
    have hpart : ¬ (b.unread.take header.total).length = header.total := by
      rw [List.length_take]
      omega
    simp only [if_neg hleast, if_neg hpart]

theorem next?_of_begins (h : Begins b.capacity b.unread header) :
    b.next? = some ⟨header, bodyOf b.unread header⟩ := by
  obtain ⟨hheader, hleast, -, hlength⟩ := h
  unfold next? Frame.split
  rw [hheader]
  have hwhole : (b.unread.take header.total).length = header.total := by
    rw [List.length_take]
    omega
  simp only [if_neg (Nat.not_lt.mpr hleast), if_pos hwhole]
  rfl

theorem fault?_of_waits (h : Waits b.capacity b.unread) : b.fault? = none := by
  unfold fault? peek?
  cases hheader : Header.decode? b.unread with
  | none => rfl
  | some header =>
    obtain ⟨hleast, hmost, -⟩ := h header hheader
    have hsize : ¬ (header.total < headerSize ∨ b.capacity < header.total) := by omega
    simp only [if_neg hsize]

theorem fault?_of_declares (h : Declares b.capacity b.unread header) :
    b.fault? = some header.total := by
  unfold fault? peek?
  rw [h.1]
  simp only [if_pos h.2]

/-- Taking bytes off the front moves no byte. -/
theorem write_consume {count : Nat} (h : count ≤ b.unread.length) :
    (b.consume count).write = b.write := by
  simp only [write, consume, List.length_drop]
  omega

/-- **What a buffer is emptied of is what its bytes parse to.**  A size that no packet can
    have stops the emptying without a fault, and is found at the front afterwards. -/
theorem drainFor_eq_parse (tolerant : Bool) (id : SessionId) (rounds : Nat) (b : ReceiveBuffer)
    (hrounds : b.unread.length ≤ rounds) (hfits : b.unread.length ≤ b.capacity) :
    let drained := drainFor tolerant true id rounds b
    let parsed := parse b.capacity tolerant id b.unread
    drained.2.1 = parsed.1 ∧ drained.1.capacity = b.capacity ∧ drained.1.write = b.write ∧
      match parsed.2 with
      | .waiting rest =>
        drained.2.2 = none ∧ drained.1.fault? = none ∧ drained.1.unread = rest
      | .failed fault =>
        drained.2.2 = some fault ∨
          drained.2.2 = none ∧ ∃ declared, drained.1.fault? = some declared ∧
            fault = .framing declared := by
  induction rounds generalizing b with
  | zero =>
    have hnone : b.unread = [] := List.length_eq_zero_iff.mp (Nat.le_zero.mp hrounds)
    have h : Waits b.capacity b.unread := by
      intro header hheader
      rw [hnone] at hheader
      cases hheader
    simp only [drainFor, parse_of_waits h, fault?_of_waits h, and_self]
  | succ rounds ih =>
    rcases front_cases b.capacity b.unread with h | ⟨header, h⟩ | ⟨header, h⟩
    · simp only [drainFor, extract, next?_of_waits h, parse_of_waits h, fault?_of_waits h,
        and_self]
    · simp only [drainFor, extract, next?_of_declares h hfits, parse_of_declares h,
        fault?_of_declares h, true_and]
      exact .inr ⟨header.total, rfl, rfl⟩
    · have hlength := h.length_drop_lt
      have hwrite : (b.consume header.total).write = b.write := write_consume h.2.2.2
      have hrest := ih (b.consume header.total) (Nat.le_of_lt_succ (Nat.lt_of_lt_of_le hlength hrounds))
        (Nat.le_trans (Nat.le_of_lt hlength) hfits)
      rw [hwrite] at hrest
      simp only [drainFor, extract, next?_of_begins h, parse_of_begins h, Frame.size]
      cases hdecode : Request.decode header.code (bodyOf b.unread header) with
      | ok request => exact ⟨congrArg _ hrest.1, hrest.2⟩
      | error cause =>
        by_cases htolerated : tolerant = true ∧ header.code = Packet.loginRequest.code
        · have : tolerates tolerant ⟨header.code, header.total, cause⟩ = true := by
            simp [tolerates, htolerated]
          simp only [this, if_true, if_pos htolerated, skip?, next?_of_begins h, Option.map_some,
            Option.getD_some, Frame.size]
          exact hrest
        · have : ¬ tolerates tolerant ⟨header.code, header.total, cause⟩ = true := by
            simpa [tolerates] using htolerated
          simp only [this, if_neg htolerated]
          exact ⟨rfl, rfl, rfl, .inl rfl⟩

theorem compactIfLow_unread (b : ReceiveBuffer) : b.compactIfLow.unread = b.unread := by
  unfold compactIfLow
  split <;> rfl

theorem compactIfLow_capacity (b : ReceiveBuffer) : b.compactIfLow.capacity = b.capacity := by
  unfold compactIfLow
  split <;> rfl

theorem write_compactIfLow_le (b : ReceiveBuffer) : b.compactIfLow.write ≤ b.write := by
  unfold compactIfLow
  split
  · simp [write, compact]
  · exact Nat.le_refl _

end ReceiveBuffer

/-! ### Chunk by chunk -/

namespace Session

/-- An open session that waits for bytes.  The bytes it holds lie within its buffer and wait for
    more, and the last receive asked for as many as there is room for. -/
structure Ready (s : Session) : Prop where
  isOpen : s.closed = false
  within : s.buffer.write ≤ s.buffer.capacity
  waits : Waits s.buffer.capacity s.buffer.unread
  armed : s.link.armed.getLast? = some s.buffer.free

/-- A session that has just been started waits for bytes. -/
theorem ready_start {s : Session} {capacity : Nat} (hopen : s.closed = false)
    (hbuffer : s.buffer = .empty capacity) : s.start.Ready where
  isOpen := hopen
  within := by simp [start, hbuffer, ReceiveBuffer.empty, ReceiveBuffer.write]
  waits := by
    intro header hheader
    rw [start, hbuffer] at hheader
    cases hheader
  armed := by simp [start, Link.arm]

section Receive

variable {s : Session} {tolerant : Bool} {chunk : Bytes} {q : CommandQueue}
  {filled rest : ReceiveBuffer} {commands : List Command}

theorem receive_of_fault {cause : SessionFault} (hopen : s.closed = false)
    (happend : s.buffer.append chunk = .ok filled)
    (hdrained : ReceiveBuffer.drainFor tolerant q.live s.id filled.unread.length filled =
      (rest, commands, some cause)) :
    s.receive tolerant chunk q =
      ({ s with buffer := rest }, q.offerAll commands, .error cause) := by
  simp only [receive, hopen, happend, ReceiveBuffer.drain, hdrained]
  rfl

theorem receive_of_impossible {declared : Nat} (hopen : s.closed = false)
    (happend : s.buffer.append chunk = .ok filled)
    (hdrained : ReceiveBuffer.drainFor tolerant q.live s.id filled.unread.length filled =
      (rest, commands, none))
    (hfault : rest.fault? = some declared) :
    s.receive tolerant chunk q =
      ({ s with buffer := rest }, q.offerAll commands, .error (.framing declared)) := by
  simp only [receive, hopen, happend, ReceiveBuffer.drain, hdrained, hfault]
  rfl

theorem receive_of_waiting (hopen : s.closed = false)
    (happend : s.buffer.append chunk = .ok filled)
    (hdrained : ReceiveBuffer.drainFor tolerant q.live s.id filled.unread.length filled =
      (rest, commands, none))
    (hfault : rest.fault? = none) :
    s.receive tolerant chunk q =
      ({ s with buffer := rest.compactIfLow, link := s.link.arm rest.compactIfLow.free },
        q.offerAll commands, .ok commands.length) := by
  simp only [receive, hopen, happend, ReceiveBuffer.drain, hdrained, hfault]
  rfl

end Receive

/-- A chunk that there is room for is appended whole. -/
theorem Ready.append {s : Session} (h : s.Ready) {chunk : Bytes}
    (hroom : chunk.length ≤ s.buffer.free) :
    ∃ filled, s.buffer.append chunk = .ok filled ∧ filled.unread = s.buffer.unread ++ chunk ∧
      filled.capacity = s.buffer.capacity ∧ filled.write ≤ filled.capacity := by
  refine ⟨{ s.buffer with unread := s.buffer.unread ++ chunk }, ?_, rfl, rfl, ?_⟩
  · rw [ReceiveBuffer.append, if_neg (Nat.not_lt.mpr hroom)]
  · have hwithin := h.within
    simp only [ReceiveBuffer.free, ReceiveBuffer.write, List.length_append] at hroom hwithin ⊢
    omega

/-- An open session that holds bytes that wait, and asks for more, is ready. -/
theorem ready_of_waits {s : Session} {rest : ReceiveBuffer} (hopen : s.closed = false)
    (hwithin : rest.write ≤ rest.capacity) (hwaits : Waits rest.capacity rest.unread) :
    Ready { s with buffer := rest.compactIfLow, link := s.link.arm rest.compactIfLow.free } where
  isOpen := hopen
  within := by
    rw [rest.compactIfLow_capacity]
    exact Nat.le_trans rest.write_compactIfLow_le hwithin
  waits := by
    rw [rest.compactIfLow_capacity, rest.compactIfLow_unread]
    exact hwaits
  armed := by simp [Link.arm]

/-- **One chunk** that the session has room for: it queues the commands of its bytes with the
    chunk behind them, and either waits again, holding what they leave over, or has met their
    fault. -/
theorem Ready.receive {s : Session} (h : s.Ready) (tolerant : Bool) {q : CommandQueue}
    (hlive : q.live = true) {chunk : Bytes} (hroom : chunk.length ≤ s.buffer.free) :
    let parsed := parse s.buffer.capacity tolerant s.id (s.buffer.unread ++ chunk)
    ∃ t outcome,
      s.receive tolerant chunk q = (t, { q with pending := q.pending ++ parsed.1 }, outcome) ∧
        t.id = s.id ∧ t.buffer.capacity = s.buffer.capacity ∧
        match parsed.2 with
        | .waiting rest => outcome = .ok parsed.1.length ∧ t.Ready ∧ t.buffer.unread = rest
        | .failed fault => outcome = .error fault := by
  obtain ⟨filled, happend, hunread, hsize, hwithin⟩ := h.append hroom
  have hfits : filled.unread.length ≤ filled.capacity :=
    Nat.le_trans (Nat.le_add_left _ _) hwithin
  have hparse := filled.drainFor_eq_parse tolerant s.id filled.unread.length (Nat.le_refl _) hfits
  rcases hdrained : ReceiveBuffer.drainFor tolerant true s.id filled.unread.length filled with
    ⟨rest, commands, fault⟩
  have hdrained' := hdrained
  rw [← hlive] at hdrained'
  rw [← hunread, ← hsize]
  intro parsed
  have hparsed : parse filled.capacity tolerant s.id filled.unread = parsed := rfl
  rw [hdrained, hparsed] at hparse
  obtain ⟨hcommands, hcapacity, hwrite, hending⟩ := hparse
  dsimp only at hcommands hcapacity hwrite hending
  have hqueue : q.offerAll commands = { q with pending := q.pending ++ parsed.1 } := by
    rw [CommandQueue.offerAll, if_pos hlive, hcommands]
  cases hend : parsed.2 with
  | waiting left =>
    have hwaits := waits_of_parse (Prod.ext rfl hend : parsed = (parsed.1, .waiting left))
    rw [hend] at hending
    obtain ⟨rfl, hfault, rfl⟩ := hending
    rw [← hcapacity] at hwaits
    rw [receive_of_waiting h.isOpen happend hdrained' hfault, hqueue]
    exact ⟨_, _, rfl, rfl, rest.compactIfLow_capacity.trans hcapacity, by rw [hcommands],
      ready_of_waits h.isOpen (hwrite ▸ hcapacity ▸ hwithin) hwaits, rest.compactIfLow_unread⟩
  | failed cause =>
    rw [hend] at hending
    rcases hending with rfl | ⟨rfl, declared, hfault, rfl⟩
    · rw [receive_of_fault h.isOpen happend hdrained', hqueue]
      exact ⟨_, _, rfl, rfl, hcapacity, rfl⟩
    · rw [receive_of_impossible h.isOpen happend hdrained' hfault, hqueue]
      exact ⟨_, _, rfl, rfl, hcapacity, rfl⟩

/-- Feeds a session its chunks, one receive for each, up to the first that meets a fault. -/
def feed (tolerant : Bool) :
    List Bytes → Session → CommandQueue → Session × CommandQueue × Option SessionFault
  | [], s, q => (s, q, none)
  | chunk :: later, s, q =>
    match s.receive tolerant chunk q with
    | (s, q, .ok _) => feed tolerant later s q
    | (s, q, .error fault) => (s, q, some fault)

/-- Each chunk is one that the receive asked for last can bring: no longer than what was asked
    for.  Behind a fault nothing is asked for. -/
def Fits (tolerant : Bool) : List Bytes → Session → CommandQueue → Prop
  | [], _, _ => True
  | chunk :: later, s, q =>
    (∃ limit ∈ s.link.armed.getLast?, chunk.length ≤ limit) ∧
      match s.receive tolerant chunk q with
      | (s, q, .ok _) => Fits tolerant later s q
      | (_, _, .error _) => True

instance Fits.decide (tolerant : Bool) :
    (chunks : List Bytes) → (s : Session) → (q : CommandQueue) →
      Decidable (Fits tolerant chunks s q)
  | [], _, _ => isTrue trivial
  | chunk :: later, s, q =>
    have : Decidable (match s.receive tolerant chunk q with
        | (s, q, .ok _) => Fits tolerant later s q
        | (_, _, .error _) => True) :=
      match s.receive tolerant chunk q with
      | (s, q, .ok _) => Fits.decide tolerant later s q
      | (_, _, .error _) => isTrue trivial
    inferInstanceAs (Decidable (_ ∧ _))

/-- A session that waits is fed the parse of what it holds with its chunks behind it. -/
theorem Ready.feed {tolerant : Bool} {chunks : List Bytes} {s : Session} {q : CommandQueue}
    (h : s.Ready) (hlive : q.live = true) (hfits : Fits tolerant chunks s q) :
    let parsed := parse s.buffer.capacity tolerant s.id (s.buffer.unread ++ chunks.flatten)
    ∃ t fault, feed tolerant chunks s q = (t, { q with pending := q.pending ++ parsed.1 }, fault) ∧
      match parsed.2 with
      | .waiting rest => fault = none ∧ t.buffer.unread = rest
      | .failed cause => fault = some cause := by
  induction chunks generalizing s q with
  | nil =>
    rw [List.flatten_nil, List.append_nil, parse_of_waits h.waits]
    exact ⟨s, none, by rw [Session.feed, List.append_nil], rfl, rfl⟩
  | cons chunk later ih =>
    obtain ⟨⟨limit, hlimit, hchunk⟩, hlater⟩ := hfits
    have hroom : chunk.length ≤ s.buffer.free := by
      rw [h.armed] at hlimit
      exact Option.mem_some_iff.mp hlimit ▸ hchunk
    obtain ⟨t, outcome, hreceive, hid, hcapacity, hending⟩ := h.receive tolerant hlive hroom
    rw [hreceive] at hlater
    rw [List.flatten_cons, ← List.append_assoc, parse_append]
    simp only [Session.feed, hreceive]
    rcases hparse : parse s.buffer.capacity tolerant s.id (s.buffer.unread ++ chunk) with
      ⟨commands, rest | fault⟩
    · -- the session waits again, and goes on from the bytes the chunk left over
      rw [hparse] at hending hlater
      obtain ⟨rfl, hready, hrest⟩ := hending
      have hgoes := ih (q := { q with pending := q.pending ++ commands }) hready hlive hlater
      rw [hid, hcapacity, hrest] at hgoes
      simpa only [List.append_assoc] using hgoes
    · rw [hparse] at hending
      obtain rfl := hending
      exact ⟨t, some fault, rfl, rfl⟩

/-- **Chunks do not matter.**  An open session that has just been started, fed a stream in any
    chunks that fit what it asked for, queues exactly the commands of the stream's parse, each
    once and in order.  Where the parse meets a fault, so does the feeding; where it does not,
    the session is left with exactly the bytes that the parse leaves waiting. -/
theorem feed_eq_parse {capacity : Nat} {s : Session} {q : CommandQueue} {chunks : List Bytes}
    (tolerant : Bool) (hopen : s.closed = false) (hbuffer : s.buffer = .empty capacity)
    (hlive : q.live = true) (hfits : Fits tolerant chunks s.start q) :
    let parsed := parse capacity tolerant s.id chunks.flatten
    ∃ t fault,
      feed tolerant chunks s.start q = (t, { q with pending := q.pending ++ parsed.1 }, fault) ∧
        match parsed.2 with
        | .waiting rest => fault = none ∧ t.buffer.unread = rest
        | .failed cause => fault = some cause := by
  have h := (ready_start hopen hbuffer).feed hlive hfits
  have hstart : s.start.buffer = .empty capacity := hbuffer
  simp only [hstart, ReceiveBuffer.empty, List.nil_append] at h
  exact h

/-- A malformed login is stepped over and the request behind it queued, wherever the two are
    cut; the byte behind them waits. -/
theorem feed_eq_parse_cut :
    let s := Session.new ⟨7⟩ 16
    let chunks : List Bytes := [[5, 0, 3], [0, 9, 4, 0, 6], [0, 2]]
    Fits true chunks s.start {} ∧
      parse 16 true ⟨7⟩ chunks.flatten = ([.request ⟨7⟩ .leaveRoom], .waiting [2]) := by
  intro s chunks
  have hfits : Fits true chunks s.start {} := by decide +kernel
  have hends : ((feed true chunks s.start {}).1.buffer.unread,
      (feed true chunks s.start {}).2.1.pending, (feed true chunks s.start {}).2.2) =
        ([2], [.request ⟨7⟩ .leaveRoom], none) := by decide +kernel
  obtain ⟨t, fault, hfed, hending⟩ := feed_eq_parse (s := s) (q := {}) true rfl rfl rfl hfits
  rw [hfed] at hends
  refine ⟨hfits, ?_⟩
  change parse 16 true s.id chunks.flatten = _
  obtain ⟨hrest, hcommands, hfault⟩ := Prod.mk.inj hends |>.imp_right Prod.mk.inj
  rcases hparse : parse 16 true s.id chunks.flatten with ⟨commands, rest | cause⟩
  · rw [hparse] at hcommands hending
    exact Prod.ext hcommands (congrArg Ending.waiting (hending.2.symm.trans hrest))
  · rw [hparse] at hending
    rw [hending] at hfault
    cases hfault

end Session

end GameServer
