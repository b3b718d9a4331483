import GameServer.Proofs.Reception
import GameServer.Proofs.SessionRun

/-!
Asking for bytes: an honest connection always has exactly one receive to complete.

Whatever a session holds when it asks again waits for more, so that it is shorter than the
region; once it has been moved to the start there is room for at least one byte.  Hence no
receive is ever asked for that can bring nothing, what it brings always fits, and as long as
the session is open and no receive has failed, the next one has been asked for.
-/

namespace GameServer

open Wire PacketStream

/-! ### Room for more -/

/-- What waits is shorter than the region. -/
theorem PacketStream.Waits.length_lt {capacity : Nat} {stream : Bytes}
    (h : Waits capacity stream) (hleast : headerSize ≤ capacity) : stream.length < capacity := by
  cases hheader : Header.decode? stream with
  | some header =>
    obtain ⟨-, hmost, hlength⟩ := h header hheader
    omega
  | none =>
    have hshort : stream.length < headerSize := by
      rcases stream with _ | ⟨a, _ | ⟨b, _ | ⟨c, _ | ⟨d, rest⟩⟩⟩⟩
      case cons.cons.cons.cons => cases hheader
      all_goals simp [headerSize]
    omega

namespace ReceiveBuffer

/-- Behind bytes that wait there is room once it has been made. -/
theorem free_compactIfLow_pos {b : ReceiveBuffer} (h : Waits b.capacity b.unread)
    (hleast : headerSize ≤ b.capacity) : 0 < b.compactIfLow.free := by
  have hshort := h.length_lt hleast
  unfold compactIfLow
  split
  · simp only [compact, free, write]
    omega
  · next hlow =>
    have : lowWater ≤ b.free := by simpa [isLow] using hlow
    exact Nat.lt_of_lt_of_le (by decide) this

section Drain

variable {tolerant live : Bool} {id : SessionId} {rounds : Nat} {b rest : ReceiveBuffer}
  {commands : List Command}

/-- Where nothing goes wrong it does not matter whether anybody takes the commands. -/
theorem drainFor_live (h : drainFor tolerant live id rounds b = (rest, commands, none)) :
    drainFor tolerant true id rounds b = (rest, commands, none) := by
  induction rounds generalizing b commands with
  | zero => exact h
  | succ rounds ih =>
    rcases hextract : b.extract id with cause | _ | ⟨command, later⟩
    · simp only [drainFor, hextract] at h ⊢
      split at h
      · next htolerated => rw [if_pos htolerated, ih h]
      · cases h
    · simp only [drainFor, hextract] at h ⊢
      exact h
    · cases live with
      | true => exact h
      | false =>
        simp only [drainFor, hextract, Bool.false_eq_true, if_false] at h
        cases h

/-- Emptying a buffer puts no byte into it. -/
theorem drainFor_fault {fault : SessionFault}
    (h : drainFor tolerant live id rounds b = (rest, commands, some fault)) (needed free : Nat) :
    fault ≠ .bufferOverflow needed free := by
  induction rounds generalizing b commands with
  | zero => cases h
  | succ rounds ih =>
    rcases hextract : b.extract id with cause | _ | ⟨command, later⟩
    · simp only [drainFor, hextract] at h
      split at h
      · exact ih h
      · cases h
        intro hcause
        cases hcause
    · simp only [drainFor, hextract] at h
      cases h
    · simp only [drainFor, hextract] at h
      split at h
      · injection h with hrest htail
        injection htail with hcommands hfault
        exact ih (Prod.ext hrest (Prod.ext rfl hfault))
      · cases h
        intro hcause
        cases hcause

end Drain

end ReceiveBuffer

namespace Session

/-! ### One receive -/

theorem receive_of_closed {s : Session} (hclosed : s.closed = true) (tolerant : Bool)
    (chunk : Bytes) (q : CommandQueue) : s.receive tolerant chunk q = (s, q, .ok 0) := by
  rw [receive, if_pos hclosed]

/-- **What a receive asks for.**  A receive that goes well on an open session asks once, for as
    many bytes as there is room for; one that fails, or comes too late, asks for nothing. -/
theorem armed_receive (s : Session) (tolerant : Bool) (chunk : Bytes) (q : CommandQueue) :
    (s.receive tolerant chunk q).1.link.armed =
      match (s.receive tolerant chunk q).2.2 with
      | .error _ => s.link.armed
      | .ok _ =>
        if s.closed then s.link.armed
        else s.link.armed ++ [(s.receive tolerant chunk q).1.buffer.free] := by
  unfold receive
  cases s.closed with
  | true => rfl
  | false =>
    simp only [Bool.false_eq_true, if_false]
    rcases s.buffer.append chunk with _ | filled
    · rfl
    · dsimp only
      rcases filled.drain tolerant s.id q with ⟨rest, queue, _ | count⟩
      · rfl
      · dsimp only
        cases rest.fault? <;> rfl

/-- A chunk that fits leaves an open session waiting again, with room for more, or fails for
    what its bytes say. -/
theorem Ready.receive_cases {s : Session} (h : s.Ready) (hleast : headerSize ≤ s.buffer.capacity)
    (tolerant : Bool) (q : CommandQueue) {chunk : Bytes} (hroom : chunk.length ≤ s.buffer.free) :
    match s.receive tolerant chunk q with
    | (t, _, .ok _) => t.Ready ∧ t.buffer.capacity = s.buffer.capacity ∧ 0 < t.buffer.free
    | (_, _, .error fault) => ∀ needed free, fault ≠ .bufferOverflow needed free := by
  obtain ⟨filled, happend, -, hsize, hwithin⟩ := h.append hroom
  have hfits : filled.unread.length ≤ filled.capacity :=
    Nat.le_trans (Nat.le_add_left _ _) hwithin
  rcases hdrained : ReceiveBuffer.drainFor tolerant q.live s.id filled.unread.length filled with
    ⟨rest, commands, _ | cause⟩
  · cases hfault : rest.fault? with
    | some declared =>
      rw [receive_of_impossible h.isOpen happend hdrained hfault]
      nofun
    | none =>
      rw [receive_of_waiting h.isOpen happend hdrained hfault]
      have hparse :=
        filled.drainFor_eq_parse tolerant s.id filled.unread.length (Nat.le_refl _) hfits
      rw [ReceiveBuffer.drainFor_live hdrained] at hparse
      obtain ⟨-, hcapacity, hwrite, hending⟩ := hparse
      dsimp only at hcapacity hwrite hending
      rcases hparsed : parse filled.capacity tolerant s.id filled.unread with ⟨_, left | fault⟩
      · rw [hparsed] at hending
        have hwaits : Waits rest.capacity rest.unread := by
          rw [hending.2.2, hcapacity]
          exact waits_of_parse hparsed
        have hlarge : headerSize ≤ rest.capacity := by rwa [hcapacity, hsize]
        exact ⟨ready_of_waits h.isOpen (hwrite ▸ hcapacity ▸ hwithin) hwaits,
          rest.compactIfLow_capacity.trans (hcapacity.trans hsize),
          ReceiveBuffer.free_compactIfLow_pos hwaits hlarge⟩
      · -- a fault of the parse is found in the buffer
        rw [hparsed, hfault] at hending
        rcases hending with hsome | ⟨-, declared, hdeclared, -⟩
        · cases hsome
        · cases hdeclared
  · rw [receive_of_fault h.isOpen happend hdrained]
    exact ReceiveBuffer.drainFor_fault hdrained

/-! ### Everything else -/

/-- What a session has to do with receiving. -/
structure Inflow where
  buffer : ReceiveBuffer
  armed : List Nat

def inflow (s : Session) : Inflow := ⟨s.buffer, s.link.armed⟩

theorem inflow_beginNext (s : Session) : s.beginNext.inflow = s.inflow := by
  unfold beginNext
  split
  · rfl
  · split <;> rfl

theorem inflow_enqueue {s t : Session} {packet : Packet} {body : Bytes}
    (h : s.enqueue packet body = .ok t) : t.inflow = s.inflow := by
  unfold enqueue at h
  split at h
  · cases h; rfl
  · split at h
    · cases h
    · cases h
      split
      · rfl
      · rw [inflow_beginNext]; rfl

theorem inflow_completeSend (s : Session) : s.completeSend.2.inflow = s.inflow := by
  unfold completeSend Link.complete? sendCompleted
  cases s.link.inFlight <;> exact inflow_beginNext _

theorem inflow_disconnect (s : Session) (q : CommandQueue) :
    (s.disconnect q).1.inflow = s.inflow := by
  cases hclosed : s.closed with
  | true => rw [disconnect_of_closed hclosed]
  | false => rw [disconnect_of_open hclosed]; rfl

namespace Course

variable {c : Course} {capacity : Nat}

/-- What is sent, who logs in and how the session closes has nothing to do with receiving. -/
theorem inflow_next {e : Event} (hstart : e ≠ .start)
    (hreceive : ∀ tolerant chunk, e ≠ .receive tolerant chunk) :
    (c.next e).session.inflow = c.session.inflow ∧ (c.next e).outcomes = c.outcomes := by
  have henqueue : ∀ packet body,
      (c.next (.enqueue packet body)).session.inflow = c.session.inflow := by
    intro packet body
    simp only [next]
    cases h : c.session.enqueue packet body with
    | error cause => rfl
    | ok t => exact inflow_enqueue h
  cases e with
  | start => exact absurd rfl hstart
  | receive tolerant chunk => exact absurd rfl (hreceive tolerant chunk)
  | enqueue packet body => exact ⟨henqueue packet body, rfl⟩
  | send r => exact ⟨henqueue r.packet r.body, rfl⟩
  | finishSend => exact ⟨inflow_completeSend _, rfl⟩
  | disconnect => exact ⟨inflow_disconnect _ _, rfl⟩
  | login | logout | setRoom => exact ⟨rfl, rfl⟩

/-! ### A whole run -/

/-- The receives asked for that have not been completed. -/
def outstanding (c : Course) : Nat := c.session.link.armed.length - c.outcomes.length

def Unfailed (c : Course) : Prop := ∀ fault, .error fault ∉ c.outcomes

/-- What an honest connection does: it completes a receive that was asked for, with at least
    one byte and no more than was asked for last.  A session is started once. -/
def Honest (c : Course) : Event → Prop
  | .start => False
  | .receive _ chunk =>
    0 < c.outstanding ∧ chunk ≠ [] ∧ ∃ limit ∈ c.session.link.armed.getLast?, chunk.length ≤ limit
  | _ => True

instance (c : Course) (e : Event) : Decidable (c.Honest e) := by
  unfold Honest
  split <;> infer_instance

/-- The session asks for bytes as it should: every size it asked for can be received, nothing
    that came was too long, and it waits for exactly one receive until it closes or one fails.
    A receive that fails is the last. -/
structure Served (capacity : Nat) (c : Course) : Prop where
  sizes : ∀ size ∈ c.session.link.armed, 1 ≤ size ∧ size ≤ capacity
  fits : ∀ needed free, .error (.bufferOverflow needed free) ∉ c.outcomes
  awaits : c.session.closed = false → c.Unfailed →
    c.session.Ready ∧ c.session.buffer.capacity = capacity ∧
      c.session.link.armed.length = c.outcomes.length + 1
  spent : ¬ c.Unfailed → c.session.link.armed.length ≤ c.outcomes.length

theorem Served.start (id : SessionId) (q : CommandQueue) (hleast : headerSize ≤ capacity) :
    Served capacity { session := (Session.new id capacity).start, queue := q } where
  sizes := by
    intro size hsize
    obtain rfl : size = capacity := by
      simpa [Session.start, Link.arm, Session.new, ReceiveBuffer.empty, ReceiveBuffer.free,
        ReceiveBuffer.write] using hsize
    exact ⟨Nat.lt_of_lt_of_le (by decide) hleast, Nat.le_refl _⟩
  fits := nofun
  awaits _ _ := ⟨ready_start rfl rfl, rfl, rfl⟩
  spent hfailed := absurd (fun _ => nofun) hfailed

/-- What is not a receive changes nothing but, perhaps, that the session closes. -/
theorem Served.other (h : c.Served capacity) {e : Event} (hstart : e ≠ .start)
    (hreceive : ∀ tolerant chunk, e ≠ .receive tolerant chunk) : (c.next e).Served capacity := by
  obtain ⟨hinflow, houtcomes⟩ := inflow_next (c := c) hstart hreceive
  obtain ⟨hbuffer, harmed⟩ := Inflow.mk.inj hinflow
  have hfailed : (c.next e).Unfailed ↔ c.Unfailed := by rw [Unfailed, houtcomes, Unfailed]
  refine ⟨?_, ?_, ?_, ?_⟩
  · rw [harmed]
    exact h.sizes
  · rw [houtcomes]
    exact h.fits
  · intro hopen hunfailed
    have hbefore : c.session.closed = false := by
      rw [← Bool.not_eq_true] at hopen ⊢
      exact fun hclosed => hopen ((c.closed_next e).mpr (.inl hclosed))
    obtain ⟨hready, hcapacity, hlength⟩ := h.awaits hbefore (hfailed.mp hunfailed)
    rw [harmed, houtcomes, hbuffer]
    exact ⟨⟨hopen, hbuffer ▸ hready.within, hbuffer ▸ hready.waits,
      by rw [harmed, hbuffer]; exact hready.armed⟩, hcapacity, hlength⟩
  · rw [harmed, houtcomes, hfailed]
    exact h.spent

theorem next_receive {tolerant : Bool} {chunk : Bytes} {t : Session} {q : CommandQueue}
    {outcome : Except SessionFault Nat}
    (h : c.session.receive tolerant chunk c.queue = (t, q, outcome)) :
    c.next (.receive tolerant chunk) =
      { session := t, queue := q, outcomes := c.outcomes ++ [outcome] } := by
  rw [next, h]

/-- A receive on a closed session comes too late. -/
theorem Served.late (h : c.Served capacity) (hclosed : c.session.closed = true) (tolerant : Bool)
    (chunk : Bytes) : (c.next (.receive tolerant chunk)).Served capacity := by
  rw [next_receive (receive_of_closed hclosed tolerant chunk c.queue)]
  exact
    { sizes := h.sizes
      fits := by simpa using h.fits
      awaits := fun hopen => absurd (hopen.symm.trans hclosed) nofun
      spent := by
        intro hfailed
        have hlength := h.spent (by simpa [Unfailed] using hfailed)
        simp only [List.length_append, List.length_singleton]
        omega }

/-- A receive that fails, for what its bytes say, is the last. -/
theorem Served.fail (h : c.Served capacity)
    (hlength : c.session.link.armed.length = c.outcomes.length + 1) {t : Session}
    {q : CommandQueue} {fault : SessionFault} (harmed : t.link.armed = c.session.link.armed)
    (hfits : ∀ needed free, fault ≠ .bufferOverflow needed free) :
    Served capacity { session := t, queue := q, outcomes := c.outcomes ++ [.error fault] } := by
  refine ⟨?_, ?_, ?_, ?_⟩
  · rw [harmed]
    exact h.sizes
  · intro needed free hmem
    rcases List.mem_append.mp hmem with hold | hnew
    · exact h.fits needed free hold
    · exact hfits needed free (Except.error.inj (List.mem_singleton.mp hnew)).symm
  · intro _ hunfailed
    exact absurd (List.mem_append_right _ (List.mem_singleton_self _)) (hunfailed fault)
  · intro _
    simp only [harmed, List.length_append, List.length_singleton, hlength, Nat.le_refl]

/-- A receive that goes well is followed by another, for as much as there is room for. -/
theorem Served.renew (h : c.Served capacity) (hunfailed : c.Unfailed)
    (hlength : c.session.link.armed.length = c.outcomes.length + 1) {t : Session}
    {q : CommandQueue} {count : Nat}
    (harmed : t.link.armed = c.session.link.armed ++ [t.buffer.free])
    (hready : t.Ready) (hcapacity : t.buffer.capacity = capacity) (hfree : 0 < t.buffer.free) :
    Served capacity { session := t, queue := q, outcomes := c.outcomes ++ [.ok count] } := by
  refine ⟨?_, ?_, ?_, ?_⟩
  · intro size hmem
    rw [harmed] at hmem
    rcases List.mem_append.mp hmem with hold | hnew
    · exact h.sizes size hold
    · obtain rfl := List.mem_singleton.mp hnew
      exact ⟨hfree, hcapacity ▸ Nat.sub_le ..⟩
  · simpa using h.fits
  · intro _ _
    refine ⟨hready, hcapacity, ?_⟩
    rw [harmed]
    simp [hlength]
  · intro hfailed
    exact absurd (by simpa [Unfailed] using hunfailed) hfailed

/-- **A receive that was waited for**: it goes well and another is asked for, or it fails for
    what its bytes say. -/
theorem Served.receive (h : c.Served capacity) (hleast : headerSize ≤ capacity)
    {tolerant : Bool} {chunk : Bytes} (hhonest : c.Honest (.receive tolerant chunk)) :
    (c.next (.receive tolerant chunk)).Served capacity := by
  obtain ⟨howed, -, limit, hlimit, hchunk⟩ := hhonest
  cases hopen : c.session.closed with
  | true => exact h.late hopen tolerant chunk
  | false =>
    have hunfailed : c.Unfailed := by
      refine Classical.byContradiction fun hfailed => ?_
      have := h.spent hfailed
      simp only [outstanding] at howed
      omega
    obtain ⟨hready, hcapacity, hlength⟩ := h.awaits hopen hunfailed
    have hroom : chunk.length ≤ c.session.buffer.free := by
      rw [hready.armed] at hlimit
      exact Option.mem_some_iff.mp hlimit ▸ hchunk
    have hcases := hready.receive_cases (hcapacity ▸ hleast) tolerant c.queue hroom
    have harmed := armed_receive c.session tolerant chunk c.queue
    rw [hopen] at harmed
    rcases hreceive : c.session.receive tolerant chunk c.queue with ⟨t, q, fault | count⟩
    · rw [hreceive] at hcases harmed
      rw [next_receive hreceive]
      exact h.fail hlength harmed hcases
    · rw [hreceive] at hcases harmed
      obtain ⟨hagain, hsize, hfree⟩ := hcases
      rw [next_receive hreceive]
      exact h.renew hunfailed hlength harmed hagain (hsize.trans hcapacity) hfree

theorem Served.next (hleast : headerSize ≤ capacity) (c : Course) (e : Event)
    (h : c.Served capacity) (hhonest : c.Honest e) : (c.next e).Served capacity := by
  cases e with
  | start => exact hhonest.elim
  | receive tolerant chunk => exact h.receive hleast hhonest
  | enqueue | send | finishSend | login | logout | setRoom | disconnect =>
    exact h.other nofun nofun

end Course

/-- **An honest connection is served.**  From its start on, whatever else is done to the
    session, no receive brings more than there is room for; every receive is asked for with a
    size that can be received, from one byte up to the whole region; and while the session is
    open and no receive has failed exactly one is outstanding, since a receive that goes well
    asks for one more, and one that fails or comes too late asks for none. -/
theorem honest_connection_served {capacity : Nat} (hleast : headerSize ≤ capacity)
    (id : SessionId) (q : CommandQueue) (events : List Event)
    (hrun : Along Course.next Course.Honest
      { session := (new id capacity).start, queue := q } events) :
    let c := after Course.next { session := (new id capacity).start, queue := q } events
    (∀ needed free, .error (.bufferOverflow needed free) ∉ c.outcomes) ∧
      (∀ size ∈ c.session.link.armed, 1 ≤ size ∧ size ≤ capacity) ∧
      (c.session.closed = false → (∀ fault, .error fault ∉ c.outcomes) → c.outstanding = 1) ∧
      ∀ tolerant chunk,
        let (t, _, outcome) := c.session.receive tolerant chunk c.queue
        t.link.armed =
          match outcome with
          | .error _ => c.session.link.armed
          | .ok _ =>
            if c.session.closed then c.session.link.armed
            else c.session.link.armed ++ [t.buffer.free] := by
  intro c
  have h : c.Served capacity :=
    after_invariant (Course.Served.next hleast) (.start id q hleast) events hrun
  refine ⟨h.fits, h.sizes, ?_, fun tolerant chunk => armed_receive ..⟩
  intro hopen hunfailed
  obtain ⟨-, -, hlength⟩ := h.awaits hopen hunfailed
  rw [Course.outstanding, hlength, Nat.add_sub_cancel_left]

/-- A packet as long as the region arrives in two chunks, of which the first is all that there
    is room for; the second completes it, and the region is free again. -/
theorem honest_connection_served_filled :
    let c : Course := { session := (new ⟨1⟩ 8).start }
    let events : List Event :=
      [.receive true [8, 0, 5, 0, 7, 0, 0], .login "bob", .send (.registerResult true),
        .receive true [0], .finishSend, .receive true [4, 0]]
    let c' := after Course.next c events
    Along Course.next Course.Honest c events ∧ c'.session.link.armed = [8, 1, 8, 6] ∧
      c'.queue.pending = [.request ⟨1⟩ (.enterRoom ⟨7⟩)] ∧ c'.outstanding = 1 := by
  intro c events c'
  have hrun : Along Course.next Course.Honest c events := by decide +kernel
  have hleast : headerSize ≤ 8 := by decide
  have h := honest_connection_served hleast ⟨1⟩ {} events hrun
  have houtcomes : c'.outcomes.all Except.isOk = true := by decide +kernel
  refine ⟨hrun, by decide +kernel, by decide +kernel, h.2.2.1 (by decide +kernel) ?_⟩
  intro fault hfault
  exact absurd (List.all_eq_true.mp houtcomes _ hfault) nofun

end Session

end GameServer
