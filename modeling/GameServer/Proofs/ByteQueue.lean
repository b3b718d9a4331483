import GameServer.Session.Region
import GameServer.Proofs.Framing
import GameServer.Proofs.Reception
import GameServer.Proofs.Run

/-!
The receive buffer is a queue of bytes.

A region in memory is written over and over, and its cursors go back each time the unread bytes are
moved; what can be told of it from outside is the queue of bytes that are not consumed.  Every
operation on the region is the operation of the same name on the `ReceiveBuffer` that it stands for,
so what is to be shown of a queue is shown there, without the stale bytes.
-/

namespace GameServer

open Wire

namespace Region

inductive Operation where
  | append (bytes : Bytes)
  | extract (session : SessionId)
  | skip
  | peek
  | compact
  | compactIfLow
deriving DecidableEq, Repr

inductive Answer where
  | appended (outcome : Except SessionFault Unit)
  | extracted (outcome : Except MalformedPacket (Option Command))
  | skipped (found : Bool)
  | peeked (header : Option Header)
  | compacted (moved : Bool)
deriving DecidableEq

namespace Answer

/-- Whether the operation has taken a packet off the front. -/
def removes : Answer → Bool
  | .extracted (.ok (some _)) => true
  | .skipped found => found
  | _ => false

/-- Whether the operation looks at the unread bytes. -/
def isReading : Answer → Bool
  | .extracted _ | .skipped _ | .peeked _ => true
  | _ => false

/-- Whether bytes have been taken, if the operation is an append. -/
def verdict? : Answer → Option Bool
  | .appended outcome => some outcome.isOk
  | _ => none

def taken (answer : Answer) : Operation → Bytes
  | .append bytes => if answer.verdict? = some true then bytes else []
  | _ => []

end Answer

def answers {σ : Type} (perform : σ → Operation → σ × Answer) : σ → List Operation → List Answer
  | _, [] => []
  | s, o :: rest => (perform s o).2 :: answers perform (perform s o).1 rest

end Region

open Region (Operation Answer answers)

/-- The next packet is whole, and the front of the unread bytes. -/
theorem ReceiveBuffer.next?_eq_some {b : ReceiveBuffer} {f : Frame} (hnext : b.next? = some f) :
    f.Whole ∧ ∃ later, b.unread = f.bytes ++ later := by
  unfold next? at hnext
  split at hnext
  · next frame hsplit =>
    subst hnext
    exact Frame.split_eq_some_iff.mp hsplit
  · cases hnext

/-! ### Regions -/

namespace Region

def perform (r : Region) : Operation → Region × Answer
  | .append bytes => (r.append bytes).map id .appended
  | .extract session => (r.extract session).map id .extracted
  | .skip => r.skip.map id .skipped
  | .peek => (r, .peeked r.peek?)
  | .compact => (r.compact, .compacted true)
  | .compactIfLow => r.compactIfLow.map id .compacted

/-- The cursors are in order and in the region. -/
structure Ordered (r : Region) : Prop where
  read_le : r.read ≤ r.write
  write_le : r.write ≤ r.capacity

/-- What can be told of a region from outside. -/
def buffer (r : Region) : ReceiveBuffer := ⟨r.capacity, r.read, r.window⟩

theorem ordered_fresh (capacity : Nat) : (fresh capacity).Ordered := ⟨le_rfl, Nat.zero_le _⟩

theorem capacity_fresh (capacity : Nat) : (fresh capacity).capacity = capacity :=
  List.length_replicate

theorem buffer_fresh (capacity : Nat) : (fresh capacity).buffer = .empty capacity := by
  rw [buffer, capacity_fresh]
  rfl

theorem length_overwrite {data bytes : Bytes} {position : Nat}
    (h : position + bytes.length ≤ data.length) :
    (overwrite data position bytes).length = data.length := by
  rw [overwrite, List.length_append, List.length_append, List.length_take, List.length_drop]
  omega

section Layout

variable {r : Region} (h : r.Ordered)

include h

theorem length_window : r.window.length = r.unread := by
  rw [window, List.length_drop, List.length_take, ← capacity, Nat.min_eq_left h.write_le, unread]

theorem write_buffer : r.buffer.write = r.write := by
  have := h.read_le
  rw [ReceiveBuffer.write]
  simp only [buffer, length_window h, unread]
  omega

theorem free_buffer : r.buffer.free = r.free := by
  rw [ReceiveBuffer.free, write_buffer h]
  rfl

/-- What is appended comes behind the unread bytes, and whatever was there before is gone. -/
theorem window_extend (bytes : Bytes) : (r.extend bytes).window = r.window ++ bytes := by
  have hlength : (r.data.take r.write).length = r.write := by
    rw [List.length_take, ← capacity, Nat.min_eq_left h.write_le]
  have hfront : (overwrite r.data r.write bytes).take (r.write + bytes.length) =
      r.data.take r.write ++ bytes := by
    rw [overwrite, List.take_left']
    rw [List.length_append, hlength]
  rw [window, extend, hfront, List.drop_append_of_le_length (hlength.symm ▸ h.read_le)]
  rfl

theorem capacity_extend {bytes : Bytes} (hroom : ¬ r.free < bytes.length) :
    (r.extend bytes).capacity = r.capacity := by
  have hwrite := h.write_le
  apply length_overwrite
  rw [free] at hroom
  rw [capacity] at hroom hwrite
  omega

theorem ordered_extend {bytes : Bytes} (hroom : ¬ r.free < bytes.length) :
    (r.extend bytes).Ordered := by
  have hwrite := h.write_le
  refine ⟨h.read_le.trans (Nat.le_add_right ..), ?_⟩
  rw [capacity_extend h hroom]
  rw [free] at hroom
  change r.write + bytes.length ≤ r.capacity
  omega

theorem buffer_extend {bytes : Bytes} (hroom : ¬ r.free < bytes.length) :
    (r.extend bytes).buffer = { r.buffer with unread := r.buffer.unread ++ bytes } := by
  rw [buffer, capacity_extend h hroom, window_extend h]
  rfl

/-- Moving the unread bytes leaves them as they are. -/
theorem window_compact : r.compact.window = r.window := by
  have hlength := length_window h
  unfold compact
  by_cases hmoves : 0 < r.read
  · -- they may be written over themselves, but they are read before
    simp only [if_pos hmoves]
    rw [window, List.drop_zero, overwrite, List.take_zero, List.nil_append, List.take_left' hlength]
  · have hnone : r.read = 0 := Nat.eq_zero_of_not_pos hmoves
    simp only [if_neg hmoves]
    rw [window, window, unread, hnone, Nat.sub_zero]

theorem capacity_compact : r.compact.capacity = r.capacity := by
  have hlength := length_window h
  have hread := h.read_le
  have hwrite := h.write_le
  unfold compact
  by_cases hmoves : 0 < r.read
  · simp only [if_pos hmoves]
    apply length_overwrite
    rw [hlength, unread]
    simp only [capacity] at hwrite
    omega
  · simp only [if_neg hmoves]
    rfl

theorem ordered_compact : r.compact.Ordered := by
  refine ⟨Nat.zero_le _, ?_⟩
  rw [capacity_compact h]
  exact (Nat.sub_le ..).trans h.write_le

theorem buffer_compact : r.compact.buffer = r.buffer.compact := by
  rw [buffer, capacity_compact h, window_compact h]
  rfl

theorem free_le_compact : r.free ≤ r.compact.free := by
  rw [free, free, capacity_compact h]
  exact Nat.sub_le_sub_left (Nat.sub_le ..) _

theorem ordered_consume {f : Frame} (hnext : r.next? = some f) : (r.consume f.size).Ordered := by
  obtain ⟨hwhole, later, hfront⟩ := ReceiveBuffer.next?_eq_some (b := r.buffer) hnext
  have htotal : r.buffer.unread.length = r.unread := length_window h
  rw [hfront, List.length_append, hwhole, unread] at htotal
  have hread := h.read_le
  -- the packet is among the unread bytes, so the cursor stays behind the write cursor
  refine ⟨?_, h.write_le⟩
  simp only [consume]
  omega

end Layout

theorem append_of_lt {r : Region} {bytes : Bytes} (hfull : r.free < bytes.length) :
    r.append bytes = (r, .error (.bufferOverflow bytes.length r.free)) := if_pos hfull

theorem append_eq_ok_iff (r : Region) (bytes : Bytes) :
    (r.append bytes).2 = .ok () ↔ bytes.length ≤ r.free := by
  unfold append
  by_cases hfull : r.free < bytes.length
  · rw [if_pos hfull]
    constructor
    · intro hok
      cases hok
    · intro hfits
      exact absurd hfull (Nat.not_lt.mpr hfits)
  · rw [if_neg hfull]
    exact ⟨fun _ => Nat.not_lt.mp hfull, fun _ => rfl⟩

/-- At a malformed packet the cursor stays where it is. -/
theorem extract_of_error {r : Region} {session : SessionId} {fault : MalformedPacket}
    (herror : (r.extract session).2 = .error fault) : (r.extract session).1 = r := by
  unfold extract at herror ⊢
  cases hnext : r.next? with
  | none => rfl
  | some f =>
    rw [hnext] at herror
    cases hdecode : Request.decode f.header.code f.body with
    | error cause => simp only [hdecode]
    | ok request =>
      simp only [hdecode] at herror
      cases herror

theorem fst_compactIfLow (r : Region) :
    r.compactIfLow.1 = r ∨ r.compactIfLow.1 = r.compact := by
  unfold compactIfLow
  split
  · exact .inl rfl
  · exact .inr rfl

theorem buffer_consume (r : Region) (count : Nat) :
    (r.consume count).buffer = r.buffer.consume count := by
  have hwindow : (r.consume count).window = r.window.drop count := by
    rw [window, window, List.drop_drop]
    rfl
  rw [buffer, hwindow]
  rfl

end Region

/-! ### Queues -/

namespace ReceiveBuffer

def perform (b : ReceiveBuffer) : Operation → ReceiveBuffer × Answer
  | .append bytes =>
    match b.append bytes with
    | .ok longer => (longer, .appended (.ok ()))
    | .error fault => (b, .appended (.error fault))
  | .extract session =>
    match b.extract session with
    | .ok (some (command, rest)) => (rest, .extracted (.ok (some command)))
    | .ok none => (b, .extracted (.ok none))
    | .error fault => (b, .extracted (.error fault))
  | .skip => (b.skip?.getD b, .skipped b.skip?.isSome)
  | .peek => (b, .peeked b.peek?)
  | .compact => (b.compact, .compacted true)
  | .compactIfLow => (b.compactIfLow, .compacted b.isLow)

theorem perform_append (b : ReceiveBuffer) (bytes : Bytes) :
    b.perform (.append bytes) =
      if b.free < bytes.length then
        (b, .appended (.error (.bufferOverflow bytes.length b.free)))
      else ({ b with unread := b.unread ++ bytes }, .appended (.ok ())) := by
  simp only [perform, append]
  by_cases hfull : b.free < bytes.length
  · simp only [if_pos hfull]
  · simp only [if_neg hfull]

theorem perform_extract (b : ReceiveBuffer) (session : SessionId) :
    b.perform (.extract session) =
      match b.next? with
      | none => (b, .extracted (.ok none))
      | some f =>
        match Request.decode f.header.code f.body with
        | .error cause => (b, .extracted (.error ⟨f.header.code, f.size, cause⟩))
        | .ok request => (b.consume f.size, .extracted (.ok (some (.request session request)))) := by
  simp only [perform, extract]
  cases b.next? with
  | none => rfl
  | some f => cases hdecode : Request.decode f.header.code f.body <;> simp only [hdecode]

theorem perform_skip (b : ReceiveBuffer) :
    b.perform .skip =
      match b.next? with
      | none => (b, .skipped false)
      | some f => (b.consume f.size, .skipped true) := by
  simp only [perform, skip?]
  cases b.next? <;> rfl

end ReceiveBuffer

/-- **An operation on a region** keeps the cursors in order and the capacity, and is the operation
    of the same name on what can be told of it from outside. -/
theorem Region.perform_spec {r : Region} (h : r.Ordered) (o : Operation) :
    (r.perform o).1.Ordered ∧ (r.perform o).1.capacity = r.capacity ∧
      r.buffer.perform o = ((r.perform o).1.buffer, (r.perform o).2) := by
  have hnext : r.buffer.next? = r.next? := rfl
  cases o with
  | append bytes =>
    rw [ReceiveBuffer.perform_append, free_buffer h]
    simp only [perform, append]
    by_cases hfull : r.free < bytes.length
    · simp only [if_pos hfull]
      exact ⟨h, rfl, rfl⟩
    · simp only [if_neg hfull]
      exact ⟨ordered_extend h hfull, capacity_extend h hfull,
        congrArg (·, _) (buffer_extend h hfull).symm⟩
  | extract session =>
    rw [ReceiveBuffer.perform_extract, hnext]
    simp only [perform, extract]
    cases hfront : r.next? with
    | none => exact ⟨h, rfl, rfl⟩
    | some f =>
      cases hdecode : Request.decode f.header.code f.body with
      | error cause =>
        simp only [hdecode]
        exact ⟨h, rfl, rfl⟩
      | ok request =>
        simp only [hdecode]
        exact ⟨ordered_consume h hfront, rfl, congrArg (·, _) (r.buffer_consume f.size).symm⟩
  | skip =>
    rw [ReceiveBuffer.perform_skip, hnext]
    simp only [perform, skip]
    cases hfront : r.next? with
    | none => exact ⟨h, rfl, rfl⟩
    | some f =>
      exact ⟨ordered_consume h hfront, rfl, congrArg (·, _) (r.buffer_consume f.size).symm⟩
  | peek => exact ⟨h, rfl, rfl⟩
  | compact =>
    exact ⟨ordered_compact h, capacity_compact h, congrArg (·, _) (buffer_compact h).symm⟩
  | compactIfLow =>
    simp only [perform, compactIfLow, ReceiveBuffer.perform, ReceiveBuffer.compactIfLow,
      ReceiveBuffer.isLow, free_buffer h]
    by_cases hlow : r.free < ReceiveBuffer.lowWater
    · simp only [if_neg (Nat.not_le.mpr hlow), decide_eq_true hlow, if_true]
      exact ⟨ordered_compact h, capacity_compact h, congrArg (·, _) (buffer_compact h).symm⟩
    · simp only [if_pos (Nat.not_lt.mp hlow), decide_eq_false hlow, Bool.false_eq_true, if_false]
      exact ⟨h, rfl, rfl⟩

namespace ReceiveBuffer

theorem unread_of_next? {b : ReceiveBuffer} {f : Frame} (hnext : b.next? = some f) :
    b.unread = f.bytes ++ (b.consume f.size).unread := by
  obtain ⟨hwhole, later, hfront⟩ := next?_eq_some hnext
  simp only [consume, hfront, List.drop_left' hwhole]

/-- The packets that an operation takes off the front. -/
def removed (b : ReceiveBuffer) (o : Operation) : List Frame :=
  if (b.perform o).2.removes = true then b.next?.toList else []

/-- **An operation on a queue** adds at the end what is appended, and takes off the front the
    packet that is extracted or skipped. -/
theorem unread_perform (b : ReceiveBuffer) (o : Operation) :
    b.unread ++ (b.perform o).2.taken o =
      (b.removed o).flatMap Frame.bytes ++ (b.perform o).1.unread := by
  cases o with
  | append bytes =>
    rw [removed, perform_append]
    by_cases hfull : b.free < bytes.length
    · rw [if_pos hfull]
      exact b.unread.append_nil
    · rw [if_neg hfull]
      rfl
  | extract session =>
    rw [removed, perform_extract]
    cases hnext : b.next? with
    | none => exact b.unread.append_nil
    | some f =>
      cases hdecode : Request.decode f.header.code f.body with
      | error cause =>
        simp only [hdecode]
        exact b.unread.append_nil
      | ok request => simpa [hdecode, Answer.removes, Answer.taken] using unread_of_next? hnext
  | skip =>
    rw [removed, perform_skip]
    cases hnext : b.next? with
    | none => exact b.unread.append_nil
    | some f => simpa [Answer.removes, Answer.taken] using unread_of_next? hnext
  | peek | compact => exact b.unread.append_nil
  | compactIfLow => exact b.unread.append_nil.trans b.compactIfLow_unread.symm

theorem verdict?_perform_eq_none (b : ReceiveBuffer) (o : Operation) :
    (b.perform o).2.verdict? = none ↔ ∀ bytes, o ≠ .append bytes := by
  cases o with
  | append bytes =>
    rw [perform_append]
    split <;> simp [Answer.verdict?]
  | extract session =>
    rw [perform_extract]
    split
    · simp [Answer.verdict?]
    · split <;> simp [Answer.verdict?]
  | skip => simp [perform, Answer.verdict?]
  | peek | compact | compactIfLow => simp [perform, Answer.verdict?]

/-- Of two buffers with the same unread bytes, what is read is the same; and they still have the
    same unread bytes, if one of them takes what the other takes. -/
theorem perform_agree {b c : ReceiveBuffer} (hunread : b.unread = c.unread) (o : Operation)
    (hverdict : (b.perform o).2.verdict? = (c.perform o).2.verdict?) :
    (b.perform o).1.unread = (c.perform o).1.unread ∧
      [(b.perform o).2].filter Answer.isReading = [(c.perform o).2].filter Answer.isReading := by
  have hnext : b.next? = c.next? := by rw [next?, hunread, next?]
  have hconsume : ∀ count, (b.consume count).unread = (c.consume count).unread := by
    intro count
    simp only [consume, hunread]
  cases o with
  | append bytes =>
    rw [perform_append, perform_append] at hverdict ⊢
    by_cases hb : b.free < bytes.length <;> by_cases hc : c.free < bytes.length
    · rw [if_pos hb, if_pos hc]
      exact ⟨hunread, rfl⟩
    · rw [if_pos hb, if_neg hc] at hverdict
      cases hverdict
    · rw [if_neg hb, if_pos hc] at hverdict
      cases hverdict
    · rw [if_neg hb, if_neg hc]
      exact ⟨congrArg (· ++ bytes) hunread, rfl⟩
  | extract session =>
    rw [perform_extract, perform_extract, hnext]
    cases c.next? with
    | none => exact ⟨hunread, rfl⟩
    | some f =>
      cases hdecode : Request.decode f.header.code f.body with
      | error cause =>
        simp only [hdecode]
        exact ⟨hunread, trivial⟩
      | ok request =>
        simp only [hdecode]
        exact ⟨hconsume f.size, trivial⟩
  | skip =>
    rw [perform_skip, perform_skip, hnext]
    cases c.next? with
    | none => exact ⟨hunread, rfl⟩
    | some f => exact ⟨hconsume f.size, rfl⟩
  | peek =>
    simp only [perform, peek?, hunread]
    exact ⟨trivial, trivial⟩
  | compact => exact ⟨hunread, rfl⟩
  | compactIfLow =>
    simp only [perform, compactIfLow_unread]
    exact ⟨hunread, rfl⟩

/-- Whether one operation and those after it take the same appends. -/
theorem verdicts_cons_inj {b c : ReceiveBuffer} {o : Operation} {later : List Operation}
    (hverdicts : (answers perform b (o :: later)).filterMap Answer.verdict? =
      (answers perform c (o :: later)).filterMap Answer.verdict?) :
    (b.perform o).2.verdict? = (c.perform o).2.verdict? ∧
      (answers perform (b.perform o).1 later).filterMap Answer.verdict? =
        (answers perform (c.perform o).1 later).filterMap Answer.verdict? := by
  simp only [answers] at hverdicts
  -- an append tells whether it was taken in both, and nothing else does in either
  by_cases hnone : ∀ bytes, o ≠ .append bytes
  · have hb := (b.verdict?_perform_eq_none o).mpr hnone
    have hc := (c.verdict?_perform_eq_none o).mpr hnone
    rw [List.filterMap_cons_none hb, List.filterMap_cons_none hc] at hverdicts
    exact ⟨hb.trans hc.symm, hverdicts⟩
  · have hb := mt (b.verdict?_perform_eq_none o).mp hnone
    have hc := mt (c.verdict?_perform_eq_none o).mp hnone
    obtain ⟨x, hx⟩ := Option.ne_none_iff_exists'.mp hb
    obtain ⟨y, hy⟩ := Option.ne_none_iff_exists'.mp hc
    rw [List.filterMap_cons_some hx, List.filterMap_cons_some hy] at hverdicts
    obtain ⟨hhead, htail⟩ := List.cons.inj hverdicts
    exact ⟨hx.trans (hhead ▸ hy.symm), htail⟩

/-- **What is read depends on the unread bytes only**: with the same bytes to begin with and the
    same appends taken, everything that is read is the same, wherever the cursors are. -/
theorem readings_agree {b c : ReceiveBuffer} (hunread : b.unread = c.unread)
    {later : List Operation}
    (hverdicts : (answers perform b later).filterMap Answer.verdict? =
      (answers perform c later).filterMap Answer.verdict?) :
    (answers perform b later).filter Answer.isReading =
      (answers perform c later).filter Answer.isReading := by
  induction later generalizing b c with
  | nil => rfl
  | cons o later ih =>
    obtain ⟨hnow, hlater⟩ := verdicts_cons_inj hverdicts
    obtain ⟨hstill, hread⟩ := perform_agree hunread o hnow
    have hboth := congrArg₂ (· ++ ·) hread (ih hstill hlater)
    simpa only [answers, ← List.filter_append, List.singleton_append] using hboth

end ReceiveBuffer

/-! ### A whole run -/

/-- A region in the course of a run. -/
structure Ledger where
  region : Region
  /-- All bytes that the region has taken, in their order. -/
  received : Bytes := []
  /-- The packets that have been extracted or skipped, in their order. -/
  removed : List Frame := []

namespace Ledger

def next (l : Ledger) (o : Operation) : Ledger where
  region := (l.region.perform o).1
  received := l.received ++ (l.region.perform o).2.taken o
  removed := l.removed ++
    if (l.region.perform o).2.removes = true then l.region.next?.toList else []

/-- The cursors are in order, the capacity is what it was, and the region has every byte that it
    has taken but those of the packets that were taken off. -/
structure Balanced (capacity : Nat) (l : Ledger) : Prop where
  ordered : l.region.Ordered
  capacity_eq : l.region.capacity = capacity
  whole : ∀ f ∈ l.removed, f.Whole
  received_eq : l.received = l.removed.flatMap Frame.bytes ++ l.region.window

theorem Balanced.next {capacity : Nat} {l : Ledger} (h : l.Balanced capacity) (o : Operation) :
    (l.next o).Balanced capacity := by
  obtain ⟨hordered, hcapacity, hperform⟩ := Region.perform_spec h.ordered o
  have hanswer : (l.region.buffer.perform o).2 = (l.region.perform o).2 := congrArg Prod.snd hperform
  have hunread : (l.region.buffer.perform o).1.unread = (l.region.perform o).1.window :=
    congrArg (fun p => p.1.unread) hperform
  have hremoved : l.region.buffer.removed o =
      if (l.region.perform o).2.removes = true then l.region.next?.toList else [] := by
    rw [ReceiveBuffer.removed, hanswer]
    rfl
  refine ⟨hordered, hcapacity.trans h.capacity_eq, ?_, ?_⟩
  · intro f hf
    rcases List.mem_append.mp hf with hbefore | hnow
    · exact h.whole f hbefore
    · split at hnow
      · exact (ReceiveBuffer.next?_eq_some (b := l.region.buffer) (Option.mem_toList.mp hnow)).1
      · cases hnow
  · have hstep := l.region.buffer.unread_perform o
    rw [hanswer, hunread, hremoved] at hstep
    simp only [Ledger.next, h.received_eq, List.flatMap_append, List.append_assoc]
    exact congrArg _ hstep

theorem balanced_fresh (capacity : Nat) :
    Balanced capacity { region := .fresh capacity } where
  ordered := Region.ordered_fresh capacity
  capacity_eq := Region.capacity_fresh capacity
  whole := nofun
  received_eq := rfl

theorem Balanced.after {capacity : Nat} {l : Ledger} (h : l.Balanced capacity)
    (operations : List Operation) : (after Ledger.next l operations).Balanced capacity := by
  induction operations generalizing l with
  | nil => exact h
  | cons o rest ih => exact ih (h.next o)

end Ledger

namespace Region

/-- **Operations on a region** tell what the same operations on a queue tell, and leave what they
    leave. -/
theorem run_spec {l : Ledger} (h : l.region.Ordered) (operations : List Operation) :
    (after Ledger.next l operations).region.buffer =
        after (fun b o => (b.perform o).1) l.region.buffer operations ∧
      answers perform l.region operations =
        answers ReceiveBuffer.perform l.region.buffer operations := by
  induction operations generalizing l with
  | nil => exact ⟨rfl, rfl⟩
  | cons o rest ih =>
    obtain ⟨hordered, -, hperform⟩ := perform_spec h o
    obtain ⟨hbuffer, hanswers⟩ := ih (l := l.next o) hordered
    have hnext : (l.next o).region.buffer = (l.region.buffer.perform o).1 :=
      (congrArg Prod.fst hperform).symm
    have hanswer : (l.region.perform o).2 = (l.region.buffer.perform o).2 :=
      (congrArg Prod.snd hperform).symm
    rw [hnext] at hbuffer hanswers
    refine ⟨hbuffer, ?_⟩
    rw [answers, answers, hanswer]
    exact congrArg _ hanswers

/-- Of two regions with the same unread bytes everything that is read is the same, as long as they
    take the same appends. -/
theorem readings_agree {r t : Region} (hr : r.Ordered) (ht : t.Ordered)
    (hwindow : r.window = t.window) {later : List Operation}
    (hverdicts : (answers perform r later).filterMap Answer.verdict? =
      (answers perform t later).filterMap Answer.verdict?) :
    (answers perform r later).filter Answer.isReading =
      (answers perform t later).filter Answer.isReading := by
  have hr' : answers perform r later = answers ReceiveBuffer.perform r.buffer later :=
    (run_spec (l := { region := r }) hr later).2
  have ht' : answers perform t later = answers ReceiveBuffer.perform t.buffer later :=
    (run_spec (l := { region := t }) ht later).2
  rw [hr', ht'] at hverdicts ⊢
  exact ReceiveBuffer.readings_agree hwindow hverdicts

/-- **The receive buffer is a queue of bytes.**  After any operations the cursors are in order and
    the capacity is what it was; the unread bytes are what has been appended without the packets
    that were extracted or skipped, and these are the first packets of it.  An append fails exactly
    if the bytes do not fit behind the write cursor, and then changes nothing, as does an extraction
    that finds a malformed packet.  Compacting leaves the unread bytes and at least as much room,
    and whatever is extracted, skipped or peeked at later, with the same bytes appended in between,
    is the same.  All of it can be told without the stale bytes, of the queue alone. -/
theorem refines_queue (capacity : Nat) (operations : List Operation) :
    let l := after Ledger.next { region := .fresh capacity } operations
    let r := l.region
    (r.read ≤ r.write ∧ r.write ≤ capacity ∧ r.capacity = capacity) ∧
      l.received = l.removed.flatMap Frame.bytes ++ r.window ∧
      (Frame.splitAll l.received).1 = l.removed ++ (Frame.splitAll r.window).1 ∧
      (∀ bytes, ((r.append bytes).2 = .ok () ↔ bytes.length ≤ capacity - r.write) ∧
        (capacity - r.write < bytes.length →
          r.append bytes = (r, .error (.bufferOverflow bytes.length (capacity - r.write))))) ∧
      (∀ session fault, (r.extract session).2 = .error fault → (r.extract session).1 = r) ∧
      (∀ moved ∈ [r.compact, r.compactIfLow.1],
        moved.window = r.window ∧ r.free ≤ moved.free ∧
          ∀ later, (answers perform moved later).filterMap Answer.verdict? =
              (answers perform r later).filterMap Answer.verdict? →
            (answers perform moved later).filter Answer.isReading =
              (answers perform r later).filter Answer.isReading) ∧
      r.buffer = after (fun b o => (b.perform o).1) (.empty capacity) operations ∧
      answers perform (.fresh capacity) operations =
        answers ReceiveBuffer.perform (.empty capacity) operations := by
  intro l r
  have hbalanced : l.Balanced capacity := (Ledger.balanced_fresh capacity).after operations
  have hordered : r.Ordered := hbalanced.ordered
  have hcapacity : r.capacity = capacity := hbalanced.capacity_eq
  have hfree : r.free = capacity - r.write := by rw [free, hcapacity]
  have hrun := run_spec (l := { region := .fresh capacity }) (ordered_fresh capacity) operations
  simp only [buffer_fresh] at hrun
  obtain ⟨hbuffer, hanswers⟩ := hrun
  refine ⟨⟨hordered.read_le, hcapacity ▸ hordered.write_le, hcapacity⟩, hbalanced.received_eq,
    ?_, ?_, ?_, ?_, hbuffer, hanswers⟩
  · rw [hbalanced.received_eq, Frame.splitAll_flatMap_bytes hbalanced.whole]
  · intro bytes
    rw [← hfree]
    exact ⟨r.append_eq_ok_iff bytes, append_of_lt⟩
  · exact fun session fault => extract_of_error
  · intro moved hmoved
    have hmoves : moved = r ∨ moved = r.compact := by
      rcases List.mem_pair.mp hmoved with rfl | rfl
      · exact .inr rfl
      · exact r.fst_compactIfLow
    rcases hmoves with rfl | rfl
    · exact ⟨rfl, le_rfl, fun _ _ => rfl⟩
    · have hwindow := window_compact hordered
      exact ⟨hwindow, free_le_compact hordered, fun later =>
        readings_agree (ordered_compact hordered) hordered hwindow⟩

/-- Five bytes are moved over the four before them; the last of what was there is stale and not
    read. -/
example :
    let r := ((fresh 12).append [4, 0, 10, 0, 5, 0, 10, 0, 7]).1.skip.1
    r.compact.data = [5, 0, 10, 0, 7, 0, 10, 0, 7, 0, 0, 0] ∧
      r.compact.window = [5, 0, 10, 0, 7] ∧ (r.free, r.compact.free) = (3, 7) := by
  decide +kernel

end Region

end GameServer
