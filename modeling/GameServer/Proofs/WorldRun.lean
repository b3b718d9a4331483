import GameServer.Proofs.Draining
import GameServer.Proofs.Enrollment
import GameServer.Proofs.Run
import GameServer.World.Tick

/-!
Runs of the world.

A run is any number of events in any order: clients connect, the transport reports, sessions
are closed and forgotten, commands are executed, the game moves on, and what waits to be
written is written, while the stores fail and recover.  `Kept` lists the few changes that all
of it comes down to.  What each of these keeps, every run keeps.

There is one kind of event for all runs.  What may happen in a run is a condition on its events:
that commands are executed in their order, that numbers are fresh, that nobody is let in under a
number.  A tick of the game is no event but a run, which executes the commands that wait, and then
lets time pass and tells everybody.
-/

namespace GameServer

open Wire

namespace World

inductive Event where
  | connect (capacity : Nat)
  /-- The transport reports, and what it reports is dealt with at once. -/
  | complete (c : Completion)
  /-- A session takes bytes, and what comes of them is not yet dealt with. -/
  | hear (place : Place) (bytes : Bytes)
  /-- A connection is done with a send. -/
  | finishSend (place : Place)
  | disconnect (place : Place)
  | forget (id : SessionId)
  | dropAll
  /-- A command gets into the queue, whoever put it there. -/
  | ask (c : Command)
  /-- A command is executed, and if it waited it does so no longer. -/
  | execute (c : Command)
  | advance (dt : Single)
  | tell (tick : UInt32)
  /-- One of the requests that wait is written, and its outcome reported.  Several workers need not
      keep to the order of the requests. -/
  | write (i : Nat)
  /-- The database holds something else, or fails in another way, and the cache goes down or comes
      up. -/
  | stores (database : Database) (down : Bool)
  | stopStores

/-- The world when one of the requests that wait has been carried out. -/
def written (w : World) (i : Nat) (database : Database) : World :=
  { w with gateway := { w.gateway with database, pending := w.gateway.pending.eraseIdx i } }

/-- Somebody carries out one of the requests that wait, and reports a registration. -/
def write (w : World) (i : Nat) : World :=
  match w.gateway.pending[i]? with
  | none => w
  | some r =>
    let (database, outcome) := Gateway.perform w.gateway.database r
    (w.written i database).report outcome.toList

def next (w : World) : Event → World
  | .connect capacity => (w.connect capacity).2
  | .complete c => (w.dispatch c).2
  | .hear place bytes => w.hear place bytes
  | .finishSend place => (w.completeSend place).2
  | .disconnect place => (w.disconnect place).2
  | .forget id => w.forget id
  | .dropAll => w.dropAll.2
  | .ask c => { w with queue := w.queue.offer c }
  | .execute c => (w.dequeue c).execute c
  | .advance dt => w.withLobby (w.lobby.advance dt)
  | .tell tick => w.withLobby (w.lobby.tellAll tick).1
  | .write i => w.write i
  | .stores database down =>
    { w with gateway := { w.gateway with database, cache := { w.gateway.cache with down } } }
  | .stopStores => { w with gateway := w.gateway.stop }

/-! ### What a live server sees to -/

/-- Nobody asks for anything but what a client can ask for, so that only a session that closes
    leaves a `hangUp`; and the command that is executed is the oldest. -/
def InTurn (w : World) : Event → Prop
  | .ask (.hangUp ..) => False
  | .execute c => w.queue.pending.head? = some c
  | _ => True

/-- A client connects under a number that no session has had, only a closed session is forgotten,
    and commands are executed in their turn. -/
def Enabled (w : World) : Event → Prop
  | .connect _ => ∀ s ∈ w.sessions, s.id ≠ ⟨w.directory.nextId⟩
  | .forget id => ∀ found ∈ w.find? id, found.2.closed = true
  | e => w.InTurn e

instance (w : World) : (e : Event) → Decidable (w.InTurn e)
  | .ask (.hangUp ..) => isFalse fun hnever => hnever
  | .execute c => inferInstanceAs (Decidable (w.queue.pending.head? = some c))
  | .ask (.request ..) | .connect _ | .complete _ | .hear .. | .finishSend _ | .disconnect _
  | .forget _ | .dropAll | .advance _ | .tell _ | .write _ | .stores .. | .stopStores =>
    isTrue trivial

instance (w : World) : (e : Event) → Decidable (w.Enabled e)
  | .connect _ => inferInstanceAs (Decidable (∀ s ∈ w.sessions, _))
  | .forget id => inferInstanceAs (Decidable (∀ found ∈ w.find? id, _))
  | .ask c => inferInstanceAs (Decidable (w.InTurn (.ask c)))
  | .execute c => inferInstanceAs (Decidable (w.InTurn (.execute c)))
  | .complete _ | .hear .. | .finishSend _ | .disconnect _ | .dropAll | .advance _ | .tell _
  | .write _ | .stores .. | .stopStores => isTrue trivial

/-- Before anything has happened: nobody has connected, there are no rooms, no command waits, and
    no name is online. -/
structure Pristine (w : World) : Prop where
  sessions : w.sessions = []
  rooms : w.lobby.rooms = ∅
  index : w.lobby.index = ∅
  entries : w.directory.entries = ∅
  pending : w.queue.pending = []
  live : w.queue.live = true
  offline : ∀ name, ¬ w.gateway.IsOnline name

/-- A server starts like that, whatever its settings and its database. -/
theorem pristine_start (rooms : RoomSettings) (stores : StoreSettings) (database : Database)
    (tolerant : Bool) :
    Pristine
      { lobby := { settings := rooms }, gateway := { settings := stores, database }, tolerant } where
  sessions := rfl
  rooms := rfl
  index := rfl
  entries := rfl
  pending := rfl
  live := rfl
  offline name := by simp [Gateway.IsOnline, Cache.set]

/-! ### Quiet events -/

section Quiet

variable (w : World)

theorem quiet_dispatch_sent (id : SessionId) (count : Nat) :
    Quiet w (w.dispatch (.sent id count)).2 := by
  unfold dispatch
  dsimp only [Completion.session?]
  split
  · exact .refl w
  · exact w.quiet_modify fun s _ => s.standing_sendCompleted

theorem quiet_completeSend (place : Place) : Quiet w (w.completeSend place).2 := by
  unfold completeSend
  split
  · exact .refl w
  · next s _ =>
    split
    · exact w.quiet_dispatch_sent ..
    · next link _ =>
      have hlink := @quiet_modify w place (fun s => { s with link }) fun _ _ => rfl
      exact hlink.trans (quiet_dispatch_sent ..)

theorem quiet_write (i : Nat) : Quiet w (w.write i) := by
  unfold write
  split
  · exact .refl w
  · next r _ =>
    let performed := Gateway.perform w.gateway.database r
    have hwritten : Quiet w (w.written i performed.1) := w.quiet_withGateway fun _ => .rfl
    exact hwritten.trans (quiet_report ..)

theorem quiet_stores (database : Database) (down : Bool) :
    Quiet w (w.next (.stores database down)) := w.quiet_withGateway fun _ => .rfl

theorem quiet_stopStores : Quiet w (w.next .stopStores) := w.quiet_withGateway fun _ => .rfl

end Quiet

/-! ### Closing everybody -/

/-- Closes the sessions at some places, one after the other. -/
def disconnectEach (w : World) (places : List Place) : World :=
  after (fun v place => (v.disconnect place).2) w places

theorem dropAll_eq (w : World) :
    w.dropAll.2 = { w.disconnectEach w.directory.places with directory := w.directory.clear } := by
  have heach : ∀ (places : List Place) (v : World),
      v.disconnectEach places =
        { v with queue := (Sessions.disconnectEach places v.sessions v.queue).2 }.withSessions
          (Sessions.disconnectEach places v.sessions v.queue).1 := by
    intro places
    induction places with
    | nil => exact fun _ => rfl
    | cons place rest ih =>
      intro v
      exact ih (v.disconnect place).2
  rw [heach]
  rfl

theorem keeps_disconnectEach {P : World → Prop}
    (hstep : ∀ {v : World} (place : Place), P v → P (v.disconnect place).2) {w : World} (h : P w)
    (places : List Place) : P (w.disconnectEach places) := by
  induction places generalizing w with
  | nil => exact h
  | cons place rest ih => exact ih (hstep place h)

theorem badges_disconnectEach (w : World) (places : List Place) (p : Place) :
    (w.disconnectEach places).badges[p]? =
      w.badges[p]?.map fun b => if p ∈ places then b.close else b := by
  induction places generalizing w with
  | nil => simp [disconnectEach, after]
  | cons place rest ih =>
    change ((w.disconnect place).2.disconnectEach rest).badges[p]? = _
    rw [ih, badges_disconnect, List.getElem?_modify]
    cases w.badges[p]? with
    | none => rfl
    | some b =>
      have htwice : b.close.close = b.close := by rw [Badge.close, if_pos b.closed_close]
      by_cases hp : place = p
      · by_cases hrest : p ∈ rest <;> simp [hp, hrest, htwice]
      · simp [hp, Ne.symm hp]

/-! ### Every event -/

/-- What a run comes down to, and that some property is kept by it, as long as each event is
    allowed in the world that it finds. -/
structure Kept (P : World → Prop) (allowed : World → Event → Prop) : Prop where
  quiet : ∀ {v v' : World}, Quiet v v' → P v → P v'
  enqueue : ∀ {v : World} (id : SessionId) (requests : List Request), P v → P (v.enqueue id requests)
  /-- Nothing but this asks for something that no client can ask for. -/
  hangUp : ∀ {v : World} (id : SessionId) (username : String),
    allowed v (.ask (.hangUp id username)) → P v → P (v.next (.ask (.hangUp id username)))
  connect : ∀ {v : World} (capacity : Nat), allowed v (.connect capacity) → P v →
    P (v.connect capacity).2
  disconnect : ∀ {v : World} (place : Place), allowed v (.disconnect place) → P v →
    P (v.disconnect place).2
  forget : ∀ {v : World} (id : SessionId), allowed v (.forget id) → P v → P (v.forget id)
  drop : ∀ {v : World} {place : Place} {b : Badge}, v.badges[place]? = some b → P v →
    P (v.drop place b.id)
  dropAll : ∀ {v : World}, P v → P v.dropAll.2
  execute : ∀ {v : World} (c : Command), allowed v (.execute c) → P v → P (v.next (.execute c))

theorem next_ask_request (w : World) (id : SessionId) (r : Request) :
    w.next (.ask (.request id r)) = w.enqueue id [r] := by
  rw [World.next, CommandQueue.offer_eq_offerAll, enqueue, List.map_singleton]

theorem Kept.next {P : World → Prop} {allowed : World → Event → Prop} (h : Kept P allowed)
    (w : World) (e : Event) (hw : P w) (hallowed : allowed w e) : P (w.next e) := by
  cases e with
  | connect capacity => exact h.connect capacity hallowed hw
  | complete c => exact keeps_dispatch h.quiet h.enqueue h.drop c hw
  | hear place bytes =>
    obtain ⟨id, requests, hquiet⟩ := w.hear_eq_enqueue place bytes
    exact h.quiet hquiet (h.enqueue id requests hw)
  | finishSend place => exact h.quiet (w.quiet_completeSend place) hw
  | disconnect place => exact h.disconnect place hallowed hw
  | forget id => exact h.forget id hallowed hw
  | dropAll => exact h.dropAll hw
  | ask c =>
    cases c with
    | hangUp id username => exact h.hangUp id username hallowed hw
    | request id r =>
      rw [next_ask_request]
      exact h.enqueue id [r] hw
  | execute c => exact h.execute c hallowed hw
  | advance dt => exact h.quiet (w.quiet_advance dt) hw
  | tell tick => exact h.quiet (w.quiet_tellAll tick) hw
  | write i => exact h.quiet (w.quiet_write i) hw
  | stores database down => exact h.quiet (w.quiet_stores database down) hw
  | stopStores => exact h.quiet w.quiet_stopStores hw

/-- **What is kept by the changes listed is kept by every run.** -/
theorem Kept.after {P : World → Prop} {allowed : World → Event → Prop} (h : Kept P allowed)
    {w : World} (hw : P w) (events : List Event) (hrun : Along World.next allowed w events) :
    P (GameServer.after World.next w events) :=
  after_invariant h.next hw events hrun

/-! ### Ticks -/

/-- The commands that are executed when the queue is drained, at most so many. -/
def drainedFor : Nat → World → List Event
  | 0, _ => []
  | n + 1, w =>
    match w.queue.pending with
    | [] => []
    | c :: _ => .execute c :: drainedFor n (w.next (.execute c))

/-- What happens in a tick: first all that was asked for, then time passes and everybody is
    told. -/
def ticking (w : World) (number : UInt32) (dt : Single) : List Event :=
  drainedFor w.toDo w ++ [.advance dt, .tell number]

theorem after_drainedFor (n : Nat) (w : World) :
    GameServer.after World.next w (drainedFor n w) = (drainFor n w).1 := by
  induction n generalizing w with
  | zero => rfl
  | succ n ih =>
    cases hpending : w.queue.pending with
    | nil =>
      rw [drainFor_of_empty hpending]
      simp [drainedFor, hpending, GameServer.after]
    | cons c rest =>
      rw [drainFor_of_cons hpending]
      simp only [drainedFor, hpending]
      exact ih (w.next (.execute c))

/-- **A tick is a run.** -/
theorem after_ticking (w : World) (number : UInt32) (dt : Single) :
    GameServer.after World.next w (w.ticking number dt) = (w.tick number dt).2 := by
  rw [ticking, after_append, after_drainedFor]
  rfl

/-- Draining executes commands in their turn. -/
theorem along_drainedFor {allowed : World → Event → Prop}
    (hturn : ∀ (v : World) (c : Command), v.queue.pending.head? = some c → allowed v (.execute c))
    (n : Nat) (w : World) : Along World.next allowed w (drainedFor n w) := by
  induction n generalizing w with
  | zero => trivial
  | succ n ih =>
    unfold drainedFor
    split
    · trivial
    · next c rest hpending => exact ⟨hturn w c (by rw [hpending]; rfl), ih _⟩

/-- What is kept where commands may be executed in their turn is kept by draining the queue. -/
theorem Kept.drain {P : World → Prop} {allowed : World → Event → Prop} (h : Kept P allowed)
    (hturn : ∀ (v : World) (c : Command), v.queue.pending.head? = some c → allowed v (.execute c))
    {w : World} (hw : P w) : P w.drain.1 := by
  have hrun := h.after hw (drainedFor w.toDo w) (along_drainedFor hturn w.toDo w)
  rw [after_drainedFor] at hrun
  exact hrun

/-! ### The roll -/

variable {w : World}

theorem Pristine.badges (h : w.Pristine) : w.badges = [] := by rw [World.badges, h.sessions]; rfl

theorem Pristine.enrolled (h : w.Pristine) : w.Enrolled where
  live := h.live
  distinct hb := by rw [h.badges] at hb; cases hb
  registered {id place} hfind := by
    rw [Directory.find?, h.entries] at hfind
    simp at hfind
  present hb := by rw [h.badges] at hb; cases hb
  nameless hb := by rw [h.badges] at hb; cases hb

/-- Everybody is closed and forgotten. -/
theorem Enrolled.dropAll (h : w.Enrolled) : w.dropAll.2.Enrolled := by
  have heach : (w.disconnectEach w.directory.places).Enrolled :=
    keeps_disconnectEach (fun place hv => hv.disconnect place) h _
  have hfind : ∀ id : SessionId, (w.directory.clear).find? id = none := by
    intro id
    simp [Directory.clear, Directory.find?]
  rw [dropAll_eq]
  refine heach.rewrite (F := fun _ b => b) (fun p => by rw [Option.map_id']; rfl) rfl
    (fun _ _ => rfl) ?_ (fun p b hb => heach.nameless hb) ?_
  · intro p b' hb' hopen
    -- whoever is open was registered, and has been closed
    rw [badges_disconnectEach] at hb'
    obtain ⟨b, hb, rfl⟩ := Option.map_eq_some_iff.mp hb'
    split at hopen
    · rw [Badge.closed_close] at hopen
      cases hopen
    · next hout =>
      refine absurd ?_ hout
      exact mem_values_iff.mpr ⟨b.id, h.present hb hopen⟩
  · intro id p hp
    rw [hfind id] at hp
    cases hp

theorem kept_enrolled : Kept Enrolled Enabled where
  quiet hquiet hv := hv.quiet hquiet
  enqueue id requests hv := hv.enqueue id requests
  hangUp _ _ hnever _ := hnever.elim
  connect {v} capacity hfresh hv := by
    refine hv.connect capacity fun p b hb => ?_
    obtain ⟨s, hs, rfl⟩ := List.mem_map.mp (List.mem_of_getElem? hb)
    exact hfresh s hs
  disconnect place _ hv := hv.disconnect place
  forget {v} id hclosed hv := by
    refine hv.forget fun p b hb hid => ?_
    by_contra hopen
    obtain ⟨s, hs, rfl⟩ := badges_eq_some.mp hb
    have hplace := hid ▸ hv.present hb (by simpa using hopen)
    exact hopen (hclosed (p, s) (find?_eq_some.mpr ⟨hplace, hs⟩))
  drop hb hv := hv.drop hb
  dropAll hv := hv.dropAll
  execute {v} c _ hv := Enrolled.execute (w := v.dequeue c) (hv.congr rfl rfl rfl) c

end World

end GameServer
