import GameServer.Proofs.Numbering
import GameServer.Proofs.Postings
import GameServer.Proofs.Presence

/-!
Shutting down releases everything.

Every connection is closed and forgotten first, and then the queue is drained.  What still waits in
it was asked for by sessions that are closed by now and that nobody finds any more, so a login or
a room that is asked for comes to nothing, while the `hangUp` of everyone who was logged in takes
them out of their room and gives their name back.
-/

namespace GameServer

open Wire

namespace World

variable {w w' : World}

/-- No command takes the cache down or brings it up. -/
theorem down_execute (w : World) (c : Command) :
    (w.execute c).gateway.cache.down = w.gateway.cache.down := by
  obtain ⟨sets, lists, heq⟩ := w.touched_execute c
  rw [heq]

/-! ### The directory stays empty -/

theorem directory_of_clear (h : w.directory.entries = ∅) (c : Command) :
    (w.execute c).directory.entries = ∅ := by
  rcases w.directory_execute c with hsame | herased
  · rw [hsame, h]
  · rw [herased, Directory.erase, h]
    exact Std.ExtTreeMap.erase_empty

/-! ### Every link is closed once -/

/-- The link of a closed session was closed once, and that of an open one was not closed. -/
def Tidy (w : World) : Prop := ∀ s ∈ w.sessions, s.link.closes = s.closed.toNat

theorem Tidy.delivered (h : w.Tidy) {letters : List Letter}
    (hdelivered : Sessions.Delivered letters w.sessions w'.sessions) : w'.Tidy := by
  intro t ht
  obtain ⟨p, hp⟩ := List.mem_iff_getElem?.mp ht
  obtain ⟨s, hs, htook⟩ := hdelivered.from hp
  have hcloses := htook.closes
  have hbefore := h s (List.mem_of_getElem? hs)
  omega

/-- **Whatever happens, no link is closed twice.** -/
theorem Tidy.next (h : w.Tidy) (e : Event) : (w.next e).Tidy := by
  by_cases hconnect : ∃ capacity, e = .connect capacity
  · obtain ⟨capacity, rfl⟩ := hconnect
    intro s hs
    rw [World.next, sessions_connect] at hs
    rcases List.mem_append.mp hs with hs | hs
    · exact h s hs
    · rw [List.mem_singleton.mp hs]
      rfl
  · obtain ⟨letters, hdelivered⟩ := w.delivered_event fun capacity heq => hconnect ⟨capacity, heq⟩
    exact h.delivered hdelivered

/-! ### Everything is released -/

/-- What is kept while the last commands are executed: the accounts agree, nobody is registered, and
    the cache answers. -/
structure Ending (w : World) : Prop where
  enrolled : w.Enrolled
  housed : w.Housed
  exact : w.Exact none
  tidy : w.Tidy
  forgotten : w.directory.entries = ∅
  up : w.gateway.cache.down = false

theorem Ending.executed (h : w.Ending) {c : Command} (hturn : w.queue.pending.head? = some c) :
    (w.next (.execute c)).Ending := by
  obtain ⟨henrolled, hhoused⟩ := kept_housed.execute c hturn ⟨h.enrolled, h.housed⟩
  constructor
  · exact henrolled
  · exact hhoused
  · exact h.exact.executed ⟨hturn, fun _ => h.up⟩
  · exact h.tidy.next (.execute c)
  · exact directory_of_clear (w := w.dequeue c) h.forgotten c
  · exact (down_execute (w.dequeue c) c).trans h.up

section Ended

variable (h : w.Ending) (hnone : w.queue.pending = [])

include h

/-- Whoever is open is registered, and nobody is. -/
theorem Ending.closed {s : Session} (hs : s ∈ w.sessions) : s.closed = true := by
  by_contra hopen
  obtain ⟨p, hp⟩ := List.mem_iff_getElem?.mp hs
  have hstill : s.badge.closed = false := Bool.not_eq_true _ ▸ hopen
  have hfind := h.enrolled.present (badges_eq_some.mpr ⟨s, hp, rfl⟩) hstill
  rw [Directory.find?, h.forgotten] at hfind
  simp at hfind

theorem Ending.nameless {s : Session} (hs : s ∈ w.sessions) : s.user = none := by
  obtain ⟨p, hp⟩ := List.mem_iff_getElem?.mp hs
  exact h.enrolled.nameless (badges_eq_some.mpr ⟨s, hp, rfl⟩) (h.closed hs)

include hnone

/-- Whoever is closed and in a room has a `hangUp` that waits, and nothing waits. -/
theorem Ending.outside {s : Session} (hs : s ∈ w.sessions) : s.room = none := by
  by_contra hroom
  obtain ⟨p, hp⟩ := List.mem_iff_getElem?.mp hs
  rcases h.housed.accounted h.enrolled hp hroom with ⟨hopen, -⟩ | ⟨-, username, hwaits⟩
  · exact absurd (hopen.symm.trans (h.closed hs)) nofun
  · rw [hnone] at hwaits
    cases hwaits

theorem Ending.rooms : w.lobby.rooms = ∅ := by
  apply Std.ExtTreeMap.ext_getElem?
  intro room
  cases hr : w.lobby.rooms[room]? with
  | none => simp
  | some r =>
    obtain ⟨id, hid⟩ := h.housed.inUse.exists_player hr
    obtain ⟨p, s, hs, -, hroom⟩ := h.housed.bound hr hid
    rw [h.outside hnone (List.mem_of_getElem? hs)] at hroom
    cases hroom

theorem Ending.index : w.lobby.index = ∅ := by
  apply Std.ExtTreeMap.ext_getElem?
  intro id
  cases hi : w.lobby.index[id]? with
  | none => simp
  | some room =>
    obtain ⟨r, -, hr, -⟩ := h.housed.inUse.consistent.seats_of_index hi
    rw [h.rooms hnone] at hr
    simp at hr

theorem Ending.online : w.gateway.online = [] := by
  have hperm := h.exact.perm
  have hheld : w.heldNames = [] := List.filterMap_eq_nil_iff.mpr fun s hs => h.nameless hs
  have howed : w.owedNames = [] := by rw [owedNames, hnone]; rfl
  rw [hheld, howed] at hperm
  exact hperm.eq_nil

end Ended

/-- Closing and forgetting everybody is the beginning of the end. -/
theorem ending_dropAll (henrolled : w.Enrolled) (hhoused : w.Housed) (hexact : w.Exact none)
    (htidy : w.Tidy) (hup : w.gateway.cache.down = false) : w.dropAll.2.Ending where
  enrolled := henrolled.dropAll
  housed := (kept_housed.dropAll ⟨henrolled, hhoused⟩).2
  exact := kept_exact.dropAll hexact
  tidy := htidy.delivered w.delivered_dropAll
  forgotten := rfl
  up := hup

theorem length_drain (w : World) : w.drain.1.sessions.length = w.sessions.length := by
  refine keeps_drain (P := fun v => v.sessions.length = w.sessions.length) ?_ rfl
  intro v c _ hv
  obtain ⟨letters, hdelivered⟩ := delivered_execute (v.dequeue c) c
  exact hdelivered.length.trans hv

/-- **Shutting down releases everything.**  Whatever has happened so far, and whatever waits in the
    queue, as long as the cache answers when a name is given back: closing and forgetting every
    registered session and then draining the queue leaves nobody registered; every session there
    ever was closed, its link closed exactly once, nobody logged in on it and in no room; no room
    and no player; no name online; and no command waiting. -/
theorem shutdown_releases (hstart : w.Pristine) (events : List Event)
    (hrun : Along next (fun v e => v.Enabled e ∧ v.Answered e) w events)
    (hup : (after next w events).gateway.cache.down = false) :
    let v := (after next w events).dropAll.2.drain.1
    v.directory.entries = ∅ ∧
    v.sessions.length = (after next w events).sessions.length ∧
    (∀ s ∈ v.sessions,
      s.closed = true ∧ s.link.closes = 1 ∧ s.user = none ∧ s.room = none) ∧
    v.lobby.rooms = ∅ ∧ v.lobby.index = ∅ ∧ v.gateway.online = [] ∧ v.queue.pending = [] := by
  intro v
  obtain ⟨henrolled, hhoused⟩ := kept_housed.after ⟨hstart.enrolled, hstart.housed⟩ events
    (hrun.mono fun _ _ h => h.1)
  have hexact := kept_exact.after hstart.exact events (hrun.mono fun _ _ h => h.2)
  have htidy : (after next w events).Tidy := by
    refine after_invariant (fun v e hv _ => hv.next e) ?_ events hrun
    intro s hs
    rw [hstart.sessions] at hs
    cases hs
  have hending : v.Ending :=
    keeps_drain (fun hturn hv => hv.executed hturn)
      (ending_dropAll henrolled hhoused hexact htidy hup)
  have hnone : v.queue.pending = [] := pending_drain _
  refine ⟨hending.forgotten, ?_, ?_, hending.rooms hnone, hending.index hnone,
    hending.online hnone, hnone⟩
  · exact (length_drain _).trans (delivered_dropAll _).length
  · intro s hs
    have hclosed := hending.closed hs
    refine ⟨hclosed, ?_, hending.nameless hs, hending.outside hnone hs⟩
    rw [hending.tidy s hs, hclosed]
    rfl

/-- Of four who connect one is in a room, one has been closed inside it with the `hangUp` still
    waiting, one has asked to log in and to come in and has not been answered, and one has
    said nothing. -/
theorem shutdown_releases_midway :
    let asks (place : Place) (r : Request) : Event := .hear place (r.encode.toOption.getD [])
    let database := ((({} : Database).seed 1 "ann" "a").seed 2 "bob" "b").seed 3 "cyd" "c"
    let w : World := { gateway := { database } }
    let events : List Event :=
      [.connect 256, .connect 256, .connect 256, .connect 256, asks 0 (.login "ann" "a"),
        asks 1 (.login "bob" "b"), asks 0 (.createRoom "Hall"), asks 1 (.enterRoom ⟨1⟩),
        .execute (.request ⟨1⟩ (.login "ann" "a")), .execute (.request ⟨2⟩ (.login "bob" "b")),
        .execute (.request ⟨1⟩ (.createRoom "Hall")), .execute (.request ⟨2⟩ (.enterRoom ⟨1⟩)),
        .disconnect 1, asks 2 (.login "cyd" "c"), asks 2 (.enterRoom ⟨1⟩),
        asks 2 (.createRoom "Attic")]
    let v := (after next w events).dropAll.2.drain.1
    w.Pristine ∧ Along next (fun v e => v.Enabled e ∧ v.Answered e) w events ∧
      (after next w events).gateway.online = ["ann", "bob"] ∧
      (after next w events).queue.pending.length = 4 ∧
      v.directory.entries = ∅ ∧ v.sessions.length = 4 ∧
      (∀ s ∈ v.sessions, s.closed = true ∧ s.link.closes = 1 ∧ s.user = none ∧ s.room = none) ∧
      v.lobby.rooms = ∅ ∧ v.lobby.index = ∅ ∧ v.gateway.online = [] ∧ v.queue.pending = [] := by
  intro asks database w events v
  have hstart : w.Pristine := pristine_start {} {} database true
  have hrun : Along next (fun v e => v.Enabled e ∧ v.Answered e) w events := by decide +kernel
  have hup : (after next w events).gateway.cache.down = false := by decide +kernel
  have honline : (after next w events).gateway.online = ["ann", "bob"] := by decide +kernel
  have hwaiting : (after next w events).queue.pending.length = 4 := by decide +kernel
  have hlength : (after next w events).sessions.length = 4 := by decide +kernel
  have hv : (after next w events).dropAll.2.drain.1 = v := rfl
  obtain ⟨hforgotten, hall, hreleased⟩ := shutdown_releases hstart events hrun hup
  rw [hv] at hforgotten hall hreleased
  exact ⟨hstart, hrun, honline, hwaiting, hforgotten, hall.trans hlength, hreleased⟩

end World

end GameServer
