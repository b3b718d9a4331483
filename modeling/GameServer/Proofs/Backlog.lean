import GameServer.Proofs.Departures
import GameServer.Proofs.Snapshots

/-!
What a drain executes.

The loop takes commands from the queue until there are none, and the commands put more into it.
But only a session that closes puts one there, a `hangUp`, and a command closes no session but a
registered one, whose number it takes out.  So the loop ends.  It executes what was waiting, in its
order, and then the `hangUp`s that this brought about, and there are no more of these than open
sessions in the directory.  A command that makes a room looks for a number that no room has, and
that ends if there is one.
-/

namespace GameServer

open Wire

namespace World

/-- The commands `cs` are executed one after the other, each the oldest in the queue, and then the
    queue is empty. -/
inductive Drains : World → List Command → World → Prop
  | done {w : World} (empty : w.queue.pop? = none) : Drains w [] w
  | step {w w' : World} {c : Command} {queue : CommandQueue} {cs : List Command}
      (oldest : w.queue.pop? = some (c, queue))
      (rest : Drains ({ w with queue }.execute c) cs w') : Drains w (c :: cs) w'

def openCount (w : World) : Nat := w.directory.places.countP (Sessions.isOpenAt w.sessions)

/-- A `hangUp` of a session that is open and in the directory. -/
def Parting (w : World) (c : Command) : Prop :=
  ∃ place ∈ w.directory.places, ∃ s, w.sessions[place]? = some s ∧ s.closed = false ∧
    ∃ username, c = .hangUp s.id username

variable {w w' w'' : World}

/-- **The loop has one course.** -/
theorem Drains.unique {cs ds : List Command} (h : Drains w cs w') (h' : Drains w ds w'') :
    ds = cs ∧ w'' = w' := by
  induction h generalizing ds with
  | done empty =>
    cases h' with
    | done => exact ⟨rfl, rfl⟩
    | step oldest rest => simp [empty] at oldest
  | step oldest rest ih =>
    cases h' with
    | done empty => simp [empty] at oldest
    | step oldest' rest' =>
      rw [oldest] at oldest'
      cases oldest'
      obtain ⟨rfl, rfl⟩ := ih rest'
      exact ⟨rfl, rfl⟩

/-! ### What a command costs -/

/-- Mail opens no session. -/
theorem isOpenAt_of_delivered {letters : List Letter} {sessions others : List Session} {p : Place}
    (h : Sessions.Delivered letters sessions others) (hopen : Sessions.isOpenAt others p = true) :
    Sessions.isOpenAt sessions p = true := by
  obtain ⟨t, ht, hstill⟩ := Sessions.isOpenAt_iff.mp hopen
  obtain ⟨s, hs, htook⟩ := h.from ht
  refine Sessions.isOpenAt_iff.mpr ⟨s, hs, ?_⟩
  by_contra hclosed
  rw [Bool.not_eq_false] at hclosed
  rw [htook.stays hclosed] at hstill
  cases hstill

theorem countP_isOpenAt_le {letters : List Letter} {sessions others : List Session}
    (h : Sessions.Delivered letters sessions others) (places : List Place) :
    places.countP (Sessions.isOpenAt others) ≤ places.countP (Sessions.isOpenAt sessions) :=
  List.countP_mono_left fun _ _ => isOpenAt_of_delivered h

/-- A number that is taken out counts no longer, if it is found and the one found counts. -/
theorem countP_places_erase (d : Directory) (id : SessionId) (f : Place → Bool) :
    (d.erase id).places.countP f + (if (d.find? id).any f then 1 else 0) = d.places.countP f := by
  cases hfind : d.find? id with
  | none =>
    have hsame : (d.erase id).places = d.places :=
      congrArg Std.ExtTreeMap.values (erase_of_lookup_eq_none hfind)
    simp [hsame]
  | some place =>
    have hperm : d.places.Perm (place :: (d.erase id).places) := values_perm_of_lookup hfind
    rw [hperm.countP_eq, List.countP_cons, Option.any_some]

/-- **A logout leaves a `hangUp` behind only for an open session that it takes out of the
    directory.** -/
theorem queues_logout (w : World) (id : SessionId) (carried : Option String) :
    ∃ more : List Command, (w.logout id carried).queue = w.queue.offerAll more ∧
      (w.logout id carried).openCount + more.length ≤ w.openCount ∧ ∀ c ∈ more, w.Parting c := by
  obtain ⟨more, hqueue, hmore⟩ := w.queue_logout_open id carried
  refine ⟨more, hqueue, ?_, ?_⟩
  · have hfewer : (w.logout id carried).openCount ≤
        (w.directory.erase id).places.countP (Sessions.isOpenAt w.sessions) := by
      rw [openCount, directory_logout]
      exact countP_isOpenAt_le (w.delivered_logout id carried) _
    have hcount : _ = w.openCount :=
      countP_places_erase w.directory id (Sessions.isOpenAt w.sessions)
    rw [← hcount]
    apply Nat.add_le_add hfewer
    rcases hmore with rfl | ⟨place, b, username, hfind, hb, hopen, rfl⟩
    · exact Nat.zero_le _
    · obtain ⟨s, hs, rfl⟩ := badges_eq_some.mp hb
      rw [hfind, Option.any_some, if_pos (Sessions.isOpenAt_iff.mpr ⟨s, hs, hopen⟩)]
      exact Nat.le_refl 1
  · intro c hc
    rcases hmore with rfl | ⟨place, b, username, hfind, hb, hopen, rfl⟩
    · cases hc
    · obtain ⟨s, hs, rfl⟩ := badges_eq_some.mp hb
      exact ⟨place, mem_values_iff.mpr ⟨id, hfind⟩, s, hs, hopen, username, List.mem_singleton.mp hc⟩

theorem queues_effect {id : SessionId} {r : Request} {letters : List Letter}
    (heffect : Effect w id r w') (hdelivered : Sessions.Delivered letters w.sessions w'.sessions) :
    ∃ more : List Command, w'.queue = w.queue.offerAll more ∧
      w'.openCount + more.length ≤ w.openCount ∧ ∀ c ∈ more, w.Parting c := by
  have hstays : w'.queue = w.queue → w'.directory = w.directory →
      ∃ more : List Command, w'.queue = w.queue.offerAll more ∧
        w'.openCount + more.length ≤ w.openCount ∧ ∀ c ∈ more, w.Parting c := by
    intro hqueue hdirectory
    refine ⟨[], hqueue.trans w.queue.offerAll_nil.symm, ?_, by simp⟩
    rw [openCount, hdirectory]
    exact countP_isOpenAt_le hdelivered _
  cases heffect with
  | quiet done => exact hstays done.queue done.directory
  | login found isOpen nobody offline marked done => exact hstays done.queue done.directory
  | join found somebody joined done => exact hstays done.queue done.directory
  | openRoom found somebody opened done => exact hstays done.queue done.directory
  | leave done => exact hstays done.queue done.directory
  | logout asked => exact w.queues_logout id none

/-- **Every command that comes into the queue costs the directory an open session.** -/
theorem queues_execute (w : World) (c : Command) :
    ∃ more : List Command, (w.execute c).queue = w.queue.offerAll more ∧
      (w.execute c).openCount + more.length ≤ w.openCount ∧ ∀ m ∈ more, w.Parting m := by
  cases c with
  | hangUp id username => exact w.queues_logout id (some username)
  | request id r =>
    obtain ⟨letters, hdelivered⟩ := w.delivered_execute (.request id r)
    exact queues_effect (w.answer_effect id r) hdelivered

/-- A dead queue takes nothing, so less may wait than the command has offered. -/
theorem pending_execute (w : World) (c : Command) :
    ∃ more : List Command, (w.execute c).queue.pending = w.queue.pending ++ more ∧
      (w.execute c).openCount + more.length ≤ w.openCount ∧ ∀ m ∈ more, w.Parting m := by
  obtain ⟨more, hqueue, hcount, hparting⟩ := w.queues_execute c
  rw [hqueue]
  cases hlive : w.queue.live with
  | true => exact ⟨more, CommandQueue.pending_offerAll hlive more, hcount, hparting⟩
  | false =>
    refine ⟨[], ?_, Nat.le_trans (Nat.add_le_add_left (Nat.zero_le _) _) hcount, by simp⟩
    simp [CommandQueue.offerAll, hlive]

/-- Whoever is open and registered after a command was so before it. -/
theorem Parting.of_execute {c m : Command} (h : (w.execute c).Parting m) : w.Parting m := by
  obtain ⟨place, hplace, t, ht, hopen, username, rfl⟩ := h
  obtain ⟨letters, hdelivered⟩ := w.delivered_execute c
  obtain ⟨u, hu, hbefore⟩ := Sessions.isOpenAt_iff.mp
    (isOpenAt_of_delivered hdelivered (Sessions.isOpenAt_iff.mpr ⟨t, ht, hopen⟩))
  obtain ⟨s, hs, htook⟩ := hdelivered.from ht
  obtain rfl := Option.some.inj (hu.symm.trans hs)
  refine ⟨place, ?_, u, hu, hbefore, username, by rw [htook.id]⟩
  obtain ⟨id, hid⟩ := mem_values_iff.mp hplace
  apply mem_values_iff.mpr
  rcases w.directory_execute c with hsame | herased
  · exact ⟨id, hsame ▸ hid⟩
  · exact ⟨id, find?_of_erase (herased ▸ hid)⟩

/-! ### The loop -/

/-- The oldest command is taken from the queue and executed. -/
theorem next_of_pop? {c : Command} {queue : CommandQueue} (h : w.queue.pop? = some (c, queue)) :
    w.next (.execute c) = ({ w with queue } : World).execute c := by
  unfold CommandQueue.pop? at h
  split at h
  · cases h
  · next hpending =>
    cases h
    rw [next, dequeue_of_cons hpending]

theorem drains_of_empty {n : Nat} (h : w.queue.pending = []) :
    ∃ late : List Command, Drains w (w.queue.pending ++ late) (drainFor n w).1 ∧
      (drainFor n w).2 = w.queue.pending.length + late.length ∧
      late.length ≤ w.openCount ∧ ∀ c ∈ late, w.Parting c := by
  have hpop : w.queue.pop? = none := by simp [CommandQueue.pop?, h]
  have hsame : drainFor n w = (w, 0) := by
    cases n with
    | zero => rfl
    | succ n => simp [drainFor, hpop]
  rw [hsame, h]
  exact ⟨[], .done hpop, rfl, Nat.zero_le _, by simp⟩

/-- **With so many rounds the loop comes to its end.**  What a command puts into the queue stands
    behind all that waits, so it comes after it. -/
theorem drains_drainFor {n : Nat} (h : w.toDo ≤ n) :
    ∃ late : List Command, Drains w (w.queue.pending ++ late) (drainFor n w).1 ∧
      (drainFor n w).2 = w.queue.pending.length + late.length ∧
      late.length ≤ w.openCount ∧ ∀ c ∈ late, w.Parting c := by
  induction n generalizing w with
  | zero =>
    apply drains_of_empty
    exact List.length_eq_zero_iff.mp (Nat.le_zero.mp (Nat.le_trans (Nat.le_add_right ..) h))
  | succ n ih =>
    cases hpending : w.queue.pending with
    | nil => exact hpending ▸ drains_of_empty hpending
    | cons c rest =>
      have hpop : w.queue.pop? = some (c, { w.queue with pending := rest }) := by
        simp [CommandQueue.pop?, hpending]
      have hless := toDo_execute_lt (w := w) (c := c) (by rw [hpending]; rfl)
      rw [dequeue_of_cons hpending] at hless
      obtain ⟨more, hqueue, hopen, hmore⟩ :=
        pending_execute { w with queue := { w.queue with pending := rest } } c
      obtain ⟨late, hdrains, hran, hlate, hparting⟩ :=
        ih (Nat.le_of_lt_succ (Nat.lt_of_lt_of_le hless h))
      rw [hqueue] at hdrains hran
      refine ⟨more ++ late, ?_, ?_, ?_, ?_⟩
      · rw [List.cons_append, ← List.append_assoc]
        simp only [drainFor, hpop]
        exact .step hpop hdrains
      · simp only [drainFor, hpop, hran, List.length_append, List.length_cons]
        omega
      · rw [List.length_append]
        exact Nat.le_trans (by omega) hopen
      · intro m hm
        rcases List.mem_append.mp hm with hm | hm
        · exact hmore m hm
        · exact (hparting m hm).of_execute

/-! ### Rooms that are made on the way -/

/-- Where a room of one's own is asked for, there is a number left for it, so that the search for
    one comes to an end. -/
def SearchEnds (w : World) : Event → Prop
  | .execute (.request id (.createRoom _)) =>
    ∀ found ∈ w.find? id, (w.lobby.leave found.2.id).1.HasFreeId
  | _ => True

/-- Whoever asks for a room is in none, once they have left theirs, so not every number is taken. -/
theorem searchEnds_of_inUse (hinUse : w.lobby.InUse) (e : Event) : w.SearchEnds e := by
  unfold SearchEnds
  split
  · intro found hfind
    obtain ⟨-, hs⟩ := find?_eq_some.mp (Option.mem_def.mp hfind)
    exact (hinUse.leave found.2.id).hasFreeId (hinUse.consistent.ready hs).1
  · trivial

/-- **No search on the way goes on for ever.** -/
theorem Drains.along {cs : List Command} (h : Drains w cs w') (hinUse : w.lobby.InUse) :
    Along next SearchEnds w (cs.map .execute) := by
  induction h with
  | done => trivial
  | step oldest rest ih =>
    refine ⟨searchEnds_of_inUse hinUse _, ?_⟩
    rw [next_of_pop? oldest]
    apply ih
    rw [← next_of_pop? oldest]
    exact (kept_inUse fun _ _ => True).execute _ trivial hinUse

/-- **Draining ends.**  Whatever waits in the queue, it executes that in its order, and after it the
    `hangUp`s that this has put there, of sessions that were open and registered: at most one for
    each of these.  It counts what it executes, and nothing is left.  If every room has players when
    it begins, and the records of them agree, as in every run, then a number is left for each room
    that it makes. -/
theorem drain_in_order (w : World) :
    ∃ late : List Command, Drains w (w.queue.pending ++ late) w.drain.1 ∧
      (∀ cs w', Drains w cs w' → cs = w.queue.pending ++ late ∧ w' = w.drain.1) ∧
      w.drain.1.queue.pending = [] ∧
      w.drain.2 = w.queue.pending.length + late.length ∧
      late.length ≤ w.openCount ∧ (∀ c ∈ late, w.Parting c) ∧
      (w.lobby.InUse → Along next SearchEnds w ((w.queue.pending ++ late).map .execute)) := by
  obtain ⟨late, hdrains, hran, hlate, hparting⟩ := drains_drainFor (Nat.le_refl w.toDo)
  refine ⟨late, hdrains, ?_, w.pending_drain, hran, hlate, hparting, hdrains.along⟩
  intro cs w' h
  exact hdrains.unique h

/-- A session that is logged in still, and a queue that hangs up on it and then asks for something
    else. -/
def loggedInStill : World where
  lobby := { sessions := [(Session.new ⟨1⟩ 64).start.login "ann"] }
  directory := ({} : Directory).insert ⟨1⟩ 0
  queue := { pending := [.hangUp ⟨1⟩ "ann", .request ⟨2⟩ .listRooms] }

theorem drain_in_order_logged_in_still :
    Drains loggedInStill (loggedInStill.queue.pending ++ [.hangUp ⟨1⟩ "ann"])
      loggedInStill.drain.1 ∧ loggedInStill.drain.2 = 3 := by
  obtain ⟨late, hdrains, hcourse, -, hran, -⟩ := drain_in_order loggedInStill
  have hmade : Drains loggedInStill (loggedInStill.queue.pending ++ [.hangUp ⟨1⟩ "ann"]) _ :=
    .step rfl (.step rfl (.step rfl (.done rfl)))
  obtain ⟨hlate, -⟩ := hcourse _ _ hmade
  obtain rfl := List.append_cancel_left hlate
  exact ⟨hdrains, hran⟩

end World

end GameServer
