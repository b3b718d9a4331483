import GameServer.Proofs.Postings
import GameServer.Proofs.Stranger

/-!
A run without what a stranger asks for.

As long as nobody logs in under a number, its commands may be left out of a run, all but its
registrations: for everybody else it is the same run.  One lemma says that a command of the number
changes nothing that is not the number's own, one that everything else is done alike with it and
without it, and the run is an induction over both.
-/

namespace GameServer

open Wire

namespace World

/-! ### Leaving a stranger out -/

/-- Nobody is let in under a number: its logins fail, and no command with a name comes from it that
    a closing session has not left. -/
def Bars (g : SessionId) (w : World) : Event → Prop
  | .ask (.hangUp id _) => id ≠ g
  | .execute (.hangUp id username) => id = g → .hangUp id username ∈ w.queue.pending
  | .execute (.request id (.login username password)) =>
    id = g → (w.next (.execute (.request id (.login username password)))).Unnamed g
  | _ => True

instance (g : SessionId) (w : World) : (e : Event) → Decidable (Bars g w e)
  | .ask (.hangUp id _) => inferInstanceAs (Decidable (id ≠ g))
  | .execute (.hangUp id username) =>
    inferInstanceAs (Decidable (id = g → .hangUp id username ∈ w.queue.pending))
  | .execute (.request id (.login username password)) =>
    inferInstanceAs (Decidable
      (id = g → (w.next (.execute (.request id (.login username password)))).Unnamed g))
  | .execute (.request _ (.register ..)) | .execute (.request _ (.enterRoom _))
  | .execute (.request _ (.createRoom _)) | .execute (.request _ (.chat _))
  | .execute (.request _ .listRooms) | .execute (.request _ .leaveRoom)
  | .execute (.request _ (.move ..)) | .execute (.request _ .logout)
  | .ask (.request ..) | .connect _ | .complete _ | .hear .. | .finishSend _ | .disconnect _
  | .forget _ | .dropAll | .advance _ | .tell _ | .write _ | .stores .. | .stopStores =>
    isTrue trivial

/-- The requests that are posted when an event happens. -/
def postsIn (w : World) : Event → List StoreRequest
  | .execute c => w.posts c
  | _ => []

def posted : World → List Event → List StoreRequest
  | _, [] => []
  | w, e :: rest => w.postsIn e ++ posted (w.next e) rest

/-- What is left of a run when the commands of a number are left out, but for registrations. -/
def spares (g : SessionId) : Event → Bool
  | .execute (.request _ (.register _ _)) => true
  | .execute c => c.session != g
  | _ => true

variable {g id : SessionId} {w w' : World} {e : Event} {c : Command}

theorem spares_execute :
    spares g (.execute c) = true ↔
      c.session ≠ g ∨
        ∃ username password, c = .request c.session (.register username password) := by
  cases c with
  | hangUp id username => simp [spares]
  | request id r => cases r <;> simp [spares, Command.session]

/-- Only commands of the number are left out. -/
theorem eq_execute_of_spared (hspared : spares g e = false) :
    ∃ c, e = .execute c ∧ c.session = g := by
  cases e with
  | execute c =>
    refine ⟨c, rfl, ?_⟩
    by_contra hother
    rw [spares_execute.mpr (.inl hother)] at hspared
    cases hspared
  | _ => cases hspared

/-! ### One event -/

theorem alike_dequeue_own (hown : c.session = g) : Alike g w (w.dequeue c) := by
  apply (Alike.refl g w).withQueue
  refine ⟨rfl, ?_⟩
  rw [← List.erase_filter]
  apply List.erase_of_not_mem
  simp [hown]

/-- What a stranger asks for, apart from a registration, is not seen; and it stays a stranger. -/
theorem Stranger.own (h : w.Stranger g) (hbars : Bars g w (.execute c)) (hown : c.session = g) :
    (w.next (.execute c)).Stranger g ∧
      (spares g (.execute c) = false → Alike g w (w.next (.execute c))) := by
  have hdequeued : Alike g w (w.dequeue c) := alike_dequeue_own hown
  have hstranger := h.dequeue c
  cases c with
  | hangUp id username =>
    obtain rfl : id = g := hown
    exact absurd (hbars rfl) (h.silent username)
  | request id r =>
    obtain rfl : id = g := hown
    by_cases hlogout : r = .logout
    · subst hlogout
      exact ⟨hstranger.logout id none, fun _ => hdequeued.trans hstranger.alike_logout⟩
    · by_cases hregister : ∃ username password, r = .register username password
      · obtain ⟨username, password, rfl⟩ := hregister
        exact ⟨hstranger.quiet (quiet_register ..), fun hspared => by cases hspared⟩
      · have hanswered : OnlyAnswered (w.dequeue (.request id r)) id
            ((w.dequeue (.request id r)).answer id r) := by
          apply hstranger.answer
          · intro username password heq
            exact hregister ⟨username, password, heq⟩
          · exact hlogout
          · rintro username password rfl
            exact hbars rfl
        exact ⟨hstranger.quiet hanswered.quiet,
          fun _ => hdequeued.trans (hanswered.alike hstranger.numbered)⟩

/-- **A stranger stays a stranger.** -/
theorem kept_stranger (g : SessionId) : Kept (·.Stranger g) (Bars g) where
  quiet hquiet hv := hv.quiet hquiet
  enqueue id requests hv := hv.enqueue id requests
  hangUp _ _ hother hv := hv.ask_other hother
  connect capacity _ hv := hv.connect capacity
  disconnect place _ hv := hv.disconnect place
  forget _ _ hv := hv.withDirectory find?_of_erase
  drop {_ place _} _ hv := (hv.disconnect place).withDirectory find?_of_erase
  dropAll hv := hv.dropAll
  execute c hbars hv := by
    by_cases hown : c.session = g
    · exact (hv.own hbars hown).1
    · exact (hv.dequeue c).execute_other hown

/-- **What is left out is not missed.** -/
theorem Stranger.alike_next (h : w.Stranger g) (hbars : Bars g w e) (hspared : spares g e = false) :
    Alike g w (w.next e) := by
  obtain ⟨c, rfl, hown⟩ := eq_execute_of_spared hspared
  exact (h.own hbars hown).2 hspared

/-- **What is left is done alike.** -/
theorem Alike.next_of_spares (h : Alike g w w') (hnumbered : w.Numbered) (hnumbered' : w'.Numbered)
    (hspared : spares g e = true) : Alike g (w.next e) (w'.next e) := by
  by_cases hregisters : ∃ username password, e = .execute (.request g (.register username password))
  · obtain ⟨username, password, rfl⟩ := hregisters
    exact (h.dequeue _).register hnumbered hnumbered' g username password
  · apply h.next hnumbered hnumbered'
    rintro c rfl rfl
    obtain hother | ⟨username, password, heq⟩ := spares_execute.mp hspared
    · exact hother rfl
    · exact hregisters ⟨username, password, congrArg Event.execute heq⟩

/-! ### Requests that are posted -/

theorem pending_executed (w : World) (c : Command) :
    (w.next (.execute c)).gateway.pending = w.gateway.pending ++ w.posts c := by
  obtain ⟨sets, lists, htouched⟩ := (w.dequeue c).touched_execute c
  exact congrArg Gateway.pending htouched

theorem Alike.pending (h : Alike g w w') : w'.gateway.pending = w.gateway.pending := by
  obtain ⟨sets, hgateway, -⟩ := h.gateway
  rw [hgateway]

/-- What is left posts what it posted. -/
theorem Alike.postsIn (h : Alike g w w') (hnext : Alike g (w.next e) (w'.next e)) :
    w'.postsIn e = w.postsIn e := by
  cases e with
  | execute c =>
    have hpending := hnext.pending
    rw [pending_executed, pending_executed, h.pending] at hpending
    exact List.append_cancel_left hpending
  | _ => rfl

/-- What is left out has posted nothing. -/
theorem Alike.postsIn_eq_nil (h : Alike g w (w.next e)) : w.postsIn e = [] := by
  cases e with
  | execute c =>
    have hpending := h.pending
    rw [pending_executed] at hpending
    exact List.self_eq_append_right.mp hpending.symm
  | _ => rfl

/-! ### A run -/

/-- **Whether a stranger's commands are executed or not**, the worlds stay alike, and the same
    requests are posted. -/
theorem alike_after (h : Alike g w w') (hstranger : w.Stranger g) (hnumbered' : w'.Numbered)
    (events : List Event) (hrun : Along next (Bars g) w events) :
    Alike g (after next w events) (after next w' (events.filter (spares g))) ∧
      posted w' (events.filter (spares g)) = posted w events := by
  induction events generalizing w w' with
  | nil => exact ⟨h, rfl⟩
  | cons e rest ih =>
    obtain ⟨hbars, hrest⟩ := hrun
    have hstays := (kept_stranger g).next w e hstranger hbars
    cases hspared : spares g e with
    | true =>
      rw [List.filter_cons_of_pos hspared]
      have hnext := h.next_of_spares hstranger.numbered hnumbered' hspared
      have hnumbered := (kept_numbered fun _ _ => True).next w' e hnumbered' trivial
      obtain ⟨halike, hposted⟩ := ih hnext hstays hnumbered hrest
      exact ⟨halike, by rw [posted, posted, hposted, h.postsIn hnext]⟩
    | false =>
      rw [List.filter_cons_of_neg (by simp [hspared])]
      have hunseen := hstranger.alike_next hbars hspared
      obtain ⟨halike, hposted⟩ := ih (hunseen.symm.trans h) hstays hnumbered' hrest
      exact ⟨halike, by rw [posted, hposted, hunseen.postsIn_eq_nil, List.nil_append]⟩

theorem Pristine.stranger (h : w.Pristine) (g : SessionId) : w.Stranger g where
  numbered := h.numbered
  nameless s hs := by
    rw [h.sessions] at hs
    cases hs
  outside := by simp [h.index]
  silent name hwaits := by
    rw [h.pending] at hwaits
    cases hwaits

/-- **Whoever never logs in disturbs nobody.**  In any run in which nobody is let in under a number,
    its commands may be left out, all but its registrations.  Every other session is as it is: who
    is logged in on it, what was sent to it in which order, what still waits to be sent.  The rooms
    are the same, with everybody in them, and the next new room gets the same number; the same names
    are online, every room remembers the same lines, and the same requests were posted. -/
theorem stranger_disturbs_nobody (hstart : w.Stranger g) (events : List Event)
    (hrun : Along next (Bars g) w events) :
    let v := after next w events
    let v' := after next w (events.filter (spares g))
    (∀ (p : Place) (s : Session), s.id ≠ g →
      (v'.sessions[p]? = some s ↔ v.sessions[p]? = some s)) ∧
    v'.lobby.rooms = v.lobby.rooms ∧ v'.lobby.index = v.lobby.index ∧
    v'.lobby.nextId = v.lobby.nextId ∧
    (∀ name, v'.gateway.IsOnline name ↔ v.gateway.IsOnline name) ∧
    (∀ room, v'.gateway.history room = v.gateway.history room) ∧
    posted w (events.filter (spares g)) = posted w events ∧
    v'.gateway.pending = v.gateway.pending ∧ v'.gateway.database = v.gateway.database := by
  intro v v'
  obtain ⟨halike, hposted⟩ := alike_after (.refl g w) hstart hstart.numbered events hrun
  have hv : Alike g v v' := halike
  refine ⟨?_, hv.lobby.rooms, hv.lobby.index, hv.lobby.eq Lobby.nextId fun _ => rfl,
    hv.gateway.isOnline, hv.gateway.history, hposted, hv.pending, ?_⟩
  · intro p s hother
    constructor
    · intro hs
      exact hv.lobby.sessions.symm.at hs hother
    · intro hs
      exact hv.lobby.sessions.at hs hother
  · obtain ⟨sets, hgateway, -⟩ := hv.gateway
    rw [hgateway]

/-- Somebody connects after Ann and tries to get in: with a wrong password, with hers while she is
    online, and again when her connection has closed and her name is not released yet.  He asks for
    rooms, for room lists, to move and to talk, registers, logs out, and asks again.  Without all
    of that but the registration Ann is sent the same, makes a room of the same number, says the
    same in it, and goes. -/
theorem stranger_disturbs_nobody_knocking :
    let w : World := { gateway := { database := ({} : Database).seed 1 "ann" "a" } }
    let ann (r : Request) : Event := .execute (.request ⟨1⟩ r)
    let stranger (r : Request) : Event := .execute (.request ⟨2⟩ r)
    let events : List Event :=
      [.connect 64, .connect 64, stranger (.login "ann" "b"), ann (.login "ann" "a"),
        stranger (.login "ann" "a"), stranger (.createRoom "Den"), stranger (.enterRoom ⟨5⟩),
        ann (.createRoom "Hall"), stranger (.enterRoom ⟨1⟩), stranger (.register "bob" "b"),
        stranger .listRooms, stranger (.chat "boo"), ann (.chat "hi"), stranger (.move ⟨7⟩ ⟨7⟩),
        stranger .leaveRoom, .disconnect 0, stranger (.login "ann" "a"), stranger .logout,
        stranger (.enterRoom ⟨1⟩), .execute (.hangUp ⟨1⟩ "ann"), .write 0]
    let fewer : List Event :=
      [.connect 64, .connect 64, ann (.login "ann" "a"), ann (.createRoom "Hall"),
        stranger (.register "bob" "b"), ann (.chat "hi"), .disconnect 0,
        .execute (.hangUp ⟨1⟩ "ann"), .write 0]
    w.Pristine ∧ Along next (Bars ⟨2⟩) w events ∧ events.filter (spares ⟨2⟩) = fewer ∧
      (after next w fewer).sessions ≠ (after next w events).sessions ∧
      (after next w fewer).sessions[0]? = (after next w events).sessions[0]? ∧
      (after next w fewer).gateway.history ⟨1⟩ = ["ann: hi"] ∧
      (after next w events).gateway.history ⟨1⟩ = ["ann: hi"] ∧
      posted w fewer = [.register ⟨2⟩ "bob" "b", .saveChat ⟨⟨1⟩, "ann", "hi", ⟨1⟩⟩] := by
  intro w ann stranger events fewer
  have hpristine : w.Pristine := pristine_start {} {} _ true
  have hrun : Along next (Bars ⟨2⟩) w events := by decide +kernel
  have hfewer : events.filter (spares ⟨2⟩) = fewer := rfl
  have hunlike : (after next w fewer).sessions ≠ (after next w events).sessions := by
    decide +kernel
  have hheard : (after next w events).gateway.history ⟨1⟩ = ["ann: hi"] := by decide +kernel
  have hposted : posted w events =
      [.register ⟨2⟩ "bob" "b", .saveChat ⟨⟨1⟩, "ann", "hi", ⟨1⟩⟩] := by decide +kernel
  have hfirst : (after next w events).sessions[0]?.map Session.id = some ⟨1⟩ := by decide +kernel
  obtain ⟨s, hs, hid⟩ := Option.map_eq_some_iff.mp hfirst
  have hother : s.id ≠ ⟨2⟩ := by
    rw [hid]
    decide
  obtain ⟨hsessions, -, -, -, -, hhistory, hsame, -⟩ :=
    stranger_disturbs_nobody (hpristine.stranger ⟨2⟩) events hrun
  rw [hfewer] at hsessions hhistory hsame
  exact ⟨hpristine, hrun, hfewer, hunlike, ((hsessions 0 s hother).mpr hs).trans hs.symm,
    (hhistory ⟨1⟩).trans hheard, hheard, hsame.trans hposted⟩

end World

end GameServer
