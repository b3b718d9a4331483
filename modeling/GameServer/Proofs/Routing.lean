import GameServer.Proofs.Floor
import GameServer.Proofs.Noninterference

/-!
What is routed where.

Whatever the transport reports goes to the session that it names, through the directory.  So the
directory has to have every open session and no others, although sessions are closed and forgotten
in three places: where a connection fails, where a logout is executed, and where everybody is
dropped.  And what goes to one session must not reach another: `Alike` says that of everything but
the queue, which is seen here to grow at its end, by commands of that session.
-/

namespace GameServer

open Wire

/-! ### A queue that grows -/

namespace CommandQueue

/-- Some commands of a session were added at the end of a queue. -/
def Grown (id : SessionId) (q q' : CommandQueue) : Prop :=
  ∃ more : List Command, q'.pending = q.pending ++ more ∧ ∀ c ∈ more, c.session = id

variable {id : SessionId} {q q' q'' : CommandQueue}

theorem Grown.refl (id : SessionId) (q : CommandQueue) : Grown id q q :=
  ⟨[], (List.append_nil _).symm, nofun⟩

theorem Grown.trans (h : Grown id q q') (h' : Grown id q' q'') : Grown id q q'' := by
  obtain ⟨more, hmore, hown⟩ := h
  obtain ⟨rest, hrest, hown'⟩ := h'
  refine ⟨more ++ rest, by rw [hrest, hmore, List.append_assoc], fun c hc => ?_⟩
  exact (List.mem_append.mp hc).elim (hown c) (hown' c)

/-- A queue grows by what it is offered, or not at all if nobody takes commands. -/
theorem grown_offerAll {commands : List Command} (hown : ∀ c ∈ commands, c.session = id) :
    Grown id q (q.offerAll commands) := by
  unfold offerAll
  split
  · exact ⟨commands, rfl, hown⟩
  · exact .refl id q

end CommandQueue

namespace World

variable {w w' : World} {place : Place} {id : SessionId}

/-! ### One completion -/

section Grown

variable (hown : ∀ s, w.sessions[place]? = some s → s.id = id)

include hown

theorem grown_disconnect : w.queue.Grown id (w.disconnect place).2.queue := by
  rw [queue_disconnect]
  apply CommandQueue.grown_offerAll
  intro c hc
  cases hs : w.sessions[place]? with
  | none => simp [partingAt, badges, hs] at hc
  | some s => exact (session_of_partingAt hs hc).trans (hown s hs)

theorem grown_drop (other : SessionId) : w.queue.Grown id (w.drop place other).queue :=
  grown_disconnect hown

theorem grown_hear (bytes : Bytes) : w.queue.Grown id (w.hear place bytes).queue := by
  unfold hear
  cases hs : w.sessions[place]? with
  | none => exact .refl id w.queue
  | some s =>
    obtain ⟨requests, hqueue⟩ := s.receive_requests w.tolerant bytes w.queue
    change w.queue.Grown id (s.receive w.tolerant bytes w.queue).2.1
    rw [hqueue]
    apply CommandQueue.grown_offerAll
    intro c hc
    obtain ⟨request, -, rfl⟩ := List.mem_map.mp hc
    exact hown s hs

end Grown

/-- **A completion queues commands of the session that it names.** -/
theorem grown_dispatch (hnumbered : w.Numbered) {c : Completion} (hc : c.session? = some id) :
    w.queue.Grown id (w.dispatch c).2.queue := by
  unfold dispatch
  rw [hc]
  dsimp only
  split
  · exact .refl id w.queue
  · next place s hfind =>
    obtain ⟨hplace, hs⟩ := find?_eq_some.mp hfind
    have hown : ∀ t, w.sessions[place]? = some t → t.id = id := fun t ht => hnumbered.own hplace ht
    cases c with
    | shutdown | sent => exact .refl id w.queue
    | failed session transfer => exact grown_drop hown s.id
    | received session bytes =>
      dsimp only
      cases bytes with
      | nil => exact grown_drop hown s.id
      | cons byte rest =>
        have hheard := grown_hear hown (byte :: rest)
        rw [receive_eq_hear hs]
        split
        · exact hheard
        · apply hheard.trans
          apply grown_drop
          intro t ht
          exact own_of_delivered (w.delivered_hear place (byte :: rest)) hown ht

/-- A completion that names nobody registered changes nothing. -/
theorem dispatch_of_absent {c : Completion} (hc : c.session? = some id)
    (habsent : w.directory.find? id = none) : w.dispatch c = (.proceed, w) := by
  have hfind : w.find? id = none := by simp [find?, habsent]
  unfold dispatch
  rw [hc]
  simp only [hfind]

/-- A worker stops where it is told to, and nowhere else. -/
theorem dispatch_halts_iff (w : World) (c : Completion) :
    (w.dispatch c).1 = .halt ↔ c = .shutdown := by
  cases c with
  | shutdown => exact ⟨fun _ => rfl, fun _ => rfl⟩
  | received session bytes | sent session count | failed session transfer =>
    unfold dispatch
    dsimp only [Completion.session?]
    split <;> simp

/-! ### The directory -/

/-- The directory has every open session and no others, and a number is one session's. -/
structure Listed (w : World) : Prop where
  distinct : ∀ {p q : Place} {b c : Badge}, w.badges[p]? = some b → w.badges[q]? = some c →
    b.id = c.id → p = q
  entry : ∀ {id : SessionId} {p : Place}, w.directory.find? id = some p ↔
    ∃ b, w.badges[p]? = some b ∧ b.id = id ∧ b.closed = false

theorem Listed.numbered (h : w.Listed) : w.Numbered := by
  intro id p hplace
  obtain ⟨b, hb, hid, -⟩ := h.entry.mp hplace
  obtain ⟨s, hs, rfl⟩ := badges_eq_some.mp hb
  exact ⟨s, hs, hid⟩

/-- Badges may change place by place, and numbers may be forgotten, as long as no session gets
    another number, none opens again, and those that close are those that are forgotten. -/
theorem Listed.rewrite (h : w.Listed) {F : Place → Badge → Badge}
    (hbadges : ∀ p : Place, w'.badges[p]? = w.badges[p]?.map (F p))
    (hid : ∀ p b, (F p b).id = b.id)
    (hclosed : ∀ p b, b.closed = true → (F p b).closed = true)
    (hfind : ∀ id p, w'.directory.find? id = some p → w.directory.find? id = some p)
    (hstays : ∀ p b, w.badges[p]? = some b → b.closed = false →
      ((F p b).closed = false ↔ w'.directory.find? b.id = some p)) : w'.Listed where
  distinct {p q b' c'} hb' hc' heq := by
    rw [hbadges] at hb' hc'
    obtain ⟨b, hb, rfl⟩ := Option.map_eq_some_iff.mp hb'
    obtain ⟨c, hc, rfl⟩ := Option.map_eq_some_iff.mp hc'
    rw [hid, hid] at heq
    exact h.distinct hb hc heq
  entry {id p} := by
    constructor
    · intro hplace
      obtain ⟨b, hb, rfl, hopen⟩ := h.entry.mp (hfind id p hplace)
      exact ⟨F p b, by rw [hbadges, hb, Option.map_some], hid p b, (hstays p b hb hopen).mpr hplace⟩
    · rintro ⟨b', hb', rfl, hopen'⟩
      rw [hbadges] at hb'
      obtain ⟨b, hb, rfl⟩ := Option.map_eq_some_iff.mp hb'
      have hopen : b.closed = false := by
        by_contra hshut
        rw [hclosed p b (by simpa using hshut)] at hopen'
        cases hopen'
      rw [hid]
      exact (hstays p b hb hopen).mp hopen'

/-- What closes nobody and forgets nobody keeps the directory in order. -/
theorem Listed.keep (h : w.Listed) {F : Place → Badge → Badge}
    (hbadges : ∀ p : Place, w'.badges[p]? = w.badges[p]?.map (F p))
    (hid : ∀ p b, (F p b).id = b.id) (hclosed : ∀ p b, (F p b).closed = b.closed)
    (hdirectory : w'.directory = w.directory) : w'.Listed := by
  refine h.rewrite hbadges hid (fun p b => (hclosed p b).trans) ?_ ?_
  · rw [hdirectory]
    exact fun _ _ => id
  · intro p b hb hopen
    rw [hclosed, hdirectory]
    exact ⟨fun _ => h.entry.mpr ⟨b, hb, rfl, hopen⟩, fun _ => hopen⟩

theorem Listed.congr (h : w.Listed) (hbadges : w'.badges = w.badges)
    (hdirectory : w'.directory = w.directory) : w'.Listed :=
  h.keep (F := fun _ b => b) (fun p => by rw [hbadges, Option.map_id']) (fun _ _ => rfl)
    (fun _ _ => rfl) hdirectory

theorem Listed.withLobby (h : w.Listed) {lobby : Lobby}
    (hbadges : lobby.sessions.map Session.badge = w.lobby.sessions.map Session.badge) :
    (w.withLobby lobby).Listed := h.congr hbadges rfl

theorem Listed.quiet (h : w.Listed) (hquiet : Quiet w w') : w'.Listed :=
  h.congr hquiet.badges hquiet.directory

/-- A client connects under a number that no session has had. -/
theorem Listed.connect (h : w.Listed) (capacity : Nat)
    (hfresh : ∀ s ∈ w.sessions, s.id ≠ ⟨w.directory.nextId⟩) : (w.connect capacity).2.Listed := by
  have hnew : ∀ {p : Place} {b : Badge}, w.badges[p]? = some b → b.id ≠ w.newcomer.id := by
    intro p b hb
    obtain ⟨s, hs, rfl⟩ := badges_eq_some.mp hb
    exact hfresh s (List.mem_of_getElem? hs)
  refine { distinct := fun {p q b c} hb hc heq => ?_, entry := fun {id p} => ?_ }
  · rcases badges_connect_cases hb with hb | ⟨rfl, rfl⟩ <;>
      rcases badges_connect_cases hc with hc | ⟨rfl, rfl⟩
    · exact h.distinct hb hc heq
    · exact absurd heq (hnew hb)
    · exact absurd heq.symm (hnew hc)
    · rfl
  · rw [find?_connect]
    constructor
    · intro hplace
      split at hplace
      · next heq =>
        cases hplace
        exact ⟨w.newcomer, w.badges_connect_new capacity, heq.symm, rfl⟩
      · obtain ⟨b, hb, hid, hopen⟩ := h.entry.mp hplace
        exact ⟨b, badges_connect_old capacity hb, hid, hopen⟩
    · rintro ⟨b, hb, rfl, hopen⟩
      rcases badges_connect_cases hb with hb | ⟨rfl, rfl⟩
      · rw [if_neg (hnew hb)]
        exact h.entry.mpr ⟨b, hb, rfl, hopen⟩
      · rw [if_pos rfl]

/-- A number may be forgotten as its session closes. -/
theorem Listed.part (h : w.Listed) {F : Place → Badge → Badge}
    (hbadges : ∀ p : Place, w'.badges[p]? = w.badges[p]?.map (F p))
    (hid : ∀ p b, (F p b).id = b.id)
    (hclosed : ∀ p b, b.closed = true → (F p b).closed = true)
    (hdirectory : w'.directory = w.directory.erase id)
    (hparts : ∀ p b, w.badges[p]? = some b → b.closed = false →
      ((F p b).closed = false ↔ b.id ≠ id)) : w'.Listed := by
  refine h.rewrite hbadges hid hclosed ?_ ?_
  · rw [hdirectory]
    exact fun _ _ => find?_of_erase
  · intro p b hb hopen
    rw [hparts p b hb hopen, hdirectory, Directory.find?_erase]
    by_cases heq : b.id = id
    · simp [heq]
    · rw [if_neg heq]
      exact ⟨fun _ => h.entry.mpr ⟨b, hb, rfl, hopen⟩, fun _ => heq⟩

theorem Listed.drop (h : w.Listed) {b : Badge} (hb : w.badges[place]? = some b) :
    (w.drop place b.id).Listed := by
  refine h.part (F := fun p c => if place = p then c.close else c) (fun p => ?_) ?_ ?_ rfl ?_
  · change (w.disconnect place).2.badges[p]? = _
    rw [badges_disconnect, List.getElem?_modify]
    rfl
  · intro p c
    split
    · exact c.id_close
    · rfl
  · intro p c hclosed
    split
    · exact c.closed_close
    · exact hclosed
  · intro p c hc hopen
    by_cases hp : place = p
    · subst hp
      obtain rfl := Option.some.inj (hb.symm.trans hc)
      simp
    · have hother : c.id ≠ b.id := fun heq => hp (h.distinct hb hc heq.symm)
      rw [if_neg hp]
      exact ⟨fun _ => hother, fun _ => hopen⟩

/-- A logout closes the registered session of its number, and forgets the number. -/
theorem Listed.logout (h : w.Listed) (id : SessionId) (carried : Option String) :
    (w.logout id carried).Listed := by
  let unnamed (p : Place) (b : Badge) : Badge :=
    if carried = none ∧ w.directory.find? id = some p then { b with user := none } else b
  have hunnamed : ∀ p b, (unnamed p b).id = b.id ∧ (unnamed p b).closed = b.closed := by
    intro p b
    simp only [unnamed]
    split <;> exact ⟨rfl, rfl⟩
  refine h.part
    (F := fun p b => if w.directory.find? id = some p then (unnamed p b).close else unnamed p b)
    (fun p => ?_) ?_ ?_ (w.directory_logout id carried) ?_
  · rw [logout_eq, badges_closeAt, badges_release, badges_leaveRoom, badges_unname, Option.map_map]
    rfl
  · intro p b
    split
    · rw [Badge.id_close, (hunnamed p b).1]
    · exact (hunnamed p b).1
  · intro p b hclosed
    split
    · exact Badge.closed_close _
    · exact (hunnamed p b).2.trans hclosed
  · intro p b hb hopen
    -- the open session of the number is the one that is closed
    by_cases heq : b.id = id
    · have hplace : w.directory.find? id = some p := h.entry.mpr ⟨b, hb, heq, hopen⟩
      rw [if_pos hplace, Badge.closed_close]
      simp [heq]
    · have hother : w.directory.find? id ≠ some p := by
        intro hplace
        obtain ⟨c, hc, hid, -⟩ := h.entry.mp hplace
        obtain rfl := Option.some.inj (hb.symm.trans hc)
        exact heq hid
      rw [if_neg hother, (hunnamed p b).2]
      exact ⟨fun _ => heq, fun _ => hopen⟩

/-- Everybody is closed and forgotten. -/
theorem Listed.dropAll (h : w.Listed) : w.dropAll.2.Listed := by
  have hfind : ∀ other : SessionId, w.dropAll.2.directory.find? other = none := by
    intro other
    change w.directory.clear.find? other = none
    simp [Directory.clear, Directory.find?]
  refine h.rewrite (F := fun p b => if p ∈ w.directory.places then b.close else b)
    (fun p => ?_) ?_ ?_ ?_ ?_
  · rw [dropAll_eq]
    exact w.badges_disconnectEach w.directory.places p
  · intro p b
    split
    · exact b.id_close
    · rfl
  · intro p b hclosed
    split
    · exact b.closed_close
    · exact hclosed
  · intro other p hplace
    rw [hfind] at hplace
    cases hplace
  · intro p b hb hopen
    have hin : p ∈ w.directory.places :=
      mem_values_iff.mpr ⟨b.id, h.entry.mpr ⟨b, hb, rfl, hopen⟩⟩
    rw [if_pos hin, Badge.closed_close, hfind]
    simp

theorem Listed.effect (h : w.Listed) {r : Request} (heffect : Effect w id r w') : w'.Listed := by
  cases heffect with
  | quiet done => exact h.quiet done
  | @login place s username gateway _ found isOpen nobody offline marked done =>
    have hlogin : ({ w with gateway }.modify place (·.login username)).Listed := by
      refine h.keep (F := fun p b => if place = p then { b with user := some username } else b)
        (fun p => ?_) ?_ ?_ rfl
      · rw [badges_login { w with gateway } place username, List.getElem?_modify]
        rfl
      · intro p b
        split <;> rfl
      · intro p b
        split <;> rfl
    exact hlogin.quiet done
  | join found somebody joined done => exact (h.withLobby (Lobby.map_badge_join joined)).quiet done
  | openRoom found somebody opened done =>
    exact (h.withLobby (Lobby.map_badge_openRoom opened)).quiet done
  | leave done => exact (h.withLobby (w.lobby.map_badge_leave id)).quiet done
  | logout asked => exact h.logout id none

/-- **No command spoils the directory.** -/
theorem Listed.execute (h : w.Listed) (c : Command) : (w.execute c).Listed := by
  cases c with
  | request id r => exact h.effect (w.answer_effect id r)
  | hangUp id username => exact h.logout id (some username)

/-! ### Runs -/

/-- A client connects under a number that no session has had, and nobody is closed without being
    forgotten or forgotten without being closed. -/
def Orderly (w : World) : Event → Prop
  | .connect _ => ∀ s ∈ w.sessions, s.id ≠ ⟨w.directory.nextId⟩
  | .disconnect _ | .forget _ => False
  | _ => True

instance (w : World) : (e : Event) → Decidable (Orderly w e)
  | .connect _ => inferInstanceAs (Decidable (∀ s ∈ w.sessions, _))
  | .disconnect _ | .forget _ => isFalse fun hnever => hnever
  | .complete _ | .hear .. | .finishSend _ | .dropAll | .ask _ | .execute _ | .advance _ | .tell _
  | .write _ | .stores .. | .stopStores => isTrue trivial

theorem kept_listed : Kept Listed Orderly where
  quiet hquiet hv := hv.quiet hquiet
  enqueue _ _ hv := hv.congr rfl rfl
  hangUp _ _ _ hv := hv.congr rfl rfl
  connect capacity hfresh hv := hv.connect capacity hfresh
  disconnect _ hnever _ := hnever.elim
  forget _ hnever _ := hnever.elim
  drop hb hv := hv.drop hb
  dropAll hv := hv.dropAll
  execute {v} c _ hv := Listed.execute (w := v.dequeue c) (hv.congr rfl rfl) c

/-- Before anybody has connected, the directory is empty. -/
theorem listed_empty (hsessions : w.sessions = []) (hentries : w.directory.entries = ∅) :
    w.Listed := by
  have hnobody : ∀ p : Place, w.badges[p]? = none := by simp [badges, hsessions]
  refine { distinct := fun {p q b c} hb => ?_, entry := fun {id p} => ?_ }
  · rw [hnobody] at hb
    cases hb
  · simp [hnobody, Directory.find?, hentries]

/-- What a completion makes of the world is the concern of the session that it names. -/
theorem Listed.dispatch (h : w.Listed) {c : Completion} (hc : c.session? = some id) :
    let w' := (w.dispatch c).2
    (∀ p : Place, w.directory.find? id ≠ some p → w'.sessions[p]? = w.sessions[p]?) ∧
      (∀ other ≠ id, w'.directory.find? other = w.directory.find? other) ∧
      w.queue.Grown id w'.queue ∧ w'.lobby.floor = w.lobby.floor ∧ w'.gateway = w.gateway := by
  intro w'
  have halike : Alike id w w' := alike_dispatch_own h.numbered hc
  refine ⟨?_, halike.found, grown_dispatch h.numbered hc, w.floor_dispatch c, w.gateway_dispatch c⟩
  intro p hp
  cases hfound : w.directory.find? id with
  | none => simp only [w', dispatch_of_absent hc hfound]
  | some place =>
    rcases halike.lobby.sessions p with hsame | ⟨s, t, hs, -, hown, -⟩
    · exact hsame
    · -- the session of the number is the registered one
      obtain ⟨b, hb, hid, -⟩ := h.entry.mp hfound
      have hplace : p = place :=
        h.distinct (badges_eq_some.mpr ⟨s, hs, rfl⟩) hb (hown.trans hid.symm)
      exact absurd (hplace ▸ hfound) hp

/-- **The directory has the open sessions and no others, and what comes in for one session does not
    reach another.**  However clients have connected, completions been dealt with, commands been
    executed and everybody been dropped, a number is in the directory with the place of a session
    exactly if that session has this number and is open.  Whatever the transport then reports of a
    number, only the session of this number and its entry change, the queue grows by commands of
    this number, and the rooms, the names that are online and the stores are as they were; nothing
    changes at all if the number is not in the directory.  A worker stops exactly if it is told
    to. -/
theorem directory_holds_open (hsessions : w.sessions = []) (hentries : w.directory.entries = ∅)
    (events : List Event) (hrun : Along next Orderly w events) :
    let v := after next w events
    (∀ (id : SessionId) (p : Place), v.directory.find? id = some p ↔
      ∃ s, v.sessions[p]? = some s ∧ s.id = id ∧ s.closed = false) ∧
    (∀ (c : Completion) (id : SessionId), c.session? = some id →
      let v' := (v.dispatch c).2
      (∀ p : Place, v.directory.find? id ≠ some p → v'.sessions[p]? = v.sessions[p]?) ∧
      (∀ other ≠ id, v'.directory.find? other = v.directory.find? other) ∧
      v.queue.Grown id v'.queue ∧ v'.lobby.floor = v.lobby.floor ∧ v'.gateway = v.gateway ∧
      (v.directory.find? id = none → v' = v)) ∧
    ∀ c : Completion, (v.dispatch c).1 = .halt ↔ c = .shutdown := by
  intro v
  have hlisted : v.Listed := kept_listed.after (listed_empty hsessions hentries) events hrun
  refine ⟨fun id p => ?_, fun c id hc => ?_, v.dispatch_halts_iff⟩
  · rw [hlisted.entry]
    constructor
    · rintro ⟨b, hb, hid, hopen⟩
      obtain ⟨s, hs, rfl⟩ := badges_eq_some.mp hb
      exact ⟨s, hs, hid, hopen⟩
    · rintro ⟨s, hs, hid, hopen⟩
      exact ⟨s.badge, badges_eq_some.mpr ⟨s, hs, rfl⟩, hid, hopen⟩
  · obtain ⟨hothers, hentry, hqueue, hfloor, hgateway⟩ := hlisted.dispatch hc
    exact ⟨hothers, hentry, hqueue, hfloor, hgateway,
      fun habsent => congrArg Prod.snd (dispatch_of_absent hc habsent)⟩

/-- Of three clients one asks for a room list and goes on with what is no packet, one logs out, and
    bytes of both arrive when they are gone.  The third is left, and is not touched when the second
    is heard of again. -/
theorem directory_holds_open_parting :
    let w : World := {}
    let events : List Event :=
      [.connect 64, .connect 64, .connect 64,
        .complete (.received ⟨1⟩ [4, 0, 10, 0, 4, 0, 99, 0]), .execute (.request ⟨2⟩ .logout),
        .complete (.received ⟨1⟩ [4, 0, 10, 0]), .complete (.sent ⟨3⟩ 0)]
    let v := after next w events
    w.sessions = [] ∧ w.directory.entries = ∅ ∧ Along next Orderly w events ∧
      v.directory.ids = [⟨3⟩] ∧ v.queue.pending = [.request ⟨1⟩ .listRooms] ∧
      (∃ s, v.sessions[2]? = some s ∧ s.id = ⟨3⟩ ∧ s.closed = false) ∧
      (v.dispatch (.received ⟨2⟩ [4, 0, 10, 0])).2 = v ∧
      (v.dispatch (.failed ⟨3⟩ .send)).2.sessions[0]? = v.sessions[0]? := by
  intro w events v
  have hrun : Along next Orderly w events := by decide +kernel
  obtain ⟨hentry, hrouted, -⟩ := directory_holds_open (w := w) rfl rfl events hrun
  have hthird : v.directory.find? ⟨3⟩ = some 2 := by decide +kernel
  have hsecond : v.directory.find? ⟨2⟩ = none := by decide +kernel
  refine ⟨rfl, rfl, hrun, by decide +kernel, by decide +kernel, (hentry ⟨3⟩ 2).mp hthird, ?_, ?_⟩
  · exact (hrouted (.received ⟨2⟩ [4, 0, 10, 0]) ⟨2⟩ rfl).2.2.2.2.2 hsecond
  · refine (hrouted (.failed ⟨3⟩ .send) ⟨3⟩ rfl).1 0 ?_
    intro hfirst
    cases hthird.symm.trans hfirst

end World

end GameServer
