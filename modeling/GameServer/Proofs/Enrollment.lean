import GameServer.Proofs.Closing

/-!
The roll: every open session is registered, and a number is one session's.

`Enrolled` says so, and that a closed session has no name.  It speaks of nothing but badges,
the directory, and whether commands are still taken, so it is kept by everything quiet and by
everything that happens in rooms.  What it buys is a plain account of a logout: whichever way
the session of the number stood, it is gone afterwards.
-/

namespace GameServer

open Wire

namespace Directory

theorem find?_insert (d : Directory) (id other : SessionId) (place : Place) :
    (d.insert id place).find? other = if other = id then some place else d.find? other :=
  lookup_insert ..

theorem find?_erase (d : Directory) (id other : SessionId) :
    (d.erase id).find? other = if other = id then none else d.find? other :=
  lookup_erase ..

end Directory

namespace World

/-- Every open session is registered at its own place, and sessions with the same number are the
    same session. -/
structure Enrolled (w : World) : Prop where
  /-- Commands are taken. -/
  live : w.queue.live = true
  distinct : ∀ {p q : Place} {b c : Badge}, w.badges[p]? = some b → w.badges[q]? = some c →
    b.id = c.id → p = q
  /-- Whoever is registered is a session of that number. -/
  registered : ∀ {id : SessionId} {place : Place}, w.directory.find? id = some place →
    ∃ b, w.badges[place]? = some b ∧ b.id = id
  present : ∀ {place : Place} {b : Badge}, w.badges[place]? = some b → b.closed = false →
    w.directory.find? b.id = some place
  /-- A closed session has no name. -/
  nameless : ∀ {place : Place} {b : Badge}, w.badges[place]? = some b → b.closed = true →
    b.user = none

variable {w w' : World}

/-! ### Changes of badges -/

/-- The roll depends on badges, on the directory, and on whether commands are taken. -/
theorem Enrolled.congr (h : w.Enrolled) (hbadges : w'.badges = w.badges)
    (hdirectory : w'.directory = w.directory) (hlive : w'.queue.live = w.queue.live) :
    w'.Enrolled where
  live := hlive.trans h.live
  distinct hb hc hid := h.distinct (hbadges ▸ hb) (hbadges ▸ hc) hid
  registered hfind := hbadges ▸ h.registered (hdirectory ▸ hfind)
  present hb hopen := hdirectory ▸ h.present (hbadges ▸ hb) hopen
  nameless hb hclosed := h.nameless (hbadges ▸ hb) hclosed

theorem Enrolled.quiet (h : w.Enrolled) (hquiet : Quiet w w') : w'.Enrolled :=
  h.congr hquiet.badges hquiet.directory (congrArg CommandQueue.live hquiet.queue)

/-- Badges may change place by place, and numbers may be forgotten, as long as no session gets
    another number, none opens again, the closed ones have no names, and those whose numbers are
    forgotten are closed. -/
theorem Enrolled.rewrite (h : w.Enrolled) {F : Place → Badge → Badge}
    (hbadges : ∀ place : Place, w'.badges[place]? = w.badges[place]?.map (F place))
    (hlive : w'.queue.live = w.queue.live) (hid : ∀ place b, (F place b).id = b.id)
    (hopen : ∀ place b, w.badges[place]? = some b → (F place b).closed = false →
      b.closed = false ∧ w'.directory.find? b.id = w.directory.find? b.id)
    (hname : ∀ place b, w.badges[place]? = some b → (F place b).closed = true →
      (F place b).user = none)
    (hfind : ∀ id place, w'.directory.find? id = some place →
      w.directory.find? id = some place) : w'.Enrolled where
  live := hlive.trans h.live
  distinct {p q b' c'} hb' hc' heq := by
    rw [hbadges] at hb' hc'
    obtain ⟨b, hb, rfl⟩ := Option.map_eq_some_iff.mp hb'
    obtain ⟨c, hc, rfl⟩ := Option.map_eq_some_iff.mp hc'
    rw [hid, hid] at heq
    exact h.distinct hb hc heq
  registered {id place} hplace := by
    obtain ⟨b, hb, heq⟩ := h.registered (hfind id place hplace)
    exact ⟨F place b, by rw [hbadges, hb, Option.map_some], (hid place b).trans heq⟩
  present {place b'} hb' hstill := by
    rw [hbadges] at hb'
    obtain ⟨b, hb, rfl⟩ := Option.map_eq_some_iff.mp hb'
    obtain ⟨hbefore, hsame⟩ := hopen place b hb hstill
    rw [hid, hsame]
    exact h.present hb hbefore
  nameless {place b'} hb' hclosed := by
    rw [hbadges] at hb'
    obtain ⟨b, hb, rfl⟩ := Option.map_eq_some_iff.mp hb'
    exact hname place b hb hclosed

/-- What happens in rooms is no concern of the roll. -/
theorem Enrolled.withLobby (h : w.Enrolled) {lobby : Lobby}
    (hbadges : lobby.sessions.map Session.badge = w.lobby.sessions.map Session.badge) :
    (w.withLobby lobby).Enrolled :=
  h.congr hbadges rfl rfl

theorem Enrolled.enqueue (h : w.Enrolled) (id : SessionId) (requests : List Request) :
    (w.enqueue id requests).Enrolled :=
  h.congr rfl rfl (w.queue.live_offerAll _)

/-- The badge at one place may change, as long as it keeps its number, does not open again, and
    has no name where it is closed. -/
theorem Enrolled.modify (h : w.Enrolled) {place : Place} {f : Badge → Badge}
    (hbadges : w'.badges = w.badges.modify place f) (hlive : w'.queue.live = w.queue.live)
    (hdirectory : w'.directory = w.directory) (hid : ∀ b, (f b).id = b.id)
    (hopen : ∀ b, w.badges[place]? = some b → (f b).closed = false → b.closed = false)
    (hname : ∀ b, w.badges[place]? = some b → (f b).closed = true → (f b).user = none) :
    w'.Enrolled := by
  refine h.rewrite (F := fun p b => if place = p then f b else b) (fun p => ?_) hlive ?_ ?_ ?_ ?_
  · rw [hbadges, List.getElem?_modify]
    rfl
  · intro p b
    by_cases hp : place = p
    · simp only [if_pos hp, hid]
    · simp only [if_neg hp]
  · intro p b hb hstill
    refine ⟨?_, by rw [hdirectory]⟩
    by_cases hp : place = p
    · subst hp
      exact hopen b hb (by simpa using hstill)
    · simpa [hp] using hstill
  · intro p b hb hclosed
    by_cases hp : place = p
    · subst hp
      simpa using hname b hb (by simpa using hclosed)
    · simp only [if_neg hp] at hclosed ⊢
      exact h.nameless hb hclosed
  · exact fun id p hfind => hdirectory ▸ hfind

theorem Enrolled.disconnect (h : w.Enrolled) (place : Place) :
    (w.disconnect place).2.Enrolled := by
  refine h.modify (w.badges_disconnect place) ?_ rfl Badge.id_close ?_ ?_
  · rw [queue_disconnect, CommandQueue.live_offerAll]
  · intro b _ hstill
    rw [Badge.closed_close] at hstill
    cases hstill
  · intro b hb _
    unfold Badge.close
    split
    · next hbefore => exact h.nameless hb hbefore
    · rfl

/-- A number may be forgotten once its session is closed. -/
theorem Enrolled.forget (h : w.Enrolled) {id : SessionId}
    (hclosed : ∀ (place : Place) (b : Badge), w.badges[place]? = some b → b.id = id →
      b.closed = true) : (w.forget id).Enrolled := by
  have hfind : ∀ other : SessionId, (w.forget id).directory.find? other =
      if other = id then none else w.directory.find? other := w.directory.find?_erase id
  refine h.rewrite (F := fun _ b => b) (fun p => ?_) rfl (fun _ _ => rfl) ?_
    (fun p b hb => h.nameless hb) ?_
  · rw [Option.map_id']
    rfl
  · intro p b hb hopen
    have hne : b.id ≠ id := by
      intro heq
      rw [hclosed p b hb heq] at hopen
      cases hopen
    exact ⟨hopen, by rw [hfind, if_neg hne]⟩
  · intro other p hplace
    rw [hfind] at hplace
    split at hplace
    · cases hplace
    · exact hplace

/-- Closing a session and forgetting its number. -/
theorem Enrolled.drop (h : w.Enrolled) {place : Place} {b : Badge}
    (hb : w.badges[place]? = some b) : (w.drop place b.id).Enrolled := by
  refine (h.disconnect place).forget fun p c hc heq => ?_
  rw [badges_disconnect, List.getElem?_modify] at hc
  obtain ⟨d, hd, hdc⟩ := Option.map_eq_some_iff.mp hc
  have hid : d.id = b.id := by
    rw [← heq, ← hdc]
    split
    · exact d.id_close.symm
    · rfl
  rw [if_pos (h.distinct hb hd hid.symm)] at hdc
  rw [← hdc]
  exact d.closed_close

/-- The badge of the session that a client gets. -/
def newcomer (w : World) : Badge := ⟨⟨w.directory.nextId⟩, none, false⟩

theorem badges_connect_cases {capacity : Nat} {p : Place} {b : Badge}
    (hb : (w.connect capacity).2.badges[p]? = some b) :
    w.badges[p]? = some b ∨ p = w.badges.length ∧ b = w.newcomer :=
  getElem?_concat_cases (w.badges_connect capacity ▸ hb)

theorem badges_connect_old (capacity : Nat) {p : Place} {b : Badge} (hb : w.badges[p]? = some b) :
    (w.connect capacity).2.badges[p]? = some b := by
  rw [badges_connect, List.getElem?_append_left (List.getElem?_eq_some_iff.mp hb).1]
  exact hb

theorem badges_connect_new (w : World) (capacity : Nat) :
    (w.connect capacity).2.badges[w.badges.length]? = some w.newcomer := by
  rw [badges_connect, List.getElem?_concat_length]
  rfl

theorem find?_connect (w : World) (capacity : Nat) (other : SessionId) :
    (w.connect capacity).2.directory.find? other =
      if other = w.newcomer.id then some w.badges.length else w.directory.find? other := by
  have hlength : w.badges.length = w.sessions.length := List.length_map _
  rw [hlength]
  exact Directory.find?_insert _ _ other w.sessions.length

/-- A client connects under a number that no session has had. -/
theorem Enrolled.connect (h : w.Enrolled) (capacity : Nat)
    (hfresh : ∀ (place : Place) (b : Badge), w.badges[place]? = some b →
      b.id ≠ ⟨w.directory.nextId⟩) : (w.connect capacity).2.Enrolled := by
  refine
    { live := h.live
      distinct := fun {p q b c} hb hc heq => ?_
      registered := fun {id place} hplace => ?_
      present := fun {place b} hb hopen => ?_
      nameless := fun {place b} hb hclosed => ?_ }
  · rcases badges_connect_cases hb with hb | ⟨rfl, rfl⟩ <;>
      rcases badges_connect_cases hc with hc | ⟨rfl, rfl⟩
    · exact h.distinct hb hc heq
    · exact absurd heq (hfresh p b hb)
    · exact absurd heq.symm (hfresh q c hc)
    · rfl
  · rw [find?_connect] at hplace
    split at hplace
    · next heq =>
      cases hplace
      exact ⟨w.newcomer, w.badges_connect_new capacity, heq.symm⟩
    · obtain ⟨b, hb, hid⟩ := h.registered hplace
      exact ⟨b, badges_connect_old capacity hb, hid⟩
  · rw [find?_connect]
    rcases badges_connect_cases hb with hb | ⟨rfl, rfl⟩
    · have hother : b.id ≠ w.newcomer.id := hfresh place b hb
      rw [if_neg hother]
      exact h.present hb hopen
    · rw [if_pos rfl]
  · rcases badges_connect_cases hb with hb | ⟨rfl, rfl⟩
    · exact h.nameless hb hclosed
    · rfl

/-! ### Logging out -/

/-- The badge of the session that a logout leaves: closed, and without a name. -/
def gone (id : SessionId) (b : Badge) : Badge := if b.id = id then ⟨id, none, true⟩ else b

/-- **A logout leaves the session of its number gone**, whether it was open or closed, registered
    or not, and leaves all others as they were. -/
theorem Enrolled.badges_logout (h : w.Enrolled) (id : SessionId) (carried : Option String) :
    (w.logout id carried).badges = w.badges.map (gone id) := by
  apply List.ext_getElem?
  intro p
  rw [logout_eq, badges_closeAt, badges_release, badges_leaveRoom, badges_unname, List.getElem?_map]
  cases hb : w.badges[p]? with
  | none => rfl
  | some b =>
    simp only [Option.map_some, Option.some.injEq]
    by_cases hfound : w.directory.find? id = some p
    · obtain ⟨own, hown, hid⟩ := h.registered hfound
      obtain rfl := Option.some.inj (hb.symm.trans hown)
      rw [if_pos hfound, gone, if_pos hid]
      cases hclosed : b.closed with
      | true =>
        have hgone : b = ⟨id, none, true⟩ := by
          rw [← hid, ← hclosed, ← h.nameless hb hclosed]
        split <;> rw [hgone] <;> rfl
      | false => split <;> simp [Badge.close, hclosed, ← hid]
    · rw [if_neg hfound, if_neg fun hboth => hfound hboth.2, gone]
      split
      · next hid =>
        -- whoever is not registered is closed
        have hclosed : b.closed = true := by
          by_contra hopen
          exact hfound (hid ▸ h.present hb (by simpa using hopen))
        rw [← hid, ← hclosed, ← h.nameless hb hclosed]
      · rfl

theorem Enrolled.logout (h : w.Enrolled) (id : SessionId) (carried : Option String) :
    (w.logout id carried).Enrolled := by
  obtain ⟨more, hqueue, -⟩ := w.queue_logout id carried
  have hfind : ∀ other : SessionId, (w.logout id carried).directory.find? other =
      if other = id then none else w.directory.find? other := by
    intro other
    rw [directory_logout]
    exact w.directory.find?_erase id other
  refine h.rewrite (F := fun _ => gone id) (fun p => ?_) ?_ ?_ ?_ ?_ ?_
  · rw [h.badges_logout, List.getElem?_map]
  · rw [hqueue, CommandQueue.live_offerAll]
  · intro p b
    unfold gone
    split
    · next hid => exact hid.symm
    · rfl
  · intro p b hb hopen
    unfold gone at hopen
    split at hopen
    · cases hopen
    · next hne => exact ⟨hopen, by rw [hfind, if_neg hne]⟩
  · intro p b hb hclosed
    unfold gone at hclosed ⊢
    split at hclosed
    · next hid => rw [if_pos hid]
    · next hne =>
      rw [if_neg hne]
      exact h.nameless hb hclosed
  · intro other p hplace
    rw [hfind] at hplace
    split at hplace
    · cases hplace
    · exact hplace

/-! ### Commands -/

/-- **No request spoils the roll.** -/
theorem Enrolled.effect (h : w.Enrolled) {id : SessionId} {r : Request}
    (heffect : Effect w id r w') :
    w'.Enrolled := by
  cases heffect with
  | quiet done => exact h.quiet done
  | @login place s username gateway _ found isOpen nobody offline marked done =>
    obtain ⟨-, hs⟩ := find?_eq_some.mp found
    have hbadge : w.badges[place]? = some s.badge := badges_eq_some.mpr ⟨s, hs, rfl⟩
    have hmodify := badges_login { w with gateway } place username
    refine (h.modify hmodify rfl rfl (fun _ => rfl) (fun _ _ hopen => hopen) ?_).quiet done
    intro b hb hclosed
    obtain rfl := Option.some.inj (hb.symm.trans hbadge)
    exact absurd (isOpen.symm.trans hclosed) Bool.false_ne_true
  | join found somebody joined done =>
    exact (h.withLobby (Lobby.map_badge_join joined)).quiet done
  | openRoom found somebody opened done =>
    exact (h.withLobby (Lobby.map_badge_openRoom opened)).quiet done
  | leave done => exact (h.withLobby (w.lobby.map_badge_leave id)).quiet done
  | logout asked => exact h.logout id none

theorem Enrolled.execute (h : w.Enrolled) (c : Command) : (w.execute c).Enrolled := by
  cases c with
  | request id request => exact h.effect (w.answer_effect id request)
  | hangUp id username => exact h.logout id (some username)

end World

end GameServer
