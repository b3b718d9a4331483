import GameServer.Proofs.WorldRun

/-!
Who is online.

A name that is online is in exactly one of two places: a session is logged in under it, or a
`hangUp` in the queue carries it.  A logout takes it from there into its hand, and then gives
it back, so the account that is kept here has a third place, which is empty whenever a command
has been executed.  Counting the names in all places makes it one equation, and what an event
does to it is arithmetic.
-/

namespace GameServer

open Wire

/-- Changing one entry of a list trades what it contributed for what it contributes now. -/
theorem count_filterMap_modify {α β : Type} [DecidableEq β] {f : α → Option β} {g : α → α}
    {l : List α} {i : Nat} {a : α} (ha : l[i]? = some a) (v : β) :
    ((l.modify i g).filterMap f).count v + (if f a = some v then 1 else 0) =
      (l.filterMap f).count v + (if f (g a) = some v then 1 else 0) := by
  have hcons : ∀ (x : α) (rest : List α), ((x :: rest).filterMap f).count v =
      (rest.filterMap f).count v + (if f x = some v then 1 else 0) := by
    intro x rest
    rw [List.filterMap_cons]
    cases f x with
    | none => simp
    | some u => simp [List.count_cons]
  induction l generalizing i with
  | nil => cases ha
  | cons x rest ih =>
    cases i with
    | zero =>
      obtain rfl := Option.some.inj ha
      rw [List.modify_zero_cons, hcons, hcons]
      omega
    | succ i =>
      have hrest := ih ha
      rw [List.modify_succ_cons, hcons, hcons]
      omega

/-- The name that a command gives back. -/
def Command.carried? : Command → Option String
  | request .. => none
  | hangUp _ username => some username

namespace World

/-! ### The account -/

def heldNames (w : World) : List String := w.sessions.filterMap Session.user

def owedNames (w : World) : List String := w.queue.pending.filterMap Command.carried?

/-- How often a name is held or owed. -/
def tally (w : World) (name : String) : Nat := w.heldNames.count name + w.owedNames.count name

/-- No closed session has a name. -/
def Nameless (badges : List Badge) : Prop := ∀ b ∈ badges, b.closed = true → b.user = none

theorem Nameless.modify {badges : List Badge} (h : Nameless badges) {place : Place}
    {f : Badge → Badge} (hf : ∀ b, badges[place]? = some b → (f b).closed = true →
      (f b).user = none) : Nameless (badges.modify place f) := by
  intro b' hb' hclosed
  obtain ⟨p, hp⟩ := List.mem_iff_getElem?.mp hb'
  rw [List.getElem?_modify] at hp
  obtain ⟨b, hb, rfl⟩ := Option.map_eq_some_iff.mp hp
  by_cases hplace : place = p
  · subst hplace
    rw [if_pos rfl] at hclosed ⊢
    exact hf b hb hclosed
  · rw [if_neg hplace] at hclosed ⊢
    exact h b (List.mem_of_getElem? hb) hclosed

/-- A name is held, owed or in hand as often as it is online: once or never.  No closed session
    holds one. -/
structure Exact (w : World) (inHand : Option String) : Prop where
  live : w.queue.live = true
  nameless : Nameless w.badges
  exact : ∀ name, w.tally name + (if inHand = some name then 1 else 0) =
    if w.gateway.IsOnline name then 1 else 0

variable {w w' : World} {inHand : Option String}

theorem heldNames_eq (w : World) : w.heldNames = w.badges.filterMap Badge.user := by
  rw [heldNames, badges, List.filterMap_map]
  rfl

theorem tally_congr (hbadges : w'.badges = w.badges) (howed : w'.owedNames = w.owedNames)
    (name : String) : w'.tally name = w.tally name := by
  rw [tally, tally, heldNames_eq, heldNames_eq, hbadges, howed]

/-- The account depends on badges, on the names that are owed, on whether commands are taken,
    and on who is online. -/
theorem Exact.congr (h : w.Exact inHand) (hbadges : w'.badges = w.badges)
    (howed : w'.owedNames = w.owedNames) (hlive : w'.queue.live = w.queue.live)
    (honline : ∀ name, w'.gateway.IsOnline name ↔ w.gateway.IsOnline name) :
    w'.Exact inHand where
  live := hlive.trans h.live
  nameless := hbadges ▸ h.nameless
  exact name := by
    rw [tally_congr hbadges howed, h.exact]
    simp only [honline]

theorem Exact.quiet (h : w.Exact inHand) (hquiet : Quiet w w') : w'.Exact inHand :=
  h.congr hquiet.badges (by rw [owedNames, hquiet.queue]; rfl)
    (congrArg CommandQueue.live hquiet.queue) hquiet.online

theorem Exact.withLobby (h : w.Exact inHand) {lobby : Lobby}
    (hbadges : lobby.sessions.map Session.badge = w.lobby.sessions.map Session.badge) :
    (w.withLobby lobby).Exact inHand :=
  h.congr hbadges rfl rfl fun _ => .rfl

theorem owedNames_offerAll (h : w.queue.live = true) (commands : List Command) :
    (w.queue.offerAll commands).pending.filterMap Command.carried? =
      w.owedNames ++ commands.filterMap Command.carried? := by
  rw [CommandQueue.pending_offerAll h, List.filterMap_append]
  rfl

/-- Requests owe nothing. -/
theorem Exact.enqueue (h : w.Exact inHand) (id : SessionId) (requests : List Request) :
    (w.enqueue id requests).Exact inHand := by
  refine h.congr rfl ?_ (w.queue.live_offerAll _) fun _ => .rfl
  have hnothing : (requests.map (Command.request id)).filterMap Command.carried? = [] := by
    rw [List.filterMap_map]
    exact List.filterMap_eq_nil_iff.mpr fun _ _ => rfl
  rw [owedNames, World.enqueue, owedNames_offerAll h.live, hnothing, List.append_nil]

/-! ### Closing -/

/-- What a session hands over when it is closed is the name that it gives up. -/
theorem count_parting (b : Badge) (name : String) :
    (b.parting.filterMap Command.carried?).count name +
        (if b.close.user = some name then 1 else 0) =
      if b.user = some name then 1 else 0 := by
  obtain ⟨id, user, closed⟩ := b
  cases closed with
  | true => simp [Badge.parting, Badge.close]
  | false =>
    cases user with
    | none => simp [Badge.parting, Badge.close]
    | some username =>
      simp [Badge.parting, Badge.close, Command.carried?, List.count_singleton]

/-- A session that is closed hands its name over to a `hangUp`. -/
theorem tally_disconnect (hlive : w.queue.live = true) (place : Place) (name : String) :
    (w.disconnect place).2.tally name = w.tally name := by
  have howed : (w.disconnect place).2.owedNames =
      w.owedNames ++ (w.partingAt place).filterMap Command.carried? := by
    rw [owedNames, queue_disconnect, owedNames_offerAll hlive]
  rw [tally, tally, howed, List.count_append, heldNames_eq, heldNames_eq, badges_disconnect]
  unfold partingAt
  cases hb : w.badges[place]? with
  | none =>
    rw [List.modify_eq_self (List.getElem?_eq_none_iff.mp hb)]
    simp
  | some b =>
    have htrade := count_filterMap_modify (f := Badge.user) (g := Badge.close) hb name
    have hparting := count_parting b name
    rw [Option.map_some, Option.getD_some]
    omega

theorem Exact.disconnect (h : w.Exact inHand) (place : Place) :
    (w.disconnect place).2.Exact inHand where
  live := by rw [queue_disconnect, CommandQueue.live_offerAll]; exact h.live
  nameless := by
    rw [badges_disconnect]
    refine h.nameless.modify fun b hb _ => ?_
    unfold Badge.close
    split
    · next hbefore => exact h.nameless b (List.mem_of_getElem? hb) hbefore
    · rfl
  exact name := by
    rw [tally_disconnect h.live, h.exact]
    rfl

/-- Who is registered is no matter here. -/
theorem Exact.withDirectory (h : w.Exact inHand) (directory : Directory) :
    ({ w with directory } : World).Exact inHand :=
  h.congr rfl rfl rfl fun _ => .rfl

theorem Exact.connect (h : w.Exact inHand) (capacity : Nat) :
    (w.connect capacity).2.Exact inHand where
  live := h.live
  nameless := by
    rw [badges_connect]
    intro b hb hclosed
    rcases List.mem_append.mp hb with hb | hb
    · exact h.nameless b hb hclosed
    · rw [List.mem_singleton.mp hb]
  exact name := by
    have hheld : (w.connect capacity).2.heldNames = w.heldNames := by
      rw [heldNames_eq, badges_connect, List.filterMap_append, heldNames_eq]
      exact List.append_nil _
    rw [tally, hheld]
    exact h.exact name

/-! ### Logging out -/

/-- A name that is taken off a session is in hand. -/
theorem Exact.takeName (h : w.Exact none) (place : Place) :
    (w.takeName place).1.Exact (w.takeName place).2 := by
  have hbadges := w.badges_takeName place
  obtain ⟨sessions, htake, -⟩ := w.takeName_fst place
  have howed : (w.takeName place).1.owedNames = w.owedNames := by rw [htake]; rfl
  have honline : (w.takeName place).1.gateway = w.gateway := by rw [htake]; rfl
  have hlive : (w.takeName place).1.queue.live = true := by rw [htake]; exact h.live
  refine ⟨hlive, hbadges ▸ h.nameless.modify fun _ _ _ => rfl, fun name => ?_⟩
  have hexact := h.exact name
  rw [tally, heldNames_eq] at hexact ⊢
  rw [hbadges, howed, honline, takeName_snd, ← hexact]
  cases hb : w.badges[place]? with
  | none =>
    rw [List.modify_eq_self (List.getElem?_eq_none_iff.mp hb)]
    rfl
  | some b =>
    have htrade := count_filterMap_modify (f := Badge.user) (g := fun b => { b with user := none })
      hb name
    simp only [reduceCtorEq, if_false, Option.bind_some] at htrade ⊢
    omega

/-- A logout takes a name into its hand: the one that the command has brought, or else the one that
    it finds on the session. -/
theorem Exact.unname {carried : Option String} (h : w.Exact carried) (id : SessionId) :
    (w.unname id carried).1.Exact (w.unname id carried).2 := by
  unfold World.unname
  cases carried with
  | some username => exact h.withDirectory _
  | none =>
    cases w.directory.find? id with
    | none => exact h.withDirectory _
    | some place => exact Exact.takeName (h.withDirectory _) place

theorem Exact.leaveRoom (h : w.Exact inHand) (id : SessionId) : (w.leaveRoom id).Exact inHand :=
  Exact.quiet (h.withLobby (w.lobby.map_badge_leave id)) (quiet_announce ..)

/-- The name in hand is given back. -/
theorem Exact.release (h : w.Exact inHand) (hup : inHand ≠ none → w.gateway.cache.down = false) :
    (w.release inHand).Exact none := by
  cases inHand with
  | none => exact h
  | some username =>
    refine ⟨h.live, h.nameless, fun name => ?_⟩
    have hexact := h.exact name
    have hsame : (w.release (some username)).tally name = w.tally name := rfl
    have honline : (w.release (some username)).gateway.IsOnline name ↔
        name ≠ username ∧ w.gateway.IsOnline name :=
      Gateway.isOnline_removePresence (hup (Option.some_ne_none username)) name
    rw [hsame]
    simp only [honline]
    by_cases hname : name = username
    · subst hname
      -- it was online once, and in the hand; so it is nowhere else
      by_cases hon : w.gateway.IsOnline name
      · simpa [hon] using hexact
      · simp [hon] at hexact
    · simpa [hname, Ne.symm hname] using hexact

theorem Exact.closeAt (h : w.Exact inHand) (found : Option Place) :
    (w.closeAt found).Exact inHand := by
  cases found with
  | none => exact h
  | some place => exact h.disconnect place

theorem Exact.logout {carried : Option String} (h : w.Exact carried) (id : SessionId)
    (hup : (w.unname id carried).2 ≠ none → w.gateway.cache.down = false) :
    (w.logout id carried).Exact none := by
  rw [← (w.leaveRoom_unname id carried).2.2] at hup
  rw [logout_eq]
  exact (((h.unname id).leaveRoom id).release hup).closeAt _

/-! ### Commands -/

/-- Somebody logs in under a name that was not online: now it is, and they hold it. -/
theorem Exact.login (h : w.Exact none) {place : Place} {s : Session} {username : String}
    {gateway : Gateway} (hs : w.sessions[place]? = some s) (hopen : s.closed = false)
    (hnobody : s.user = none) (hoffline : ¬ w.gateway.IsOnline username)
    (hmarked : ∀ other, gateway.IsOnline other ↔ other = username ∨ w.gateway.IsOnline other) :
    ({ w with gateway }.modify place (·.login username)).Exact none := by
  let v := { w with gateway }.modify place (·.login username)
  have hb : w.badges[place]? = some s.badge := badges_eq_some.mpr ⟨s, hs, rfl⟩
  have hbadges : v.badges = w.badges.modify place fun b => { b with user := some username } :=
    badges_login { w with gateway } place username
  refine ⟨h.live, ?_, fun name => ?_⟩
  · change Nameless v.badges
    rw [hbadges]
    refine h.nameless.modify fun b hb' hclosed => ?_
    obtain rfl := Option.some.inj (hb'.symm.trans hb)
    exact absurd (hopen.symm.trans hclosed) Bool.false_ne_true
  · have hexact := h.exact name
    have honline : v.gateway.IsOnline name ↔ name = username ∨ w.gateway.IsOnline name :=
      hmarked name
    have htrade := count_filterMap_modify (f := Badge.user)
      (g := fun b => { b with user := some username }) hb name
    have hnone : s.badge.user = none := hnobody
    have howed : v.owedNames = w.owedNames := rfl
    change v.tally name + _ = if v.gateway.IsOnline name then 1 else 0
    rw [tally, heldNames_eq] at hexact ⊢
    rw [hbadges, howed]
    simp only [honline, hnone, reduceCtorEq, if_false, Option.some.injEq] at hexact htrade ⊢
    by_cases hname : name = username
    · subst hname
      simp only [hoffline, if_false, if_true, true_or] at hexact htrade ⊢
      omega
    · simp only [hname, Ne.symm hname, if_false, false_or] at hexact htrade ⊢
      omega

/-- The name that executing a command gives back, if it gives one back. -/
def released? (w : World) : Command → Option String
  | .hangUp _ username => some username
  | .request id .logout => (w.find? id).bind fun found => found.2.user
  | .request .. => none

/-- The cache answers when a name is to be given back. -/
def Answers (w : World) : Event → Prop
  | .execute c => w.released? c ≠ none → w.gateway.cache.down = false
  | _ => True

instance (w : World) : (e : Event) → Decidable (w.Answers e)
  | .execute c => inferInstanceAs (Decidable (w.released? c ≠ none → _ = false))
  | .ask _ | .connect _ | .complete _ | .hear .. | .finishSend _ | .disconnect _ | .forget _
  | .dropAll | .advance _ | .tell _ | .write _ | .stores .. | .stopStores => isTrue trivial

/-- Commands are executed in their turn, and names can be given back. -/
def Answered (w : World) (e : Event) : Prop := w.InTurn e ∧ w.Answers e

instance (w : World) (e : Event) : Decidable (w.Answered e) :=
  inferInstanceAs (Decidable (_ ∧ _))

theorem Exact.effect (h : w.Exact none) {id : SessionId} {r : Request}
    (heffect : Effect w id r w')
    (hup : r = .logout → (w.unname id none).2 ≠ none → w.gateway.cache.down = false) :
    w'.Exact none := by
  cases heffect with
  | quiet done => exact h.quiet done
  | login found isOpen nobody offline marked done =>
    exact (h.login (find?_eq_some.mp found).2 isOpen nobody offline marked).quiet done
  | join found somebody joined done => exact (h.withLobby (Lobby.map_badge_join joined)).quiet done
  | openRoom found somebody opened done =>
    exact (h.withLobby (Lobby.map_badge_openRoom opened)).quiet done
  | leave done => exact (h.withLobby (w.lobby.map_badge_leave id)).quiet done
  | logout asked => exact h.logout id (hup asked)

/-- The name that a command carries is in hand when it is the command's turn. -/
theorem Exact.dequeue (h : w.Exact none) {c : Command} (hturn : w.queue.pending.head? = some c) :
    (w.dequeue c).Exact c.carried? := by
  obtain ⟨rest, hpending⟩ := List.head?_eq_some_iff.mp hturn
  rw [dequeue_of_cons hpending]
  let popped : World := { w with queue := { w.queue with pending := rest } }
  refine ⟨h.live, h.nameless, fun name => ?_⟩
  have hexact := h.exact name
  have howed : w.owedNames.count name =
      popped.owedNames.count name + if c.carried? = some name then 1 else 0 := by
    rw [owedNames, hpending, List.filterMap_cons]
    cases c.carried? with
    | none => rfl
    | some username => simp [List.count_cons, owedNames, popped]
  rw [tally, howed] at hexact
  simp only [reduceCtorEq, if_false] at hexact
  change w.heldNames.count name + popped.owedNames.count name + _ =
    if w.gateway.IsOnline name then 1 else 0
  omega

/-- **Executing a command in its turn keeps the account.** -/
theorem Exact.executed (h : w.Exact none) {c : Command} (hanswered : w.Answered (.execute c)) :
    (w.next (.execute c)).Exact none := by
  obtain ⟨hturn, hup⟩ := hanswered
  have hdequeued := h.dequeue hturn
  cases c with
  | request id request =>
    refine Exact.effect hdequeued (answer_effect _ id request) fun hlogout hnamed => hup ?_
    subst hlogout
    rw [unname_snd] at hnamed
    exact hnamed
  | hangUp id username =>
    exact hdequeued.logout id fun _ => hup (Option.some_ne_none username)

/-! ### Every run -/

theorem Pristine.exact (h : w.Pristine) : w.Exact none where
  live := h.live
  nameless := by rw [h.badges]; exact nofun
  exact name := by
    rw [tally, heldNames, owedNames, h.sessions, h.pending, if_neg (h.offline name)]
    rfl

/-- **The account is kept by every run.** -/
theorem kept_exact : Kept (fun w => w.Exact none) Answered where
  quiet hquiet hv := hv.quiet hquiet
  enqueue id requests hv := hv.enqueue id requests
  hangUp _ _ hnever _ := hnever.1.elim
  connect capacity _ hv := hv.connect capacity
  disconnect place _ hv := hv.disconnect place
  forget id _ hv := hv.withDirectory _
  drop {v place b} _ hv := (hv.disconnect place).withDirectory _
  dropAll {v} hv := by
    rw [dropAll_eq]
    exact (keeps_disconnectEach (P := fun v => v.Exact none) (fun place hv => hv.disconnect place)
      hv v.directory.places).withDirectory _
  execute _ hanswered hv := hv.executed hanswered

theorem Exact.perm (h : w.Exact none) : w.gateway.online.Perm (w.heldNames ++ w.owedNames) := by
  refine List.perm_iff_count.mpr fun name => ?_
  have hexact := h.exact name
  simp only [reduceCtorEq, if_false, Nat.add_zero] at hexact
  rw [List.count_append, (Gateway.nodup_online _).count]
  simp only [Gateway.mem_online_iff]
  exact hexact.symm

/-- **Presence is exact and never leaks.**  Whatever happens, in whatever order, as long as the cache
    answers when a name is given back: the names online are those that sessions are logged in
    under together with those that wait in the queue to be given back, each of them once.  So
    nobody is logged in twice, nobody loses a name to a `hangUp` that was somebody else's, and
    once no command waits, exactly those are online who are logged in on an open session. -/
theorem presence_exact (hstart : w.Pristine) (events : List Event)
    (hrun : Along next Answered w events) :
    let v := after next w events
    v.gateway.online.Perm (v.heldNames ++ v.owedNames) ∧ v.gateway.online.Nodup ∧
    (∀ (p q : Place) (s t : Session), v.sessions[p]? = some s → v.sessions[q]? = some t →
      s.user ≠ none → s.user = t.user → p = q) ∧
    (∀ id username, .hangUp id username ∈ v.queue.pending →
      ∀ s ∈ v.sessions, s.user ≠ some username) ∧
    (v.queue.pending = [] → ∀ name, name ∈ v.gateway.online ↔
      ∃ s ∈ v.sessions, s.closed = false ∧ s.user = some name) := by
  intro v
  have h : v.Exact none := kept_exact.after hstart.exact events hrun
  have hperm := h.perm
  have honline := v.gateway.nodup_online
  obtain ⟨hheld, -, hapart⟩ := List.nodup_append.mp (hperm.nodup_iff.mp honline)
  have hheld_of : ∀ s ∈ v.sessions, ∀ name, s.user = some name → name ∈ v.heldNames :=
    fun s hs name hname => List.mem_filterMap.mpr ⟨s, hs, hname⟩
  refine ⟨hperm, honline, ?_, ?_, ?_⟩
  · -- of two places the later one would repeat the name of the earlier one
    have horder := List.pairwise_iff_getElem.mp (List.pairwise_filterMap.mp hheld)
    have hlater : ∀ {p q : Place} {s t : Session}, v.sessions[p]? = some s →
        v.sessions[q]? = some t → s.user ≠ none → s.user = t.user → ¬ p < q := by
      intro p q s t hs ht hsomebody hsame hlt
      obtain ⟨hp, rfl⟩ := List.getElem?_eq_some_iff.mp hs
      obtain ⟨hq, rfl⟩ := List.getElem?_eq_some_iff.mp ht
      obtain ⟨name, hname⟩ := Option.ne_none_iff_exists'.mp hsomebody
      exact horder p q hp hq hlt name hname name (hsame ▸ hname) rfl
    intro p q s t hs ht hsomebody hsame
    have hpq := hlater hs ht hsomebody hsame
    have hqp := hlater ht hs (hsame ▸ hsomebody) hsame.symm
    exact Nat.le_antisymm (Nat.not_lt.mp hqp) (Nat.not_lt.mp hpq)
  · intro id username hwaits s hs huser
    have howed : username ∈ v.owedNames := List.mem_filterMap.mpr ⟨_, hwaits, rfl⟩
    exact hapart username (hheld_of s hs username huser) username howed rfl
  · intro hnone name
    have howed : v.owedNames = [] := by rw [owedNames, hnone]; rfl
    rw [hperm.mem_iff, howed, List.append_nil]
    constructor
    · intro hin
      obtain ⟨s, hs, huser⟩ := List.mem_filterMap.mp hin
      refine ⟨s, hs, ?_, huser⟩
      by_contra hopen
      have hclosed : s.closed = true := by simpa using hopen
      have hnobody := h.nameless s.badge (List.mem_map_of_mem hs) hclosed
      exact Option.some_ne_none name (huser.symm.trans hnobody)
    · rintro ⟨s, hs, -, huser⟩
      exact hheld_of s hs name huser

/-- Of three who connect one logs in, another logs in under another name, and the third is refused
    the first name.  Then the first connection dies: its name is owed, and still online. -/
theorem presence_exact_owed :
    let asks (place : Place) (r : Request) : Event := .hear place (r.encode.toOption.getD [])
    let database := (({} : Database).seed 1 "ann" "a").seed 2 "bob" "b"
    let w : World := { gateway := { database } }
    let events : List Event :=
      [.connect 256, .connect 256, .connect 256, asks 0 (.login "ann" "a"),
        asks 1 (.login "bob" "b"), asks 2 (.login "ann" "a"),
        .execute (.request ⟨1⟩ (.login "ann" "a")), .execute (.request ⟨2⟩ (.login "bob" "b")),
        .execute (.request ⟨3⟩ (.login "ann" "a")), .complete (.failed ⟨1⟩ .receive)]
    let v := after next w events
    w.Pristine ∧ Along next Answered w events ∧ v.heldNames = ["bob"] ∧ v.owedNames = ["ann"] ∧
      v.gateway.online.Perm ["bob", "ann"] := by
  intro asks database w events v
  have hstart : w.Pristine := pristine_start {} {} database true
  have hrun : Along next Answered w events := by decide +kernel
  have hheld : v.heldNames = ["bob"] := by decide +kernel
  have howed : v.owedNames = ["ann"] := by decide +kernel
  have hv : after next w events = v := rfl
  obtain ⟨hperm, -⟩ := presence_exact hstart events hrun
  rw [hv, hheld, howed] at hperm
  exact ⟨hstart, hrun, hheld, howed, hperm⟩

end World

end GameServer
