import GameServer.Proofs.Bystanders

/-!
Whoever never logs in disturbs nobody.

A stranger is a number under which nobody is logged in.  It is in no room, so there is nothing
it can leave, move or say; it is let into none; and its name, if it had one to give back, is
nobody's.  Whatever it asks for comes to an answer to itself, except that a registration is
written for anybody.  So a run without its questions is the same run for everybody else.
-/

namespace GameServer

open Wire

namespace World

/-! ### Strangers -/

def Unnamed (w : World) (g : SessionId) : Prop := ∀ s ∈ w.sessions, s.id = g → s.user = none

instance (w : World) (g : SessionId) : Decidable (w.Unnamed g) :=
  inferInstanceAs (Decidable (∀ s ∈ w.sessions, _))

/-- Nobody is logged in under a number; it is in no room, and it owes no name. -/
structure Stranger (w : World) (g : SessionId) : Prop where
  numbered : w.Numbered
  nameless : w.Unnamed g
  outside : w.lobby.index[g]? = none
  silent : ∀ name, .hangUp g name ∉ w.queue.pending

variable {g id : SessionId} {w w' : World} {place : Place}

theorem unnamed_iff :
    w.Unnamed g ↔
      ∀ (p : Place) (b : Badge), w.badges[p]? = some b → b.id = g → b.user = none := by
  constructor
  · intro h p b hb hid
    obtain ⟨s, hs, rfl⟩ := badges_eq_some.mp hb
    exact h s (List.mem_of_getElem? hs) hid
  · intro h s hs hid
    obtain ⟨p, hp⟩ := List.mem_iff_getElem?.mp hs
    exact h p s.badge (badges_eq_some.mpr ⟨s, hp, rfl⟩) hid

/-- Badges may change, as long as nobody of the number is given a name. -/
theorem Stranger.of_badges (h : w.Stranger g) (hnumbered : w'.Numbered)
    (hbadges : ∀ (p : Place) (b' : Badge), w'.badges[p]? = some b' → b'.id = g →
      b'.user = none ∨ ∃ b, w.badges[p]? = some b ∧ b.id = g ∧ b'.user = b.user)
    (hindex : w'.lobby.index[g]? = w.lobby.index[g]?)
    (hpending : ∀ name, .hangUp g name ∈ w'.queue.pending → .hangUp g name ∈ w.queue.pending) :
    w'.Stranger g where
  numbered := hnumbered
  nameless := by
    rw [unnamed_iff]
    intro p b' hb' hid
    rcases hbadges p b' hb' hid with hnone | ⟨b, hb, hown, huser⟩
    · exact hnone
    · rw [huser]
      exact unnamed_iff.mp h.nameless p b hb hown
  outside := hindex.trans h.outside
  silent name hwaits := h.silent name (hpending name hwaits)

theorem Stranger.of_badges_eq (h : w.Stranger g) (hnumbered : w'.Numbered)
    (hbadges : w'.badges = w.badges) (hindex : w'.lobby.index[g]? = w.lobby.index[g]?)
    (hpending : ∀ name, .hangUp g name ∈ w'.queue.pending → .hangUp g name ∈ w.queue.pending) :
    w'.Stranger g := by
  refine h.of_badges hnumbered ?_ hindex hpending
  intro p b' hb' hid
  rw [hbadges] at hb'
  exact .inr ⟨b', hb', hid, rfl⟩

theorem Stranger.quiet (h : w.Stranger g) (hquiet : Quiet w w') : w'.Stranger g := by
  apply h.of_badges_eq
  · exact (kept_numbered fun _ _ => True).quiet hquiet h.numbered
  · exact hquiet.badges
  · rw [hquiet.index]
  · intro name hwaits
    rwa [hquiet.queue] at hwaits

theorem mem_offerAll_iff {q : CommandQueue} {commands : List Command} {c : Command}
    (hc : c ∈ (q.offerAll commands).pending) : c ∈ q.pending ∨ c ∈ commands := by
  unfold CommandQueue.offerAll at hc
  split at hc
  · exact List.mem_append.mp hc
  · exact .inl hc

theorem Stranger.enqueue (h : w.Stranger g) (id : SessionId) (requests : List Request) :
    (w.enqueue id requests).Stranger g := by
  apply h.of_badges_eq
  · exact h.numbered
  · rfl
  · rfl
  · intro name hwaits
    rcases mem_offerAll_iff hwaits with hold | hnew
    · exact hold
    · simp at hnew

theorem Stranger.withGateway (h : w.Stranger g) (gateway : Gateway) :
    ({ w with gateway } : World).Stranger g :=
  h.of_badges_eq h.numbered rfl rfl fun _ hwaits => hwaits

theorem Stranger.withDirectory (h : w.Stranger g) {directory : Directory}
    (hfewer : ∀ {id : SessionId} {place : Place}, directory.find? id = some place →
      w.directory.find? id = some place) : ({ w with directory } : World).Stranger g := by
  apply h.of_badges_eq
  · exact h.numbered.of_ids rfl hfewer
  · rfl
  · rfl
  · exact fun _ hwaits => hwaits

theorem Stranger.connect (h : w.Stranger g) (capacity : Nat) :
    (w.connect capacity).2.Stranger g := by
  refine h.of_badges (h.numbered.connect capacity) ?_ rfl fun _ hwaits => hwaits
  intro p b' hb' hid
  rcases badges_connect_cases hb' with hold | ⟨-, rfl⟩
  · exact .inr ⟨b', hold, hid, rfl⟩
  · exact .inl rfl

/-- Whoever closes without a name leaves nothing behind. -/
theorem Stranger.disconnect (h : w.Stranger g) (place : Place) :
    (w.disconnect place).2.Stranger g := by
  refine h.of_badges (h.numbered.disconnect place) ?_ rfl ?_
  · intro p b' hb' hid
    rw [badges_disconnect, List.getElem?_modify] at hb'
    obtain ⟨b, hb, rfl⟩ := Option.map_eq_some_iff.mp hb'
    by_cases hp : place = p
    · rw [if_pos hp] at hid ⊢
      unfold Badge.close at hid ⊢
      split at hid
      · next hclosed =>
        rw [if_pos hclosed]
        exact .inr ⟨b, hb, hid, rfl⟩
      · next hopen =>
        rw [if_neg hopen]
        exact .inl rfl
    · rw [if_neg hp] at hid ⊢
      exact .inr ⟨b, hb, hid, rfl⟩
  · intro name hwaits
    rw [queue_disconnect] at hwaits
    rcases mem_offerAll_iff hwaits with hold | hparting
    · exact hold
    · -- the name would have been somebody's
      unfold partingAt at hparting
      cases hb : w.badges[place]? with
      | none => simp [hb] at hparting
      | some b =>
        rw [hb, Option.map_some, Option.getD_some] at hparting
        have hid : g = b.id := session_of_parting hparting
        have hnobody : b.user = none := unnamed_iff.mp h.nameless place b hb hid.symm
        simp [Badge.parting, hnobody] at hparting

theorem Stranger.dropAll (h : w.Stranger g) : w.dropAll.2.Stranger g := by
  have heach : (w.disconnectEach w.directory.places).Stranger g :=
    keeps_disconnectEach (P := (·.Stranger g)) (fun place hv => hv.disconnect place) h _
  rw [dropAll_eq]
  apply heach.withDirectory
  intro id place hplace
  simp [Directory.clear, Directory.find?] at hplace

theorem Stranger.ask_other (h : w.Stranger g) {c : Command} (hne : c.session ≠ g) :
    (w.next (.ask c)).Stranger g := by
  apply h.of_badges_eq
  · exact h.numbered
  · rfl
  · rfl
  · intro name hwaits
    rw [World.next, CommandQueue.offer_eq_offerAll] at hwaits
    rcases mem_offerAll_iff hwaits with hold | hnew
    · exact hold
    · rw [← List.mem_singleton.mp hnew] at hne
      exact absurd rfl hne

theorem Stranger.dequeue (h : w.Stranger g) (c : Command) : (w.dequeue c).Stranger g :=
  h.of_badges_eq h.numbered rfl rfl fun _ hwaits => List.mem_of_mem_erase hwaits

/-! ### What others ask for -/

theorem index_join {l l' : Lobby} {s : Session} {room : RoomId} {a : Arrival}
    (hok : l.join place s room = .ok (a, l')) (hne : s.id ≠ g) : l'.index[g]? = l.index[g]? := by
  have hsettled : ∀ r : Room, ((l.leave s.id).1.settle place s r).index[g]? = l.index[g]? := by
    intro r
    rw [Lobby.index_settle, if_neg (Ne.symm hne), Lobby.index_leave, if_neg (Ne.symm hne)]
  unfold Lobby.join at hok
  split at hok
  · cases hok
  · split at hok
    · cases hok
      rfl
    · split at hok
      · cases hok
      · dsimp only at hok
        split at hok
        · cases hok
          exact hsettled _
        · cases hok
          exact hsettled _

theorem index_openRoom {l l' : Lobby} {s : Session} {title : String} {a : Arrival}
    (hok : l.openRoom place s title = .ok (a, l')) (hne : s.id ≠ g) :
    l'.index[g]? = l.index[g]? := by
  unfold Lobby.openRoom at hok
  split at hok
  · cases hok
  · cases hok
    have hleft : (l.leave s.id).1.index[g]? = l.index[g]? :=
      (Lobby.index_leave g).trans (if_neg (Ne.symm hne))
    exact ((Lobby.index_settle g).trans (if_neg (Ne.symm hne))).trans hleft

/-- A move from room to room by somebody who is logged in. -/
theorem Stranger.withLobby (h : w.Stranger g) {lobby : Lobby}
    (hbadges : lobby.sessions.map Session.badge = w.lobby.sessions.map Session.badge)
    (hindex : lobby.index[g]? = w.lobby.index[g]?) : (w.withLobby lobby).Stranger g := by
  apply h.of_badges_eq
  · have hids := congrArg (List.map Badge.id) hbadges
    rw [List.map_map, List.map_map] at hids
    exact h.numbered.of_ids hids fun hplace => hplace
  · exact hbadges
  · exact hindex
  · exact fun _ hwaits => hwaits

theorem Stranger.leave (h : w.Stranger g) (id : SessionId) :
    (w.withLobby (w.lobby.leave id).1).Stranger g := by
  apply h.withLobby (w.lobby.map_badge_leave id)
  rw [Lobby.index_leave]
  split
  · exact h.outside.symm
  · rfl

theorem Stranger.leaveRoom (h : w.Stranger g) (id : SessionId) : (w.leaveRoom id).Stranger g :=
  (h.leave id).quiet (quiet_announce ..)

theorem Stranger.unname (h : w.Stranger g) (id : SessionId) (carried : Option String) :
    (w.unname id carried).1.Stranger g := by
  obtain ⟨sessions, hunname, hseats⟩ := w.unname_fst id carried
  have hids : sessions.map Session.id = w.sessions.map Session.id := by
    have hfirst := congrArg (List.map Prod.fst) hseats
    rwa [List.map_map, List.map_map] at hfirst
  apply h.of_badges
  · rw [hunname]
    exact h.numbered.of_ids hids find?_of_erase
  · intro p b' hb' hid
    rw [badges_unname] at hb'
    obtain ⟨b, hb, rfl⟩ := Option.map_eq_some_iff.mp hb'
    split at hid
    · next htaken =>
      rw [if_pos htaken]
      exact .inl rfl
    · next hkept =>
      rw [if_neg hkept]
      exact .inr ⟨b, hb, hid, rfl⟩
  · rw [hunname]
    rfl
  · intro name hwaits
    rwa [hunname] at hwaits

theorem Stranger.logout (h : w.Stranger g) (id : SessionId) (carried : Option String) :
    (w.logout id carried).Stranger g := by
  have hleft := (h.unname id carried).leaveRoom id
  have hreleased : (((w.unname id carried).1.leaveRoom id).release
      (w.unname id carried).2).Stranger g := by
    cases (w.unname id carried).2 with
    | none => exact hleft
    | some username => exact hleft.withGateway _
  rw [logout_eq]
  cases w.directory.find? id with
  | none => exact hreleased
  | some place => exact hreleased.disconnect place

/-- Somebody else is logged in. -/
theorem Stranger.loggedIn (h : w.Stranger g) {s : Session} (hs : w.sessions[place]? = some s)
    (hne : s.id ≠ g) (username : String) : (w.modify place (·.login username)).Stranger g := by
  refine h.of_badges ?_ ?_ rfl fun _ hwaits => hwaits
  · exact h.numbered.of_ids (Sessions.map_modify_of_eq fun _ _ => rfl) fun hplace => hplace
  · intro p b' hb' hid
    rw [badges_login, List.getElem?_modify] at hb'
    obtain ⟨b, hb, rfl⟩ := Option.map_eq_some_iff.mp hb'
    by_cases hp : place = p
    · subst hp
      rw [if_pos rfl] at hid
      obtain rfl := Option.some.inj ((badges_eq_some.mpr ⟨s, hs, rfl⟩).symm.trans hb)
      exact absurd hid hne
    · rw [if_neg hp] at hid ⊢
      exact .inr ⟨b, hb, hid, rfl⟩

theorem Stranger.effect (h : w.Stranger g) {r : Request} (heffect : Effect w id r w')
    (hne : id ≠ g) : w'.Stranger g := by
  cases heffect with
  | quiet done => exact h.quiet done
  | @login place s username gateway _ found isOpen nobody offline marked done =>
    obtain ⟨-, hs⟩ := find?_eq_some.mp found
    have hother : s.id ≠ g := (h.numbered.find? found).symm ▸ hne
    exact ((h.withGateway gateway).loggedIn hs hother username).quiet done
  | join found somebody joined done =>
    have hother : _ ≠ g := (h.numbered.find? found).symm ▸ hne
    exact (h.withLobby (Lobby.map_badge_join joined) (index_join joined hother)).quiet done
  | openRoom found somebody opened done =>
    have hother : _ ≠ g := (h.numbered.find? found).symm ▸ hne
    exact (h.withLobby (Lobby.map_badge_openRoom opened) (index_openRoom opened hother)).quiet done
  | leave done => exact (h.leave id).quiet done
  | logout asked => exact h.logout id none

theorem Stranger.execute_other (h : w.Stranger g) {c : Command} (hne : c.session ≠ g) :
    (w.execute c).Stranger g := by
  cases c with
  | hangUp id username => exact h.logout id (some username)
  | request id r => exact h.effect (w.answer_effect id r) hne

/-! ### What a stranger asks for -/

/-- Whoever is in no room leaves none. -/
theorem leaveRoom_of_index_none (hi : w.lobby.index[id]? = none) : w.leaveRoom id = w := by
  simp only [World.leaveRoom, Lobby.leave_of_index_none hi]
  rfl

/-- A request has come to an answer to whoever asked, if to anything. -/
def OnlyAnswered (w : World) (g : SessionId) (w' : World) : Prop :=
  ∃ gateway, w.gateway.Alike gateway ∧
    (w' = { w with gateway } ∨
      ∃ place r, w.directory.find? g = some place ∧
        w' = ({ w with gateway } : World).send place r)

theorem onlyAnswered_refl (w : World) (g : SessionId) : OnlyAnswered w g w :=
  ⟨w.gateway, .refl _, .inl rfl⟩

theorem onlyAnswered_send (hplace : w.directory.find? g = some place) (r : Response) :
    OnlyAnswered w g (w.send place r) := ⟨w.gateway, .refl _, .inr ⟨place, r, hplace, rfl⟩⟩

theorem OnlyAnswered.alike (h : OnlyAnswered w g w') (hnumbered : w.Numbered) : Alike g w w' := by
  obtain ⟨gateway, hgateway, rfl | ⟨place, r, hplace, rfl⟩⟩ := h
  · exact (Alike.refl g w).withGateway hgateway
  · have hmarked : Alike g w { w with gateway } := (Alike.refl g w).withGateway hgateway
    have hown : ∀ s, ({ w with gateway } : World).sessions[place]? = some s → s.id = g :=
      fun s hs => hnumbered.own hplace hs
    exact hmarked.trans (alike_send_own hown r)

theorem OnlyAnswered.quiet (h : OnlyAnswered w g w') : Quiet w w' := by
  obtain ⟨gateway, hgateway, hw'⟩ := h
  have hmarked : Quiet w { w with gateway } := w.quiet_withGateway hgateway.isOnline
  rcases hw' with rfl | ⟨place, r, -, rfl⟩
  · exact hmarked
  · exact hmarked.trans (quiet_send ..)

theorem Stranger.nobody (h : w.Stranger g) {s : Session} (hfind : w.find? g = some (place, s)) :
    s.user = none := by
  obtain ⟨-, hs⟩ := find?_eq_some.mp hfind
  exact h.nameless s (List.mem_of_getElem? hs) (h.numbered.find? hfind)

theorem Stranger.not_loggedIn (h : w.Stranger g) {s : Session}
    (hfind : w.find? g = some (place, s)) : ¬ s.loggedIn = true := by
  simp [Session.loggedIn, h.nobody hfind]

/-- A login that fails has marked no name, or has given it back. -/
theorem Stranger.login (h : w.Stranger g) {username password : String}
    (hfails : (w.login g username password).Unnamed g) :
    OnlyAnswered w g (w.login g username password) := by
  cases hfind : w.find? g with
  | none =>
    simp only [World.login, hfind]
    exact onlyAnswered_refl w g
  | some found =>
    obtain ⟨place, s⟩ := found
    obtain ⟨hplace, hs⟩ := find?_eq_some.mp hfind
    have hrefused : OnlyAnswered w g (w.refuseLogin place) := onlyAnswered_send hplace _
    rw [unnamed_iff] at hfails
    simp only [World.login, hfind, if_neg (h.not_loggedIn hfind)] at hfails ⊢
    cases hauth : w.gateway.authenticate username password with
    | none => exact hrefused
    | some user =>
      rw [hauth] at hfails
      dsimp only at hfails ⊢
      rcases hadd : w.gateway.addPresence username with ⟨added, gateway⟩
      rw [hadd] at hfails
      cases added with
      | false =>
        exact ⟨gateway, Gateway.alike_addPresence_refused hadd, .inr ⟨place, _, hplace, rfl⟩⟩
      | true =>
        dsimp only at hfails ⊢
        split at hfails
        · next hclosed =>
          rw [if_pos hclosed]
          exact ⟨_, Gateway.alike_add_remove hadd, .inl rfl⟩
        · -- it would have been logged in
          have hbadges : (({ w with gateway }.modify place (·.login username)).send place
              (.loginResult true user)).badges =
                w.badges.modify place fun b => { b with user := some username } :=
            (quiet_send ..).badges.trans (badges_login { w with gateway } place username)
          have hbadge : w.badges[place]? = some s.badge := badges_eq_some.mpr ⟨s, hs, rfl⟩
          have hnamed := hfails place { s.badge with user := some username }
          rw [hbadges, List.getElem?_modify_eq, hbadge] at hnamed
          cases hnamed rfl (h.numbered.find? hfind)

/-- Nothing comes of what a stranger asks for. -/
theorem Stranger.answer (h : w.Stranger g) {r : Request}
    (hregister : ∀ username password, r ≠ .register username password) (hlogout : r ≠ .logout)
    (hlogin : ∀ username password, r = .login username password →
      (w.login g username password).Unnamed g) :
    OnlyAnswered w g (w.answer g r) := by
  cases r with
  | register username password => exact absurd rfl (hregister username password)
  | logout => exact absurd rfl hlogout
  | login username password => exact h.login (hlogin username password rfl)
  | enterRoom room =>
    unfold World.answer World.enterRoom
    dsimp only
    split
    · exact onlyAnswered_refl w g
    · next place s hfind =>
      rw [if_neg (h.not_loggedIn hfind)]
      exact onlyAnswered_send (find?_eq_some.mp hfind).1 _
  | createRoom title =>
    unfold World.answer World.createRoom
    dsimp only
    split
    · exact onlyAnswered_refl w g
    · next place s hfind =>
      rw [if_neg (h.not_loggedIn hfind)]
      exact onlyAnswered_send (find?_eq_some.mp hfind).1 _
  | leaveRoom =>
    have hstays : w.answer g .leaveRoom = w := leaveRoom_of_index_none h.outside
    rw [hstays]
    exact onlyAnswered_refl w g
  | move vx vy =>
    have hstill : w.answer g (.move vx vy) = w := by
      simp [World.answer, World.move, Lobby.steer?, h.outside]
    rw [hstill]
    exact onlyAnswered_refl w g
  | chat message =>
    have hunheard : w.answer g (.chat message) = w := by
      simp [World.answer, World.chat, Lobby.roomOf, h.outside]
    rw [hunheard]
    exact onlyAnswered_refl w g
  | listRooms =>
    unfold World.answer World.listRooms World.reply
    dsimp only
    split
    · exact onlyAnswered_refl w g
    · next place hplace => exact onlyAnswered_send hplace _

/-- A stranger that logs out is forgotten and closed, and gives no name back. -/
theorem Stranger.alike_logout (h : w.Stranger g) : Alike g w (w.logout g none) := by
  have hnameless : (w.unname g none).2 = none := by
    rw [unname_snd, Option.none_or]
    cases hfind : w.find? g with
    | none => rfl
    | some found => exact h.nobody hfind
  have hstays : (w.unname g none).1.leaveRoom g = (w.unname g none).1 :=
    leaveRoom_of_index_none (h.unname g none).outside
  rw [logout_eq, hnameless, hstays]
  have hforgotten := alike_forget_own w g
  cases hplace : w.directory.find? g with
  | none =>
    simp only [World.unname, hplace]
    exact hforgotten
  | some place =>
    obtain ⟨s, hs, hid⟩ := h.numbered g place hplace
    have hfound : (w.forget g).sessions[place]? = some s := hs
    simp only [World.unname, hplace, takeName, hfound]
    have hunnamed : Alike g (w.forget g) ((w.forget g).modify place fun _ => s.logout.1) := by
      apply alike_modify_own
      intro t ht
      exact ⟨h.numbered.own hplace ht, hid⟩
    apply (hforgotten.trans hunnamed).trans
    apply alike_disconnect_own
    intro t ht
    have ht' : ((w.forget g).sessions.modify place fun _ => s.logout.1)[place]? = some t := ht
    rw [List.getElem?_modify_eq, hfound] at ht'
    obtain rfl := Option.some.inj ht'
    exact hid

end World

end GameServer
