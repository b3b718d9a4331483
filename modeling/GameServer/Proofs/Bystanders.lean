import GameServer.Proofs.Outside

/-!
What happens to others happens alike.

Two worlds that differ in the affairs of one number at most are taken through the same events and
the same commands of everybody else.  Each reads and writes only what is the same in both, so they
stay alike; and what happens to a session of that number is seen by nobody.
-/

namespace GameServer

open Wire

namespace World

/-- Two worlds agree in all that does not belong to a number. -/
structure Alike (g : SessionId) (w w' : World) : Prop where
  lobby : w.lobby.Alike g w'.lobby
  found : ∀ id, id ≠ g → w'.directory.find? id = w.directory.find? id
  nextId : w'.directory.nextId = w.directory.nextId
  queue : w.queue.Alike g w'.queue
  gateway : w.gateway.Alike w'.gateway
  tolerant : w'.tolerant = w.tolerant

variable {g id : SessionId} {w w' w'' : World} {place : Place}

theorem Alike.refl (g : SessionId) (w : World) : Alike g w w where
  lobby := ⟨rfl, .refl g _⟩
  found _ _ := rfl
  nextId := rfl
  queue := ⟨rfl, rfl⟩
  gateway := .refl _
  tolerant := rfl

theorem Alike.symm (h : Alike g w w') : Alike g w' w where
  lobby := ⟨h.lobby.floor.symm, h.lobby.sessions.symm⟩
  found id hne := (h.found id hne).symm
  nextId := h.nextId.symm
  queue := ⟨h.queue.live.symm, h.queue.pending.symm⟩
  gateway := h.gateway.symm
  tolerant := h.tolerant.symm

theorem Alike.trans (h : Alike g w w') (h' : Alike g w' w'') : Alike g w w'' where
  lobby := ⟨h'.lobby.floor.trans h.lobby.floor, h.lobby.sessions.trans h'.lobby.sessions⟩
  found id hne := (h'.found id hne).trans (h.found id hne)
  nextId := h'.nextId.trans h.nextId
  queue := ⟨h'.queue.live.trans h.queue.live, h'.queue.pending.trans h.queue.pending⟩
  gateway := h.gateway.trans h'.gateway
  tolerant := h'.tolerant.trans h.tolerant

/-- Everybody else is found where they were, as they were. -/
theorem Alike.find? (h : Alike g w w') (hnumbered : w.Numbered) (hne : id ≠ g) :
    w'.find? id = w.find? id := by
  cases hplace : w.directory.find? id with
  | none => simp [World.find?, hplace, h.found id hne]
  | some place =>
    obtain ⟨s, hs, rfl⟩ := hnumbered id place hplace
    have hs' := h.lobby.sessions.at hs hne
    rw [find?_eq_some.mpr ⟨hplace, hs⟩, find?_eq_some]
    exact ⟨(h.found _ hne).trans hplace, hs'⟩

/-! ### Small steps -/

theorem Alike.withLobby (h : Alike g w w') {l l' : Lobby} (hlobby : l.Alike g l') :
    Alike g (w.withLobby l) (w'.withLobby l') :=
  ⟨hlobby, h.found, h.nextId, h.queue, h.gateway, h.tolerant⟩

theorem Alike.withSessions (h : Alike g w w') {sessions others : List Session}
    (hsessions : Sessions.Alike g sessions others) :
    Alike g (w.withSessions sessions) (w'.withSessions others) :=
  h.withLobby ⟨h.lobby.floor, hsessions⟩

theorem Alike.withGateway (h : Alike g w w') {gateway gateway' : Gateway}
    (hgateway : gateway.Alike gateway') : Alike g { w with gateway } { w' with gateway := gateway' } :=
  ⟨h.lobby, h.found, h.nextId, h.queue, hgateway, h.tolerant⟩

theorem Alike.withQueue (h : Alike g w w') {queue queue' : CommandQueue}
    (hqueue : queue.Alike g queue') : Alike g { w with queue } { w' with queue := queue' } :=
  ⟨h.lobby, h.found, h.nextId, hqueue, h.gateway, h.tolerant⟩

theorem Alike.modify {f f' : Session → Session} (h : Alike g w w')
    (hown : ∀ s, w.sessions[place]? = some s → s.id = g → (f s).id = g)
    (hown' : ∀ t, w'.sessions[place]? = some t → t.id = g → (f' t).id = g)
    (hsame : ∀ s, w.sessions[place]? = some s → s.id ≠ g → f' s = f s) :
    Alike g (w.modify place f) (w'.modify place f') :=
  h.withSessions (h.lobby.sessions.modify hown hown' hsame)

theorem Alike.send (h : Alike g w w') (place : Place) (r : Response) :
    Alike g (w.send place r) (w'.send place r) := h.withSessions (h.lobby.sessions.send place r)

theorem Alike.announce (h : Alike g w w') (d : Option Departure) :
    Alike g (w.announce d) (w'.announce d) := by
  cases d with
  | none => exact h
  | some d => exact h.withLobby (h.lobby.broadcast d.remaining _)

theorem Alike.retell (h : Alike g w w') (place : Place) (room : RoomId) :
    Alike g (w.retell place room) (w'.retell place room) := by
  unfold World.retell
  rw [h.gateway.history room]
  generalize (w.gateway.history room).reverse = lines
  induction lines generalizing w w' with
  | nil => exact h
  | cons line rest ih => exact ih (h.send place _)

theorem Alike.forget (h : Alike g w w') (id : SessionId) :
    Alike g (w.forget id) (w'.forget id) := by
  refine ⟨h.lobby, ?_, h.nextId, h.queue, h.gateway, h.tolerant⟩
  intro other hne
  have hfound := h.found other hne
  simp only [World.forget, Directory.find?_erase, hfound]

theorem session_of_parting {b : Badge} {c : Command} (hc : c ∈ b.parting) : c.session = b.id := by
  unfold Badge.parting at hc
  split at hc
  · cases hc
  · rw [Option.mem_toList] at hc
    obtain ⟨username, -, rfl⟩ := Option.map_eq_some_iff.mp hc
    rfl

/-- Whoever closes leaves a command of their own in the queue at most. -/
theorem session_of_partingAt {s : Session} (hs : w.sessions[place]? = some s) {c : Command}
    (hc : c ∈ w.partingAt place) : c.session = s.id := by
  have hbadge : w.badges[place]? = some s.badge := badges_eq_some.mpr ⟨s, hs, rfl⟩
  rw [partingAt, hbadge] at hc
  exact session_of_parting hc

theorem Alike.disconnect (h : Alike g w w') (place : Place) :
    Alike g (w.disconnect place).2 (w'.disconnect place).2 := by
  have hclosed := h.lobby.sessions.disconnect place w.queue w'.queue
  have hqueue : (w.disconnect place).2.queue.Alike g (w'.disconnect place).2.queue := by
    rw [queue_disconnect, queue_disconnect]
    apply h.queue.offerAll
    rcases h.lobby.sessions place with hsame | ⟨s, t, hs, ht, hown, hown'⟩
    · have hplace : w'.sessions[place]? = w.sessions[place]? := hsame
      simp only [partingAt, badges, List.getElem?_map, hplace]
    · rw [CommandQueue.filter_of_own fun c hc => (session_of_partingAt ht hc).trans hown',
        CommandQueue.filter_of_own fun c hc => (session_of_partingAt hs hc).trans hown]
  exact (h.withQueue hqueue).withSessions hclosed

theorem Alike.drop (h : Alike g w w') (place : Place) (id : SessionId) :
    Alike g (w.drop place id) (w'.drop place id) := (h.disconnect place).forget id

/-! ### What is not seen -/

theorem alike_modify_own {f : Session → Session}
    (hown : ∀ s, w.sessions[place]? = some s → s.id = g ∧ (f s).id = g) :
    Alike g w (w.modify place f) :=
  (Alike.refl g w).withSessions (Sessions.alike_modify_own hown)

theorem alike_send_own (hown : ∀ s, w.sessions[place]? = some s → s.id = g) (r : Response) :
    Alike g w (w.send place r) :=
  (Alike.refl g w).withSessions (Sessions.alike_send_own hown r)

theorem alike_enqueue_own {commands : List Command} (hown : ∀ c ∈ commands, c.session = g) :
    Alike g w { w with queue := w.queue.offerAll commands } := by
  refine (Alike.refl g w).withQueue ?_
  have hnothing : w.queue.offerAll [] = w.queue := w.queue.offerAll_nil
  have hqueue : (w.queue.offerAll []).Alike g (w.queue.offerAll commands) :=
    CommandQueue.Alike.offerAll ⟨rfl, rfl⟩ (by rw [CommandQueue.filter_of_own hown, List.filter_nil])
  rwa [hnothing] at hqueue

theorem alike_forget_own (w : World) (g : SessionId) : Alike g w (w.forget g) := by
  refine ⟨⟨rfl, .refl g _⟩, ?_, rfl, ⟨rfl, rfl⟩, .refl _, rfl⟩
  intro id hne
  exact (Directory.find?_erase ..).trans (if_neg hne)

theorem alike_disconnect_own (hown : ∀ s, w.sessions[place]? = some s → s.id = g) :
    Alike g w (w.disconnect place).2 := by
  have hqueued : Alike g w { w with queue := w.queue.offerAll (w.partingAt place) } := by
    apply alike_enqueue_own
    intro c hc
    cases hs : w.sessions[place]? with
    | none => simp [partingAt, badges, hs] at hc
    | some s => exact (session_of_partingAt hs hc).trans (hown s hs)
  rw [← queue_disconnect] at hqueued
  have hclosed := (Alike.refl g { w with queue := (w.disconnect place).2.queue }).withSessions
    (Sessions.alike_disconnect_own hown w.queue)
  exact hqueued.trans hclosed

theorem alike_drop_own (hown : ∀ s, w.sessions[place]? = some s → s.id = g) :
    Alike g w (w.drop place g) := (alike_disconnect_own hown).trans (alike_forget_own _ g)

theorem alike_reply_own (hnumbered : w.Numbered) (r : Response) : Alike g w (w.reply g r) := by
  unfold reply
  split
  · exact .refl g w
  · next place hplace => exact alike_send_own (fun s hs => hnumbered.own hplace hs) r

/-- Whoever is answered is answered alike, or it is not seen. -/
theorem Alike.reply (h : Alike g w w') (hnumbered : w.Numbered) (hnumbered' : w'.Numbered)
    (id : SessionId) (r : Response) : Alike g (w.reply id r) (w'.reply id r) := by
  by_cases hid : id = g
  · subst hid
    exact ((alike_reply_own hnumbered r).symm.trans h).trans (alike_reply_own hnumbered' r)
  · unfold World.reply
    rw [h.found id hid]
    split
    · exact h
    · exact h.send _ r

/-- A registration waits in both, or is refused in both. -/
theorem Alike.register (h : Alike g w w') (hnumbered : w.Numbered) (hnumbered' : w'.Numbered)
    (id : SessionId) (username password : String) :
    Alike g (w.register id username password) (w'.register id username password) := by
  unfold World.register
  rcases h.gateway.post (.register id username password) with
    ⟨hnone, hnone'⟩ | ⟨gateway, gateway', hsome, hsome', hgateway⟩
  · rw [hnone, hnone']
    exact h.reply hnumbered hnumbered' id _
  · rw [hsome, hsome']
    exact h.withGateway hgateway

/-! ### What everybody else asks for -/

section Others

variable (hne : id ≠ g)

include hne

theorem Alike.login (h : Alike g w w') (hnumbered : w.Numbered) (username password : String) :
    Alike g (w.login id username password) (w'.login id username password) := by
  have hauth : w'.gateway.authenticate username password =
      w.gateway.authenticate username password := by
    obtain ⟨sets, heq, -⟩ := h.gateway
    rw [heq]
    rfl
  obtain ⟨hadded, hgateway⟩ := h.gateway.addPresence username
  unfold World.login
  rw [h.find? hnumbered hne, hauth]
  split
  · exact h
  · next place s _ =>
    have hrefused := h.send place (.loginResult false 0)
    split
    · exact hrefused
    · split
      · exact hrefused
      · next user _ =>
        revert hadded hgateway
        rcases w.gateway.addPresence username with ⟨added, gateway⟩
        rcases w'.gateway.addPresence username with ⟨added', gateway'⟩
        intro hadded hgateway
        obtain rfl : added' = added := hadded
        have hmarked : Alike g { w with gateway } { w' with gateway := gateway' } :=
          h.withGateway hgateway
        cases added' with
        | false => exact hmarked.send place (.loginResult false 0)
        | true =>
          dsimp only
          split
          · exact h.withGateway (Gateway.Alike.removePresence hgateway username)
          · refine Alike.send ?_ place (.loginResult true user)
            apply hmarked.modify
            · exact fun s _ hown => hown
            · exact fun s _ hown => hown
            · exact fun s _ _ => rfl

theorem Alike.enterRoom (h : Alike g w w') (hnumbered : w.Numbered) (room : RoomId) :
    Alike g (w.enterRoom id room) (w'.enterRoom id room) := by
  unfold World.enterRoom
  rw [h.find? hnumbered hne]
  split
  · exact h
  · next place s _ =>
    split
    · have hjoin := h.lobby.join place s room
      revert hjoin
      generalize w.lobby.join place s room = joined
      generalize w'.lobby.join place s room = joined'
      rintro (fault | ⟨a, hlobby⟩)
      · cases fault with
        | roomFull => exact h.send place _
        | sessionClosed => exact h
      · exact (((h.withLobby hlobby).announce a.left).send place _).retell place room
    · exact h.send place _

theorem Alike.createRoom (h : Alike g w w') (hnumbered : w.Numbered) (title : String) :
    Alike g (w.createRoom id title) (w'.createRoom id title) := by
  have htitle : w'.titleFor title = w.titleFor title := by
    rw [titleFor, titleFor, h.lobby.settings]
  unfold World.createRoom
  rw [h.find? hnumbered hne, htitle]
  split
  · exact h
  · next place s _ =>
    split
    · have hopened := h.lobby.openRoom place s (w.titleFor title)
      revert hopened
      generalize w.lobby.openRoom place s (w.titleFor title) = opened
      generalize w'.lobby.openRoom place s (w.titleFor title) = opened'
      rintro (fault | ⟨a, hlobby⟩)
      · exact h
      · exact ((h.withLobby hlobby).announce a.left).send place _
    · exact h.send place _

omit hne in
theorem Alike.listRooms (h : Alike g w w') (hnumbered : w.Numbered) (hnumbered' : w'.Numbered)
    (id : SessionId) : Alike g (w.listRooms id) (w'.listRooms id) := by
  have hentries : w'.roomEntries = w.roomEntries := by
    rw [roomEntries, roomEntries, h.lobby.eq Lobby.listing fun _ => rfl]
  unfold World.listRooms
  rw [hentries]
  exact h.reply hnumbered hnumbered' id _

theorem Alike.chat (h : Alike g w w') (hnumbered : w.Numbered) (message : String) :
    Alike g (w.chat id message) (w'.chat id message) := by
  have hsame : w'.utterance? id message = w.utterance? id message := by
    rw [utterance?, utterance?, Lobby.roomOf, Lobby.roomOf, h.lobby.index, h.find? hnumbered hne]
  cases hu : w.utterance? id message with
  | none =>
    rw [chat_of_none hu, chat_of_none (hsame.trans hu)]
    exact h
  | some u =>
    rw [chat_of_some hu, chat_of_some (hsame.trans hu)]
    have hmembers : w'.lobby.members u.room = w.lobby.members u.room :=
      h.lobby.eq (·.members u.room) fun _ => rfl
    have hheard := h.withLobby (h.lobby.broadcast (w.lobby.members u.room) u.response)
    unfold utter
    rw [hmembers]
    refine hheard.withGateway ?_
    have hremembered := h.gateway.remember u.room u.username u.message
    rcases hremembered.post (.saveChat u) with
      ⟨hnone, hnone'⟩ | ⟨gateway, gateway', hsome, hsome', hposted⟩
    · rw [hnone, hnone']
      exact hremembered
    · rw [hsome, hsome']
      exact hposted

omit hne in
theorem Alike.leaveRoom (h : Alike g w w') (id : SessionId) :
    Alike g (w.leaveRoom id) (w'.leaveRoom id) := by
  obtain ⟨hleft, hdeparture⟩ := h.lobby.leave id
  unfold World.leaveRoom
  dsimp only
  rw [hdeparture]
  exact (h.withLobby hleft).announce _

omit hne in
theorem Alike.move (h : Alike g w w') (id : SessionId) (vx vy : Single) :
    Alike g (w.move id vx vy) (w'.move id vx vy) := by
  unfold World.move
  rcases h.lobby.steer? id vx vy with ⟨hnone, hnone'⟩ | ⟨moved, moved', hsome, hsome', hmoved⟩
  · rw [hnone, hnone']
    exact h
  · rw [hsome, hsome']
    exact h.withLobby hmoved

theorem Alike.unname (h : Alike g w w') (hnumbered : w.Numbered) (carried : Option String) :
    Alike g (w.unname id carried).1 (w'.unname id carried).1 ∧
      (w'.unname id carried).2 = (w.unname id carried).2 := by
  refine ⟨?_, by rw [unname_snd, unname_snd, h.find? hnumbered hne]⟩
  have hforgotten := h.forget id
  unfold World.unname
  rw [h.found id hne]
  cases carried with
  | some username => exact hforgotten
  | none =>
    cases hplace : w.directory.find? id with
    | none => exact hforgotten
    | some place =>
      obtain ⟨s, hs, rfl⟩ := hnumbered id place hplace
      have hs' := h.lobby.sessions.at hs hne
      have hfound : (w.forget s.id).sessions[place]? = some s := hs
      have hfound' : (w'.forget s.id).sessions[place]? = some s := hs'
      simp only [takeName, hfound, hfound']
      apply hforgotten.modify
      · intro t ht hown
        exact absurd (Option.some.inj (hfound.symm.trans ht) ▸ hown) hne
      · intro t ht hown
        exact absurd (Option.some.inj (hfound'.symm.trans ht) ▸ hown) hne
      · exact fun _ _ _ => rfl

omit hne in
theorem Alike.release (h : Alike g w w') (username : Option String) :
    Alike g (w.release username) (w'.release username) := by
  cases username with
  | none => exact h
  | some username => exact h.withGateway (h.gateway.removePresence username)

theorem Alike.logout (h : Alike g w w') (hnumbered : w.Numbered) (carried : Option String) :
    Alike g (w.logout id carried) (w'.logout id carried) := by
  obtain ⟨hunnamed, hname⟩ := h.unname hne hnumbered carried
  have hreleased := (hunnamed.leaveRoom id).release (w.unname id carried).2
  rw [logout_eq, logout_eq, hname, h.found id hne]
  cases w.directory.find? id with
  | none => exact hreleased
  | some place => exact hreleased.disconnect place

omit hne in
/-- **Whatever somebody else asks for is done alike.** -/
theorem Alike.execute (h : Alike g w w') (hnumbered : w.Numbered) (hnumbered' : w'.Numbered)
    {c : Command} (hne : c.session ≠ g) : Alike g (w.execute c) (w'.execute c) := by
  cases c with
  | hangUp id username => exact h.logout hne hnumbered (some username)
  | request id r =>
    cases r with
    | register username password => exact h.register hnumbered hnumbered' id username password
    | login username password => exact h.login hne hnumbered username password
    | enterRoom room => exact h.enterRoom hne hnumbered room
    | createRoom title => exact h.createRoom hne hnumbered title
    | chat message => exact h.chat hne hnumbered message
    | listRooms => exact h.listRooms hnumbered hnumbered' id
    | leaveRoom => exact h.leaveRoom id
    | move vx vy => exact h.move id vx vy
    | logout => exact h.logout hne hnumbered none

end Others

end World

/-! ### Bytes -/

/-- What a session makes of bytes depends on the queue only in whether somebody takes commands. -/
theorem Session.receive_congr (s : Session) (tolerant : Bool) (bytes : Bytes) {q q' : CommandQueue}
    (hlive : q'.live = q.live) :
    (s.receive tolerant bytes q').1 = (s.receive tolerant bytes q).1 ∧
      (s.receive tolerant bytes q').2.2 = (s.receive tolerant bytes q).2.2 ∧
      ∃ commands, (s.receive tolerant bytes q).2.1 = q.offerAll commands ∧
        (s.receive tolerant bytes q').2.1 = q'.offerAll commands := by
  unfold receive
  split
  · exact ⟨rfl, rfl, [], q.offerAll_nil.symm, q'.offerAll_nil.symm⟩
  · split
    · exact ⟨rfl, rfl, [], q.offerAll_nil.symm, q'.offerAll_nil.symm⟩
    · next filled _ =>
      unfold ReceiveBuffer.drain
      rw [hlive]
      rcases ReceiveBuffer.drainFor tolerant q.live s.id filled.unread.length filled with
        ⟨rest, commands, _ | fault⟩
      · dsimp only
        split
        · exact ⟨rfl, rfl, commands, rfl, rfl⟩
        · exact ⟨rfl, rfl, commands, rfl, rfl⟩
      · exact ⟨rfl, rfl, commands, rfl, rfl⟩

namespace World

variable {g id : SessionId} {w w' : World} {place : Place} {s : Session}

theorem id_receive (s : Session) (tolerant : Bool) (bytes : Bytes) (q : CommandQueue) :
    (s.receive tolerant bytes q).1.id = s.id :=
  congrArg Standing.id (s.standing_receive tolerant bytes q)

theorem alike_hear_own (hown : ∀ s, w.sessions[place]? = some s → s.id = g) (bytes : Bytes) :
    Alike g w (w.hear place bytes) := by
  unfold hear
  cases hs : w.sessions[place]? with
  | none => exact .refl g w
  | some s =>
    obtain ⟨requests, hqueue⟩ := s.receive_requests w.tolerant bytes w.queue
    dsimp only
    rw [hqueue]
    have hqueued : Alike g w
        { w with queue := w.queue.offerAll (requests.map (.request s.id)) } := by
      apply alike_enqueue_own
      intro c hc
      obtain ⟨request, -, rfl⟩ := List.mem_map.mp hc
      exact hown s hs
    apply hqueued.trans
    apply alike_modify_own
    intro t ht
    rw [id_receive]
    exact ⟨hown t ht, hown s hs⟩

theorem Alike.hear (h : Alike g w w') (place : Place) (bytes : Bytes) :
    Alike g (w.hear place bytes) (w'.hear place bytes) := by
  by_cases hown : ∀ s, w.sessions[place]? = some s → s.id = g
  · have hown' : ∀ t, w'.sessions[place]? = some t → t.id = g := by
      intro t ht
      by_contra hne
      exact hne (hown t (h.lobby.sessions.symm.at ht hne))
    exact ((alike_hear_own hown bytes).symm.trans h).trans (alike_hear_own hown' bytes)
  · simp only [not_forall] at hown
    obtain ⟨s, hs, hne⟩ := hown
    have hs' : w'.sessions[place]? = some s := h.lobby.sessions.at hs hne
    obtain ⟨lobby', directory', queue', gateway', tolerant'⟩ := w'
    obtain rfl : tolerant' = w.tolerant := h.tolerant
    obtain ⟨hsame, -, commands, hqueue, hqueue'⟩ :=
      s.receive_congr w.tolerant bytes h.queue.live
    dsimp only at hsame hqueue'
    unfold World.hear
    simp only [hs, hs']
    rw [hqueue, hqueue', hsame]
    have hqueued := h.withQueue (h.queue.offerAll (rfl : commands.filter (·.session ≠ g) = _))
    refine hqueued.modify ?_ ?_ fun _ _ _ => rfl
    · intro t ht hown
      exact absurd (Option.some.inj (hs.symm.trans ht) ▸ hown) hne
    · intro t ht hown
      exact absurd (Option.some.inj (hs'.symm.trans ht) ▸ hown) hne

/-- To receive bytes is to hear them, and to be dropped if they are not in order. -/
theorem receive_eq_hear (hs : w.sessions[place]? = some s) (byte : UInt8) (rest : Bytes) :
    w.receive place s (byte :: rest) =
      match (s.receive w.tolerant (byte :: rest) w.queue).2.2 with
      | .ok _ => w.hear place (byte :: rest)
      | .error _ => (w.hear place (byte :: rest)).drop place s.id := by
  have hid := id_receive s w.tolerant (byte :: rest) w.queue
  unfold receive hear
  simp only [hs]
  rcases hheard : s.receive w.tolerant (byte :: rest) w.queue with ⟨t, queue, outcome⟩
  rw [hheard] at hid
  cases outcome with
  | ok count => rfl
  | error fault =>
    dsimp only at hid ⊢
    rw [hid]

theorem own_of_delivered {letters : List Letter} {others : List Session}
    (hdelivered : Sessions.Delivered letters w.sessions others)
    (hown : ∀ s, w.sessions[place]? = some s → s.id = g) {t : Session}
    (ht : others[place]? = some t) : t.id = g := by
  obtain ⟨s, hs, htook⟩ := hdelivered.from ht
  exact htook.id.trans (hown s hs)

theorem alike_dispatch_own (hnumbered : w.Numbered) {c : Completion} (hc : c.session? = some g) :
    Alike g w (w.dispatch c).2 := by
  unfold dispatch
  rw [hc]
  dsimp only
  split
  · exact .refl g w
  · next place s hfind =>
    obtain ⟨hplace, hs⟩ := find?_eq_some.mp hfind
    have hown : ∀ t, w.sessions[place]? = some t → t.id = g := fun t ht => hnumbered.own hplace ht
    have hid : s.id = g := hown s hs
    cases c with
    | shutdown => exact .refl g w
    | sent session count =>
      apply alike_modify_own
      intro t ht
      exact ⟨hown t ht, (congrArg Standing.id t.standing_sendCompleted).trans (hown t ht)⟩
    | failed session transfer =>
      dsimp only
      rw [hid]
      exact alike_drop_own hown
    | received session bytes =>
      dsimp only
      cases bytes with
      | nil =>
        dsimp only [receive]
        rw [hid]
        exact alike_drop_own hown
      | cons byte rest =>
        have hheard : Alike g w (w.hear place (byte :: rest)) := alike_hear_own hown _
        rw [receive_eq_hear hs, hid]
        split
        · exact hheard
        · apply hheard.trans
          apply alike_drop_own
          intro t ht
          exact own_of_delivered (w.delivered_hear place (byte :: rest)) hown ht

/-- **Whatever the transport reports, it reports to both.** -/
theorem Alike.dispatch (h : Alike g w w') (hnumbered : w.Numbered) (hnumbered' : w'.Numbered)
    (c : Completion) : Alike g (w.dispatch c).2 (w'.dispatch c).2 := by
  cases hc : c.session? with
  | none =>
    unfold World.dispatch
    rw [hc]
    exact h
  | some id =>
    by_cases hid : id = g
    · subst hid
      exact ((alike_dispatch_own hnumbered hc).symm.trans h).trans
        (alike_dispatch_own hnumbered' hc)
    · unfold World.dispatch
      rw [hc]
      dsimp only
      rw [h.find? hnumbered hid]
      split
      · exact h
      · next place s hfind =>
        obtain ⟨-, hs⟩ := find?_eq_some.mp hfind
        have hne : s.id ≠ g := by rwa [hnumbered.find? hfind]
        cases c with
        | shutdown => exact h
        | sent session count =>
          refine h.modify ?_ ?_ fun _ _ _ => rfl
          · exact fun t _ hown => (congrArg Standing.id t.standing_sendCompleted).trans hown
          · exact fun t _ hown => (congrArg Standing.id t.standing_sendCompleted).trans hown
        | failed session transfer => exact h.drop place s.id
        | received session bytes =>
          dsimp only
          cases bytes with
          | nil => exact h.drop place s.id
          | cons byte rest =>
            have hheard := h.hear place (byte :: rest)
            obtain ⟨-, houtcome, -⟩ := s.receive_congr w.tolerant (byte :: rest) h.queue.live
            rw [receive_eq_hear hs, receive_eq_hear (h.lobby.sessions.at hs hne), h.tolerant,
              houtcome]
            split
            · exact hheard
            · exact hheard.drop place s.id

/-! ### Sends that are done -/

theorem numbered_relink (hnumbered : w.Numbered) (place : Place) (link : Link) :
    (w.modify place fun s => { s with link }).Numbered :=
  hnumbered.of_ids (Sessions.map_modify_of_eq fun _ _ => rfl) fun hplace => hplace

theorem alike_completeSend_own (hnumbered : w.Numbered)
    (hown : ∀ s, w.sessions[place]? = some s → s.id = g) : Alike g w (w.completeSend place).2 := by
  unfold completeSend
  cases hs : w.sessions[place]? with
  | none => exact .refl g w
  | some s =>
    have hsent : (Completion.sent s.id 0).session? = some g := congrArg some (hown s hs)
    dsimp only
    split
    · exact alike_dispatch_own hnumbered hsent
    · next link _ =>
      have hrelinked : Alike g w (w.modify place fun s => { s with link }) :=
        alike_modify_own fun t ht => ⟨hown t ht, hown t ht⟩
      exact hrelinked.trans (alike_dispatch_own (numbered_relink hnumbered place link) hsent)

theorem Alike.completeSend (h : Alike g w w') (hnumbered : w.Numbered) (hnumbered' : w'.Numbered)
    (place : Place) : Alike g (w.completeSend place).2 (w'.completeSend place).2 := by
  rcases h.lobby.sessions place with hsame | ⟨s, t, hs, ht, hown, hown'⟩
  · have hplace : w'.sessions[place]? = w.sessions[place]? := hsame
    unfold World.completeSend
    rw [hplace]
    split
    · exact h
    · next s hs =>
      split
      · exact h.dispatch hnumbered hnumbered' _
      · next link _ =>
        have hrelinked : Alike g (w.modify place fun s => { s with link })
            (w'.modify place fun s => { s with link }) :=
          h.modify (fun _ _ hown => hown) (fun _ _ hown => hown) fun _ _ _ => rfl
        exact hrelinked.dispatch (numbered_relink hnumbered place link)
          (numbered_relink hnumbered' place link) _
  · have hall : ∀ u, w.sessions[place]? = some u → u.id = g := by
      intro u hu
      rwa [← Option.some.inj (hs.symm.trans hu)]
    have hall' : ∀ u, w'.sessions[place]? = some u → u.id = g := by
      intro u hu
      rwa [← Option.some.inj (ht.symm.trans hu)]
    exact ((alike_completeSend_own hnumbered hall).symm.trans h).trans
      (alike_completeSend_own hnumbered' hall')

/-! ### Writing -/

theorem Alike.written (h : Alike g w w') (i : Nat) (database : Database) :
    Alike g (w.written i database) (w'.written i database) := by
  obtain ⟨sets, hgateway, hset⟩ := h.gateway
  apply h.withGateway
  rw [hgateway] at hset ⊢
  exact ⟨sets, rfl, hset⟩

theorem Alike.write (h : Alike g w w') (hnumbered : w.Numbered) (hnumbered' : w'.Numbered)
    (i : Nat) : Alike g (w.write i) (w'.write i) := by
  obtain ⟨sets, hgateway, -⟩ := h.gateway
  have hpending : w'.gateway.pending = w.gateway.pending := by rw [hgateway]
  have hdatabase : w'.gateway.database = w.gateway.database := by rw [hgateway]
  unfold World.write
  rw [hpending, hdatabase]
  cases w.gateway.pending[i]? with
  | none => exact h
  | some r =>
    dsimp only
    generalize Gateway.perform w.gateway.database r = performed
    have hwritten := h.written i performed.1
    cases performed.2 with
    | none => exact hwritten
    | some outcome =>
      exact hwritten.reply (by exact hnumbered) (by exact hnumbered') outcome.session _

/-! ### Closing everybody -/

theorem Numbered.disconnect (h : w.Numbered) (place : Place) : (w.disconnect place).2.Numbered :=
  (kept_numbered fun _ _ => True).disconnect place trivial h

/-- Whether those of a number are closed too is not seen. -/
theorem Alike.disconnectEach (entries : List (SessionId × Place)) (h : Alike g w w')
    (hnumbered : w'.Numbered) (hfound : ∀ e ∈ entries, w'.directory.find? e.1 = some e.2) :
    Alike g (w.disconnectEach ((entries.filter (·.1 ≠ g)).map Prod.snd))
      (w'.disconnectEach (entries.map Prod.snd)) := by
  induction entries generalizing w w' with
  | nil => exact h
  | cons e rest ih =>
    have hrest : ∀ e ∈ rest, w'.directory.find? e.1 = some e.2 :=
      fun e he => hfound e (List.mem_cons_of_mem _ he)
    by_cases hid : e.1 = g
    · have hskipped : (e :: rest).filter (·.1 ≠ g) = rest.filter (·.1 ≠ g) :=
        List.filter_cons_of_neg (by simp [hid])
      have hown : Alike g w' (w'.disconnect e.2).2 := by
        apply alike_disconnect_own
        intro s hs
        rw [hnumbered.own (hfound e List.mem_cons_self) hs, hid]
      rw [hskipped]
      exact ih (h.trans hown) (hnumbered.disconnect e.2) hrest
    · have hkept : (e :: rest).filter (·.1 ≠ g) = e :: rest.filter (·.1 ≠ g) :=
        List.filter_cons_of_pos (by simp [hid])
      rw [hkept]
      exact ih (h.disconnect e.2) (hnumbered.disconnect e.2) hrest

/-- The numbers of all others are registered in the same order. -/
theorem Alike.entries (h : Alike g w w') :
    w'.directory.entries.toList.filter (·.1 ≠ g) = w.directory.entries.toList.filter (·.1 ≠ g) := by
  have hothers : w'.directory.entries.filter (fun id _ => id ≠ g) =
      w.directory.entries.filter fun id _ => id ≠ g := by
    apply Std.ExtTreeMap.ext_getElem?
    intro id
    rw [Std.ExtTreeMap.getElem?_filter', Std.ExtTreeMap.getElem?_filter']
    by_cases hid : id = g
    · simp [hid]
    · have hfound : w'.directory.entries[id]? = w.directory.entries[id]? := h.found id hid
      rw [hfound]
  have hlists := congrArg Std.ExtTreeMap.toList hothers
  rwa [Std.ExtTreeMap.toList_filter, Std.ExtTreeMap.toList_filter] at hlists

theorem find?_of_mem_entries {d : Directory} {e : SessionId × Place} (he : e ∈ d.entries.toList) :
    d.find? e.1 = some e.2 := Std.ExtTreeMap.mem_toList_iff_getElem?_eq_some.mp he

theorem Alike.dropAll (h : Alike g w w') (hnumbered : w.Numbered) (hnumbered' : w'.Numbered) :
    Alike g w.dropAll.2 w'.dropAll.2 := by
  have heach := (Alike.refl g w).disconnectEach w.directory.entries.toList hnumbered
    fun e he => find?_of_mem_entries he
  have heach' := h.disconnectEach w'.directory.entries.toList hnumbered'
    fun e he => find?_of_mem_entries he
  rw [h.entries] at heach'
  obtain ⟨hlobby, -, hnext, hqueue, hgateway, htolerant⟩ := heach.symm.trans heach'
  rw [dropAll_eq, dropAll_eq]
  unfold Directory.places
  rw [values_eq_map_snd, values_eq_map_snd]
  refine ⟨hlobby, ?_, h.nextId, hqueue, hgateway, htolerant⟩
  intro id hne
  rfl

/-! ### Every event -/

theorem Alike.dequeue (h : Alike g w w') (c : Command) :
    Alike g (w.dequeue c) (w'.dequeue c) := by
  apply h.withQueue
  refine ⟨h.queue.live, ?_⟩
  rw [← List.erase_filter, ← List.erase_filter, h.queue.pending]

/-- **Whatever happens, happens to everybody else alike.**  What the number itself asks for is left
    out. -/
theorem Alike.next (h : Alike g w w') (hnumbered : w.Numbered) (hnumbered' : w'.Numbered)
    {e : Event} (hexecute : ∀ c, e = .execute c → c.session ≠ g) :
    Alike g (w.next e) (w'.next e) := by
  cases e with
  | execute c => exact (h.dequeue c).execute hnumbered hnumbered' (hexecute c rfl)
  | ask c =>
    apply h.withQueue
    rw [CommandQueue.offer_eq_offerAll, CommandQueue.offer_eq_offerAll]
    exact h.queue.offerAll rfl
  | complete c => exact h.dispatch hnumbered hnumbered' c
  | hear place bytes => exact h.hear place bytes
  | finishSend place => exact h.completeSend hnumbered hnumbered' place
  | disconnect place => exact h.disconnect place
  | forget id => exact h.forget id
  | dropAll => exact h.dropAll hnumbered hnumbered'
  | write i => exact h.write hnumbered hnumbered' i
  | tell tick => exact h.withLobby (h.lobby.tellAll tick)
  | advance dt =>
    apply h.withLobby
    exact ⟨h.lobby.eq (fun m => (m.advance dt).floor) fun _ => rfl, h.lobby.sessions⟩
  | stores database down =>
    apply h.withGateway
    obtain ⟨sets, hgateway, hset⟩ := h.gateway
    rw [hgateway] at hset ⊢
    exact ⟨sets, rfl, hset⟩
  | stopStores =>
    apply h.withGateway
    obtain ⟨sets, hgateway, hset⟩ := h.gateway
    rw [hgateway] at hset ⊢
    exact ⟨sets, rfl, hset⟩
  | connect capacity =>
    have hnumber : w'.directory.nextId = w.directory.nextId := h.nextId
    refine ⟨⟨h.lobby.floor, ?_⟩, ?_, ?_, h.queue, h.gateway, h.tolerant⟩
    · change Sessions.Alike g (w.connect capacity).2.sessions (w'.connect capacity).2.sessions
      rw [sessions_connect, sessions_connect, hnumber]
      exact h.lobby.sessions.concat _
    · intro id hne
      have hlength : w'.sessions.length = w.sessions.length := h.lobby.sessions.length
      have hfound := h.found id hne
      change (w'.directory.insert ⟨w'.directory.nextId⟩ w'.sessions.length).find? id =
        (w.directory.insert ⟨w.directory.nextId⟩ w.sessions.length).find? id
      rw [Directory.find?_insert, Directory.find?_insert, hnumber, hlength, hfound]
    · change w'.directory.nextId + 1 = w.directory.nextId + 1
      rw [hnumber]

end World

end GameServer
