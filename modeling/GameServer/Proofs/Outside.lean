import GameServer.Proofs.Floor
import GameServer.Proofs.Numbering

/-!
What everybody else sees of a session.

Two worlds are alike but for one number if whatever does not belong to that number is the same in
both: all other sessions, with everything they were sent; the rooms, and who is where in them; the
commands of all others; and the stores.  Worlds that are alike stay alike when something is done in
both of them that has nothing to do with the number.
-/

namespace GameServer

open Wire

/-! ### Sessions -/

namespace Sessions

/-- Place by place the sessions are the same, or both have the number that is left out. -/
def Alike (g : SessionId) (sessions others : List Session) : Prop :=
  ∀ p : Place, others[p]? = sessions[p]? ∨
    ∃ s t, sessions[p]? = some s ∧ others[p]? = some t ∧ s.id = g ∧ t.id = g

variable {g : SessionId} {sessions others third : List Session} {p place : Place} {s : Session}

theorem Alike.refl (g : SessionId) (sessions : List Session) : Alike g sessions sessions :=
  fun _ => .inl rfl

theorem Alike.symm (h : Alike g sessions others) : Alike g others sessions := by
  intro p
  rcases h p with hsame | ⟨s, t, hs, ht, hown, hown'⟩
  · exact .inl hsame.symm
  · exact .inr ⟨t, s, ht, hs, hown', hown⟩

theorem Alike.trans (h : Alike g sessions others) (h' : Alike g others third) :
    Alike g sessions third := by
  intro p
  rcases h p with hsame | ⟨s, t, hs, ht, hown, hown'⟩
  · rw [← hsame]
    exact h' p
  · right
    rcases h' p with hsame' | ⟨_, u, _, hu, _, hown''⟩
    · exact ⟨s, t, hs, hsame'.trans ht, hown, hown'⟩
    · exact ⟨s, u, hs, hu, hown, hown''⟩

/-- Everybody else is as they are. -/
theorem Alike.at (h : Alike g sessions others) (hs : sessions[p]? = some s) (hne : s.id ≠ g) :
    others[p]? = some s := by
  rcases h p with hsame | ⟨t, -, ht, -, hown, -⟩
  · exact hsame.trans hs
  · obtain rfl := Option.some.inj (hs.symm.trans ht)
    exact absurd hown hne

theorem Alike.length_le (h : Alike g sessions others) : others.length ≤ sessions.length := by
  rcases h sessions.length with hsame | ⟨s, -, hs, -⟩
  · rw [List.getElem?_eq_none (Nat.le_refl _)] at hsame
    exact List.getElem?_eq_none_iff.mp hsame
  · simp at hs

theorem Alike.length (h : Alike g sessions others) : others.length = sessions.length :=
  Nat.le_antisymm h.length_le h.symm.length_le

theorem Alike.concat (h : Alike g sessions others) (s : Session) :
    Alike g (sessions ++ [s]) (others ++ [s]) := by
  intro p
  rcases h p with hsame | ⟨t, u, ht, hu, hown, hown'⟩
  · left
    rw [List.getElem?_append, List.getElem?_append, hsame, h.length]
  · right
    refine ⟨t, u, ?_, ?_, hown, hown'⟩
    · rwa [List.getElem?_append_left (List.getElem?_eq_some_iff.mp ht).1]
    · rwa [List.getElem?_append_left (List.getElem?_eq_some_iff.mp hu).1]

/-- Sessions may change alike at a place; one of the number that is left out may change in any way
    that leaves it its number. -/
theorem Alike.modify {f f' : Session → Session} (h : Alike g sessions others)
    (hown : ∀ s, sessions[place]? = some s → s.id = g → (f s).id = g)
    (hown' : ∀ t, others[place]? = some t → t.id = g → (f' t).id = g)
    (hsame : ∀ s, sessions[place]? = some s → s.id ≠ g → f' s = f s) :
    Alike g (sessions.modify place f) (others.modify place f') := by
  intro p
  rw [List.getElem?_modify, List.getElem?_modify]
  by_cases hp : place = p
  · subst hp
    simp only [if_true]
    rcases h place with heq | ⟨s, t, hs, ht, hs', ht'⟩
    · rw [heq]
      cases hs : sessions[place]? with
      | none => exact .inl rfl
      | some s =>
        by_cases hid : s.id = g
        · exact .inr ⟨f s, f' s, rfl, rfl, hown s hs hid, hown' s (heq.trans hs) hid⟩
        · exact .inl (congrArg some (hsame s hs hid))
    · rw [hs, ht]
      exact .inr ⟨f s, f' t, rfl, rfl, hown s hs hs', hown' t ht ht'⟩
  · simpa [hp] using h p

/-- What happens to a session of the number that is left out is not seen. -/
theorem alike_modify_own {f : Session → Session}
    (hown : ∀ s, sessions[place]? = some s → s.id = g ∧ (f s).id = g) :
    Alike g sessions (sessions.modify place f) := by
  intro p
  rw [List.getElem?_modify]
  by_cases hp : place = p
  · subst hp
    cases hs : sessions[place]? with
    | none => exact .inl rfl
    | some s => exact .inr ⟨s, f s, rfl, by simp, hown s hs⟩
  · simp [hp]

/-! ### Sending and closing -/

theorem send_eq_modify (place : Place) (r : Response) (sessions : List Session) :
    send place r sessions = sessions.modify place fun s => (s.send r).toOption.getD s := by
  apply List.ext_getElem?
  intro p
  rw [List.getElem?_modify]
  by_cases hp : place = p
  · subst hp
    unfold send
    cases hs : sessions[place]? with
    | none => simp [hs]
    | some s =>
      obtain ⟨hlt, -⟩ := List.getElem?_eq_some_iff.mp hs
      cases hsent : s.send r with
      | error fault => simp [hs, hsent, Except.toOption]
      | ok t => simp [hlt, hsent, Except.toOption]
  · rw [send_elsewhere hp]
    simp [hp]

theorem id_send_getD (r : Response) (s : Session) : ((s.send r).toOption.getD s).id = s.id := by
  cases hsent : s.send r with
  | error fault => rfl
  | ok t => exact congrArg Standing.id (Session.standing_send hsent)

theorem Alike.send (h : Alike g sessions others) (place : Place) (r : Response) :
    Alike g (send place r sessions) (send place r others) := by
  rw [send_eq_modify, send_eq_modify]
  apply h.modify
  · intro s _ hown
    rwa [id_send_getD]
  · intro s _ hown
    rwa [id_send_getD]
  · intro s _ _
    rfl

theorem alike_send_own (hown : ∀ s, sessions[place]? = some s → s.id = g) (r : Response) :
    Alike g sessions (Sessions.send place r sessions) := by
  rw [send_eq_modify]
  apply alike_modify_own
  intro s hs
  rw [id_send_getD]
  exact ⟨hown s hs, hown s hs⟩

theorem send_of_closed (hclosed : ∀ s, sessions[place]? = some s → s.closed = true)
    (r : Response) : Sessions.send place r sessions = sessions := by
  unfold Sessions.send
  cases hs : sessions[place]? with
  | none => rfl
  | some s =>
    have hsent : s.send r = .ok s := if_pos (hclosed s hs)
    obtain ⟨hlt, rfl⟩ := List.getElem?_eq_some_iff.mp hs
    simp only [hsent, List.set_getElem_self]

/-- Whoever is closed is sent nothing in any case, so a broadcast sends to everybody in turn. -/
theorem broadcast_cons_eq_send (r : Response) (place : Place) (places : List Place)
    (sessions : List Session) :
    (broadcast r (place :: places) sessions).1 =
      (broadcast r places (Sessions.send place r sessions)).1 := by
  rw [broadcast_cons]
  split
  · rfl
  · next hnot =>
    rw [send_of_closed]
    intro s hs
    simpa [hs] using hnot

theorem Alike.broadcast (h : Alike g sessions others) (r : Response) (places : List Place) :
    Alike g (broadcast r places sessions).1 (broadcast r places others).1 := by
  induction places generalizing sessions others with
  | nil => exact h
  | cons place rest ih =>
    rw [broadcast_cons_eq_send, broadcast_cons_eq_send]
    exact ih (h.send place r)

theorem id_disconnect (s : Session) (q : CommandQueue) : (s.disconnect q).1.id = s.id := by
  have hbadge := congrArg Badge.id (s.badge_disconnect q)
  rwa [Badge.id_close] at hbadge

theorem Alike.disconnect (h : Alike g sessions others) (place : Place) (q q' : CommandQueue) :
    Alike g (disconnect place sessions q).1 (disconnect place others q').1 := by
  rw [disconnect_eq_modify, disconnect_eq_modify]
  apply h.modify
  · intro s _ hown
    rwa [id_disconnect]
  · intro s _ hown
    rwa [id_disconnect]
  · intro s _ _
    -- what waits in the queue is no matter
    cases hclosed : s.closed with
    | true => rw [Session.disconnect_of_closed hclosed, Session.disconnect_of_closed hclosed]
    | false => rw [Session.disconnect_of_open hclosed, Session.disconnect_of_open hclosed]

theorem alike_disconnect_own (hown : ∀ s, sessions[place]? = some s → s.id = g)
    (q : CommandQueue) : Alike g sessions (Sessions.disconnect place sessions q).1 := by
  rw [disconnect_eq_modify]
  apply alike_modify_own
  intro s hs
  rw [id_disconnect]
  exact ⟨hown s hs, hown s hs⟩

end Sessions

/-! ### Rooms -/

namespace Lobby

variable {g : SessionId} {l l' : Lobby}

/-- The floor is the same, and the sessions are alike. -/
structure Alike (g : SessionId) (l l' : Lobby) : Prop where
  floor : l'.floor = l.floor
  sessions : Sessions.Alike g l.sessions l'.sessions

theorem Alike.eq (h : l.Alike g l') {α : Type} (f : Lobby → α)
    (hf : ∀ m : Lobby, f m.floor = f m) : f l' = f l := eq_of_floor_eq f hf h.floor

theorem Alike.index (h : l.Alike g l') : l'.index = l.index := h.eq Lobby.index fun _ => rfl

theorem Alike.rooms (h : l.Alike g l') : l'.rooms = l.rooms := h.eq Lobby.rooms fun _ => rfl

theorem Alike.settings (h : l.Alike g l') : l'.settings = l.settings :=
  h.eq Lobby.settings fun _ => rfl

/-- The place of the session that a room has as its member under a number. -/
def seat? (l : Lobby) (id : SessionId) : Option Place :=
  l.index[id]?.bind fun room => l.rooms[room]?.bind fun r => r.members[id]?

theorem sessions_leave_eq (l : Lobby) (id : SessionId) :
    (l.leave id).1.sessions =
      (l.seat? id).elim l.sessions fun place => l.sessions.modify place (·.setRoom none) := by
  unfold leave seat?
  cases hi : l.index[id]? with
  | none => simp
  | some room =>
    cases hr : l.rooms[room]? with
    | none => simp [hr]
    | some r => cases hplace : r.members[id]? <;> simp [hr, hplace, bind]

/-- Whoever leaves is the same, and so is everybody who stays. -/
theorem Alike.leave (h : l.Alike g l') (id : SessionId) :
    (l.leave id).1.Alike g (l'.leave id).1 ∧ (l'.leave id).2 = (l.leave id).2 := by
  refine ⟨⟨floor_leave_congr h.floor id, ?_⟩, ?_⟩
  · have hseat : l'.seat? id = l.seat? id := h.eq (·.seat? id) fun _ => rfl
    rw [sessions_leave_eq, sessions_leave_eq, hseat]
    cases l.seat? id with
    | none => exact h.sessions
    | some place =>
      apply h.sessions.modify
      · exact fun s _ hown => hown
      · exact fun s _ hown => hown
      · exact fun s _ _ => rfl
  · rw [← (l'.leave_floor id).2, h.floor, (l.leave_floor id).2]

theorem Alike.settle (h : l.Alike g l') (place : Place) (s : Session) (r : Room) :
    (l.settle place s r).Alike g (l'.settle place s r) := by
  constructor
  · exact h.eq (fun m => (m.settle place s r).floor) fun _ => rfl
  · rw [sessions_settle, sessions_settle]
    apply h.sessions.modify
    · exact fun s _ hown => hown
    · exact fun s _ hown => hown
    · exact fun s _ _ => rfl

/-- Two attempts to come into a room end in the same way. -/
inductive Likewise (g : SessionId) :
    Except RoomFault (Arrival × Lobby) → Except RoomFault (Arrival × Lobby) → Prop
  | refused (fault : RoomFault) : Likewise g (.error fault) (.error fault)
  | admitted (a : Arrival) {l l' : Lobby} (alike : l.Alike g l') :
      Likewise g (.ok (a, l)) (.ok (a, l'))

theorem Alike.openRoom (h : l.Alike g l') (place : Place) (s : Session) (title : String) :
    Likewise g (l.openRoom place s title) (l'.openRoom place s title) := by
  unfold Lobby.openRoom
  split
  · exact .refused _
  · obtain ⟨hleft, hdeparture⟩ := h.leave s.id
    have hnumber : (l'.leave s.id).1.freshId.1 = (l.leave s.id).1.freshId.1 :=
      hleft.eq (fun m => m.freshId.1) fun _ => rfl
    have hcounted : (l.leave s.id).1.freshId.2.Alike g (l'.leave s.id).1.freshId.2 :=
      ⟨hleft.eq (fun m => m.freshId.2.floor) fun _ => rfl, hleft.sessions⟩
    dsimp only
    rw [hdeparture, hnumber]
    exact .admitted _ (hcounted.settle place s _)

theorem Alike.join (h : l.Alike g l') (place : Place) (s : Session) (room : RoomId) :
    Likewise g (l.join place s room) (l'.join place s room) := by
  have hfull : l'.isFull room = l.isFull room := h.eq (·.isFull room) fun _ => rfl
  obtain ⟨hleft, hdeparture⟩ := h.leave s.id
  unfold Lobby.join
  rw [h.index, hfull]
  split
  · exact .refused _
  · split
    · exact .admitted _ h
    · split
      · exact .refused _
      · dsimp only
        rw [hdeparture, hleft.rooms, hleft.settings]
        split
        · exact .admitted _ (hleft.settle place s _)
        · exact .admitted _ (hleft.settle place s _)

theorem floor_steer? (l : Lobby) (id : SessionId) (vx vy : Single) :
    (l.floor.steer? id vx vy).map Lobby.floor = (l.steer? id vx vy).map Lobby.floor := by
  unfold Lobby.steer?
  cases hi : l.index[id]? with
  | none => simp [floor, hi]
  | some room =>
    cases hr : l.rooms[room]? with
    | none => simp [floor, hi, hr]
    | some r => by_cases hin : r.players.contains id = true <;> simp [floor, hi, hr, hin]

theorem Alike.steer? (h : l.Alike g l') (id : SessionId) (vx vy : Single) :
    (l.steer? id vx vy = none ∧ l'.steer? id vx vy = none) ∨
      ∃ m m', l.steer? id vx vy = some m ∧ l'.steer? id vx vy = some m' ∧ m.Alike g m' := by
  have hfloor : (l'.steer? id vx vy).map Lobby.floor = (l.steer? id vx vy).map Lobby.floor :=
    h.eq (fun m => (m.steer? id vx vy).map Lobby.floor) fun m => m.floor_steer? id vx vy
  cases hsteer : l.steer? id vx vy with
  | none =>
    rw [hsteer] at hfloor
    exact .inl ⟨rfl, Option.map_eq_none_iff.mp hfloor⟩
  | some m =>
    rw [hsteer] at hfloor
    obtain ⟨m', hsteer', hsame⟩ := Option.map_eq_some_iff.mp hfloor
    obtain ⟨room, r, -, hm⟩ := steer?_eq_some hsteer
    obtain ⟨room', r', -, hm'⟩ := steer?_eq_some hsteer'
    refine .inr ⟨m, m', rfl, hsteer', hsame, ?_⟩
    rw [hm, hm']
    exact h.sessions

theorem Alike.broadcast (h : l.Alike g l') (places : List Place) (r : Response) :
    (l.broadcast places r).1.Alike g (l'.broadcast places r).1 :=
  ⟨h.floor, h.sessions.broadcast r places⟩

theorem Alike.tellAll (h : l.Alike g l') (tick : UInt32) :
    (l.tellAll tick).1.Alike g (l'.tellAll tick).1 := by
  have heach : ∀ (views : List RoomView) {m m' : Lobby}, m.Alike g m' →
      (tellEach views m).1.Alike g (tellEach views m').1 := by
    intro views
    induction views with
    | nil => exact fun hm => hm
    | cons view rest ih =>
      intro m m' hm
      exact ih (hm.broadcast view.members view.response)
  have hviews : l'.views tick = l.views tick := h.eq (·.views tick) fun _ => rfl
  unfold Lobby.tellAll
  rw [hviews]
  exact heach _ h

end Lobby

/-! ### Commands that wait -/

namespace CommandQueue

variable {g : SessionId} {q q' : CommandQueue}

/-- Everybody else's commands wait in the same order. -/
structure Alike (g : SessionId) (q q' : CommandQueue) : Prop where
  live : q'.live = q.live
  pending : q'.pending.filter (·.session ≠ g) = q.pending.filter (·.session ≠ g)

theorem Alike.offerAll (h : q.Alike g q') {commands commands' : List Command}
    (hsame : commands'.filter (·.session ≠ g) = commands.filter (·.session ≠ g)) :
    (q.offerAll commands).Alike g (q'.offerAll commands') := by
  constructor
  · rw [live_offerAll, live_offerAll, h.live]
  · unfold CommandQueue.offerAll
    rw [h.live]
    split
    · rw [List.filter_append, List.filter_append, h.pending, hsame]
    · exact h.pending

theorem filter_of_own {commands : List Command} (hown : ∀ c ∈ commands, c.session = g) :
    commands.filter (·.session ≠ g) = [] := by
  apply List.filter_eq_nil_iff.mpr
  intro c hc
  simpa using hown c hc

end CommandQueue

/-! ### The stores -/

namespace Cache

def mark (c : Cache) (key value : String) : Cache :=
  { c with sets := c.sets.insert key ((c.set key).insert value) }

def unmark (c : Cache) (key value : String) : Cache :=
  { c with sets := c.sets.modify key (·.erase value) }

theorem set_mark (c : Cache) (key value other : String) :
    (c.mark key value).set other = if other = key then (c.set key).insert value else c.set other := by
  simp only [mark, set, lookup_insert]
  split <;> rfl

theorem set_unmark (c : Cache) (key value other : String) :
    (c.unmark key value).set other = if other = key then (c.set key).erase value else c.set other := by
  simp only [unmark, set, lookup_modify]
  split
  · cases c.sets[key]? with
    | none =>
      apply Std.ExtTreeSet.ext_mem
      simp
    | some names => rfl
  · rfl

end Cache

namespace Gateway

variable {g g' : Gateway}

/-- The same names are marked, however the cache keeps them, and all else is the same. -/
def Alike (g g' : Gateway) : Prop :=
  ∃ sets, g' = { g with cache := { g.cache with sets } } ∧
    ∀ key, g'.cache.set key = g.cache.set key

theorem Alike.refl (g : Gateway) : g.Alike g := ⟨g.cache.sets, rfl, fun _ => rfl⟩

theorem Alike.symm (h : g.Alike g') : g'.Alike g := by
  obtain ⟨sets, rfl, hset⟩ := h
  exact ⟨g.cache.sets, rfl, fun key => (hset key).symm⟩

theorem Alike.trans {g'' : Gateway} (h : g.Alike g') (h' : g'.Alike g'') : g.Alike g'' := by
  obtain ⟨sets, rfl, hset⟩ := h
  obtain ⟨sets', rfl, hset'⟩ := h'
  exact ⟨sets', rfl, fun key => (hset' key).trans (hset key)⟩

theorem Alike.isOnline (h : g.Alike g') (name : String) : g'.IsOnline name ↔ g.IsOnline name := by
  obtain ⟨sets, -, hset⟩ := h
  rw [IsOnline, hset, IsOnline]

theorem Alike.history (h : g.Alike g') (room : RoomId) : g'.history room = g.history room := by
  obtain ⟨sets, rfl, -⟩ := h
  rfl

theorem addPresence_eq (g : Gateway) (name : String) :
    g.addPresence name =
      if g.cache.down then (false, g)
      else (!(g.cache.set presenceKey).contains name,
        { g with cache := g.cache.mark presenceKey name }) := by
  cases hdown : g.cache.down <;> simp [addPresence, Cache.add, Cache.whenUp, Cache.mark, hdown]

theorem removePresence_eq (g : Gateway) (name : String) :
    g.removePresence name =
      if g.cache.down then g else { g with cache := g.cache.unmark presenceKey name } := by
  cases hdown : g.cache.down <;>
    simp [removePresence, Cache.remove, Cache.whenUp, Cache.unmark, hdown]

theorem Alike.addPresence (h : g.Alike g') (name : String) :
    (g'.addPresence name).1 = (g.addPresence name).1 ∧
      (g.addPresence name).2.Alike (g'.addPresence name).2 := by
  obtain ⟨sets, rfl, hset⟩ := h
  rw [addPresence_eq, addPresence_eq]
  dsimp only at hset ⊢
  split
  · exact ⟨rfl, sets, rfl, hset⟩
  · refine ⟨by rw [hset], _, rfl, ?_⟩
    intro key
    rw [Cache.set_mark, Cache.set_mark, hset, hset]

theorem Alike.removePresence (h : g.Alike g') (name : String) :
    (g.removePresence name).Alike (g'.removePresence name) := by
  obtain ⟨sets, rfl, hset⟩ := h
  rw [removePresence_eq, removePresence_eq]
  dsimp only at hset ⊢
  split
  · exact ⟨sets, rfl, hset⟩
  · refine ⟨_, rfl, ?_⟩
    intro key
    rw [Cache.set_unmark, Cache.set_unmark, hset, hset]

/-- A name that is not new changes nothing. -/
theorem alike_addPresence_refused {name : String} (h : g.addPresence name = (false, g')) :
    g.Alike g' := by
  rw [addPresence_eq] at h
  split at h
  · cases h
    exact .refl g
  · obtain ⟨hold, rfl⟩ := Prod.mk.inj h
    have hmem : name ∈ g.cache.set presenceKey := by simpa using hold
    refine ⟨_, rfl, ?_⟩
    intro key
    rw [Cache.set_mark]
    split
    · next heq =>
      subst heq
      apply Std.ExtTreeSet.ext_mem
      intro other
      rw [Std.ExtTreeSet.mem_insert, Std.LawfulEqCmp.compare_eq_iff_eq]
      constructor
      · rintro (rfl | hother)
        · exact hmem
        · exact hother
      · exact .inr
    · rfl

/-- Whoever gives a new name back has changed nothing. -/
theorem alike_add_remove {name : String} (h : g.addPresence name = (true, g')) :
    g.Alike (g'.removePresence name) := by
  rw [addPresence_eq] at h
  split at h
  · cases h
  · next hup =>
    obtain ⟨hnew, rfl⟩ := Prod.mk.inj h
    have hout : name ∉ g.cache.set presenceKey := by
      intro hin
      rw [Std.ExtTreeSet.contains_iff_mem.mpr hin] at hnew
      cases hnew
    have hup' : ¬ (g.cache.mark presenceKey name).down = true := hup
    rw [removePresence_eq]
    dsimp only
    rw [if_neg hup']
    refine ⟨_, rfl, ?_⟩
    intro key
    rw [Cache.set_unmark, Cache.set_mark, Cache.set_mark, if_pos rfl]
    split
    · next heq =>
      subst heq
      apply Std.ExtTreeSet.ext_mem
      intro other
      simp only [Std.ExtTreeSet.mem_erase, Std.ExtTreeSet.mem_insert,
        Std.LawfulEqCmp.compare_eq_iff_eq, ne_eq]
      constructor
      · rintro ⟨hne, rfl | hother⟩
        · exact absurd rfl hne
        · exact hother
      · intro hother
        refine ⟨?_, .inr hother⟩
        rintro rfl
        exact hout hother
    · rfl

/-- The lists of the cache once a line of chat has been remembered. -/
def linesAfter (g : Gateway) (room : RoomId) (line : String) : Std.ExtTreeMap String Lines :=
  if g.historyLength = 0 ∨ g.cache.down = true then g.cache.lists
  else
    (g.cache.lists.insert (chatKey room) ((g.cache.lines (chatKey room)).push line)).modify
      (chatKey room) (Lines.trim 0 (g.historyLength - 1))

theorem remember_eq (g : Gateway) (room : RoomId) (username message : String) :
    g.remember room username message =
      { g with cache := { g.cache with
        lists := g.linesAfter room (chatLine username message) } } := by
  by_cases hlength : g.historyLength = 0
  · simp [remember, linesAfter, hlength]
  · by_cases hdown : g.cache.down = true
    · have hsame : g.linesAfter room (chatLine username message) = g.cache.lists :=
        if_pos (.inr hdown)
      have hunheard : g.remember room username message = g := by
        simp [remember, hlength, Cache.push, Cache.whenUp, hdown]
      rw [hsame, hunheard]
    · simp [remember, linesAfter, hlength, Cache.push, Cache.trim, Cache.whenUp, hdown]

theorem Alike.remember (h : g.Alike g') (room : RoomId) (username message : String) :
    (g.remember room username message).Alike (g'.remember room username message) := by
  obtain ⟨sets, rfl, hset⟩ := h
  rw [remember_eq, remember_eq]
  exact ⟨sets, rfl, hset⟩

theorem Alike.post (h : g.Alike g') (r : StoreRequest) :
    (g.post? r = none ∧ g'.post? r = none) ∨
      ∃ h h', g.post? r = some h ∧ g'.post? r = some h' ∧ h.Alike h' := by
  obtain ⟨sets, rfl, hset⟩ := h
  unfold Gateway.post?
  dsimp only
  split
  · exact .inr ⟨_, _, rfl, rfl, sets, rfl, hset⟩
  · exact .inl ⟨rfl, rfl⟩

end Gateway

end GameServer
