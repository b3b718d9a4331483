import GameServer.Proofs.Frames
import GameServer.Proofs.Membership
import GameServer.Proofs.Memory

/-!
Coming in, and hearing what was said before.

Whoever comes into a room is sent the result, and behind it the last lines that were said in the
room, oldest first and without a sender.  What was said is told from what the room heard at the
time, so the lines are those that went out to its members then, also to members of a room of the
same number that has gone since.
-/

namespace GameServer

open Wire

namespace Lobby

variable {l l' : Lobby} {place : Place} {s : Session} {a : Arrival}

/-- Whoever leaves is not among those who stay. -/
theorem Consistent.not_mem_remaining (h : l.Consistent) (hs : l.sessions[place]? = some s)
    {d : Departure} (hd : (l.leave s.id).2 = some d) : place ∉ d.remaining := by
  cases hi : l.index[s.id]? with
  | none =>
    rw [leave_of_index_none hi] at hd
    cases hd
  | some room =>
    obtain ⟨r, own, hr, -, hown⟩ := h.seats_of_index hi
    rw [leave_of_listed hi hr hown] at hd
    obtain rfl := Option.some.inj hd
    intro hin
    obtain ⟨other, hother⟩ := mem_values_iff.mp hin
    simp only [Room.erase, lookup_erase] at hother
    split at hother
    · cases hother
    · next hne =>
      obtain ⟨t, ht, hid⟩ := h.seated ⟨r, hr, hother⟩
      obtain rfl := Option.some.inj (hs.symm.trans ht)
      exact hne hid.symm

theorem left_of_join_ok {room : RoomId} (hok : l.join place s room = .ok (a, l')) :
    a.left = none ∨ a.left = (l.leave s.id).2 := by
  unfold join at hok
  split at hok
  · cases hok
  · split at hok
    · cases hok
      exact .inl rfl
    · split at hok
      · cases hok
      · dsimp only at hok
        split at hok <;> (cases hok; exact .inr rfl)

end Lobby

namespace World

/-! ### What goes out to one session -/

/-- Whoever is open at a place stays so, and is sent the frames given. -/
def Sends (w w' : World) (place : Place) (sent : List Bytes) : Prop :=
  ∀ s, w.sessions[place]? = some s → s.closed = false →
    ∃ t, w'.sessions[place]? = some t ∧ t.closed = false ∧ t.frames = s.frames ++ sent

variable {w w' w'' : World} {place : Place}

theorem Sends.trans {sent more : List Bytes} (h : w.Sends w' place sent)
    (h' : w'.Sends w'' place more) : w.Sends w'' place (sent ++ more) := by
  intro s hs hopen
  obtain ⟨t, ht, hstill, hframes⟩ := h s hs hopen
  obtain ⟨u, hu, hstill', hframes'⟩ := h' t ht hstill
  exact ⟨u, hu, hstill', by rw [hframes', hframes, List.append_assoc]⟩

theorem sends_nothing (hsame : w'.sessions[place]? = w.sessions[place]?) :
    w.Sends w' place [] := by
  intro s hs hopen
  exact ⟨s, hsame.trans hs, hopen, (List.append_nil _).symm⟩

theorem sends_send (w : World) (place : Place) {r : Response} (hfits : r.Fits) :
    w.Sends (w.send place r) place [r.frame] := by
  intro s hs hopen
  exact Sessions.send_at hs hopen hfits

theorem sends_announce (w : World) {d : Option Departure}
    (hout : ∀ x ∈ d, place ∉ x.remaining) : w.Sends (w.announce d) place [] := by
  cases d with
  | none => exact sends_nothing rfl
  | some d => exact sends_nothing (Sessions.broadcast_elsewhere (hout d rfl))

theorem sends_retell (w : World) (place : Place) (room : RoomId) :
    w.Sends (w.retell place room) place
      ((w.gateway.history room).reverse.map fun line => (Response.chat historySender line).frame) := by
  unfold retell
  generalize (w.gateway.history room).reverse = lines
  induction lines generalizing w with
  | nil => exact sends_nothing rfl
  | cons line rest ih =>
    exact (w.sends_send place (Response.fits_chat historySender line)).trans (ih _)

/-- Moving from room to room is nothing that anybody is sent. -/
theorem sends_join (w : World) {s : Session} {room : RoomId} {a : Arrival} {lobby : Lobby}
    (hok : w.lobby.join place s room = .ok (a, lobby)) : w.Sends (w.withLobby lobby) place [] := by
  have hsame := Lobby.map_join (f := fun t => (t.closed, t.frames)) (fun _ _ => rfl) hok
  intro t ht hopen
  obtain ⟨u, hu, heq⟩ := Sessions.getElem?_of_map_eq hsame.symm ht
  obtain ⟨hclosed, hframes⟩ := Prod.mk.inj heq
  exact ⟨u, hu, hclosed.trans hopen, by rw [hframes, List.append_nil]⟩

/-! ### Coming in -/

/-- What a request to enter a room comes to, if it is granted. -/
def entry? (w : World) (id : SessionId) (room : RoomId) :
    Option (Place × Session × Arrival × Lobby) :=
  match w.find? id with
  | none => none
  | some (place, s) =>
    if s.loggedIn then
      match w.lobby.join place s room with
      | .ok (a, lobby) => some (place, s, a, lobby)
      | .error _ => none
    else none

section Enter

variable {id : SessionId} {room : RoomId} {s : Session} {a : Arrival} {lobby : Lobby}

theorem entry?_eq_some :
    w.entry? id room = some (place, s, a, lobby) ↔
      w.find? id = some (place, s) ∧ s.loggedIn = true ∧
        w.lobby.join place s room = .ok (a, lobby) := by
  unfold entry?
  constructor
  · intro hentry
    split at hentry
    · cases hentry
    · split at hentry
      · next hfind hsomebody =>
        split at hentry
        · next hjoin =>
          cases hentry
          exact ⟨hfind, hsomebody, hjoin⟩
        · cases hentry
      · cases hentry
  · rintro ⟨hfind, hsomebody, hjoin⟩
    simp only [hfind, hsomebody, hjoin, if_true]

/-- Whoever is not let in is told so, if anybody is there to be told. -/
theorem enterRoom_of_refused (h : w.entry? id room = none) :
    w.enterRoom id room = w ∨
      ∃ place, w.enterRoom id room = w.send place (.enterRoomResult false room) := by
  unfold enterRoom
  unfold entry? at h
  split
  · exact .inl rfl
  · next place s hfind =>
    rw [hfind] at h
    dsimp only at h
    split
    · next hsomebody =>
      rw [if_pos hsomebody] at h
      split
      · next hjoin =>
        rw [hjoin] at h
        cases h
      · exact .inr ⟨place, rfl⟩
      · exact .inl rfl
    · exact .inr ⟨place, rfl⟩

/-- **Whoever is let in is sent the result, and behind it what the room remembers.** -/
theorem sends_enterRoom (hinUse : w.lobby.InUse)
    (h : w.entry? id room = some (place, s, a, lobby)) :
    w.Sends (w.enterRoom id room) place
      ((Response.enterRoomResult true room).frame ::
        (w.gateway.history room).reverse.map fun line =>
          (Response.chat historySender line).frame) := by
  obtain ⟨hfind, hsomebody, hjoin⟩ := entry?_eq_some.mp h
  obtain ⟨-, hs⟩ := find?_eq_some.mp hfind
  let inside := w.withLobby lobby
  let told := inside.announce a.left
  let answered := told.send place (.enterRoomResult true room)
  have henter : w.enterRoom id room = answered.retell place room := by
    simp only [enterRoom, hfind, hsomebody, hjoin, if_true]
    rfl
  have hgateway : answered.gateway = w.gateway := gateway_announce inside a.left
  have hout : ∀ d ∈ a.left, place ∉ d.remaining := by
    intro d hd
    rcases Lobby.left_of_join_ok hjoin with hstays | hleaves
    · rw [hstays] at hd
      cases hd
    · rw [hleaves] at hd
      exact hinUse.consistent.not_mem_remaining hs hd
  rw [henter, ← hgateway]
  exact (((w.sends_join hjoin).trans (inside.sends_announce hout)).trans
    (told.sends_send place (Response.fits_enterRoomResult true room))).trans
    (answered.sends_retell place room)

end Enter

/-! ### What the members hear -/

/-- **What is said goes out once to every open member of the room, and to nobody else.** -/
theorem heard_utter (hconsistent : w.lobby.Consistent) (u : ChatRow) {p : Place} {s : Session}
    (hs : w.sessions[p]? = some s) :
    ∃ t, (w.utter u).sessions[p]? = some t ∧
      t.frames = s.frames ++
        if s.closed = false ∧ p ∈ w.lobby.members u.room then [u.response.frame] else [] := by
  obtain ⟨t, ht, -, hframes⟩ := Sessions.broadcast_at (hconsistent.nodup_members u.room) hs
    (Response.fits_chat u.session.val u.line)
  exact ⟨t, ht, hframes⟩

/-! ### Every run -/

/-- Nothing has been said yet. -/
def Blank (w : World) : Prop := ∀ room, w.gateway.linesOf room = []

theorem Blank.recalls (h : w.Blank) : w.Recalls [] := by
  intro room
  rw [h room]
  simp [linesIn]

/-- The lines that are told again are the lines that were heard.  Whatever happens, as long as the
    cache answers when something is said, the cache holds for each room the last lines that were
    said in it, and no more than it may.  Each of them went out, when it was said, to every open
    member of the room.  And whoever is let into the room while the cache answers is sent, right
    behind the result, exactly those lines, oldest first and from no sender; whoever is not let in
    is told so at most.  The frame in which a line is told again has the text of the frame in
    which it was heard, octet by octet. -/
theorem history_replayed (hstart : w.Pristine) (hblank : w.Blank) (events : List Event)
    (hrun : Along next Attentive w events) :
    let v := after next w events
    let last (room : RoomId) := (linesIn room (w.said events)).rtake w.gateway.historyLength
    let enters (id : SessionId) (room : RoomId) : Command := .request id (.enterRoom room)
    (∀ room, v.gateway.linesOf room = (last room).reverse ∧
      (v.gateway.linesOf room).length ≤ w.gateway.historyLength) ∧
    (∀ e u, v.spoken? e = some u → ∀ p s, v.sessions[p]? = some s →
      ∃ t, (v.next e).sessions[p]? = some t ∧
        t.frames = s.frames ++
          if s.closed = false ∧ p ∈ v.lobby.members u.room then
            [(Response.chat u.session.val u.line).frame]
          else []) ∧
    (∀ id room place s a lobby, v.entry? id room = some (place, s, a, lobby) → v.gateway.Heeds →
      ∃ t, (v.next (.execute (enters id room))).sessions[place]? = some t ∧
        t.frames = s.frames ++ (Response.enterRoomResult true room).frame ::
          (last room).map fun line => (Response.chat historySender line).frame) ∧
    (∀ id room, v.entry? id room = none →
      let taken := v.dequeue (enters id room)
      v.next (.execute (enters id room)) = taken ∨
        ∃ place, v.next (.execute (enters id room)) =
          taken.send place (.enterRoomResult false room)) ∧
    ∀ (sender : UInt32) (line : String), (Response.chat sender line).frame =
      Header.encode ⟨UInt16.ofNat (8 + (Write.tail chatLimit line).length), Packet.chat.code⟩ ++
        Write.word sender ++ Write.tail chatLimit line := by
  intro v last enters
  have hinUse : v.lobby.InUse := (kept_inUse Attentive).after hstart.housed.inUse events hrun
  have hrecalls : v.Recalls (w.said events) := by
    have hafter := hblank.recalls.after events hrun
    rwa [List.nil_append] at hafter
  have hlength : v.gateway.historyLength = w.gateway.historyLength := w.historyLength_after events
  have hlines : ∀ room, v.gateway.linesOf room = (last room).reverse := by
    intro room
    rw [hrecalls room, hlength]
  refine ⟨?_, ?_, ?_, ?_, Response.frame_chat⟩
  · intro room
    refine ⟨hlines room, ?_⟩
    rw [hlines, List.length_reverse]
    exact length_rtake_le ..
  · intro e u hspoken p s hs
    rw [next_of_spoken hspoken]
    exact heard_utter (by exact hinUse.consistent) u hs
  · intro id room place s a lobby hentry hheeds
    obtain ⟨hfind, -, hjoin⟩ := entry?_eq_some.mp hentry
    obtain ⟨-, hs⟩ := find?_eq_some.mp hfind
    obtain ⟨hopen, -⟩ := Lobby.join_ok hinUse.consistent hjoin
    let taken := v.dequeue (enters id room)
    have hsends := sends_enterRoom (w := taken) (by exact hinUse) (by exact hentry)
    obtain ⟨t, ht, -, hframes⟩ := hsends s hs hopen
    refine ⟨t, ht, ?_⟩
    have hhistory : taken.gateway.history room = (last room).reverse := by
      have hsaid := hrecalls.history hheeds room
      rwa [hlength] at hsaid
    rw [hframes, hhistory, List.reverse_reverse]
  · intro id room hentry taken
    exact enterRoom_of_refused (w := taken) hentry

/-- Two lines are remembered of a room.  Of two people one says two things in it, goes elsewhere and
    says something there, so that the room is gone; comes back into a new one of the same number
    and says one thing more.  The other one comes in and hears the last two. -/
theorem history_replayed_after_reopening :
    let asks (place : Place) (r : Request) : Event := .hear place (r.encode.toOption.getD [])
    let database := (({} : Database).seed 1 "ann" "a").seed 2 "bob" "b"
    let w : World := { gateway := { settings := { historyLength := 2 }, database } }
    let events : List Event :=
      [.connect 256, .connect 256, asks 0 (.login "ann" "a"), asks 1 (.login "bob" "b"),
        asks 0 (.enterRoom ⟨5⟩), asks 0 (.chat "one"), asks 0 (.chat "two"),
        asks 0 (.enterRoom ⟨6⟩), asks 0 (.chat "aside"), asks 0 (.enterRoom ⟨5⟩),
        asks 0 (.chat "three"), asks 1 (.enterRoom ⟨5⟩),
        .execute (.request ⟨1⟩ (.login "ann" "a")), .execute (.request ⟨2⟩ (.login "bob" "b")),
        .execute (.request ⟨1⟩ (.enterRoom ⟨5⟩)), .execute (.request ⟨1⟩ (.chat "one")),
        .execute (.request ⟨1⟩ (.chat "two")), .execute (.request ⟨1⟩ (.enterRoom ⟨6⟩)),
        .execute (.request ⟨1⟩ (.chat "aside")), .execute (.request ⟨1⟩ (.enterRoom ⟨5⟩)),
        .execute (.request ⟨1⟩ (.chat "three"))]
    let v := after next w events
    let enters : Command := .request ⟨2⟩ (.enterRoom ⟨5⟩)
    w.Pristine ∧ w.Blank ∧ Along next Attentive w events ∧ v.queue.pending = [enters] ∧
      linesIn ⟨5⟩ (w.said events) = ["ann: one", "ann: two", "ann: three"] ∧
      ∃ s t, v.sessions[1]? = some s ∧ (v.next (.execute enters)).sessions[1]? = some t ∧
        t.frames = s.frames ++ [(Response.enterRoomResult true ⟨5⟩).frame,
          (Response.chat 0 "ann: two").frame, (Response.chat 0 "ann: three").frame] := by
  intro asks database w events v enters
  have hstart : w.Pristine := pristine_start {} { historyLength := 2 } database true
  have hblank : w.Blank := fun _ => rfl
  have hrun : Along next Attentive w events := by decide +kernel
  have hsaid : linesIn ⟨5⟩ (w.said events) = ["ann: one", "ann: two", "ann: three"] := by
    decide +kernel
  have hpending : v.queue.pending = [enters] := by decide +kernel
  have hplace : (v.entry? ⟨2⟩ ⟨5⟩).map Prod.fst = some 1 := by decide +kernel
  have hheeds : v.gateway.Heeds := by decide +kernel
  have hv : after next w events = v := rfl
  obtain ⟨⟨place, s, a, lobby⟩, hentry, rfl⟩ := Option.map_eq_some_iff.mp hplace
  obtain ⟨hfind, -⟩ := entry?_eq_some.mp hentry
  obtain ⟨-, -, henter, -⟩ := history_replayed hstart hblank events hrun
  rw [hv] at henter
  obtain ⟨t, ht, hframes⟩ := henter ⟨2⟩ ⟨5⟩ _ s a lobby hentry hheeds
  beta_reduce at hframes
  rw [hsaid] at hframes
  exact ⟨hstart, hblank, hrun, hpending, hsaid, s, t, (find?_eq_some.mp hfind).2, ht, hframes⟩

end World

end GameServer
