import GameServer.Proofs.Capacity
import GameServer.Proofs.Telling

/-!
Who hears what is said, and where it is kept.

Everybody in the speaker's room is told the same line, cut to what a line of chat may take; the room
remembers the line in full; and the row that waits to be written has the parts that the line was
made of.  The rooms are kept apart by the numbers of their members and by the names under which the
cache keeps their lines.  What the stores make of it is nothing to those who listen.
-/

namespace GameServer

open Wire

/-! ### What is heard -/

/-- A text is what remains of a line that is cut: whole characters off its front, that take so many
    bytes and no more, and as many as do. -/
structure Cuts (limit : Nat) (line text : String) : Prop where
  front : text.toList <+: line.toList
  fits : text.utf8ByteSize ≤ limit
  longest : ∀ more : String, more.toList <+: line.toList → more.utf8ByteSize ≤ limit →
    more.toList <+: text.toList

theorem cuts_cut (limit : Nat) (line : String) :
    Cuts limit line (String.ofList (Utf8.cut limit line.toList)) where
  front := by
    rw [String.toList_ofList]
    exact Utf8.cut_isPrefix _ _
  fits := by
    rw [← Utf8.length_encode, String.toList_ofList]
    exact Utf8.length_encode_cut_le _ _
  longest more hfront hfits := by
    rw [String.toList_ofList]
    exact Utf8.prefix_cut hfront (by rwa [Utf8.length_encode])

/-- A line as a room hears it. -/
def cutLine (line : String) : String := String.ofList (Utf8.cut chatLimit line.toList)

theorem toList_cutLine (line : String) :
    (cutLine line).toList = Utf8.cut chatLimit line.toList := String.toList_ofList

theorem cuts_cutLine (line : String) : Cuts chatLimit line (cutLine line) := cuts_cut ..

/-- A line and what is cut from it are told in the same way. -/
theorem Session.tell_cutLine (s : Session) (sender : UInt32) (line : String) :
    s.tell (.chat sender (cutLine line)) = s.tell (.chat sender line) := by
  have htail : Write.tail chatLimit (cutLine line) = Write.tail chatLimit line := by
    rw [Write.tail, toList_cutLine, Utf8.cut_of_fits (Utf8.length_encode_cut_le _ _), Write.tail]
  simp only [tell, send, Response.packet, Response.body, htail]

namespace Lobby

variable {l : Lobby} {p : Place} {room : RoomId}

/-- The members of a room are those who are bound to it. -/
theorem Consistent.mem_members_iff (h : l.Consistent) :
    p ∈ l.members room ↔ ∃ s, l.sessions[p]? = some s ∧ s.room = some room := by
  unfold members
  split
  next hnone =>
    refine iff_of_false List.not_mem_nil ?_
    rintro ⟨s, hs, hroom⟩
    obtain ⟨r, hr, -⟩ := (h.room_iff hs room).mp hroom
    rw [hnone] at hr
    cases hr
  next r hr => exact h.mem_places_iff hr

end Lobby

namespace World

variable {w : World} {id : SessionId} {message : String} {u : ChatRow} {place : Place} {s : Session}

/-! ### What one utterance does -/

/-- **Whoever is bound to the room hears what is said in it, and nobody else does.** -/
theorem getElem?_utter (h : w.lobby.Consistent) (u : ChatRow) (p : Place) :
    (w.utter u).sessions[p]? =
      w.sessions[p]?.map fun t => if t.room = some u.room then t.tell u.response else t := by
  change (Sessions.broadcast u.response (w.lobby.members u.room) w.sessions).1[p]? = _
  rw [Sessions.getElem?_broadcast (h.nodup_members u.room)]
  cases ht : w.sessions[p]? with
  | none => rfl
  | some t =>
    have hmember : p ∈ w.lobby.members u.room ↔ t.room = some u.room := by
      rw [h.mem_members_iff]
      constructor
      · rintro ⟨t', ht', hroom⟩
        obtain rfl := Option.some.inj (ht.symm.trans ht')
        exact hroom
      · exact fun hroom => ⟨t, ht, hroom⟩
    simp only [Option.map_some, hmember]

/-- Whoever is open and bound to the room is told the line, cut, and everybody else stays as they
    are. -/
theorem told_utter (h : w.lobby.Consistent) (u : ChatRow) {p : Place} {t : Session}
    (ht : w.sessions[p]? = some t) :
    ∃ t', (w.utter u).sessions[p]? = some t' ∧
      if t.closed = false ∧ t.room = some u.room then
        t.Told (.chat u.session.val (cutLine u.line)) t'
      else t' = t := by
  refine ⟨_, (getElem?_utter h u p).trans (congrArg _ ht), ?_⟩
  have hheard := t.told_or_same (Response.fits_chat u.session.val (cutLine u.line))
  rw [Session.tell_cutLine] at hheard
  by_cases hmember : t.room = some u.room
  · simp only [hmember, and_true, if_true]
    exact hheard
  · simp [hmember]

/-- The cache may have other lines, and another row may wait; that is all that the stores know
    of it. -/
theorem gateway_utter_eq (w : World) (u : ChatRow) :
    (w.utter u).gateway =
      { w.gateway with
        cache := { w.gateway.cache with lists := w.gateway.linesAfter u.room u.line }
        pending := w.gateway.pending ++ if w.gateway.running then [.saveChat u] else [] } := by
  change ((w.gateway.remember u.room u.username u.message).post? (.saveChat u)).getD
    (w.gateway.remember u.room u.username u.message) = _
  rw [Gateway.remember_eq, Gateway.post?]
  cases hrunning : w.gateway.running <;> simp [hrunning, ChatRow.line]

/-- What is said becomes the newest line of its room, and of no other. -/
theorem history_utter (hlength : w.gateway.historyLength ≠ 0) (hup : w.gateway.cache.down = false)
    (u : ChatRow) (room : RoomId) :
    (w.utter u).gateway.history room =
      if room = u.room then
        (u.line :: w.gateway.history u.room).take w.gateway.historyLength
      else w.gateway.history room := by
  have hheeds : (w.utter u).gateway.Heeds := by
    rw [gateway_utter_eq]
    exact .inr hup
  rw [Gateway.history_eq hheeds, historyLength_utter,
    Gateway.linesOf_of_memory_eq (w.gateway_utter u),
    Gateway.linesOf_remember (Nat.pos_of_ne_zero hlength) hup, Gateway.history_eq (.inr hup),
    Gateway.history_eq (.inr hup)]
  split
  next =>
    -- what falls off the back is the same, whether it is cut off before or after
    obtain ⟨n, hn⟩ := Nat.exists_eq_succ_of_ne_zero hlength
    rw [hn, List.take_take, Nat.min_self, List.take_succ_cons, List.take_succ_cons, List.take_take,
      Nat.min_eq_left (Nat.le_succ n)]
    rfl
  next => rfl

/-- A line that cannot be remembered leaves the cache as it is. -/
theorem cache_utter (hdeaf : ¬ (w.gateway.historyLength ≠ 0 ∧ w.gateway.cache.down = false))
    (u : ChatRow) : (w.utter u).gateway.cache = w.gateway.cache := by
  have hlines : w.gateway.linesAfter u.room u.line = w.gateway.cache.lists := by
    rw [Gateway.linesAfter, if_pos]
    by_contra hneither
    exact hdeaf (by simpa using hneither)
  rw [gateway_utter_eq, hlines]

theorem elsewhere_utter (w : World) (u : ChatRow) : w.Elsewhere (w.utter u) where
  length := by
    have hstanding : (w.utter u).sessions.map Session.standing = w.sessions.map Session.standing :=
      Sessions.map_standing_broadcast ..
    have hlength := congrArg List.length hstanding
    rwa [List.length_map, List.length_map] at hlength
  rest := rfl

/-! ### Who speaks -/

/-- Whoever the directory finds under a number is where the index has the number. -/
theorem roomOf_of_find? (henrolled : w.Enrolled) (hconsistent : w.lobby.Consistent)
    (hfind : w.find? id = some (place, s)) : s.id = id ∧ w.lobby.roomOf id = s.room := by
  obtain ⟨hplace, hs⟩ := find?_eq_some.mp hfind
  obtain ⟨b, hb, hown⟩ := henrolled.registered hplace
  obtain ⟨t, ht, rfl⟩ := badges_eq_some.mp hb
  obtain rfl := Option.some.inj (hs.symm.trans ht)
  have hid : s.id = id := hown
  refine ⟨hid, Option.ext fun room => ?_⟩
  change w.lobby.index[id]? = some room ↔ s.room = some room
  rw [hconsistent.index_iff, hconsistent.room_iff hs, hid]
  constructor
  · rintro ⟨place', hseat⟩
    -- sessions of one number are one session
    obtain ⟨t, ht, hid'⟩ := hconsistent.seated hseat
    have hsame : place' = place :=
      henrolled.distinct (badges_eq_some.mpr ⟨t, ht, rfl⟩) hb (hid'.trans hid.symm)
    rwa [← hsame]
  · exact fun hseat => ⟨place, hseat⟩

/-- What somebody in a room says is said. -/
theorem chat_of_member (henrolled : w.Enrolled) (hconsistent : w.lobby.Consistent) {room : RoomId}
    (hfind : w.find? id = some (place, s)) (hroom : s.room = some room) (message : String) :
    w.chat id message = w.utter ⟨id, s.name, message, room⟩ := by
  obtain ⟨-, hindex⟩ := roomOf_of_find? henrolled hconsistent hfind
  exact chat_of_some (utterance?_eq_some.mpr ⟨room, place, s, hindex.trans hroom, hfind, rfl⟩)

/-- What is said by nobody, or by somebody who is nowhere, comes to nothing. -/
theorem chat_of_stranger (henrolled : w.Enrolled) (hconsistent : w.lobby.Consistent)
    (hnowhere : ∀ place s, w.find? id = some (place, s) → s.room = none) (message : String) :
    w.chat id message = w := by
  apply chat_of_none
  by_contra hsaid
  obtain ⟨u, hu⟩ := Option.ne_none_iff_exists'.mp hsaid
  obtain ⟨room, place, s, hroom, hfind, -⟩ := utterance?_eq_some.mp hu
  obtain ⟨-, hindex⟩ := roomOf_of_find? henrolled hconsistent hfind
  rw [hindex, hnowhere place s hfind] at hroom
  cases hroom

/-- What the stores hold, and whether they fail, is nothing to anybody in the rooms. -/
theorem lobby_chat (w : World) (gateway : Gateway) (id : SessionId) (message : String) :
    (({ w with gateway } : World).chat id message).lobby = (w.chat id message).lobby := by
  have hfind : ({ w with gateway } : World).find? id = w.find? id := rfl
  unfold chat
  rw [hfind]
  dsimp only
  split
  · rfl
  · split <;> rfl

/-! ### Every run -/

/-- **What is said goes to the speaker's room, once, and to all records alike.**  In any run let a
    session speak.  If it is registered and in a room, every open session that is bound to the room
    is told one line, under the speaker's number, and nobody else is told anything; the line is made
    of the speaker's name and of what was said, and is cut to whole characters.  As far as the cache
    answers and lines are kept, the whole line is now the newest of the room, and all other rooms
    have what they had; a row with the same name, message and room waits to be written, if rows are
    still taken; and nothing else has changed.  If it is not registered or in no room, nothing
    changes at all.  Whatever the stores hold and however they fail, the rooms and everybody in them
    are told the same. -/
theorem chat_reaches_room (hstart : w.Pristine) (events : List Event)
    (hrun : Along next Enabled w events) (id : SessionId) (message : String) :
    let v := after next w events
    let v' := v.execute (.request id (.chat message))
    (∀ place s room, v.find? id = some (place, s) → s.room = some room →
      let line := chatLine s.name message
      (∃ text, Cuts 256 line text ∧
        ∀ (p : Place) (t : Session), v.sessions[p]? = some t → ∃ t', v'.sessions[p]? = some t' ∧
          if t.closed = false ∧ t.room = some room then t.Told (.chat s.id.val text) t'
          else t' = t) ∧
      (v.gateway.historyLength ≠ 0 ∧ v.gateway.cache.down = false → ∀ other,
        v'.gateway.history other =
          if other = room then (line :: v.gateway.history room).take v.gateway.historyLength
          else v.gateway.history other) ∧
      (¬ (v.gateway.historyLength ≠ 0 ∧ v.gateway.cache.down = false) →
        v'.gateway.cache = v.gateway.cache) ∧
      v'.gateway.pending = v.gateway.pending ++
        (if v.gateway.running then [.saveChat ⟨s.id, s.name, message, room⟩] else []) ∧
      v'.gateway =
        { v.gateway with
          cache := { v.gateway.cache with lists := v'.gateway.cache.lists }
          pending := v'.gateway.pending } ∧
      v.Elsewhere v') ∧
    ((∀ place s, v.find? id = some (place, s) → s.room = none) → v' = v) ∧
    ∀ gateway, (({ v with gateway } : World).execute (.request id (.chat message))).lobby =
      v'.lobby := by
  intro v v'
  obtain ⟨henrolled, hhoused⟩ := kept_housed.after ⟨hstart.enrolled, hstart.housed⟩ events hrun
  have hconsistent := hhoused.inUse.consistent
  refine ⟨?_, fun hnowhere => chat_of_stranger henrolled hconsistent hnowhere message,
    fun gateway => v.lobby_chat gateway id message⟩
  intro place s room hfind hroom line
  obtain ⟨rfl, -⟩ := roomOf_of_find? henrolled hconsistent hfind
  let u : ChatRow := ⟨s.id, s.name, message, room⟩
  have hsaid : v' = v.utter u := chat_of_member henrolled hconsistent hfind hroom message
  rw [hsaid]
  refine ⟨⟨cutLine line, cuts_cutLine line, fun _ _ => told_utter hconsistent u⟩,
    fun hkept => history_utter hkept.1 hkept.2 u, fun hdeaf => cache_utter hdeaf u, ?_, ?_,
    v.elsewhere_utter u⟩
  · rw [gateway_utter_eq]
  · rw [gateway_utter_eq]

/-- Ann and Bob are in one room and Cid is in another, but Bob's connection has died.  Ann says
    something: she is told, Bob and Cid are not, the room has the line, and the row waits. -/
theorem chat_reaches_room_lost_connection :
    let asks (place : Place) (r : Request) : Event := .hear place (r.encode.toOption.getD [])
    let database := ((({} : Database).seed 1 "ann" "a").seed 2 "bob" "b").seed 3 "cid" "c"
    let w : World := { gateway := { database } }
    let events : List Event :=
      [.connect 256, .connect 256, .connect 256, asks 0 (.login "ann" "a"),
        asks 1 (.login "bob" "b"), asks 2 (.login "cid" "c"), asks 0 (.enterRoom ⟨5⟩),
        asks 1 (.enterRoom ⟨5⟩), asks 2 (.enterRoom ⟨6⟩),
        .execute (.request ⟨1⟩ (.login "ann" "a")), .execute (.request ⟨2⟩ (.login "bob" "b")),
        .execute (.request ⟨3⟩ (.login "cid" "c")), .execute (.request ⟨1⟩ (.enterRoom ⟨5⟩)),
        .execute (.request ⟨2⟩ (.enterRoom ⟨5⟩)), .execute (.request ⟨3⟩ (.enterRoom ⟨6⟩)),
        .disconnect 1]
    let v := after next w events
    let v' := v.execute (.request ⟨1⟩ (.chat "hi"))
    w.Pristine ∧ Along next Enabled w events ∧
      (∃ text t t', Cuts 256 "ann: hi" text ∧ v.sessions[0]? = some t ∧ v'.sessions[0]? = some t' ∧
        t.Told (.chat 1 text) t') ∧
      v'.sessions[1]? = v.sessions[1]? ∧ v'.sessions[2]? = v.sessions[2]? ∧
      v'.gateway.history ⟨5⟩ = ["ann: hi"] ∧ v'.gateway.history ⟨6⟩ = [] ∧
      v'.gateway.pending = [.saveChat ⟨⟨1⟩, "ann", "hi", ⟨5⟩⟩] := by
  intro asks database w events v v'
  have hstart : w.Pristine := pristine_start {} {} database true
  have hrun : Along next Enabled w events := by decide +kernel
  have hann : (v.find? ⟨1⟩).map (fun f => (f.1, f.2.id, f.2.name, f.2.closed, f.2.room)) =
      some (0, ⟨1⟩, "ann", false, some ⟨5⟩) := by decide +kernel
  have hbob : v.sessions[1]?.map Session.closed = some true := by decide +kernel
  have hcid : v.sessions[2]?.map Session.room = some (some ⟨6⟩) := by decide +kernel
  have hstores : v.gateway.historyLength = 50 ∧ v.gateway.cache.down = false ∧
      v.gateway.history ⟨5⟩ = [] ∧ v.gateway.history ⟨6⟩ = [] ∧ v.gateway.pending = [] ∧
      v.gateway.running = true := by decide +kernel
  obtain ⟨hlength, hup, hfive, hsix, hpending, hrunning⟩ := hstores
  obtain ⟨⟨place, s⟩, hfind, hown⟩ := Option.map_eq_some_iff.mp hann
  obtain ⟨rfl, hid, hname, hopen, hroom⟩ :
      place = 0 ∧ s.id = ⟨1⟩ ∧ s.name = "ann" ∧ s.closed = false ∧ s.room = some ⟨5⟩ := by
    simpa using hown
  obtain ⟨hmember, -⟩ := chat_reaches_room hstart events hrun ⟨1⟩ "hi"
  have hv : after next w events = v := rfl
  have hv' : v.execute (.request ⟨1⟩ (.chat "hi")) = v' := rfl
  rw [hv, hv'] at hmember
  obtain ⟨⟨text, hcuts, htold⟩, hremembers, -, hposted, -⟩ := hmember 0 s ⟨5⟩ hfind hroom
  have hhistory := hremembers ⟨by rw [hlength]; decide, hup⟩
  rw [hlength, hfive, hname] at hhistory
  rw [hpending, hrunning, if_pos rfl, List.nil_append, hid, hname] at hposted
  rw [hname] at hcuts
  rw [hid] at htold
  have huntold : ∀ {p : Place} {t : Session}, v.sessions[p]? = some t →
      ¬ (t.closed = false ∧ t.room = some ⟨5⟩) → v'.sessions[p]? = v.sessions[p]? := by
    intro p t ht hdeaf
    obtain ⟨t', ht', hsame⟩ := htold p t ht
    rw [if_neg hdeaf] at hsame
    rw [ht, ← hsame]
    exact ht'
  refine ⟨hstart, hrun, ?_, ?_, ?_, (hhistory ⟨5⟩).trans (if_pos rfl),
    (hhistory ⟨6⟩).trans ((if_neg (by decide)).trans hsix), hposted⟩
  · obtain ⟨-, hs⟩ := find?_eq_some.mp hfind
    obtain ⟨t', ht', hheard⟩ := htold 0 s hs
    rw [if_pos ⟨hopen, hroom⟩] at hheard
    exact ⟨text, s, t', hcuts, hs, ht', hheard⟩
  · obtain ⟨t, ht, hclosed⟩ := Option.map_eq_some_iff.mp hbob
    exact huntold ht fun h => absurd (h.1.symm.trans hclosed) nofun
  · obtain ⟨t, ht, hroom⟩ := Option.map_eq_some_iff.mp hcid
    exact huntold ht fun h => absurd (h.2.symm.trans hroom) (by decide)

end World

end GameServer
