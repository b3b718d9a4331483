import GameServer.Proofs.Registry
import GameServer.Proofs.RoundTrip

/-!
What a session has been sent.

The frames that were begun and those that wait behind them are all that a session was sent, in
order.  Sending to one session, and broadcasting to the members of a room, puts one frame behind
them; nobody else is sent anything.
-/

namespace GameServer

open Wire

namespace Wire.Response

/-- The frame of a response that fits one. -/
def frame (r : Response) : Bytes :=
  Header.encode ⟨UInt16.ofNat (headerSize + r.body.length), r.packet.code⟩ ++ r.body

def Fits (r : Response) : Prop := headerSize + r.body.length ≤ maxFrame

theorem encode_of_fits {r : Response} (h : r.Fits) : r.encode = .ok r.frame := by
  rw [encode, Frame.encode, if_neg (Nat.not_lt.mpr h)]
  rfl

theorem fits_chat (sender : UInt32) (text : String) : (chat sender text).Fits := by
  have htail := length_tail_le chatLimit text
  rw [Fits, body, List.length_append, length_word]
  simp only [headerSize, maxFrame, chatLimit] at htail ⊢
  omega

theorem fits_enterRoomResult (success : Bool) (room : RoomId) :
    (enterRoomResult success room).Fits := by
  rw [Fits, body, List.length_append, length_flag, length_room]
  decide

/-- Lines of chat with the same text differ in nothing but who is named as the sender. -/
theorem frame_chat (sender : UInt32) (text : String) :
    (chat sender text).frame =
      Header.encode ⟨UInt16.ofNat (8 + (Write.tail chatLimit text).length), Packet.chat.code⟩ ++
        Write.word sender ++ Write.tail chatLimit text := by
  rw [frame, body, List.length_append, length_word, ← Nat.add_assoc, List.append_assoc]
  rfl

end Wire.Response

namespace Session

/-- The frames that a session was sent and has not dropped, oldest first. -/
def frames (s : Session) : List Bytes := s.link.begun ++ s.outbox

variable {s : Session} {r : Response}

theorem frames_beginNext (hopen : s.closed = false) : s.beginNext.frames = s.frames := by
  rw [beginNext, hopen]
  cases hout : s.outbox with
  | nil => simp [frames, hout]
  | cons first rest => simp [frames, hout, Link.send]

theorem closed_of_standing_eq {t : Session} (h : t.standing = s.standing) :
    t.closed = s.closed :=
  congrArg Standing.closed h

/-- **A response goes out behind all that were sent before.** -/
theorem frames_send (hopen : s.closed = false) (hfits : r.Fits) :
    ∃ t, s.send r = .ok t ∧ t.closed = false ∧ t.frames = s.frames ++ [r.frame] := by
  let waiting : Session := { s with outbox := s.outbox ++ [r.frame] }
  have hframes : waiting.frames = s.frames ++ [r.frame] := (List.append_assoc ..).symm
  have hsend : s.send r =
      .ok (if s.sending then waiting else { waiting with sending := true }.beginNext) := by
    have hencode : Frame.encode r.packet r.body = .ok r.frame := Response.encode_of_fits hfits
    rw [send, enqueue, if_neg (by simp [hopen]), hencode]
  refine ⟨_, hsend, ?_, ?_⟩
  · rw [closed_of_standing_eq (standing_send hsend), hopen]
  · split
    · exact hframes
    · rw [frames_beginNext (s := { waiting with sending := true }) hopen]
      exact hframes

end Session

namespace Sessions

variable {sessions : List Session} {place p : Place} {s : Session} {r : Response}
  {places : List Place}

theorem send_elsewhere (hp : place ≠ p) : (send place r sessions)[p]? = sessions[p]? := by
  unfold send
  split
  · rfl
  · split
    · rfl
    · exact List.getElem?_set_ne hp

theorem send_at (hs : sessions[place]? = some s) (hopen : s.closed = false) (hfits : r.Fits) :
    ∃ t, (send place r sessions)[place]? = some t ∧ t.closed = false ∧
      t.frames = s.frames ++ [r.frame] := by
  obtain ⟨t, hsend, hstays, hframes⟩ := Session.frames_send hopen hfits
  refine ⟨t, ?_, hstays, hframes⟩
  simp only [send, hs, hsend]
  exact List.getElem?_set_self (List.getElem?_eq_some_iff.mp hs).1

/-- A broadcast is so many sends to those who are open. -/
theorem broadcast_cons :
    (broadcast r (place :: places) sessions).1 =
      (broadcast r places
        (if (sessions[place]?.map Session.closed) = some false then send place r sessions
          else sessions)).1 := by
  rw [broadcast_step]
  unfold send
  cases hs : sessions[place]? with
  | none => simp
  | some s =>
    cases hclosed : s.closed with
    | true => simp [hclosed]
    | false =>
      simp only [Option.map_some, hclosed, Bool.false_eq_true, if_false, if_true]
      cases s.send r <;> rfl

theorem broadcast_elsewhere (hp : p ∉ places) :
    (broadcast r places sessions).1[p]? = sessions[p]? := by
  induction places generalizing sessions with
  | nil => rfl
  | cons place rest ih =>
    simp only [List.mem_cons, not_or] at hp
    rw [broadcast_cons, ih hp.2]
    split
    · exact send_elsewhere (Ne.symm hp.1)
    · rfl

/-- **Whoever is open and listed hears a broadcast once, and nobody else hears it.** -/
theorem broadcast_at (hnodup : places.Nodup) (hs : sessions[p]? = some s) (hfits : r.Fits) :
    ∃ t, (broadcast r places sessions).1[p]? = some t ∧ t.closed = s.closed ∧
      t.frames = s.frames ++ if s.closed = false ∧ p ∈ places then [r.frame] else [] := by
  induction places generalizing sessions with
  | nil => exact ⟨s, hs, rfl, by simp⟩
  | cons place rest ih =>
    obtain ⟨hout, hrest⟩ := List.nodup_cons.mp hnodup
    rw [broadcast_cons]
    by_cases hp : place = p
    · subst hp
      -- the rest of the broadcast passes them by
      rw [broadcast_elsewhere hout, hs, Option.map_some]
      cases hclosed : s.closed with
      | true => exact ⟨s, by simpa using hs, hclosed, by simp⟩
      | false =>
        obtain ⟨t, ht, hstays, hframes⟩ := send_at hs hclosed hfits
        exact ⟨t, by simpa using ht, hstays, by simpa using hframes⟩
    · have hsame : (if (sessions[place]?.map Session.closed) = some false then send place r sessions
          else sessions)[p]? = some s := by
        split
        · rw [send_elsewhere hp, hs]
        · exact hs
      obtain ⟨t, ht, hclosed, hframes⟩ := ih hrest hsame
      refine ⟨t, ht, hclosed, ?_⟩
      rw [hframes]
      simp [Ne.symm hp]

end Sessions

/-! ### The members of a room -/

namespace Lobby

variable {l : Lobby}

/-- Sessions of different numbers are at different places. -/
theorem nodup_values {sessions : List Session} {t : Std.ExtTreeMap SessionId Place}
    (hseated : ∀ {id : SessionId} {place : Place}, t[id]? = some place →
      ∃ s, sessions[place]? = some s ∧ s.id = id) : t.values.Nodup := by
  rw [values_eq_map_snd, List.Nodup, List.pairwise_map]
  refine List.Pairwise.imp_of_mem ?_ Std.ExtTreeMap.distinct_keys_toList
  intro a b ha hb hkeys hplaces
  -- two numbers at one place are the number of the session there
  obtain ⟨s, hs, hid⟩ := hseated (Std.ExtTreeMap.mem_toList_iff_getElem?_eq_some.mp ha)
  obtain ⟨t, ht, hid'⟩ := hseated (Std.ExtTreeMap.mem_toList_iff_getElem?_eq_some.mp hb)
  rw [← hplaces] at ht
  obtain rfl := Option.some.inj (hs.symm.trans ht)
  exact hkeys (Std.LawfulEqCmp.compare_eq_iff_eq.mpr (hid.symm.trans hid'))

theorem Consistent.nodup_places (h : l.Consistent) {room : RoomId} {r : Room}
    (hr : l.rooms[room]? = some r) : r.places.Nodup :=
  nodup_values fun hplace => h.seated ⟨r, hr, hplace⟩

theorem Consistent.nodup_members (h : l.Consistent) (room : RoomId) : (l.members room).Nodup := by
  unfold members
  split
  · exact List.nodup_nil
  · next r hr => exact h.nodup_places hr

end Lobby

end GameServer
