import GameServer.Proofs.Talk
import Mathlib.Data.List.DropRight
import Std.Data.String.ToInt

/-!
What a room remembers.

The cache keeps a list of lines for every room, newest first.  Saying something puts a line at the
front of one list and cuts that list to size; nothing else touches any of them.  So the lists are
made of what was said, and of nothing else, as long as the cache answers when something is said.
-/

namespace GameServer

open Wire

/-! ### Lists in the cache -/

namespace Cache

variable {c c' : Cache} {key value : String}

theorem push_of_up (hup : c.down = false) (key value : String) :
    ∃ size c', c.push key value = .ok (size, c') ∧ c'.down = false := by
  unfold push whenUp
  rw [if_neg (by simp [hup])]
  exact ⟨_, _, rfl, hup⟩

theorem trim_of_up (hup : c.down = false) (key : String) (start stop : Nat) :
    ∃ c', c.trim key start stop = .ok c' := by
  unfold trim whenUp
  rw [if_neg (by simp [hup])]
  exact ⟨_, rfl⟩

theorem list_push {size : Nat} (h : c.push key value = .ok (size, c')) (other : String) :
    c'.list other = if other = key then value :: c.list key else c.list other := by
  obtain ⟨-, heq⟩ := up_of_whenUp h
  cases heq
  simp only [list, lines, lookup_insert]
  split <;> rfl

theorem list_trim {start stop : Nat} (h : c.trim key start stop = .ok c') (other : String) :
    c'.list other =
      if other = key then ((c.list key).take (stop + 1)).drop start else c.list other := by
  obtain ⟨-, rfl⟩ := up_of_whenUp h
  simp only [list, lines, lookup_modify]
  split
  · cases c.lists[key]? with
    | none => simp
    | some l => simp
  · rfl

end Cache

theorem chatKey_injective {room other : RoomId} (h : chatKey room = chatKey other) :
    room = other := by
  have hdigits : room.digits = other.digits := (String.append_right_inj _).mp h
  have hword : room.val.toInt = other.val.toInt := Int.repr_injective hdigits
  cases room
  cases other
  exact congrArg RoomId.mk (Int32.toInt_inj.mp hword)

namespace Gateway

variable {g g' : Gateway} {room : RoomId} {username message : String}

/-- What the gateway remembers, and how much it may. -/
def memory (g : Gateway) : StoreSettings × Std.ExtTreeMap String Lines :=
  (g.settings, g.cache.lists)

/-- The lines that the cache holds for a room, newest first. -/
def linesOf (g : Gateway) (room : RoomId) : List String := g.cache.list (chatKey room)

/-- The cache answers, if there is anything to ask it. -/
def Heeds (g : Gateway) : Prop := g.historyLength = 0 ∨ g.cache.down = false

instance (g : Gateway) : Decidable g.Heeds :=
  inferInstanceAs (Decidable (g.historyLength = 0 ∨ g.cache.down = false))

theorem historyLength_of_memory_eq (h : g'.memory = g.memory) :
    g'.historyLength = g.historyLength :=
  congrArg (fun m => m.1.historyLength.toNat) h

theorem linesOf_of_memory_eq (h : g'.memory = g.memory) (room : RoomId) :
    g'.linesOf room = g.linesOf room :=
  congrArg (fun m => (m.2[chatKey room]?.getD {}).toList) h

theorem memory_addPresence (g : Gateway) (username : String) :
    (g.addPresence username).2.memory = g.memory := by
  unfold addPresence
  split
  · next hadd =>
    obtain ⟨-, heq⟩ := Cache.up_of_whenUp hadd
    cases heq
    rfl
  · rfl

theorem memory_removePresence (g : Gateway) (username : String) :
    (g.removePresence username).memory = g.memory := by
  unfold removePresence
  split
  · next hremove =>
    obtain ⟨-, heq⟩ := Cache.up_of_whenUp hremove
    cases heq
    rfl
  · rfl

theorem memory_post? {r : StoreRequest} (h : g.post? r = some g') : g'.memory = g.memory := by
  unfold post? at h
  split at h
  · cases h; rfl
  · cases h

/-- **A line that is said goes to the front, and what is too old falls off the back.** -/
theorem linesOf_remember (hlength : 0 < g.historyLength) (hup : g.cache.down = false)
    (other : RoomId) :
    (g.remember room username message).linesOf other =
      if other = room then (chatLine username message :: g.linesOf room).take g.historyLength
      else g.linesOf other := by
  obtain ⟨size, pushed, hpush, hup'⟩ :=
    Cache.push_of_up hup (chatKey room) (chatLine username message)
  obtain ⟨trimmed, htrim⟩ := Cache.trim_of_up hup' (chatKey room) 0 (g.historyLength - 1)
  have hremember : g.remember room username message = { g with cache := trimmed } := by
    simp only [remember, if_neg (Nat.ne_of_gt hlength), hpush, htrim]
  have hkey : chatKey other = chatKey room ↔ other = room :=
    ⟨chatKey_injective, congrArg chatKey⟩
  rw [hremember]
  simp only [linesOf, Cache.list_trim htrim, Cache.list_push hpush, hkey, List.drop_zero,
    Nat.sub_add_cancel hlength, if_true]
  split <;> rfl

/-- Should the cache fail between the two calls, after the line and before the cut, the list keeps a
    line too many until something is said again. -/
theorem linesOf_of_trim_failed {size : Nat} {cache : Cache} (hlength : 0 < g.historyLength)
    (hpush : g.cache.push (chatKey room) (chatLine username message) = .ok (size, cache)) :
    let left : Gateway := { g with cache }
    left.linesOf room = chatLine username message :: g.linesOf room ∧
      ∀ other more, (left.remember room other more).linesOf room =
        (chatLine other more :: left.linesOf room).take g.historyLength := by
  intro left
  obtain ⟨hup, hpushed⟩ := Cache.up_of_whenUp hpush
  have hup' : cache.down = false := by
    rw [(Prod.mk.inj hpushed).2]
    exact hup
  constructor
  · exact (Cache.list_push hpush (chatKey room)).trans (if_pos rfl)
  · intro other more
    exact (linesOf_remember (g := left) hlength hup' room).trans (if_pos rfl)

theorem remember_of_zero (h : g.historyLength = 0) : g.remember room username message = g := by
  rw [remember, if_pos h]

theorem settings_remember (g : Gateway) (room : RoomId) (username message : String) :
    (g.remember room username message).settings = g.settings := by
  unfold remember
  split
  · rfl
  · split
    · rfl
    · split <;> rfl

/-- What a room is said to remember is at most as many lines as it may. -/
theorem history_eq (h : g.Heeds) : g.history room = (g.linesOf room).take g.historyLength := by
  unfold history
  split
  · next hzero => rw [hzero, List.take_zero]
  · next hlength =>
    have hup := h.resolve_left hlength
    have hpositive : 0 < g.historyLength := Nat.pos_of_ne_zero hlength
    simp [Cache.range, Cache.whenUp, hup, linesOf, Nat.sub_add_cancel hpositive]

end Gateway

namespace World

/-! ### What nothing is remembered of -/

section Quiet

variable (w : World)

theorem gateway_reply (id : SessionId) (r : Response) : (w.reply id r).gateway = w.gateway := by
  unfold reply
  split <;> rfl

theorem gateway_announce (d : Option Departure) : (w.announce d).gateway = w.gateway := by
  cases d <;> rfl

theorem gateway_retell (place : Place) (room : RoomId) :
    (w.retell place room).gateway = w.gateway := by
  unfold retell
  generalize (w.gateway.history room).reverse = lines
  induction lines generalizing w with
  | nil => rfl
  | cons line rest ih => exact ih (w.send place _)

theorem gateway_report (outcomes : List Registration) :
    (w.report outcomes).gateway = w.gateway := by
  induction outcomes generalizing w with
  | nil => rfl
  | cons r rest ih => exact (ih _).trans (w.gateway_reply ..)

theorem gateway_receive (place : Place) (s : Session) (bytes : Bytes) :
    (w.receive place s bytes).gateway = w.gateway := by
  cases bytes with
  | nil => rfl
  | cons byte rest =>
    dsimp only [receive]
    split <;> rfl

theorem gateway_dispatch (c : Completion) : (w.dispatch c).2.gateway = w.gateway := by
  unfold dispatch
  split
  · rfl
  · split
    · rfl
    · cases c with
      | received session bytes => exact w.gateway_receive ..
      | sent | failed | shutdown => rfl

theorem gateway_completeSend (place : Place) : (w.completeSend place).2.gateway = w.gateway := by
  unfold completeSend
  split
  · rfl
  · split
    · exact w.gateway_dispatch _
    · exact gateway_dispatch _ _

theorem gateway_hear (place : Place) (bytes : Bytes) : (w.hear place bytes).gateway = w.gateway := by
  unfold hear
  split <;> rfl

theorem gateway_leaveRoom (id : SessionId) : (w.leaveRoom id).gateway = w.gateway :=
  gateway_announce _ _

theorem gateway_enterRoom (id : SessionId) (room : RoomId) :
    (w.enterRoom id room).gateway = w.gateway := by
  unfold enterRoom
  split
  · rfl
  · split
    · split
      · exact (gateway_retell _ _ _).trans (gateway_announce _ _)
      · rfl
      · rfl
    · rfl

theorem gateway_createRoom (id : SessionId) (title : String) :
    (w.createRoom id title).gateway = w.gateway := by
  unfold createRoom
  split
  · rfl
  · split
    · split
      · exact gateway_announce _ _
      · rfl
    · rfl

theorem gateway_move (id : SessionId) (vx vy : Single) : (w.move id vx vy).gateway = w.gateway := by
  unfold move
  split <;> rfl

theorem memory_register (id : SessionId) (username password : String) :
    (w.register id username password).gateway.memory = w.gateway.memory := by
  unfold register
  split
  · next hpost => exact Gateway.memory_post? hpost
  · rw [gateway_reply]

theorem memory_login (id : SessionId) (username password : String) :
    (w.login id username password).gateway.memory = w.gateway.memory := by
  have hadd := w.gateway.memory_addPresence username
  unfold login
  split
  · rfl
  · split
    · rfl
    · split
      · rfl
      · split
        · next gateway hrefused => rwa [hrefused] at hadd
        · next gateway hadded =>
          rw [hadded] at hadd
          split
          · exact (gateway.memory_removePresence username).trans hadd
          · exact hadd

theorem memory_logout (id : SessionId) (carried : Option String) :
    (w.logout id carried).gateway.memory = w.gateway.memory := by
  obtain ⟨-, -, hgateway⟩ := w.leaveRoom_unname id carried
  have hclose : ∀ (v : World) (found : Option Place), (v.closeAt found).gateway = v.gateway := by
    intro v found
    cases found <;> rfl
  rw [logout_eq, hclose]
  cases (w.unname id carried).2 with
  | none => rw [release, hgateway]
  | some username => exact (Gateway.memory_removePresence _ _).trans (by rw [hgateway])

/-- Executing what is no chat changes no room's memory. -/
theorem memory_execute {c : Command} (hchat : ∀ id message, c ≠ .request id (.chat message)) :
    (w.execute c).gateway.memory = w.gateway.memory := by
  cases c with
  | hangUp id username => exact w.memory_logout id _
  | request id r =>
    cases r with
    | register username password => exact w.memory_register id username password
    | login username password => exact w.memory_login id username password
    | enterRoom room => exact congrArg _ (w.gateway_enterRoom id room)
    | leaveRoom => exact congrArg _ (w.gateway_leaveRoom id)
    | move vx vy => exact congrArg _ (w.gateway_move id vx vy)
    | chat message => exact absurd rfl (hchat id message)
    | createRoom title => exact congrArg _ (w.gateway_createRoom id title)
    | listRooms => exact congrArg _ (w.gateway_reply id _)
    | logout => exact w.memory_logout id none

theorem memory_write (i : Nat) : (w.write i).gateway.memory = w.gateway.memory := by
  unfold write
  split
  · rfl
  · rw [gateway_report]
    rfl

/-- **Where nothing is said nothing is remembered**, and nothing forgotten. -/
theorem memory_next {e : Event} (hsilent : w.spoken? e = none) :
    (w.next e).gateway.memory = w.gateway.memory := by
  cases e with
  | connect | disconnect | forget | dropAll | ask | advance | tell | stores | stopStores => rfl
  | complete c => exact congrArg _ (w.gateway_dispatch c)
  | hear place bytes => exact congrArg _ (w.gateway_hear place bytes)
  | finishSend place => exact congrArg _ (w.gateway_completeSend place)
  | write i => exact w.memory_write i
  | execute c =>
    by_cases hchat : ∃ id message, c = .request id (.chat message)
    · obtain ⟨id, message, rfl⟩ := hchat
      exact congrArg (·.gateway.memory) (chat_of_none (w := w.dequeue _) hsilent)
    · exact memory_execute (w.dequeue c) fun id message heq => hchat ⟨id, message, heq⟩

end Quiet

/-! ### What a run is remembered by -/

variable {w : World}

def said (w : World) : List Event → List ChatRow
  | [] => []
  | e :: rest => (w.spoken? e).toList ++ (w.next e).said rest

def linesIn (room : RoomId) (log : List ChatRow) : List String :=
  (log.filter (·.room = room)).map ChatRow.line

/-- Every room remembers the last lines of a log that were said in it. -/
def Recalls (w : World) (log : List ChatRow) : Prop :=
  ∀ room, w.gateway.linesOf room =
    ((linesIn room log).rtake w.gateway.historyLength).reverse

/-- The cache answers when something is said. -/
def Attentive (w : World) (e : Event) : Prop := w.spoken? e ≠ none → w.gateway.Heeds

instance (w : World) (e : Event) : Decidable (w.Attentive e) :=
  inferInstanceAs (Decidable (_ → _))

theorem linesIn_concat (room : RoomId) (log : List ChatRow) (u : ChatRow) :
    linesIn room (log ++ [u]) =
      if u.room = room then linesIn room log ++ [u.line] else linesIn room log := by
  simp only [linesIn, List.filter_append, List.map_append]
  by_cases hroom : u.room = room
  · simp [hroom]
  · simp [hroom]

/-- A list that is kept to size from the back is one that is kept to size all along. -/
theorem take_cons_reverse_rtake {α : Type} (l : List α) (x : α) (n : Nat) :
    (x :: (l.rtake n).reverse).take n = ((l ++ [x]).rtake n).reverse := by
  cases n with
  | zero => simp
  | succ n =>
    rw [List.rtake_concat_succ, List.reverse_concat, List.take_succ_cons,
      List.rtake_eq_reverse_take_reverse, List.rtake_eq_reverse_take_reverse,
      List.reverse_reverse, List.reverse_reverse, List.take_take, Nat.min_eq_left (Nat.le_succ n)]

theorem gateway_utter (w : World) (u : ChatRow) :
    (w.utter u).gateway.memory = (w.gateway.remember u.room u.username u.message).memory := by
  unfold utter
  dsimp only
  cases hpost : (w.gateway.remember u.room u.username u.message).post? (.saveChat u) with
  | none => rfl
  | some gateway => exact Gateway.memory_post? hpost

theorem historyLength_utter (w : World) (u : ChatRow) :
    (w.utter u).gateway.historyLength = w.gateway.historyLength := by
  rw [Gateway.historyLength_of_memory_eq (w.gateway_utter u), Gateway.historyLength,
    Gateway.settings_remember]
  rfl

/-- What is said is remembered in its room. -/
theorem Recalls.utter {log : List ChatRow} (h : w.Recalls log) (hheeds : w.gateway.Heeds)
    (u : ChatRow) : (w.utter u).Recalls (log ++ [u]) := by
  intro room
  rw [Gateway.linesOf_of_memory_eq (w.gateway_utter u), w.historyLength_utter u, linesIn_concat]
  rcases Nat.eq_zero_or_pos w.gateway.historyLength with hzero | hpositive
  · -- nothing is remembered at all
    rw [Gateway.remember_of_zero hzero, h room, hzero, List.rtake_zero, List.rtake_zero]
  · have hup := hheeds.resolve_left (Nat.ne_of_gt hpositive)
    rw [Gateway.linesOf_remember hpositive hup]
    by_cases hroom : room = u.room
    · subst hroom
      rw [if_pos rfl, if_pos rfl, h u.room]
      exact take_cons_reverse_rtake _ _ _
    · rw [if_neg hroom, if_neg (Ne.symm hroom), h room]

theorem Recalls.congr {w' : World} {log : List ChatRow} (h : w.Recalls log)
    (hmemory : w'.gateway.memory = w.gateway.memory) : w'.Recalls log := by
  intro room
  rw [Gateway.linesOf_of_memory_eq hmemory, Gateway.historyLength_of_memory_eq hmemory]
  exact h room

/-- **One event adds what it says to what is remembered.** -/
theorem Recalls.next {log : List ChatRow} (h : w.Recalls log) {e : Event}
    (hattentive : w.Attentive e) : (w.next e).Recalls (log ++ (w.spoken? e).toList) := by
  cases hspoken : w.spoken? e with
  | none =>
    rw [Option.toList_none, List.append_nil]
    exact h.congr (w.memory_next hspoken)
  | some u =>
    rw [next_of_spoken hspoken, Option.toList_some]
    have hheeds : w.gateway.Heeds := hattentive (by simp [hspoken])
    exact Recalls.utter (h.congr rfl) hheeds u

theorem Recalls.after {log : List ChatRow} (h : w.Recalls log) (events : List Event)
    (hrun : Along World.next Attentive w events) :
    (GameServer.after World.next w events).Recalls (log ++ w.said events) := by
  induction events generalizing w log with
  | nil => simpa [said, GameServer.after] using h
  | cons e rest ih =>
    rw [said, ← List.append_assoc]
    exact ih (h.next hrun.1) hrun.2

theorem historyLength_next (w : World) (e : Event) :
    (w.next e).gateway.historyLength = w.gateway.historyLength := by
  cases hspoken : w.spoken? e with
  | none => exact Gateway.historyLength_of_memory_eq (w.memory_next hspoken)
  | some u =>
    rw [next_of_spoken hspoken]
    exact historyLength_utter _ u

theorem historyLength_after (w : World) (events : List Event) :
    (GameServer.after World.next w events).gateway.historyLength = w.gateway.historyLength := by
  induction events generalizing w with
  | nil => rfl
  | cons e rest ih => exact (ih (w.next e)).trans (w.historyLength_next e)

theorem length_rtake_le {α : Type} (l : List α) (n : Nat) : (l.rtake n).length ≤ n := by
  rw [List.rtake, List.length_drop]
  omega

/-- What a room is said to remember are the last lines that were said in it, newest first. -/
theorem Recalls.history {log : List ChatRow} (h : w.Recalls log) (hheeds : w.gateway.Heeds)
    (room : RoomId) :
    w.gateway.history room = ((linesIn room log).rtake w.gateway.historyLength).reverse := by
  rw [Gateway.history_eq hheeds, h room]
  apply List.take_of_length_le
  rw [List.length_reverse]
  exact length_rtake_le ..

end World

end GameServer
