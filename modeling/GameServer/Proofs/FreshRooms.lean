import GameServer.Proofs.Capacity

/-!
New rooms: which number they get, and that nobody else had it.

The search looks at the counter's number, moves the counter on, and goes on for as long as the
number is taken.  Nothing gets smaller on the way, and the counter goes round; but from one number
to the next that is free there are only so many steps up, and as long as a number is left at all the
search arrives there.  Who made the rooms that are passed over, and why under those numbers, does
not matter.
-/

namespace GameServer

namespace Lobby

variable {l l' : Lobby} {room : RoomId}

/-! ### The search, step by step -/

/-- A search for a number that is free, without a bound on its steps.  It begins at the counter,
    which in the end is behind the number that was found. -/
inductive Seeks : Lobby → RoomId → Lobby → Prop
  | found {l : Lobby} (hfree : ⟨l.nextId⟩ ∉ l.rooms) :
      Seeks l ⟨l.nextId⟩ { l with nextId := l.nextId + 1 }
  | passed {l l' : Lobby} {room : RoomId} (htaken : ⟨l.nextId⟩ ∈ l.rooms)
      (hrest : Seeks { l with nextId := l.nextId + 1 } room l') : Seeks l room l'

/-- A search has one outcome at most. -/
theorem Seeks.unique {other : RoomId} {m : Lobby} (h : l.Seeks room l') (h' : l.Seeks other m) :
    other = room ∧ m = l' := by
  induction h with
  | found hfree =>
    cases h' with
    | found => exact ⟨rfl, rfl⟩
    | passed htaken => exact absurd htaken hfree
  | passed htaken hrest ih =>
    cases h' with
    | found hfree => exact absurd htaken hfree
    | passed _ hrest' => exact ih hrest'

/-- Tries that end on a free number are a search. -/
theorem seeks_firstFree (tries : Nat) (l : Lobby)
    (hfree : ⟨firstFree l.rooms tries l.nextId⟩ ∉ l.rooms) :
    l.Seeks ⟨firstFree l.rooms tries l.nextId⟩
      { l with nextId := firstFree l.rooms tries l.nextId + 1 } := by
  induction tries generalizing l with
  | zero => exact .found hfree
  | succ tries ih =>
    simp only [firstFree] at hfree ⊢
    split at hfree
    · next htaken =>
      simp only [if_pos htaken]
      exact .passed htaken (ih { l with nextId := l.nextId + 1 } hfree)
    · next hnone =>
      simp only [if_neg hnone]
      exact .found hnone

/-- **While a number is left the search ends**, with as many tries as there are rooms. -/
theorem seeks_freshId (h : l.HasFreeId) : l.Seeks l.freshId.1 l.freshId.2 :=
  seeks_firstFree l.rooms.size l (freshId_free h)

/-! ### How far it goes -/

/-- How many steps up from a number, and around, the number of a room is. -/
def ahead (n : Int32) (room : RoomId) : Nat := (room.val - n).toUInt32.toNat

theorem add_ahead (n : Int32) (room : RoomId) : n + Int32.ofNat (ahead n room) = room.val := by
  have hback : Int32.ofNat (ahead n room) = room.val - n := by
    apply Int32.toBitVec.inj
    rw [Int32.toBitVec_ofNat']
    exact BitVec.ofNat_toNat ..
  rw [hback, Int32.add_comm, Int32.sub_add_cancel]

theorem ahead_add_le (n : Int32) (k : Nat) : ahead n ⟨n + Int32.ofNat k⟩ ≤ k := by
  have hback : n + Int32.ofNat k - n = Int32.ofNat k := by
    rw [Int32.add_comm, Int32.add_sub_cancel]
  rw [ahead, hback]
  exact Nat.mod_le k _

/-- A search passes over as many numbers as it takes steps, and all of them are taken. -/
theorem Seeks.passed_over (h : l.Seeks room l') :
    room ∉ l.rooms ∧ l' = { l with nextId := room.val + 1 } ∧
      ∃ k, room = ⟨l.nextId + Int32.ofNat k⟩ ∧ ∀ j < k, ⟨l.nextId + Int32.ofNat j⟩ ∈ l.rooms := by
  induction h with
  | found hfree =>
    exact ⟨hfree, rfl, 0, by simp, fun j hj => absurd hj (Nat.not_lt_zero j)⟩
  | @passed l l' room htaken hrest ih =>
    obtain ⟨hfree, hnext, k, hroom, hall⟩ := ih
    have hroom : room = ⟨l.nextId + Int32.ofNat (k + 1)⟩ := by
      rw [hroom, add_ofNat_succ]
    refine ⟨hfree, hnext, k + 1, hroom, fun j hj => ?_⟩
    cases j with
    | zero => simpa using htaken
    | succ j =>
      rw [add_ofNat_succ]
      exact hall j (Nat.lt_of_succ_lt_succ hj)

/-- **What a search finds is the first free number**, counted from where it began. -/
theorem Seeks.first (h : l.Seeks room l') {other : RoomId}
    (hbefore : ahead l.nextId other < ahead l.nextId room) : other ∈ l.rooms := by
  obtain ⟨-, -, k, rfl, hall⟩ := h.passed_over
  have htaken := hall (ahead l.nextId other) (Nat.lt_of_lt_of_le hbefore (ahead_add_le l.nextId k))
  rwa [add_ahead] at htaken

/-! ### Making rooms -/

/-- Taking somebody out makes no room, so a number that was left is left. -/
theorem HasFreeId.leave (h : l.HasFreeId) (id : SessionId) : (l.leave id).1.HasFreeId := by
  obtain ⟨room, hroom⟩ := h
  refine ⟨room, fun hthere => hroom ?_⟩
  obtain ⟨r', hr'⟩ := Option.isSome_iff_exists.mp (Std.ExtTreeMap.mem_iff_isSome_getElem?.mp hthere)
  obtain ⟨r, hr, -⟩ := (l.noFuller_leave id).rooms room r' hr'
  exact Std.ExtTreeMap.mem_iff_isSome_getElem?.mpr (Option.isSome_of_eq_some hr)

/-- A room for the session `s` at a place is made of the lobby that the session has left. -/
theorem openRoom_of_open {s : Session} (place : Place) (title : String) (hs : s.closed = false) :
    l.openRoom place s title =
      .ok (⟨(l.leave s.id).1.freshId.1, true, (l.leave s.id).2⟩,
        (l.leave s.id).1.freshId.2.settle place s { id := (l.leave s.id).1.freshId.1, title }) := by
  simp only [openRoom, hs, Bool.false_eq_true, if_false]

/-- Nobody's leaving is felt in another room. -/
theorem rooms_leave_elsewhere {id : SessionId} {other : RoomId}
    (hother : l.index[id]? ≠ some other) : (l.leave id).1.rooms[other]? = l.rooms[other]? := by
  unfold leave
  split
  · rfl
  · next room hi =>
    have hne : other ≠ room := fun heq => hother (heq ▸ hi)
    dsimp only
    split
    · rfl
    · next r hr =>
      -- the rooms are the same, whether or not the member was found
      have hrooms : (if (r.erase id).isEmpty then l.rooms.erase room
          else l.rooms.insert room (r.erase id))[other]? = l.rooms[other]? := by
        split
        · rw [lookup_erase, if_neg hne]
        · rw [lookup_insert, if_neg hne]
      cases hmember : r.members[id]? <;> simpa [hmember, bind] using hrooms

/-- **A new room has a number that no room had.**  As long as there are fewer than `2 ^ 32` rooms,
    and wherever the counter stands, the search for a number ends, in one way only: with the first
    free number at or after the counter, going round where the numbers end.  The counter is then
    behind it, and that is all that changes.  A room that is created gets this number, and so does a
    room that is made for a session, in the lobby that the session has left; every other room is the
    one that it was. -/
theorem new_rooms_are_fresh (l : Lobby) (h : l.rooms.size < UInt32.size) :
    (l.Seeks l.freshId.1 l.freshId.2 ∧
        ∀ room l', l.Seeks room l' → room = l.freshId.1 ∧ l' = l.freshId.2) ∧
      (l.freshId.1 ∉ l.rooms ∧
        ∀ other, ahead l.nextId other < ahead l.nextId l.freshId.1 → other ∈ l.rooms) ∧
      l.freshId.2 = { l with nextId := l.freshId.1.val + 1 } ∧
      (∀ title, (l.createRoom title).1 = l.freshId.1 ∧
        ∀ other, (l.createRoom title).2.rooms[other]? =
          if other = l.freshId.1 then some { id := l.freshId.1, title } else l.rooms[other]?) ∧
      ∀ place s title, s.closed = false →
        let left := (l.leave s.id).1
        left.freshId.1 ∉ left.rooms ∧
          ∃ a l', l.openRoom place s title = .ok (a, l') ∧ a.room = left.freshId.1 ∧
            (∀ other, l'.rooms[other]? =
              if other = a.room then some (Room.add { id := a.room, title } place s)
              else left.rooms[other]?) ∧
            ∀ other r, l.rooms[other]? = some r → l.index[s.id]? ≠ some other →
              l'.rooms[other]? = some r := by
  have hfree := hasFreeId_of_size_lt h
  have hseeks := seeks_freshId hfree
  refine ⟨⟨hseeks, fun room l' hother => hseeks.unique hother⟩,
    ⟨freshId_free hfree, fun other => hseeks.first⟩, rfl,
    fun title => ⟨rfl, fun other => lookup_insert ..⟩, fun place s title hs => ?_⟩
  have hleft := freshId_free (hfree.leave s.id)
  refine ⟨hleft, _, _, openRoom_of_open place title hs, rfl, fun other => rooms_settle other, ?_⟩
  intro other r hr hother
  have hthere : (l.leave s.id).1.rooms[other]? = some r := (rooms_leave_elsewhere hother).trans hr
  have hne : other ≠ (l.leave s.id).1.freshId.1 := by
    rintro rfl
    exact hleft (Std.ExtTreeMap.mem_iff_isSome_getElem?.mpr (Option.isSome_of_eq_some hthere))
  rw [rooms_settle, if_neg hne]
  exact hthere

/-- The counter stands on the greatest number, which is taken, and so is the least, which comes
    after it.  The search goes on behind it.  But when the only one in the room with the least
    number wants a room, that room is gone, and its number is free again. -/
theorem new_rooms_are_fresh_going_round :
    let s : Session := { Session.new ⟨7⟩ 64 with room := some ⟨-2147483648⟩ }
    let full : Room := { id := ⟨2147483647⟩, title := "a" }
    let l : Lobby :=
      { nextId := 2147483647, sessions := [s]
        rooms := (∅ : Std.ExtTreeMap RoomId Room).insert ⟨2147483647⟩ full
          |>.insert ⟨-2147483648⟩ (Room.add { id := ⟨-2147483648⟩, title := "b" } 0 s)
        index := (∅ : Std.ExtTreeMap SessionId RoomId).insert ⟨7⟩ ⟨-2147483648⟩ }
    l.rooms.size < UInt32.size ∧ l.freshId.1 = ⟨-2147483647⟩ ∧ l.freshId.1 ∉ l.rooms ∧
      s.closed = false ∧ l.rooms[(⟨2147483647⟩ : RoomId)]? = some full ∧
      ∃ a l', l.openRoom 0 s "c" = .ok (a, l') ∧ a.room = ⟨-2147483648⟩ ∧
        l'.rooms[(⟨2147483647⟩ : RoomId)]? = some full := by
  intro s full l
  have hsize : l.rooms.size < UInt32.size := by decide
  have hopen : s.closed = false := rfl
  have hfull : l.rooms[(⟨2147483647⟩ : RoomId)]? = some full := by rfl
  obtain ⟨-, ⟨hfree, -⟩, -, -, hopened⟩ := new_rooms_are_fresh l hsize
  obtain ⟨-, a, l', hok, hroom, -, hkept⟩ := hopened 0 s "c" hopen
  refine ⟨hsize, by decide, hfree, hopen, hfull, a, l', hok, hroom.trans (by decide), ?_⟩
  exact hkept ⟨2147483647⟩ full hfull (by decide)

end Lobby

end GameServer
