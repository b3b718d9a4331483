import GameServer.Room.Lobby
import Mathlib.Data.Fintype.Card
import Mathlib.Data.List.NodupEquivFin

/-!
Fresh room numbers.

The search for a number that no room has goes upwards from a counter and around.  Clients
may have taken any numbers they like, so the tries passed over prove nothing one by one; but
they are all different and all taken, and there are only as many of them as there are rooms.
So the search can only fail when no number is left at all.
-/

namespace GameServer

/-- A room number as one of the `2 ^ 32` words. -/
def RoomId.word (room : RoomId) : Fin UInt32.size := room.val.toBitVec.toFin

theorem RoomId.word_injective : Function.Injective RoomId.word := by
  rintro ⟨a⟩ ⟨b⟩ h
  exact congrArg RoomId.mk (Int32.toBitVec.inj (BitVec.toFin_inj.mp h))

/-- A session number as one of the `2 ^ 32` words. -/
def SessionId.word (id : SessionId) : Fin UInt32.size := id.val.toBitVec.toFin

theorem SessionId.word_injective : Function.Injective SessionId.word := by
  rintro ⟨a⟩ ⟨b⟩ h
  exact congrArg SessionId.mk (UInt32.toBitVec_inj.mp (BitVec.toFin_inj.mp h))

namespace Lobby

/-- Some number is left for another room.  Where none is, the search for one never ends. -/
def HasFreeId (l : Lobby) : Prop := ∃ room : RoomId, room ∉ l.rooms

/-- As long as a number is left there are fewer than `2 ^ 32` rooms. -/
theorem size_lt_of_hasFreeId {l : Lobby} (h : l.HasFreeId) : l.rooms.size < UInt32.size := by
  obtain ⟨room, hroom⟩ := h
  have hfree : room ∉ l.rooms.keys := by rwa [Std.ExtTreeMap.mem_keys]
  have hnodup : ((room :: l.rooms.keys).map RoomId.word).Nodup :=
    (List.nodup_cons.mpr ⟨hfree, Std.ExtTreeMap.nodup_keys⟩).map RoomId.word_injective
  have hcard := hnodup.length_le_card
  rw [Fintype.card_fin, List.length_map, List.length_cons, Std.ExtTreeMap.length_keys] at hcard
  omega

/-- As long as there are fewer than `2 ^ 32` rooms a number is left. -/
theorem hasFreeId_of_size_lt {l : Lobby} (h : l.rooms.size < UInt32.size) : l.HasFreeId := by
  by_contra hnone
  let all := (List.finRange UInt32.size).map fun w => RoomId.mk (Int32.ofBitVec (BitVec.ofFin w))
  have hnodup : all.Nodup := by
    refine (List.nodup_finRange _).map ?_
    intro v w hvw
    have hwords := congrArg RoomId.word hvw
    simpa [RoomId.word] using hwords
  have hsubset : all ⊆ l.rooms.keys := by
    intro room _
    rw [Std.ExtTreeMap.mem_keys]
    exact Classical.not_not.mp fun hfree => hnone ⟨room, hfree⟩
  have hlength := (List.subperm_of_subset hnodup hsubset).length_le
  rw [List.length_map, List.length_finRange, Std.ExtTreeMap.length_keys] at hlength
  omega

/-- One more step up is a step from the next number. -/
theorem add_ofNat_succ (n : Int32) (k : Nat) :
    n + Int32.ofNat (k + 1) = n + 1 + Int32.ofNat k := by
  rw [Int32.ofNat_add, Int32.add_assoc, Int32.add_comm (Int32.ofNat k)]
  rfl

/-- A search that ends on a number that is taken has passed over taken ones only. -/
theorem taken_of_firstFree_taken {rooms : Std.ExtTreeMap RoomId Room} {tries : Nat} {n : Int32}
    (h : RoomId.mk (firstFree rooms tries n) ∈ rooms) :
    ∀ k ≤ tries, RoomId.mk (n + Int32.ofNat k) ∈ rooms := by
  induction tries generalizing n with
  | zero =>
    intro k hk
    obtain rfl : k = 0 := Nat.le_zero.mp hk
    simpa [firstFree] using h
  | succ tries ih =>
    simp only [firstFree] at h
    split at h
    · next htaken =>
      intro k hk
      cases k with
      | zero => simpa using htaken
      | succ k =>
        rw [add_ofNat_succ]
        exact ih h k (Nat.le_of_succ_le_succ hk)
    · next hfree => exact absurd h hfree

/-- Counting up from a number by different amounts below `2 ^ 32` gives different numbers. -/
theorem add_ofNat_injOn (n : Int32) {j k : Nat} (hj : j < UInt32.size) (hk : k < UInt32.size)
    (h : n + Int32.ofNat j = n + Int32.ofNat k) : j = k := by
  have hwords := congrArg Int32.toBitVec h
  simp only [Int32.toBitVec_add, BitVec.add_right_inj] at hwords
  have hnats := congrArg BitVec.toNat hwords
  rw [Int32.toBitVec_ofNat', Int32.toBitVec_ofNat', BitVec.toNat_ofNat, BitVec.toNat_ofNat,
    Nat.mod_eq_of_lt hj, Nat.mod_eq_of_lt hk] at hnats
  exact hnats

/-- **While a number is left, the number found for a new room is one that no room has.** -/
theorem freshId_free {l : Lobby} (h : l.HasFreeId) : l.freshId.1 ∉ l.rooms := by
  have hsize := size_lt_of_hasFreeId h
  intro htaken
  -- one more number than there are rooms, all different and all taken
  let passed := (List.range (l.rooms.size + 1)).map fun k => RoomId.mk (l.nextId + Int32.ofNat k)
  have hnodup : passed.Nodup := by
    refine List.Nodup.map_on ?_ List.nodup_range
    intro j hj k hk hjk
    rw [List.mem_range] at hj hk
    exact add_ofNat_injOn l.nextId (by omega) (by omega) (congrArg RoomId.val hjk)
  have hsubset : passed ⊆ l.rooms.keys := by
    intro room hroom
    obtain ⟨k, hk, rfl⟩ := List.mem_map.mp hroom
    rw [Std.ExtTreeMap.mem_keys]
    exact taken_of_firstFree_taken htaken k (Nat.le_of_lt_succ (List.mem_range.mp hk))
  have hlength := (List.subperm_of_subset hnodup hsubset).length_le
  rw [List.length_map, List.length_range, Std.ExtTreeMap.length_keys] at hlength
  omega

end Lobby

end GameServer
