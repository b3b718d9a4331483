import GameServer.Proofs.Tables
import GameServer.Store.Gateway

/-!
The names online: how they change, and that nothing else the cache does changes them.

The names are one set in the cache.  Chat is remembered in lists, which are kept apart from
the sets, so that only marking a name and taking the mark back are to be looked at.
-/

namespace GameServer

namespace Cache

variable {c c' : Cache} {key value : String} {answer : Bool}

/-- A cache that answers is up. -/
theorem up_of_whenUp {α : Type} {a b : α} (h : c.whenUp a = .ok b) : c.down = false ∧ b = a := by
  unfold whenUp at h
  split at h
  · cases h
  · next hup => cases h; exact ⟨by simpa using hup, rfl⟩

theorem mem_set_add (h : c.add key value = .ok (answer, c')) (other : String) :
    other ∈ c'.set key ↔ other = value ∨ other ∈ c.set key := by
  obtain ⟨-, heq⟩ := up_of_whenUp h
  cases heq
  simp only [set, lookup_insert, if_true, Option.getD_some, Std.ExtTreeSet.mem_insert,
    Std.LawfulEqCmp.compare_eq_iff_eq, @eq_comm _ value]

theorem mem_set_remove (h : c.remove key value = .ok (answer, c')) (other : String) :
    other ∈ c'.set key ↔ other ≠ value ∧ other ∈ c.set key := by
  obtain ⟨-, heq⟩ := up_of_whenUp h
  cases heq
  simp only [set, lookup_modify, if_true]
  cases c.sets[key]? with
  | none => simp
  | some names =>
    simp only [Option.map_some, Option.getD_some, Std.ExtTreeSet.mem_erase, ne_eq,
      Std.LawfulEqCmp.compare_eq_iff_eq, @eq_comm _ value]

end Cache

namespace Gateway

variable {g g' : Gateway} {name : String}

/-- A name is marked as online. -/
def IsOnline (g : Gateway) (name : String) : Prop := name ∈ g.cache.set presenceKey

instance (g : Gateway) (name : String) : Decidable (g.IsOnline name) :=
  inferInstanceAs (Decidable (name ∈ g.cache.set presenceKey))

theorem mem_online_iff : name ∈ g.online ↔ g.IsOnline name := by
  simp [online, Cache.members, IsOnline]

theorem nodup_online (g : Gateway) : g.online.Nodup := by
  have h := (g.cache.set presenceKey).distinct_toList
  exact h.imp fun hne heq => hne (Std.LawfulEqCmp.compare_eq_iff_eq.mpr heq)

/-- Whoever is told that a name is new marks it, and it was not marked before. -/
theorem isOnline_addPresence (h : g.addPresence name = (true, g')) :
    g.cache.down = false ∧ g'.cache.down = false ∧ ¬ g.IsOnline name ∧
      ∀ other, g'.IsOnline other ↔ other = name ∨ g.IsOnline other := by
  unfold addPresence at h
  split at h
  · next added cache hadd =>
    cases h
    have hnew := Cache.mem_set_add hadd
    obtain ⟨hup, heq⟩ := Cache.up_of_whenUp hadd
    refine ⟨hup, ?_, ?_, hnew⟩
    · rw [(Prod.mk.inj heq).2]
      exact hup
    · have := (Prod.mk.inj heq).1
      simpa [IsOnline, ← Std.ExtTreeSet.contains_iff_mem] using this
  · cases h

/-- A name that is not new, or that the cache does not answer for, changes nothing. -/
theorem isOnline_of_addPresence_refused (h : g.addPresence name = (false, g')) (other : String) :
    g'.IsOnline other ↔ g.IsOnline other := by
  unfold addPresence at h
  split at h
  · next added cache hadd =>
    cases h
    obtain ⟨-, heq⟩ := Cache.up_of_whenUp hadd
    have hold : name ∈ g.cache.set presenceKey := by
      have := (Prod.mk.inj heq).1
      simpa using this
    refine (Cache.mem_set_add hadd other).trans ⟨?_, .inr⟩
    rintro (rfl | hother)
    · exact hold
    · exact hother
  · cases h
    rfl

theorem isOnline_removePresence (hup : g.cache.down = false) (other : String) :
    (g.removePresence name).IsOnline other ↔ other ≠ name ∧ g.IsOnline other := by
  unfold removePresence
  split
  · next removed cache hremove => exact Cache.mem_set_remove hremove other
  · next hremove =>
    rw [Cache.remove, Cache.whenUp, hup] at hremove
    cases hremove

/-- Taking back the mark of a name changes nothing while the cache is down. -/
theorem removePresence_of_down (hdown : g.cache.down = true) (name : String) :
    g.removePresence name = g := by
  rw [removePresence, Cache.remove, Cache.whenUp, if_pos hdown]

/-- **A name that cannot be given back stays online.**  A name has been marked, and the cache goes
    down before the mark is taken back.  Then the name is online like all that were, and nobody can
    mark it again, not even when the cache is up. -/
theorem isOnline_of_give_back_failed (hmark : g.addPresence name = (true, g')) :
    let failed := { g' with cache := { g'.cache with down := true } }
    let left := failed.removePresence name
    (∀ other, left.IsOnline other ↔ other = name ∨ g.IsOnline other) ∧
      ∀ down, ({ left with cache := { left.cache with down } }.addPresence name).1 = false := by
  intro failed left
  have hleft : left = failed := removePresence_of_down rfl name
  have honline : ∀ other, left.IsOnline other ↔ other = name ∨ g.IsOnline other := by
    rw [hleft]
    exact (isOnline_addPresence hmark).2.2.2
  refine ⟨honline, fun down => ?_⟩
  rw [← Bool.not_eq_true]
  intro hagain
  obtain ⟨-, -, hnew, -⟩ := isOnline_addPresence (Prod.ext hagain rfl)
  exact hnew ((honline name).mpr (.inl rfl))

/-- Chat that is remembered is no name. -/
theorem isOnline_remember (room : RoomId) (username message : String) (other : String) :
    (g.remember room username message).IsOnline other ↔ g.IsOnline other := by
  unfold remember
  split
  · rfl
  · split
    · rfl
    · next pushed cache hpush =>
      obtain ⟨-, heq⟩ := Cache.up_of_whenUp hpush
      have hsets : cache.sets = g.cache.sets := by rw [(Prod.mk.inj heq).2]
      split
      · simp only [IsOnline, Cache.set, hsets]
      · next trimmed htrim =>
        obtain ⟨-, rfl⟩ := Cache.up_of_whenUp htrim
        simp only [IsOnline, Cache.set, hsets]

theorem cache_post? {r : StoreRequest} (h : g.post? r = some g') : g'.cache = g.cache := by
  unfold post? at h
  split at h
  · cases h; rfl
  · cases h

end Gateway

end GameServer
