import GameServer.Proofs.Run
import GameServer.Proofs.Tables
import GameServer.Session.Directory

/-!
The numbers that a directory hands out.

They count up from one, in a word of 32 bits, and the directory never asks whether a number is in
use.  So it is the count that keeps them apart: of as many numbers as there are words no two are the
same, and zero is the last of them.  From then on the numbers come again, in the same order, whoever
still has them.

A registrar is a directory with the record of the numbers that it has handed out.
-/

namespace GameServer

open Wire

/-- The number that is handed out after `k` others. -/
def numberAt (k : Nat) : SessionId := ⟨UInt32.ofNat (k + 1)⟩

theorem numberAt_eq_iff {j k : Nat} :
    numberAt j = numberAt k ↔ j % UInt32.size = k % UInt32.size := by
  rw [numberAt, numberAt, SessionId.mk.injEq, ← UInt32.toNat_inj, UInt32.toNat_ofNat',
    UInt32.toNat_ofNat']
  change (j + 1) % 4294967296 = (k + 1) % 4294967296 ↔ j % 4294967296 = k % 4294967296
  omega

theorem numberAt_eq_zero_iff {k : Nat} : numberAt k = ⟨0⟩ ↔ UInt32.size ∣ k + 1 := by
  rw [numberAt, SessionId.mk.injEq, ← UInt32.toNat_inj, UInt32.toNat_ofNat', Nat.dvd_iff_mod_eq_zero]
  rfl

/-- A number comes again when as many as there are words have been handed out, and not before. -/
theorem numberAt_mem_iff {n : Nat} :
    numberAt n ∈ (List.range n).map numberAt ↔ UInt32.size ≤ n := by
  rw [List.mem_map]
  constructor
  · rintro ⟨k, hk, hsame⟩
    rw [List.mem_range] at hk
    rw [numberAt_eq_iff] at hsame
    rcases Nat.lt_or_ge n UInt32.size with hfew | hmany
    · rw [Nat.mod_eq_of_lt hfew, Nat.mod_eq_of_lt (Nat.lt_trans hk hfew)] at hsame
      exact absurd hsame (Nat.ne_of_lt hk)
    · exact hmany
  · intro hmany
    have hpositive : 0 < UInt32.size := by decide
    refine ⟨n - UInt32.size, List.mem_range.mpr (by omega), ?_⟩
    rw [numberAt_eq_iff, ← Nat.mod_eq_sub_mod hmany]

/-- A directory, and the numbers that it has handed out, in their order. -/
structure Registrar where
  directory : Directory := {}
  handed : List SessionId := []

namespace Registrar

inductive Step where
  | allocate
  /-- The session at a place is registered under a number. -/
  | insert (id : SessionId) (place : Place)
  | remove (id : SessionId)
  | get (id : SessionId)
deriving DecidableEq, Repr

/-- What a step makes of a registrar.  To look somebody up changes nothing. -/
def next (l : Registrar) : Step → Registrar
  | .allocate =>
    let (id, directory) := l.directory.allocate
    ⟨directory, l.handed ++ [id]⟩
  | .insert id place => { l with directory := l.directory.insert id place }
  | .remove id => { l with directory := l.directory.erase id }
  | .get _ => l

/-- A session is registered under a number that was handed out. -/
def Allowed (l : Registrar) : Step → Prop
  | .insert id _ => id ∈ l.handed
  | .allocate | .remove _ | .get _ => True

instance (l : Registrar) (step : Step) : Decidable (l.Allowed step) :=
  match step with
  | .insert id _ => inferInstanceAs (Decidable (id ∈ l.handed))
  | .allocate | .remove _ | .get _ => isTrue trivial

/-- After `n` allocations the first `n` numbers are handed out, the counter stands at the next, and
    whoever is registered has one of them. -/
structure Counted (n : Nat) (l : Registrar) : Prop where
  handed : l.handed = (List.range n).map numberAt
  nextId : l.directory.nextId = UInt32.ofNat (n + 1)
  registered : ∀ {id place}, l.directory.find? id = some place → id ∈ l.handed

variable {n : Nat} {l : Registrar}

theorem counted_empty : Counted 0 {} := by
  refine ⟨rfl, rfl, ?_⟩
  intro id place hplace
  have hnone : ({} : Directory).find? id = none := Std.ExtTreeMap.getElem?_empty
  rw [hnone] at hplace
  cases hplace

/-- **Only an allocation counts.** -/
theorem Counted.next (h : Counted n l) {step : Step} (hstep : l.Allowed step) :
    Counted (n + [step].count .allocate) (l.next step) := by
  cases step with
  | allocate =>
    refine ⟨?_, ?_, ?_⟩
    · change l.handed ++ [⟨l.directory.nextId⟩] = (List.range (n + 1)).map numberAt
      rw [h.handed, h.nextId, List.range_succ, List.map_append]
      rfl
    · change l.directory.nextId + 1 = UInt32.ofNat (n + 1 + 1)
      rw [h.nextId]
      exact (UInt32.ofNat_add (n + 1) 1).symm
    · intro id place hplace
      exact List.mem_append_left _ (h.registered hplace)
  | insert id place =>
    refine ⟨h.handed, h.nextId, ?_⟩
    intro other place' hplace
    change (l.directory.entries.insert id place)[other]? = some place' at hplace
    rw [lookup_insert] at hplace
    split at hplace
    · next heq => exact heq ▸ hstep
    · exact h.registered hplace
  | remove id =>
    refine ⟨h.handed, h.nextId, ?_⟩
    intro other place hplace
    change (l.directory.entries.erase id)[other]? = some place at hplace
    rw [lookup_erase] at hplace
    split at hplace
    · cases hplace
    · exact h.registered hplace
  | get id => exact h

theorem Counted.after (h : Counted n l) {steps : List Step} (hrun : Along Registrar.next Allowed l steps) :
    Counted (n + steps.count .allocate) (after Registrar.next l steps) := by
  induction steps generalizing n l with
  | nil => exact h
  | cons step rest ih =>
    have hrest := ih (h.next hrun.1) hrun.2
    rw [Nat.add_assoc, ← List.count_append] at hrest
    exact hrest

/-- After any run of allocations, registrations under numbers that were handed out, removals and
    lookups, the next number is the one that the count gives, and everybody's number was handed out.
    It is zero when the count has gone round, and was handed out before when it has gone round
    already.  Until then nobody is registered under it, and registering somebody replaces nobody. -/
theorem allocate_fresh (steps : List Step) (hrun : Along next Allowed {} steps) :
    let l := after next {} steps
    let n := steps.count .allocate
    let id := l.directory.allocate.1
    l.handed = (List.range n).map numberAt ∧ id = numberAt n ∧
    (∀ other place, l.directory.find? other = some place → other ∈ l.handed) ∧
    (id = ⟨0⟩ ↔ UInt32.size ∣ n + 1) ∧ (id ∈ l.handed ↔ UInt32.size ≤ n) ∧
    (n + 1 < UInt32.size → id ≠ ⟨0⟩) ∧
    (n < UInt32.size → l.directory.find? id = none ∧
      ∀ place, (l.directory.allocate.2.insert id place).size = l.directory.size + 1 ∧
        ∀ other, (l.directory.allocate.2.insert id place).find? other =
          if other = id then some place else l.directory.find? other) := by
  intro l n id
  have h : Counted n l := by
    have hcounted := counted_empty.after hrun
    rwa [Nat.zero_add] at hcounted
  have hid : id = numberAt n := congrArg SessionId.mk h.nextId
  have hzero : id = ⟨0⟩ ↔ UInt32.size ∣ n + 1 := by rw [hid, numberAt_eq_zero_iff]
  have hagain : id ∈ l.handed ↔ UInt32.size ≤ n := by rw [hid, h.handed, numberAt_mem_iff]
  refine ⟨h.handed, hid, fun other place => h.registered, hzero, hagain, ?_, ?_⟩
  · intro hfew hnone
    have hle := Nat.le_of_dvd (Nat.succ_pos n) (hzero.mp hnone)
    omega
  · intro hfew
    have hfree : l.directory.find? id = none := by
      cases hfind : l.directory.find? id with
      | none => rfl
      | some place => exact absurd (hagain.mp (h.registered hfind)) (Nat.not_le_of_lt hfew)
    refine ⟨hfree, ?_⟩
    intro place
    constructor
    · have hout : id ∉ l.directory.entries := lookup_eq_none_iff.mp hfree
      change (l.directory.entries.insert id place).size = l.directory.entries.size + 1
      simp [Std.ExtTreeMap.size_insert, hout]
    · intro other
      exact lookup_insert l.directory.entries id other place

theorem allocate_fresh_after_removal :
    let steps := [Step.allocate, .insert ⟨1⟩ 0, .allocate, .get ⟨2⟩, .insert ⟨2⟩ 1, .remove ⟨1⟩]
    let l := after next {} steps
    Along next Allowed {} steps ∧ l.directory.allocate.1 = ⟨3⟩ ∧ l.directory.find? ⟨3⟩ = none ∧
      (l.directory.allocate.2.insert ⟨3⟩ 2).size = 2 := by
  intro steps l
  have hrun : Along next Allowed {} steps := by decide
  obtain ⟨-, hid, -, -, -, -, hfresh⟩ := allocate_fresh steps hrun
  obtain ⟨hfree, hinsert⟩ := hfresh (by decide)
  have hthree : l.directory.allocate.1 = ⟨3⟩ := hid
  rw [hthree] at hfree hinsert
  exact ⟨hrun, hthree, hfree, (hinsert 2).1.trans (by decide)⟩

/-! ### Round once -/

theorem after_allocations (l : Registrar) (k : Nat) {nextId : UInt32}
    (hnext : l.directory.nextId + UInt32.ofNat k = nextId) :
    (after next l (List.replicate k .allocate)).directory = { l.directory with nextId } := by
  induction k generalizing l with
  | zero =>
    have hsame : l.directory.nextId + UInt32.ofNat 0 = l.directory.nextId := UInt32.add_zero _
    rw [← hnext, hsame]
    rfl
  | succ k ih =>
    rw [List.replicate_succ, after, List.foldl_cons]
    refine ih (l.next .allocate) ?_
    rw [← hnext, UInt32.ofNat_add, UInt32.add_comm (UInt32.ofNat k), ← UInt32.add_assoc]
    rfl

theorem along_allocations (l : Registrar) (k : Nat) :
    Along next Allowed l (List.replicate k .allocate) := by
  induction k generalizing l with
  | zero => trivial
  | succ k ih => exact ⟨trivial, ih (l.next .allocate)⟩

/-- **The first session keeps its number, and `2 ^ 32 - 1` allocations later it is handed out
    again.**  The directory is then as if nothing had been allocated, and whoever is registered under
    the number takes the place of the one who has it.  The number before it is zero. -/
theorem allocate_goes_round :
    let steps := [Step.allocate, .insert ⟨1⟩ 0] ++ List.replicate 4294967295 .allocate
    let l := after next {} steps
    Along next Allowed {} steps ∧ l.directory = ({} : Directory).insert ⟨1⟩ 0 ∧
      l.directory.find? ⟨1⟩ = some 0 ∧ l.directory.allocate.1 = ⟨1⟩ ∧
      (l.directory.allocate.2.insert ⟨1⟩ 1).find? ⟨1⟩ = some 1 ∧
      (after next {} (List.replicate 4294967295 .allocate)).directory.allocate.1 = ⟨0⟩ := by
  have hround : (2 : UInt32) + UInt32.ofNat 4294967295 = 1 := by decide
  have hzero : (1 : UInt32) + UInt32.ofNat 4294967295 = 0 := by decide
  have hdirectory : (after next {} ([Step.allocate, .insert ⟨1⟩ 0] ++
      List.replicate 4294967295 .allocate)).directory = ({} : Directory).insert ⟨1⟩ 0 := by
    rw [after_append]
    exact after_allocations _ 4294967295 hround
  have hlast := after_allocations {} 4294967295 hzero
  refine ⟨?_, hdirectory, ?_, ?_, ?_, ?_⟩
  · rw [along_append]
    exact ⟨by decide, along_allocations _ _⟩
  · rw [hdirectory]
    decide
  · rw [hdirectory]
    decide
  · rw [hdirectory]
    decide
  · rw [hlast]
    decide

end Registrar

end GameServer
