import GameServer.Proofs.Memory

/-!
Ranges and trims.

A range of a list and a trim of it are asked for by two positions.  Both are meant to give the
lines from the one position to the other.  A trim does, for any two positions.  A range does so
unless it starts behind its end and inside the list.
-/

namespace GameServer

/-- The lines at the positions from `start` to `stop`, both included, in their order. -/
def between (start stop : Nat) (lines : List String) : List String :=
  (lines.zipIdx.filter fun line => start ≤ line.2 ∧ line.2 ≤ stop).map Prod.fst

/-- With the positions counted from `n` the window moves along by `n`. -/
theorem between_zipIdx (start stop n : Nat) (lines : List String) :
    ((lines.zipIdx n).filter fun line => start ≤ line.2 ∧ line.2 ≤ stop).map Prod.fst =
      (lines.take (stop + 1 - n)).drop (start - n) := by
  induction lines generalizing n with
  | nil => simp
  | cons line rest ih =>
    rw [List.zipIdx_cons, List.filter_cons]
    rcases Nat.lt_or_ge stop n with hbehind | hbefore
    · -- the window has ended
      have hout : ¬ (start ≤ n ∧ n ≤ stop) := by omega
      have hnone : stop + 1 - n = 0 := by omega
      have hnext : stop + 1 - (n + 1) = 0 := by omega
      rw [if_neg (by simpa using hout), ih, hnone, hnext]
      simp
    · have hsome : stop + 1 - n = stop + 1 - (n + 1) + 1 := by omega
      rw [hsome, List.take_succ_cons]
      rcases Nat.lt_or_ge n start with hahead | hinside
      · -- the window has not begun
        have hskip : start - n = start - (n + 1) + 1 := by omega
        rw [if_neg (by simp; omega), ih, hskip, List.drop_succ_cons]
      · have hin : start - n = 0 := by omega
        have hnext : start - (n + 1) = 0 := by omega
        rw [if_pos (by simp; omega), List.map_cons, ih, hin, hnext, List.drop_zero, List.drop_zero]

theorem between_eq (start stop : Nat) (lines : List String) :
    between start stop lines = (lines.take (stop + 1)).drop start :=
  between_zipIdx start stop 0 lines

theorem between_of_lt {start stop : Nat} (h : stop < start) (lines : List String) :
    between start stop lines = [] := by
  rw [between_eq, List.drop_eq_nil_iff, List.length_take]
  omega

theorem length_between_le (start stop : Nat) (lines : List String) :
    (between start stop lines).length ≤ lines.length := by
  rw [between_eq, List.length_drop, List.length_take]
  omega

namespace Cache

/-- Another cache differs in one list only, and holds `kept` there. -/
structure Keeps (c c' : Cache) (key : String) (kept : List String) : Prop where
  sets : c'.sets = c.sets
  down : c'.down = c.down
  list : c'.list key = kept
  elsewhere : ∀ other, other ≠ key → c'.lists[other]? = c.lists[other]?

theorem whenUp_congr {α : Type} {c c' : Cache} (h : c'.down = c.down) (answer : α) :
    c'.whenUp answer = c.whenUp answer := by
  rw [whenUp, whenUp, h]

theorem whenUp_eq_iff {α : Type} (c : Cache) (x y : α) :
    c.whenUp x = c.whenUp y ↔ c.down ∨ x = y := by
  cases hdown : c.down <;> simp [whenUp, hdown]

/-- A range in order gives the lines of the window; one that starts behind its end gives the line
    it starts at. -/
theorem range_eq (c : Cache) (key : String) (start stop : Nat) :
    c.range key start stop = c.whenUp
      (if start ≤ stop then between start stop (c.list key) else (c.list key)[start]?.toList) := by
  rw [range]
  split
  · next hordered =>
    have hlength : stop + 1 - start = stop - start + 1 := by omega
    rw [between_eq, List.drop_take, hlength]
  · next hinverted =>
    have hlength : stop - start = 0 := by omega
    rw [hlength, Nat.zero_add, List.take_one, List.head?_drop]

/-- The whole of a list is the range up to any position that is not inside of it. -/
theorem range_whole (c : Cache) (key : String) {last : Nat}
    (hlast : (c.list key).length ≤ last + 1) :
    c.range key 0 last = c.whenUp (c.list key) := by
  rw [range_eq, if_pos (Nat.zero_le _), between_eq, List.drop_zero, List.take_of_length_le hlast]

theorem trim_keeps (c : Cache) (key : String) (start stop : Nat) :
    ∃ c', c.trim key start stop = c.whenUp c' ∧
      c.Keeps c' key (between start stop (c.list key)) := by
  refine ⟨_, rfl, rfl, rfl, ?_, ?_⟩
  · rw [between_eq, list, list, lines, lines, lookup_modify, if_pos rfl]
    cases c.lists[key]? <;> simp
  · intro other hother
    rw [lookup_modify, if_neg hother]

/-- **A trim leaves the lines from `start` to `stop` and touches nothing else, and a range gives
    these same lines** except where it starts behind its end and inside the list: there it gives
    the one line that it starts at. -/
theorem trim_and_range_window (c : Cache) (key : String) (start stop : Nat) :
    ∃ c', c.trim key start stop = c.whenUp c' ∧
      c.Keeps c' key (between start stop (c.list key)) ∧
      (∀ last, (c.list key).length ≤ last + 1 →
        c'.range key 0 last = c.whenUp (between start stop (c.list key)) ∧
        (c.range key start stop = c'.range key 0 last ↔
          c.down ∨ start ≤ stop ∨ (c.list key).length ≤ start)) ∧
      (stop < start →
        c.range key start stop = c.whenUp (c.list key)[start]?.toList) := by
  obtain ⟨c', htrim, hkeeps⟩ := c.trim_keeps key start stop
  refine ⟨c', htrim, hkeeps, ?_, ?_⟩
  · intro last hlast
    have hwhole : c'.range key 0 last = c.whenUp (between start stop (c.list key)) := by
      have hlength := length_between_le start stop (c.list key)
      rw [range_whole c' key (by rw [hkeeps.list]; omega), hkeeps.list, whenUp_congr hkeeps.down]
    refine ⟨hwhole, ?_⟩
    rw [hwhole, range_eq, whenUp_eq_iff]
    apply or_congr Iff.rfl
    rcases Nat.lt_or_ge stop start with hinverted | hordered
    · simp [between_of_lt hinverted, Nat.not_le.mpr hinverted]
    · simp [hordered]
  · intro hinverted
    rw [range_eq, if_neg (Nat.not_le.mpr hinverted)]

/-- Three lines, and a range from the last to the middle one: there is no such line, but the range
    gives one.  The trim leaves none. -/
theorem range_behind_its_end :
    let three : Cache := { lists := .ofList [("k", Lines.ofList ["c", "b", "a"])] }
    between 2 1 (three.list "k") = [] ∧
      (three.range "k" 2 1).toOption = some ["a"] ∧
      ((three.trim "k" 2 1).toOption.map (·.list "k")) = some [] := by
  decide

end Cache

end GameServer
