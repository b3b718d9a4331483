import GameServer.Ident
import Std.Data.DTreeMap.Internal.WF.Lemmas
import Std.Data.ExtTreeMap

/-!
Looking something up in a table that has just been changed.

The tables of the server are ordered by lawful orders, so what the library says of keys that
compare as equal can be said of keys that are equal.
-/

namespace GameServer

open Std

variable {α β : Type} [Ord α] [TransOrd α] [LawfulEqOrd α] [DecidableEq α]

theorem lookup_insert (t : ExtTreeMap α β) (key other : α) (v : β) :
    (t.insert key v)[other]? = if other = key then some v else t[other]? := by
  rw [ExtTreeMap.getElem?_insert]
  by_cases h : other = key
  · simp [h]
  · simp [h, Ne.symm h]

theorem lookup_erase (t : ExtTreeMap α β) (key other : α) :
    (t.erase key)[other]? = if other = key then none else t[other]? := by
  rw [ExtTreeMap.getElem?_erase]
  by_cases h : other = key
  · simp [h]
  · simp [h, Ne.symm h]

theorem lookup_modify (t : ExtTreeMap α β) (key other : α) (f : β → β) :
    (t.modify key f)[other]? = if other = key then t[key]?.map f else t[other]? := by
  rw [ExtTreeMap.getElem?_modify]
  by_cases h : other = key
  · simp [h]
  · simp [h, Ne.symm h]

omit [LawfulEqOrd α] [DecidableEq α] in
theorem mem_of_lookup {t : ExtTreeMap α β} {key : α} {v : β} (h : t[key]? = some v) :
    key ∈ t := by
  rw [ExtTreeMap.mem_iff_isSome_getElem?, h]
  rfl

omit [LawfulEqOrd α] [DecidableEq α] in
theorem lookup_eq_none_iff {t : ExtTreeMap α β} {key : α} : t[key]? = none ↔ key ∉ t := by
  rw [ExtTreeMap.mem_iff_isSome_getElem?]
  cases t[key]? <;> simp

omit [LawfulEqOrd α] [DecidableEq α] in
/-- The values of a table, in the order of their keys. -/
theorem values_eq_map_snd (t : ExtTreeMap α β) : t.values = t.toList.map Prod.snd := by
  obtain ⟨⟨q⟩⟩ := t
  induction q using Quotient.ind with
  | _ m =>
    change m.inner.values = (DTreeMap.Internal.Impl.Const.toList m.inner).map Prod.snd
    rw [DTreeMap.Internal.Impl.values_eq_map_snd,
      DTreeMap.Internal.Impl.Const.toList_eq_toListModel_map, List.map_map]
    rfl

omit [DecidableEq α] in
theorem mem_values_iff {t : ExtTreeMap α β} {v : β} :
    v ∈ t.values ↔ ∃ key : α, t[key]? = some v := by
  rw [values_eq_map_snd, List.mem_map]
  constructor
  · rintro ⟨⟨key, v⟩, hentry, rfl⟩
    exact ⟨key, ExtTreeMap.mem_toList_iff_getElem?_eq_some.mp hentry⟩
  · rintro ⟨key, hkey⟩
    exact ⟨(key, v), ExtTreeMap.mem_toList_iff_getElem?_eq_some.mpr hkey, rfl⟩

/-- Taking a key out takes its value out of the values, once. -/
theorem values_perm_of_lookup {t : ExtTreeMap α β} {key : α} {v : β} (h : t[key]? = some v) :
    t.values.Perm (v :: (t.erase key).values) := by
  have hnodup : ∀ u : ExtTreeMap α β, u.toList.Nodup := by
    intro u
    apply List.Pairwise.imp _ ExtTreeMap.distinct_keys_toList
    rintro a b hne rfl
    simp at hne
  have hout : (key, v) ∉ (t.erase key).toList := by
    rw [ExtTreeMap.mem_toList_iff_getElem?_eq_some, lookup_erase, if_pos rfl]
    exact nofun
  have hentries : t.toList.Perm ((key, v) :: (t.erase key).toList) := by
    apply (List.perm_ext_iff_of_nodup (hnodup t) (List.nodup_cons.mpr ⟨hout, hnodup _⟩)).mpr
    rintro ⟨other, x⟩
    simp only [List.mem_cons, ExtTreeMap.mem_toList_iff_getElem?_eq_some, lookup_erase,
      Prod.mk.injEq]
    by_cases hother : other = key
    · simp [hother, h, eq_comm]
    · simp [hother]
  rw [values_eq_map_snd, values_eq_map_snd]
  exact hentries.map Prod.snd

/-- Taking out a key that is not there takes nothing out. -/
theorem erase_of_lookup_eq_none {t : ExtTreeMap α β} {key : α} (h : t[key]? = none) :
    t.erase key = t := by
  apply ExtTreeMap.ext_getElem?
  intro other
  rw [lookup_erase]
  split
  · next heq => rw [heq, h]
  · rfl

end GameServer
