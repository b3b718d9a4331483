import GameServer.Proofs.Mail

/-!
Numbers: whoever the directory finds under a number has it.

A connection is registered under the number that its session is given, sessions keep their numbers
and their places, and besides a connection nothing registers anybody.  That two sessions may come
to share a number, when numbers have gone round, is no matter here.
-/

namespace GameServer

open Wire

theorem Sessions.Delivered.map_id {letters : List Letter} {sessions others : List Session}
    (h : Delivered letters sessions others) : others.map Session.id = sessions.map Session.id := by
  apply List.ext_getElem?
  intro p
  rw [List.getElem?_map, List.getElem?_map]
  cases hs : sessions[p]? with
  | none =>
    have hout : others[p]? = none := by
      rw [List.getElem?_eq_none_iff] at hs ⊢
      rwa [h.length]
    rw [hout]
  | some s =>
    obtain ⟨t, ht, htook⟩ := h.at hs
    rw [ht, Option.map_some, Option.map_some, htook.id]

namespace World

/-- Whoever the directory finds under a number has it. -/
def Numbered (w : World) : Prop :=
  ∀ (id : SessionId) (place : Place), w.directory.find? id = some place →
    ∃ s, w.sessions[place]? = some s ∧ s.id = id

variable {w w' : World}

theorem Numbered.own (h : w.Numbered) {id : SessionId} {place : Place} {s : Session}
    (hplace : w.directory.find? id = some place) (hs : w.sessions[place]? = some s) : s.id = id := by
  obtain ⟨t, ht, hid⟩ := h id place hplace
  rwa [Option.some.inj (hs.symm.trans ht)]

theorem Numbered.find? (h : w.Numbered) {id : SessionId} {place : Place} {s : Session}
    (hfind : w.find? id = some (place, s)) : s.id = id :=
  h.own (find?_eq_some.mp hfind).1 (find?_eq_some.mp hfind).2

/-- Sessions keep their numbers, and nobody is registered anew. -/
theorem Numbered.of_ids (h : w.Numbered)
    (hids : w'.sessions.map Session.id = w.sessions.map Session.id)
    (hdirectory : ∀ {id : SessionId} {place : Place}, w'.directory.find? id = some place →
      w.directory.find? id = some place) : w'.Numbered := by
  intro id place hplace
  obtain ⟨s, hs, hid⟩ := h id place (hdirectory hplace)
  obtain ⟨t, ht, hsame⟩ := Sessions.getElem?_of_map_eq hids.symm hs
  exact ⟨t, ht, hsame.trans hid⟩

theorem find?_of_erase {d : Directory} {id other : SessionId} {place : Place}
    (h : (d.erase id).find? other = some place) : d.find? other = some place := by
  rw [Directory.find?_erase] at h
  split at h
  · cases h
  · exact h

theorem directory_effect {id : SessionId} {r : Request} (heffect : Effect w id r w') :
    w'.directory = w.directory ∨ w'.directory = w.directory.erase id := by
  cases heffect with
  | quiet done => exact .inl done.directory
  | login found isOpen nobody offline marked done => exact .inl done.directory
  | join found somebody joined done => exact .inl done.directory
  | openRoom found somebody opened done => exact .inl done.directory
  | leave done => exact .inl done.directory
  | logout asked => exact .inr (w.directory_logout id none)

/-- Executing a command registers nobody. -/
theorem directory_execute (w : World) (c : Command) :
    (w.execute c).directory = w.directory ∨
      (w.execute c).directory = w.directory.erase c.session := by
  cases c with
  | hangUp id username => exact .inr (w.directory_logout id _)
  | request id r => exact directory_effect (w.answer_effect id r)

theorem Numbered.execute (h : w.Numbered) (c : Command) : (w.execute c).Numbered := by
  obtain ⟨letters, hdelivered⟩ := w.delivered_execute c
  refine h.of_ids hdelivered.map_id ?_
  intro id place hplace
  rcases w.directory_execute c with hsame | herased
  · rwa [hsame] at hplace
  · rw [herased] at hplace
    exact find?_of_erase hplace

theorem Numbered.connect (h : w.Numbered) (capacity : Nat) : (w.connect capacity).2.Numbered := by
  intro id place hplace
  have hplace' : (w.directory.insert ⟨w.directory.nextId⟩ w.sessions.length).find? id =
      some place := hplace
  rw [Directory.find?_insert] at hplace'
  rw [sessions_connect]
  split at hplace'
  · next heq =>
    cases hplace'
    exact ⟨_, List.getElem?_concat_length, heq.symm⟩
  · obtain ⟨s, hs, hid⟩ := h id place hplace'
    exact ⟨s, by rw [List.getElem?_append_left (List.getElem?_eq_some_iff.mp hs).1, hs], hid⟩

/-- **Whatever happens, a number leads to a session that has it.** -/
theorem kept_numbered (allowed : World → Event → Prop) : Kept Numbered allowed where
  quiet hquiet hv :=
    hv.of_ids (Sessions.map_of_map_standing Standing.id hquiet.standing)
      fun hplace => hquiet.directory ▸ hplace
  enqueue _ _ hv := hv
  hangUp _ _ _ hv := hv
  connect capacity _ hv := hv.connect capacity
  disconnect {v} place _ hv :=
    hv.of_ids (Sessions.delivered_disconnect place v.sessions v.queue).map_id fun hplace => hplace
  forget _ _ hv := hv.of_ids rfl find?_of_erase
  drop {v place b} _ hv := hv.of_ids (v.delivered_drop place b.id).map_id find?_of_erase
  dropAll {v} hv := by
    refine hv.of_ids v.delivered_dropAll.map_id fun hplace => ?_
    rw [dropAll_eq] at hplace
    simp [Directory.clear, Directory.find?] at hplace
  execute {v} c _ hv := Numbered.execute (w := v.dequeue c) hv c

theorem Pristine.numbered (h : w.Pristine) : w.Numbered := by
  intro id place hplace
  rw [Directory.find?, h.entries] at hplace
  simp at hplace

end World

end GameServer
