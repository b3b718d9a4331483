import GameServer.Proofs.Memory

/-!
What commands do to the stores.

A command marks names in the cache and lets it remember lines, and it puts requests behind those
that wait to be written.  It does nothing else to the gateway: the database stays as it is until
somebody writes, and the cache neither fails nor recovers by being asked.
-/

namespace GameServer

open Wire

namespace Gateway

/-- The names and the lines in the cache may have changed, and some more requests wait. -/
def Touched (more : List StoreRequest) (g g' : Gateway) : Prop :=
  ∃ sets lists, g' =
    { g with cache := { g.cache with sets, lists }, pending := g.pending ++ more }

variable {g g' g'' : Gateway} {more later : List StoreRequest}

theorem touched_cache (sets : Std.ExtTreeMap String (Std.ExtTreeSet String))
    (lists : Std.ExtTreeMap String Lines) :
    g.Touched [] { g with cache := { g.cache with sets, lists } } :=
  ⟨sets, lists, by rw [List.append_nil]⟩

theorem Touched.refl (g : Gateway) : g.Touched [] g := touched_cache _ _

theorem Touched.of_eq (h : g' = g) : g.Touched [] g' := h ▸ .refl g

theorem Touched.trans (h : g.Touched more g') (h' : g'.Touched later g'') :
    g.Touched (more ++ later) g'' := by
  obtain ⟨sets, lists, rfl⟩ := h
  obtain ⟨sets', lists', rfl⟩ := h'
  exact ⟨sets', lists', by rw [← List.append_assoc]⟩

theorem touched_addPresence (g : Gateway) (username : String) :
    g.Touched [] (g.addPresence username).2 := by
  unfold addPresence
  split
  · next hadd =>
    obtain ⟨-, heq⟩ := Cache.up_of_whenUp hadd
    cases heq
    exact touched_cache _ _
  · exact .refl g

theorem touched_removePresence (g : Gateway) (username : String) :
    g.Touched [] (g.removePresence username) := by
  unfold removePresence
  split
  · next hremove =>
    obtain ⟨-, heq⟩ := Cache.up_of_whenUp hremove
    cases heq
    exact touched_cache _ _
  · exact .refl g

theorem touched_remember (g : Gateway) (room : RoomId) (username message : String) :
    g.Touched [] (g.remember room username message) := by
  unfold remember
  split
  · exact .refl g
  · split
    · exact .refl g
    · next hpush =>
      obtain ⟨-, heq⟩ := Cache.up_of_whenUp hpush
      cases heq
      split
      · exact touched_cache _ _
      · next htrim =>
        obtain ⟨-, rfl⟩ := Cache.up_of_whenUp htrim
        exact touched_cache _ _

/-- A request waits unless the gateway has stopped. -/
theorem touched_post? (g : Gateway) (r : StoreRequest) :
    g.Touched (if g.running then [r] else []) ((g.post? r).getD g) := by
  unfold post?
  split
  · exact ⟨_, _, rfl⟩
  · exact .refl g

end Gateway

namespace World

/-- The requests that a command would let wait, if any are still taken. -/
def toWrite (w : World) : Command → List StoreRequest
  | .request id (.register username password) => [.register id username password]
  | .request id (.chat message) => ((w.utterance? id message).map .saveChat).toList
  | _ => []

/-- The requests that a command lets wait. -/
def posts (w : World) (c : Command) : List StoreRequest :=
  if w.gateway.running then w.toWrite c else []

variable (w : World) (id : SessionId)

theorem posts_of_none {c : Command} (h : w.toWrite c = []) : w.posts c = [] := by
  rw [posts, h, ite_self]

theorem touched_register (username password : String) :
    w.gateway.Touched (w.posts (.request id (.register username password)))
      (w.register id username password).gateway := by
  have hpost := w.gateway.touched_post? (.register id username password)
  unfold register
  split
  · next gateway hsome => rwa [hsome, Option.getD_some] at hpost
  · next hnone =>
    rw [hnone, Option.getD_none] at hpost
    rwa [gateway_reply]

theorem touched_login (username password : String) :
    w.gateway.Touched [] (w.login id username password).gateway := by
  have hadd := w.gateway.touched_addPresence username
  unfold login
  split
  · exact .refl _
  · split
    · exact .refl _
    · split
      · exact .refl _
      · split
        · next gateway hrefused => rwa [hrefused] at hadd
        · next gateway hadded =>
          rw [hadded] at hadd
          split
          · exact hadd.trans (gateway.touched_removePresence username)
          · exact hadd

theorem touched_logout (carried : Option String) :
    w.gateway.Touched [] (w.logout id carried).gateway := by
  obtain ⟨-, -, hgateway⟩ := w.leaveRoom_unname id carried
  have hclose : ∀ (v : World) (found : Option Place), (v.closeAt found).gateway = v.gateway := by
    intro v found
    cases found <;> rfl
  rw [logout_eq, hclose]
  cases (w.unname id carried).2 with
  | none => exact .of_eq hgateway
  | some username =>
    have hremove := w.gateway.touched_removePresence username
    rwa [← hgateway] at hremove ⊢

theorem touched_chat (message : String) :
    w.gateway.Touched (w.posts (.request id (.chat message))) (w.chat id message).gateway := by
  cases hu : w.utterance? id message with
  | none =>
    rw [chat_of_none hu, posts_of_none]
    · exact .refl _
    · simp [toWrite, hu]
  | some u =>
    have hremember := w.gateway.touched_remember u.room u.username u.message
    have hrunning : (w.gateway.remember u.room u.username u.message).running = w.gateway.running := by
      obtain ⟨sets, lists, heq⟩ := hremember
      rw [heq]
    have hpost := (w.gateway.remember u.room u.username u.message).touched_post? (.saveChat u)
    rw [hrunning] at hpost
    have hposts : w.posts (.request id (.chat message)) =
        if w.gateway.running then [.saveChat u] else [] := by simp [posts, toWrite, hu]
    rw [chat_of_some hu, hposts]
    exact hremember.trans hpost

/-- **A command does no more to the stores** than mark names, remember lines, and let its requests
    wait. -/
theorem touched_execute (c : Command) : w.gateway.Touched (w.posts c) (w.execute c).gateway := by
  cases c with
  | hangUp id username =>
    rw [posts_of_none w rfl]
    exact w.touched_logout id _
  | request id r =>
    cases r with
    | register username password => exact w.touched_register id username password
    | chat message => exact w.touched_chat id message
    | login username password =>
      rw [posts_of_none w rfl]
      exact w.touched_login id username password
    | logout =>
      rw [posts_of_none w rfl]
      exact w.touched_logout id none
    | enterRoom room =>
      rw [posts_of_none w rfl]
      exact .of_eq (w.gateway_enterRoom id room)
    | leaveRoom =>
      rw [posts_of_none w rfl]
      exact .of_eq (w.gateway_leaveRoom id)
    | move vx vy =>
      rw [posts_of_none w rfl]
      exact .of_eq (w.gateway_move id vx vy)
    | createRoom title =>
      rw [posts_of_none w rfl]
      exact .of_eq (w.gateway_createRoom id title)
    | listRooms =>
      rw [posts_of_none w rfl]
      exact .of_eq (w.gateway_reply id _)

end World

end GameServer
