import GameServer.Proofs.Mail
import GameServer.Proofs.Telling

/-!
Logging in.

A login asks several things one after the other, and on the way it already marks the name as
online.  So there are as many ways to be refused, and one of them has to take the mark back.
All of them come to the same: the session is told so, if it can be told anything, and there is no
other trace.
-/

namespace GameServer

open Wire

/-- The answers to a login differ if what they say does. -/
theorem Wire.Response.frame_loginResult_inj {success success' : Bool} {user user' : UInt32}
    (h : (loginResult success user).frame = (loginResult success' user').frame) :
    success = success' ∧ user = user' := by
  have hbody : Write.flag success ++ Write.word user = Write.flag success' ++ Write.word user' :=
    List.append_inj_right h rfl
  have hread := congrArg Reader.flag hbody
  rw [Reader.flag_append, Reader.flag_append] at hread
  obtain ⟨hsuccess, hword⟩ := Prod.mk.inj (Option.some.inj hread)
  have hread' := congrArg (fun w => Reader.word (w ++ [])) hword
  rw [Reader.word_append, Reader.word_append] at hread'
  exact ⟨hsuccess, (Prod.mk.inj (Option.some.inj hread')).1⟩

theorem Wire.Response.fits_loginResult (success : Bool) (user : UInt32) :
    (loginResult success user).Fits := (fits_flags success user ⟨0⟩).2.1

namespace Gateway

variable {g : Gateway} {username password : String} {user : UInt32}

/-- Whoever gives the name and the password of an account is told its number, as long as the
    database answers. -/
theorem authenticate_eq_some :
    g.authenticate username password = some user ↔
      g.database.deaf = false ∧ ∃ row, g.database.account? username = some row ∧
        row.password = password ∧ row.id = user := by
  unfold authenticate Database.query Database.account?
  cases hdeaf : g.database.deaf with
  | true => simp
  | false =>
    cases haccount : g.database.users[username]? with
    | none => simp [haccount]
    | some row =>
      by_cases hpassword : row.password = password <;> simp [haccount, Option.filter, hpassword]

/-- A name is taken if the cache answers and nobody has it. -/
theorem addPresence_of_offline (hup : g.cache.down = false) (hoffline : ¬ g.IsOnline username) :
    g.addPresence username = (true, { g with cache := g.cache.mark presenceKey username }) := by
  have hnew : (g.cache.set presenceKey).contains username = false := by
    rwa [IsOnline, ← Std.ExtTreeSet.contains_iff_mem, Bool.not_eq_true] at hoffline
  rw [addPresence_eq, if_neg (by simp [hup]), hnew]
  rfl

end Gateway

namespace World

/-! ### Who is let in -/

/-- What a login has to meet: the session of that number can be told something and nobody is logged
    in on it, the database answers and has the account, and the cache answers and nobody is
    online under the name. -/
structure Admits (w : World) (id : SessionId) (username password : String) (place : Place)
    (s : Session) (user : UInt32) : Prop where
  found : w.find? id = some (place, s)
  isOpen : s.closed = false
  nobody : s.user = none
  answers : w.gateway.database.deaf = false
  known : ∃ row, w.gateway.database.account? username = some row ∧ row.password = password ∧
    row.id = user
  up : w.gateway.cache.down = false
  offline : ¬ w.gateway.IsOnline username

/-- The session of a number is told that it is logged in, under a name and with the number of an
    account, and it is. -/
def LogsIn (w v : World) (id : SessionId) (username : String) (user : UInt32) : Prop :=
  ∃ place s t, w.find? id = some (place, s) ∧ v.find? id = some (place, t) ∧
    t.frames = s.frames ++ [(Response.loginResult true user).frame] ∧ t.user = some username

variable {w : World} {id : SessionId} {username password : String} {place : Place} {s : Session}
  {user : UInt32}

theorem login_of_admits (h : w.Admits id username password place s user) :
    w.login id username password =
      (({ w with gateway := { w.gateway with
          cache := w.gateway.cache.mark presenceKey username } } : World).modify place
        (·.login username)).send place (.loginResult true user) := by
  have hknown : w.gateway.authenticate username password = some user :=
    Gateway.authenticate_eq_some.mpr ⟨h.answers, h.known⟩
  have hmarked := Gateway.addPresence_of_offline h.up h.offline
  simp [login, h.found, Session.loggedIn, h.nobody, hknown, hmarked, h.isOpen]

/-- A response is sent to the session that the directory has under a number. -/
theorem getElem?_reply (w : World) (id : SessionId) (r : Response) (p : Place) :
    (w.reply id r).sessions[p]? =
      w.sessions[p]?.map fun s => if w.directory.find? id = some p then s.tell r else s := by
  unfold reply
  cases hplace : w.directory.find? id with
  | none => simp
  | some place =>
    change (Sessions.send place r w.sessions)[p]? = _
    rw [Sessions.getElem?_send]
    simp only [Option.some.injEq]

/-- A response to a session that is not there, or not open any more, comes to nothing. -/
theorem reply_of_unheard (hunheard : ∀ place s, w.find? id = some (place, s) → s.closed = true)
    (r : Response) : w.reply id r = w := by
  unfold reply
  cases hplace : w.directory.find? id with
  | none => rfl
  | some place =>
    have hsame : Sessions.send place r w.sessions = w.sessions :=
      Sessions.send_of_closed (fun s hs => hunheard place s (find?_eq_some.mpr ⟨hplace, hs⟩)) r
    change w.withSessions (Sessions.send place r w.sessions) = w
    rw [hsame]
    rfl

theorem reply_of_find? (hfind : w.find? id = some (place, s)) (r : Response) :
    w.reply id r = w.send place r := by
  rw [reply, (find?_eq_some.mp hfind).1]

/-- **Whoever is not let in is told so, and the stores are as if nobody had asked.** -/
theorem login_of_refused (h : ∀ place s user, ¬ w.Admits id username password place s user) :
    ∃ gateway, w.gateway.Alike gateway ∧
      w.login id username password =
        ({ w with gateway } : World).reply id (.loginResult false 0) := by
  unfold login
  split
  next hnone =>
    refine ⟨w.gateway, .refl _, ?_⟩
    exact (reply_of_unheard (fun place s hfind => by simp [hnone] at hfind) _).symm
  next place s hfind =>
    have hreply : ∀ gateway, ({ w with gateway } : World).reply id (.loginResult false 0) =
        ({ w with gateway } : World).refuseLogin place :=
      fun gateway => reply_of_find? (w := { w with gateway }) hfind _
    split
    next => exact ⟨w.gateway, .refl _, (hreply w.gateway).symm⟩
    next hnobody =>
      split
      next => exact ⟨w.gateway, .refl _, (hreply w.gateway).symm⟩
      next user hknown =>
        split
        next gateway hadd =>
          exact ⟨gateway, Gateway.alike_addPresence_refused hadd, (hreply gateway).symm⟩
        next gateway hadd =>
          obtain ⟨hup, -, hoffline, -⟩ := Gateway.isOnline_addPresence hadd
          obtain ⟨hanswers, hrow⟩ := Gateway.authenticate_eq_some.mp hknown
          split
          next hclosed =>
            -- the name is given back
            refine ⟨gateway.removePresence username, Gateway.alike_add_remove hadd, ?_⟩
            refine (reply_of_unheard (w := { w with gateway := _ }) ?_ _).symm
            intro place' s' hfind'
            obtain ⟨-, rfl⟩ := Prod.mk.inj (Option.some.inj (hfind.symm.trans hfind'))
            exact hclosed
          next hopen =>
            have hnone : s.user = none := by simpa [Session.loggedIn] using hnobody
            exact absurd ⟨hfind, by simpa using hopen, hnone, hanswers, hrow, hup, hoffline⟩
              (h place s user)

/-! ### What a login comes to -/

theorem sessions_login_of_admits (h : w.Admits id username password place s user) (p : Place) :
    (w.login id username password).sessions[p]? =
      if place = p then some ((s.login username).tell (.loginResult true user))
      else w.sessions[p]? := by
  have hs := (find?_eq_some.mp h.found).2
  rw [login_of_admits h]
  change (Sessions.send place _ (w.sessions.modify place (·.login username)))[p]? = _
  rw [Sessions.getElem?_send, List.getElem?_modify]
  by_cases hp : place = p
  · subst hp
    simp [hs]
  · simp [hp]

theorem told_of_admits (h : w.Admits id username password place s user) :
    ∃ t, (w.login id username password).sessions[place]? = some t ∧
      (s.login username).Told (.loginResult true user) t :=
  ⟨_, (sessions_login_of_admits h place).trans (if_pos rfl),
    Session.told_tell h.isOpen (Response.fits_loginResult true user)⟩

theorem told_of_refused (h : ∀ place s user, ¬ w.Admits id username password place s user)
    {p : Place} (hs : w.sessions[p]? = some s) :
    ∃ t, (w.login id username password).sessions[p]? = some t ∧
      if w.directory.find? id = some p ∧ s.closed = false then s.Told (.loginResult false 0) t
      else t = s := by
  obtain ⟨gateway, -, hlogin⟩ := login_of_refused h
  rw [hlogin, getElem?_reply]
  change ∃ t, w.sessions[p]?.map _ = some t ∧ _
  rw [hs]
  refine ⟨_, rfl, ?_⟩
  have hheard := s.told_or_same (Response.fits_loginResult false 0)
  by_cases hplace : w.directory.find? id = some p
  · simpa [hplace] using hheard
  · simp [hplace]

theorem elsewhere_login (w : World) (id : SessionId) (username password : String) :
    w.Elsewhere (w.login id username password) := by
  by_cases h : ∃ place s user, w.Admits id username password place s user
  · obtain ⟨place, s, user, h⟩ := h
    rw [login_of_admits h]
    exact ⟨(Sessions.length_send ..).trans (List.length_modify ..), rfl⟩
  · simp only [not_exists] at h
    obtain ⟨gateway, -, hlogin⟩ := login_of_refused h
    rw [hlogin, reply]
    split
    · exact ⟨rfl, rfl⟩
    · exact ⟨Sessions.length_send .., rfl⟩

/-- Only one session can be meant. -/
theorem Admits.unique (h : w.Admits id username password place s user) {place' : Place}
    {s' : Session} (hfind : w.find? id = some (place', s')) : place' = place ∧ s' = s :=
  Prod.mk.inj (Option.some.inj (hfind.symm.trans h.found))

theorem logsIn_of_admits (h : w.Admits id username password place s user) :
    w.LogsIn (w.login id username password) id username user := by
  obtain ⟨t, ht, htold⟩ := told_of_admits h
  have hplace : (w.login id username password).directory.find? id = some place := by
    rw [login_of_admits h]
    exact (find?_eq_some.mp h.found).1
  exact ⟨place, s, t, h.found, find?_eq_some.mpr ⟨hplace, ht⟩, htold.frames,
    congrArg Standing.user htold.standing⟩

/-- Whoever is told that the login has succeeded was let in. -/
theorem admits_of_logsIn (h : w.LogsIn (w.login id username password) id username user) :
    ∃ place s, w.Admits id username password place s user := by
  obtain ⟨place, s, t, hfind, hfind', hframes, -⟩ := h
  obtain ⟨hplace, hs⟩ := find?_eq_some.mp hfind
  obtain ⟨-, ht⟩ := find?_eq_some.mp hfind'
  by_contra hnone
  simp only [not_exists] at hnone
  by_cases hother : ∃ place s other, w.Admits id username password place s other
  · -- the account has one number only, and that is the one the session was told
    obtain ⟨place', s', other, hadmits⟩ := hother
    obtain ⟨rfl, rfl⟩ := hadmits.unique hfind
    obtain ⟨t', ht', htold⟩ := told_of_admits hadmits
    obtain rfl := Option.some.inj (ht.symm.trans ht')
    have hsame := List.append_cancel_left (htold.frames.symm.trans hframes)
    obtain ⟨-, rfl⟩ := Response.frame_loginResult_inj (List.singleton_inj.mp hsame)
    exact hnone place s hadmits
  · simp only [not_exists] at hother
    obtain ⟨t', ht', htold⟩ := told_of_refused hother hs
    obtain rfl := Option.some.inj (ht.symm.trans ht')
    split at htold
    next =>
      have hsame := List.append_cancel_left (htold.frames.symm.trans hframes)
      exact absurd (Response.frame_loginResult_inj (List.singleton_inj.mp hsame)).1 nofun
    next =>
      rw [htold] at hframes
      exact absurd (List.self_eq_append_right.mp hframes) nofun

/-- **A login succeeds exactly when it should, and otherwise leaves no trace.**  In any world let a
    session ask to be logged in.  It is told that it is, with the number of an account, and is
    logged in under the name, if and only if it is registered, open and nobody is logged in on it,
    the database answers and has an account with that name, that password and that number, and the
    cache answers and nobody is online under the name.  Then the name is online, the session has
    got the name and that one answer, and nothing else has changed.  In every other case the stores
    hold what they held, the same names are online, and all sessions are as before, but that the
    session, if it is registered and open, was told once that the login has failed. -/
theorem login_exact (w : World) (id : SessionId) (username password : String) :
    let v := w.execute (.request id (.login username password))
    (∀ user, w.LogsIn v id username user ↔
      ∃ place s, w.Admits id username password place s user) ∧
    (∀ place s user, w.Admits id username password place s user →
      v.gateway = { w.gateway with cache := w.gateway.cache.mark presenceKey username } ∧
      (∀ name, v.gateway.IsOnline name ↔ name = username ∨ w.gateway.IsOnline name) ∧
      (∃ t, v.sessions[place]? = some t ∧ (s.login username).Told (.loginResult true user) t) ∧
      ∀ p, p ≠ place → v.sessions[p]? = w.sessions[p]?) ∧
    ((∀ place s user, ¬ w.Admits id username password place s user) →
      w.gateway.Alike v.gateway ∧ v.gateway.online = w.gateway.online ∧
      ∀ (p : Place) (s : Session), w.sessions[p]? = some s → ∃ t, v.sessions[p]? = some t ∧
        if w.directory.find? id = some p ∧ s.closed = false then s.Told (.loginResult false 0) t
        else t = s) ∧
    w.Elsewhere v := by
  intro v
  refine ⟨fun user => ⟨admits_of_logsIn, fun ⟨_, _, h⟩ => logsIn_of_admits h⟩, ?_, ?_,
    w.elsewhere_login id username password⟩
  · intro place s user h
    have hgateway : v.gateway =
        { w.gateway with cache := w.gateway.cache.mark presenceKey username } :=
      congrArg World.gateway (login_of_admits h)
    refine ⟨hgateway, fun name => ?_, told_of_admits h,
      fun p hp => (sessions_login_of_admits h p).trans (if_neg (Ne.symm hp))⟩
    rw [hgateway, Gateway.IsOnline, Cache.set_mark, if_pos rfl, Std.ExtTreeSet.mem_insert,
      Std.LawfulEqCmp.compare_eq_iff_eq, eq_comm]
    rfl
  · intro h
    obtain ⟨gateway, halike, hlogin⟩ := login_of_refused h
    have hgateway : v.gateway = gateway := by
      change (w.login id username password).gateway = gateway
      rw [hlogin, gateway_reply]
    rw [hgateway]
    refine ⟨halike, ?_, fun p s hs => told_of_refused h hs⟩
    obtain ⟨sets, -, hset⟩ := halike
    rw [Gateway.online, Cache.members, hset]
    rfl

/-- Ann has logged in.  Now somebody who knows her password is refused because she is online, and
    Bob is refused with a wrong password and let in with the right one. -/
theorem login_exact_refused_and_granted :
    let database := (({} : Database).seed 1 "ann" "a").seed 2 "bob" "b"
    let w : World := { gateway := { database } }
    let v := (((w.connect 64).2.connect 64).2.connect 64).2.execute (.request ⟨1⟩ (.login "ann" "a"))
    ¬ v.LogsIn (v.execute (.request ⟨2⟩ (.login "ann" "a"))) ⟨2⟩ "ann" 1 ∧
      (v.execute (.request ⟨2⟩ (.login "bob" "a"))).gateway.online = ["ann"] ∧
      v.LogsIn (v.execute (.request ⟨2⟩ (.login "bob" "b"))) ⟨2⟩ "bob" 2 := by
  intro database w v
  have hbob : v.gateway.database.account? "bob" = some ⟨2, "bob", "b"⟩ := by decide +kernel
  have hann : v.gateway.IsOnline "ann" := by decide +kernel
  have hadmits : v.Admits ⟨2⟩ "bob" "b" 1 (Session.new ⟨2⟩ 64).start 2 :=
    { found := by decide +kernel
      isOpen := rfl
      nobody := rfl
      answers := by decide +kernel
      known := ⟨_, hbob, rfl, rfl⟩
      up := by decide +kernel
      offline := by decide +kernel }
  obtain ⟨hann', -⟩ := login_exact v ⟨2⟩ "ann" "a"
  obtain ⟨-, -, hwrong, -⟩ := login_exact v ⟨2⟩ "bob" "a"
  obtain ⟨hright, -⟩ := login_exact v ⟨2⟩ "bob" "b"
  refine ⟨fun hlogs => ?_, ?_, (hright 2).mpr ⟨_, _, hadmits⟩⟩
  · obtain ⟨place, s, h⟩ := (hann' 1).mp hlogs
    exact h.offline hann
  · have hrefused : ∀ place s user, ¬ v.Admits ⟨2⟩ "bob" "a" place s user := by
      intro place s user h
      obtain ⟨row, hrow, hpassword, -⟩ := h.known
      obtain rfl := Option.some.inj (hbob.symm.trans hrow)
      exact absurd hpassword (by decide)
    obtain ⟨-, honline, -⟩ := hwrong hrefused
    have hbefore : v.gateway.online = ["ann"] := by decide +kernel
    exact honline.trans hbefore

end World

end GameServer
