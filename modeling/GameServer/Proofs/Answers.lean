import GameServer.Proofs.Accounts
import GameServer.Proofs.Crew
import GameServer.Proofs.Mail
import GameServer.Proofs.Postings

/-!
Every question is answered exactly once.

A request that is a question is answered when it is executed.  Only a registration is not, while
the gateway runs: it waits to be written, several workers may write what waits, in any order, and
whoever has written it answers it.  So the answers that a session has got and the registrations
that still wait for it are, together, the questions it has asked.
-/

namespace GameServer

open Wire

/-! ### Questions -/

/-- The question that a command puts, and who puts it. -/
def Command.question? : Command → Option (SessionId × Packet)
  | .request id r => r.answeredBy?.map (id, ·)
  | .hangUp .. => none

/-! ### Answers among the frames -/

def kindOf? (frame : Bytes) : Option Packet := (Header.decode? frame).bind Header.packet?

theorem kindOf?_frame (r : Response) : kindOf? r.frame = some r.packet := by
  rw [kindOf?, Response.frame, Header.decode?_encode]
  exact Packet.ofCode?_code r.packet

def isOf (f : Packet → Bool) (frame : Bytes) : Bool := (kindOf? frame).any f

/-- The frames of a kind are those of the letters of that kind. -/
theorem filter_isOf_framesTo (f : Packet → Bool) (p : Place) (letters : List Letter) :
    (framesTo p letters).filter (isOf f) = framesTo p (lettersOf f letters) := by
  induction letters with
  | nil => rfl
  | cons l rest ih =>
    rw [← List.singleton_append, framesTo_append, lettersOf_append, framesTo_append,
      List.filter_append, ih]
    congr 1
    obtain ⟨place, r⟩ := l
    by_cases hp : place = p
    · subst hp
      rw [framesTo_at]
      cases hencode : r.encode with
      | error cause =>
        cases hkind : f r.packet <;>
          simp [lettersOf, hkind, framesTo, hencode, Except.toOption]
      | ok frame =>
        obtain ⟨-, rfl⟩ := Response.encode_eq_ok hencode
        have hkind := kindOf?_frame r
        cases hof : f r.packet <;>
          simp [lettersOf, hof, framesTo, hencode, Except.toOption, isOf, hkind]
    · have hnone : framesTo p (lettersOf f [⟨place, r⟩]) = [] := by
        cases hof : f r.packet <;> simp [lettersOf, hof, framesTo, hp]
      rw [framesTo_elsewhere hp, hnone]
      rfl

theorem framesTo_fits {r : Response} (h : r.Fits) (p : Place) : framesTo p [⟨p, r⟩] = [r.frame] := by
  rw [framesTo_at, Response.encode_of_fits h]
  rfl

/-- One response to several places comes once to each. -/
theorem framesTo_map {r : Response} (h : r.Fits) {places : List Place} (hnodup : places.Nodup)
    (p : Place) :
    framesTo p (places.map (⟨·, r⟩)) = if p ∈ places then [r.frame] else [] := by
  induction places with
  | nil => rfl
  | cons place rest ih =>
    obtain ⟨hout, hrest⟩ := List.nodup_cons.mp hnodup
    rw [List.map_cons, ← List.singleton_append, framesTo_append, ih hrest]
    by_cases hp : place = p
    · subst hp
      rw [framesTo_fits h, if_neg hout, if_pos (List.mem_cons_self ..), List.append_nil]
    · rw [framesTo_elsewhere hp, List.nil_append]
      simp [Ne.symm hp]

namespace Session

/-- The frames of the kinds that are looked for among those a session has been sent. -/
def framesOf (f : Packet → Bool) (s : Session) : List Bytes := s.frames.filter (isOf f)

/-- The answers that a session has been sent, oldest first. -/
def answers (s : Session) : List Bytes := s.framesOf Packet.isAnswer

/-- How many answers of a kind a session has been sent. -/
def answered (s : Session) (kind : Packet) : Nat := s.answers.countP (kindOf? · = some kind)

variable {s t : Session} {p : Place} {letters : List Letter}

theorem Took.framesOf_eq (h : s.Took (framesTo p letters) t) (hopen : t.closed = false)
    (f : Packet → Bool) : t.framesOf f = s.framesOf f ++ framesTo p (lettersOf f letters) := by
  rw [framesOf, h.frames hopen, List.filter_append, filter_isOf_framesTo, framesOf]

/-- Whoever is closed, or is sent no letter of a kind, gets none; who closes may lose some. -/
theorem Took.framesOf_prefix (h : s.Took (framesTo p letters) t) {f : Packet → Bool}
    (hnone : s.closed = true ∨ framesTo p (lettersOf f letters) = []) :
    t.framesOf f <+: s.framesOf f := by
  cases ht : t.closed with
  | true =>
    have hcut := (h.cut ht).filter (isOf f)
    rw [List.filter_append] at hcut
    refine hcut.trans ?_
    rcases hnone with hclosed | hnone
    · rw [if_pos hclosed, List.filter_nil, List.append_nil]
      exact List.prefix_rfl
    · split
      · rw [List.filter_nil, List.append_nil]
        exact List.prefix_rfl
      · rw [filter_isOf_framesTo, hnone, List.append_nil]
        exact List.prefix_rfl
  | false =>
    rw [h.framesOf_eq ht]
    rcases hnone with hclosed | hnone
    · exact absurd ((h.stays hclosed).symm.trans ht) nofun
    · rw [hnone, List.append_nil]

end Session

namespace World

variable {w w' : World}

/-- The session at a place gets no answer.  One that is closed may lose answers that waited. -/
def Unanswered (w w' : World) (p : Place) : Prop :=
  ∀ s, w.sessions[p]? = some s → ∃ t, w'.sessions[p]? = some t ∧ t.answers <+: s.answers ∧
    (t.closed = false → t.answers = s.answers)

/-- The session at a place is open, stays so, and gets one answer; nobody else gets any. -/
def AnsweredOnce (w w' : World) (place : Place) (a : Response) : Prop :=
  (∃ s t, w.sessions[place]? = some s ∧ w'.sessions[place]? = some t ∧ t.closed = false ∧
    t.answers = s.answers ++ [a.frame]) ∧ ∀ p, p ≠ place → w.Unanswered w' p

section Letters

variable {letters : List Letter} (h : Sessions.Delivered letters w.sessions w'.sessions)

include h

theorem unanswered_of_silent {p : Place}
    (hnone : framesTo p (lettersOf Packet.isAnswer letters) = []) : w.Unanswered w' p := by
  intro s hs
  obtain ⟨t, ht, htook⟩ := h.at hs
  refine ⟨t, ht, htook.framesOf_prefix (.inr hnone), fun hopen => ?_⟩
  rw [Session.answers, htook.framesOf_eq hopen, hnone, List.append_nil, Session.answers]

theorem unanswered_of_closed {p : Place}
    (hclosed : ∀ s, w.sessions[p]? = some s → s.closed = true) : w.Unanswered w' p := by
  intro s hs
  obtain ⟨t, ht, htook⟩ := h.at hs
  refine ⟨t, ht, htook.framesOf_prefix (.inl (hclosed s hs)), fun hopen => ?_⟩
  exact absurd ((htook.stays (hclosed s hs)).symm.trans hopen) nofun

theorem answeredOnce_of_one {place : Place} {a : Response}
    (hone : lettersOf Packet.isAnswer letters = [⟨place, a⟩]) (hfits : a.Fits) {s t : Session}
    (hs : w.sessions[place]? = some s) (ht : w'.sessions[place]? = some t)
    (hopen : t.closed = false) :
    w.AnsweredOnce w' place a := by
  constructor
  · refine ⟨s, t, hs, ht, hopen, ?_⟩
    rw [Session.answers, (h.took hs ht).framesOf_eq hopen, hone, framesTo_fits hfits,
      Session.answers]
  · intro p hp
    apply unanswered_of_silent h
    rw [hone, framesTo_elsewhere (Ne.symm hp)]

end Letters

/-! ### What is due -/

/-- A registration that is written is answered as the database has answered. -/
theorem write_of_register {w : World} {i : Nat} {id : SessionId} {username password : String}
    (h : w.gateway.pending[i]? = some (.register id username password)) :
    let outcome := w.gateway.database.execute (.insertUser username password)
    w.write i = (w.written i outcome.1).reply id (.registerResult outcome.2.isOk) := by
  unfold write
  rw [h]
  rfl

theorem write_of_saveChat {w : World} {i : Nat} {row : ChatRow}
    (h : w.gateway.pending[i]? = some (.saveChat row)) :
    w.write i = w.written i (w.gateway.database.execute (.insertChat row)).1 := by
  unfold write
  rw [h]
  rfl

/-- Who is to be answered by a command that is executed, and with what kind of packet. -/
def dueFor? (w : World) : Command → Option (SessionId × Packet)
  | .request id r => if w.defers r then none else r.answeredBy?.map (id, ·)
  | .hangUp .. => none

/-- Who is to be answered when a request has been written. -/
def writtenFor? (w : World) (i : Nat) : Option (SessionId × Packet) :=
  (w.gateway.pending[i]?.bind StoreRequest.registrant?).map (·, .registerResult)

/-- Who is to be answered when something happens, and with what kind of packet. -/
def due? (w : World) : Event → Option (SessionId × Packet)
  | .execute c => w.dueFor? c
  | .write i => w.writtenFor? i
  | _ => none

/-- The letters of an event are what is due: the answer, or nothing if nobody is there to be
    answered. -/
inductive Settled (w : World) (letters : List Letter) : Option (SessionId × Packet) → Prop
  | nothing (silent : lettersOf Packet.isAnswer letters = []) : Settled w letters none
  | lost {id : SessionId} {kind : Packet} (silent : lettersOf Packet.isAnswer letters = [])
      (gone : ∀ place s, w.find? id = some (place, s) → s.closed = true) :
      Settled w letters (some (id, kind))
  | answer {id : SessionId} {place : Place} {a : Response}
      (one : lettersOf Packet.isAnswer letters = [⟨place, a⟩])
      (found : w.directory.find? id = some place) (fits : a.Fits) :
      Settled w letters (some (id, a.packet))

theorem Settled.congr {letters : List Letter} {due : Option (SessionId × Packet)}
    (h : Settled w letters due) (hsessions : w'.sessions = w.sessions)
    (hdirectory : w'.directory = w.directory) : Settled w' letters due := by
  have hfind : w'.find? = w.find? := by
    funext id
    rw [find?, find?, hsessions, hdirectory]
  cases h with
  | nothing silent => exact .nothing silent
  | lost silent gone => exact .lost silent (hfind ▸ gone)
  | answer one found fits => exact .answer one (hdirectory ▸ found) fits

theorem Mail.settled {id : SessionId} {r : Request} {letters : List Letter}
    (h : Mail w id r letters) : Settled w letters (w.dueFor? (.request id r)) := by
  unfold dueFor?
  dsimp only
  rcases h with ⟨hsilent, hreason⟩ | ⟨hone, hfound, hkind, hprompt, hfits⟩
  · cases hdefers : w.defers r with
    | true => exact .nothing hsilent
    | false =>
      cases hkind : r.answeredBy? with
      | none => exact .nothing hsilent
      | some kind =>
        rw [hdefers, hkind] at hreason
        exact .lost hsilent ((hreason.resolve_left nofun).resolve_left nofun)
  · rw [hprompt, hkind]
    exact .answer hone hfound hfits

theorem settled_execute (w : World) (c : Command) :
    ∃ letters, Settled w letters (w.dueFor? c) ∧
      Sessions.Delivered letters w.sessions (w.execute c).sessions := by
  cases c with
  | request id r =>
    obtain ⟨letters, hmail, hdelivered⟩ := w.mail_answer id r
    exact ⟨letters, hmail.settled, hdelivered⟩
  | hangUp id username =>
    exact ⟨_, .nothing (silent_partingLetters _), w.delivered_logout id (some username)⟩

/-- A registration that is reported answers whoever asked for it. -/
theorem settled_reply (w : World) (id : SessionId) (success : Bool) :
    Settled w ((w.directory.find? id).toList.map (⟨·, .registerResult success⟩))
      (some (id, .registerResult)) := by
  cases hfind : w.directory.find? id with
  | none =>
    refine .lost rfl fun place s hs => ?_
    rw [(find?_eq_some.mp hs).1] at hfind
    cases hfind
  | some place =>
    exact .answer (a := .registerResult success) rfl hfind (Response.fits_flags success 0 ⟨0⟩).1

theorem settled_write (w : World) (i : Nat) :
    ∃ letters, Settled w letters (w.writtenFor? i) ∧
      Sessions.Delivered letters w.sessions (w.write i).sessions := by
  unfold writtenFor?
  cases hr : w.gateway.pending[i]? with
  | none =>
    rw [write, hr]
    exact ⟨[], .nothing rfl, .refl _⟩
  | some r =>
    cases r with
    | saveChat row =>
      rw [write_of_saveChat hr]
      exact ⟨[], .nothing rfl, .refl _⟩
    | register id username password =>
      rw [write_of_register hr]
      exact ⟨_, w.settled_reply id _, delivered_reply (w.written i _) id _⟩

theorem settled_next (w : World) {e : Event} (hconnect : ∀ capacity, e ≠ .connect capacity) :
    ∃ letters, Settled w letters (w.due? e) ∧
      Sessions.Delivered letters w.sessions (w.next e).sessions := by
  cases e with
  | execute c =>
    obtain ⟨letters, hsettled, hdelivered⟩ := settled_execute (w.dequeue c) c
    exact ⟨letters, hsettled.congr rfl rfl, hdelivered⟩
  | write i => exact w.settled_write i
  | _ =>
    -- no answer is due
    obtain ⟨letters, hsilent, hdelivered⟩ := w.delivered_next hconnect (by simp) (by simp)
    exact ⟨letters, .nothing hsilent, hdelivered⟩

/-! ### Staying open -/

theorem Quiet.closed (h : Quiet w w') :
    w'.sessions.map Session.closed = w.sessions.map Session.closed :=
  Sessions.map_of_map_standing Standing.closed h.standing

/-- Nobody is closed by what they ask for, unless they log out. -/
theorem closed_effect {id : SessionId} {r : Request} (h : Effect w id r w') (hstays : r ≠ .logout) :
    w'.sessions.map Session.closed = w.sessions.map Session.closed := by
  cases h with
  | quiet done => exact done.closed
  | login found isOpen nobody offline marked done =>
    exact done.closed.trans (Sessions.map_modify_of_eq fun _ _ => rfl)
  | join found somebody joined done =>
    exact done.closed.trans (Lobby.map_join (fun _ _ => rfl) joined)
  | openRoom found somebody opened done =>
    exact done.closed.trans (Lobby.map_openRoom (fun _ _ => rfl) opened)
  | leave done => exact done.closed.trans (Lobby.map_leave (fun _ _ => rfl) w.lobby id)
  | logout asked => exact absurd asked hstays

/-- Whoever is answered is not closed by what it is answered for. -/
theorem closed_of_due {e : Event} {id : SessionId} {kind : Packet}
    (h : w.due? e = some (id, kind)) :
    (w.next e).sessions.map Session.closed = w.sessions.map Session.closed := by
  unfold due? at h
  split at h
  · next c =>
    cases c with
    | hangUp id username => cases h
    | request id r =>
      have hstays : r ≠ .logout := by
        rintro rfl
        cases h
      let taken := w.dequeue (.request id r)
      exact closed_effect (w := taken) (taken.answer_effect id r) hstays
  · next i => exact (w.quiet_write i).closed
  · cases h

/-! ### One event -/

theorem unanswered_connect (w : World) (capacity : Nat) (p : Place) :
    w.Unanswered (w.connect capacity).2 p := by
  intro s hs
  refine ⟨s, ?_, List.prefix_rfl, fun _ => rfl⟩
  rw [sessions_connect, List.getElem?_append_left (List.getElem?_eq_some_iff.mp hs).1]
  exact hs

/-- **An answer that is due to an open session is given**, once and to nobody else. -/
theorem answeredOnce_of_due {e : Event} {id : SessionId} {kind : Packet} {place : Place}
    {s : Session} (hdue : w.due? e = some (id, kind)) (hfind : w.find? id = some (place, s))
    (hopen : s.closed = false) :
    ∃ a : Response, a.packet = kind ∧ a.Fits ∧ w.AnsweredOnce (w.next e) place a := by
  obtain ⟨hplace, hs⟩ := find?_eq_some.mp hfind
  have hconnect : ∀ capacity, e ≠ .connect capacity := by
    rintro capacity rfl
    cases hdue
  obtain ⟨letters, hsettled, hdelivered⟩ := w.settled_next hconnect
  obtain ⟨u, hu, -⟩ := hdelivered.at hs
  have hstays : u.closed = false := by
    obtain ⟨s', hs', hclosed⟩ := Sessions.getElem?_of_map_eq (closed_of_due hdue) hu
    obtain rfl := Option.some.inj (hs.symm.trans hs')
    exact hclosed.symm.trans hopen
  rw [hdue] at hsettled
  cases hsettled with
  | lost silent gone => exact absurd ((gone place s hfind).symm.trans hopen) nofun
  | answer one found fits =>
    obtain rfl := Option.some.inj (hplace.symm.trans found)
    exact ⟨_, rfl, fits, answeredOnce_of_one hdelivered one fits hs hu hstays⟩

/-- Whoever is open and registered gets what is replied to its number. -/
theorem answeredOnce_reply {id : SessionId} {place : Place} {s : Session}
    (hfind : w.find? id = some (place, s)) (hopen : s.closed = false) {a : Response}
    (hfits : a.Fits) (hanswer : a.packet.isAnswer = true) :
    w.AnsweredOnce (w.reply id a) place a := by
  obtain ⟨hplace, hs⟩ := find?_eq_some.mp hfind
  have hdelivered := w.delivered_reply id a
  rw [hplace] at hdelivered
  obtain ⟨u, hu, -⟩ := hdelivered.at hs
  have hone : lettersOf Packet.isAnswer [⟨place, a⟩] = [⟨place, a⟩] := by simp [lettersOf, hanswer]
  refine answeredOnce_of_one hdelivered hone hfits hs hu ?_
  obtain ⟨s', hs', hclosed⟩ := Sessions.getElem?_of_map_eq (w.quiet_reply id a).closed hu
  obtain rfl := Option.some.inj (hs.symm.trans hs')
  exact hclosed.symm.trans hopen

/-- Where no answer is due, or nobody is there to be answered, nobody is. -/
theorem unanswered_next {e : Event}
    (h : ∀ id kind, w.due? e = some (id, kind) →
      ∀ place s, w.find? id = some (place, s) → s.closed = true) (p : Place) :
    w.Unanswered (w.next e) p := by
  by_cases hconnect : ∃ capacity, e = .connect capacity
  · obtain ⟨capacity, rfl⟩ := hconnect
    exact w.unanswered_connect capacity p
  · obtain ⟨letters, hsettled, hdelivered⟩ :=
      w.settled_next fun capacity heq => hconnect ⟨capacity, heq⟩
    revert hsettled
    generalize hdue : w.due? e = due
    intro hsettled
    cases hsettled with
    | nothing silent => exact unanswered_of_silent hdelivered (by rw [silent]; rfl)
    | lost silent gone => exact unanswered_of_silent hdelivered (by rw [silent]; rfl)
    | @answer id place a one found fits =>
      by_cases hp : place = p
      · subst hp
        apply unanswered_of_closed hdelivered
        intro s hs
        exact h id a.packet hdue place s (find?_eq_some.mpr ⟨found, hs⟩)
      · apply unanswered_of_silent hdelivered
        rw [one, framesTo_elsewhere hp]

/-! ### The account of questions -/

def asked? : Event → Option (SessionId × Packet)
  | .execute c => c.question?
  | _ => none

/-- How many questions that are answered by a kind of packet a session puts in a run. -/
def questions (id : SessionId) (kind : Packet) (events : List Event) : Nat :=
  events.countP (asked? · = some (id, kind))

/-- How many answers of a kind a session is still owed. -/
def owed (w : World) (id : SessionId) (kind : Packet) : Nat :=
  if kind = .registerResult then w.gateway.pending.countP (·.registrant? = some id) else 0

theorem owed_congr (h : w'.gateway.pending = w.gateway.pending) (id : SessionId) (kind : Packet) :
    w'.owed id kind = w.owed id kind := by rw [owed, h, owed]

/-- A question is due at once, unless it is a registration that is let wait. -/
theorem dueFor?_cases (w : World) (c : Command) :
    w.dueFor? c = c.question? ∧ (∀ r ∈ w.posts c, r.registrant? = none) ∨
      ∃ id username password, c = .request id (.register username password) ∧
        w.gateway.running = true ∧ w.dueFor? c = none ∧
          w.posts c = [.register id username password] := by
  have hnone : ∀ {c : Command}, w.toWrite c = [] → ∀ r ∈ w.posts c, r.registrant? = none := by
    intro c hc r hr
    rw [posts_of_none w hc] at hr
    cases hr
  cases c with
  | hangUp id username => exact .inl ⟨rfl, hnone rfl⟩
  | request id r =>
    cases r with
    | register username password =>
      cases hrunning : w.gateway.running with
      | true =>
        refine .inr ⟨id, username, password, rfl, rfl, ?_, ?_⟩
        · exact if_pos hrunning
        · exact if_pos hrunning
      | false =>
        refine .inl ⟨?_, by simp [posts, hrunning]⟩
        simp [dueFor?, defers, hrunning, Command.question?]
    | chat message =>
      refine .inl ⟨rfl, fun r hr => ?_⟩
      unfold posts at hr
      split at hr
      · obtain ⟨u, -, rfl⟩ := Option.map_eq_some_iff.mp (Option.mem_toList.mp hr)
        rfl
      · cases hr
    | login | enterRoom | leaveRoom | move | createRoom | listRooms | logout =>
      exact .inl ⟨rfl, hnone rfl⟩

/-- What a command does to the account: what it asks is due, or is owed. -/
theorem owed_execute (w : World) (c : Command) (id : SessionId) (kind : Packet) :
    (w.execute c).owed id kind + (if w.dueFor? c = some (id, kind) then 1 else 0) =
      w.owed id kind + if c.question? = some (id, kind) then 1 else 0 := by
  obtain ⟨sets, lists, hgateway⟩ := w.touched_execute c
  have hpending : (w.execute c).gateway.pending = w.gateway.pending ++ w.posts c := by rw [hgateway]
  rw [owed, hpending, List.countP_append, owed]
  rcases w.dueFor?_cases c with ⟨hdue, hnone⟩ | ⟨other, username, password, rfl, -, hdue, hposts⟩
  · have hcount : (w.posts c).countP (·.registrant? = some id) = 0 := by
      apply List.countP_eq_zero.mpr
      intro r hr
      simp [hnone r hr]
    rw [hdue, hcount, Nat.add_zero]
  · rw [hdue, hposts]
    by_cases hkind : kind = .registerResult
    · subst hkind
      by_cases hid : other = id <;>
        simp [Command.question?, Request.answeredBy?, StoreRequest.registrant?, hid]
    · simp [hkind, Ne.symm hkind, Command.question?, Request.answeredBy?]

theorem owed_write (w : World) (i : Nat) (id : SessionId) (kind : Packet) :
    (w.write i).owed id kind + (if w.writtenFor? i = some (id, kind) then 1 else 0) =
      w.owed id kind := by
  unfold writtenFor?
  cases hr : w.gateway.pending[i]? with
  | none => simp [write, hr]
  | some r =>
    have hpending : (w.write i).gateway.pending = w.gateway.pending.eraseIdx i := by
      rw [write, hr]
      exact congrArg Gateway.pending (gateway_report _ _)
    obtain ⟨hlt, rfl⟩ := List.getElem?_eq_some_iff.mp hr
    have hperm := (List.getElem_cons_eraseIdx_perm hlt).countP_eq (·.registrant? = some id)
    rw [List.countP_cons] at hperm
    rw [owed, hpending, owed, Option.bind_some]
    by_cases hkind : kind = .registerResult
    · subst hkind
      rw [if_pos rfl, if_pos rfl, ← hperm]
      cases (w.gateway.pending[i]).registrant? <;> simp
    · cases (w.gateway.pending[i]).registrant? <;> simp [hkind, Ne.symm hkind]

/-- **Whenever something happens, what is asked is answered or owed.** -/
theorem owed_next (w : World) (e : Event) (id : SessionId) (kind : Packet) :
    (w.next e).owed id kind + (if w.due? e = some (id, kind) then 1 else 0) =
      w.owed id kind + if asked? e = some (id, kind) then 1 else 0 := by
  have hsame : (w.next e).gateway.pending = w.gateway.pending →
      (w.next e).owed id kind + 0 = w.owed id kind + 0 :=
    fun hpending => congrArg (· + 0) (owed_congr hpending id kind)
  cases e with
  | execute c => exact owed_execute (w.dequeue c) c id kind
  | write i => exact w.owed_write i id kind
  | complete c => exact hsame (congrArg Gateway.pending (w.gateway_dispatch c))
  | hear place bytes => exact hsame (congrArg Gateway.pending (w.gateway_hear place bytes))
  | finishSend place => exact hsame (congrArg Gateway.pending (w.gateway_completeSend place))
  | connect | disconnect | forget | dropAll | ask | advance | tell | stores | stopStores => rfl

theorem Settled.answered {letters : List Letter} {due : Option (SessionId × Packet)}
    (h : Settled w letters due) (henrolled : w.Enrolled) {p : Place} {s t : Session}
    (hs : w.sessions[p]? = some s) (htook : s.Took (framesTo p letters) t)
    (hopen : t.closed = false) (kind : Packet) :
    t.answered kind = s.answered kind + if due = some (s.id, kind) then 1 else 0 := by
  have hpresent : w.directory.find? s.id = some p :=
    henrolled.present (badges_eq_some.mpr ⟨s, hs, rfl⟩) (htook.open_before hopen)
  rw [Session.answered, Session.answers, htook.framesOf_eq hopen, List.countP_append,
    Session.answered, Session.answers]
  congr 1
  cases h with
  | nothing silent => simp [silent, framesTo]
  | @lost id other silent gone =>
    have hne : id ≠ s.id := by
      rintro rfl
      have hclosed := gone p s (find?_eq_some.mpr ⟨hpresent, hs⟩)
      exact absurd ((htook.open_before hopen).symm.trans hclosed) Bool.false_ne_true
    simp [silent, framesTo, hne]
  | @answer id place a one found fits =>
    by_cases hp : place = p
    · subst hp
      -- whoever is registered at this place is this session
      obtain ⟨b, hb, rfl⟩ := henrolled.registered found
      obtain ⟨u, hu, rfl⟩ := badges_eq_some.mp hb
      obtain rfl := Option.some.inj (hs.symm.trans hu)
      simp [one, framesTo_fits fits, kindOf?_frame, Session.badge]
    · have hne : id ≠ s.id := by
        rintro rfl
        exact hp (Option.some.inj (found.symm.trans hpresent))
      simp [one, framesTo_elsewhere hp, hne]

/-- An open session gets the answers that are due to it, and no others. -/
theorem answered_next (henrolled : w.Enrolled) {p : Place} {s : Session}
    (hs : w.sessions[p]? = some s) (e : Event) :
    ∃ t, (w.next e).sessions[p]? = some t ∧ t.id = s.id ∧ (s.closed = true → t.closed = true) ∧
      (t.closed = false → ∀ kind, t.answered kind =
        s.answered kind + if w.due? e = some (s.id, kind) then 1 else 0) := by
  by_cases hconnect : ∃ capacity, e = .connect capacity
  · obtain ⟨capacity, rfl⟩ := hconnect
    refine ⟨s, ?_, rfl, fun hclosed => hclosed, fun _ _ => rfl⟩
    rw [next, sessions_connect,
      List.getElem?_append_left (List.getElem?_eq_some_iff.mp hs).1]
    exact hs
  · obtain ⟨letters, hsettled, hdelivered⟩ :=
      w.settled_next fun capacity heq => hconnect ⟨capacity, heq⟩
    obtain ⟨t, ht, htook⟩ := hdelivered.at hs
    exact ⟨t, ht, htook.id, htook.stays,
      fun hopen kind => hsettled.answered henrolled hs htook hopen kind⟩

/-- **Along every run the answers given and those owed are the questions put.** -/
theorem account_after (henrolled : w.Enrolled) {p : Place} {s : Session}
    (hs : w.sessions[p]? = some s) (events : List Event) (hrun : Along next Enabled w events) :
    ∃ t, (after next w events).sessions[p]? = some t ∧ t.id = s.id ∧
      (s.closed = true → t.closed = true) ∧
      (t.closed = false → ∀ kind,
        t.answered kind + (after next w events).owed s.id kind =
          s.answered kind + w.owed s.id kind + questions s.id kind events) := by
  induction events generalizing w s with
  | nil => exact ⟨s, hs, rfl, fun hclosed => hclosed, fun _ _ => rfl⟩
  | cons e rest ih =>
    obtain ⟨u, hu, hid, hstays, hfirst⟩ := answered_next henrolled hs e
    obtain ⟨t, ht, hid', hstays', hrest⟩ := ih (kept_enrolled.next w e henrolled hrun.1) hu hrun.2
    refine ⟨t, ht, hid'.trans hid, fun hclosed => hstays' (hstays hclosed), ?_⟩
    intro hopen kind
    have hbefore : u.closed = false := by
      by_contra hclosed
      exact absurd ((hstays' (by simpa using hclosed)).symm.trans hopen) nofun
    have hlater := hrest hopen kind
    have hnow := hfirst hbefore kind
    have howed := w.owed_next e s.id kind
    rw [hid] at hlater
    change t.answered kind + (after next (w.next e) rest).owed s.id kind = _
    rw [hlater, hnow, questions, questions, List.countP_cons]
    simp only [decide_eq_true_eq]
    omega

/-! ### Registrations -/

section Registrations

variable {v : World} {id : SessionId} {username password : String} {place : Place} {s : Session}

/-- What a command asks is due when it is executed, but for a registration that waits. -/
theorem due?_execute (v : World) (c : Command) :
    v.due? (.execute c) = c.question? ∨
      ∃ id username password, c = .request id (.register username password) ∧
        v.gateway.running = true ∧ v.due? (.execute c) = none ∧
        (v.next (.execute c)).gateway.pending =
          v.gateway.pending ++ [.register id username password] := by
  rcases v.dueFor?_cases c with
    ⟨hsame, -⟩ | ⟨id, username, password, rfl, hrunning, hnone, hposts⟩
  · exact .inl hsame
  · refine .inr ⟨id, username, password, rfl, hrunning, hnone, ?_⟩
    let taken := v.dequeue (.request id (.register username password))
    obtain ⟨sets, lists, hgateway⟩ :=
      taken.touched_execute (.request id (.register username password))
    have hpending := congrArg Gateway.pending hgateway
    exact hpending.trans (congrArg (v.gateway.pending ++ ·) hposts)

/-- Once the gateway has stopped a registration is refused at once. -/
theorem answeredOnce_of_stopped (hstopped : v.gateway.running = false)
    (hfind : v.find? id = some (place, s)) (hopen : s.closed = false) :
    v.AnsweredOnce (v.next (.execute (.request id (.register username password)))) place
      (.registerResult false) := by
  let taken := v.dequeue (.request id (.register username password))
  have hrefused : taken.register id username password =
      taken.reply id (.registerResult false) := by
    simp [register, Gateway.post?, taken, dequeue, hstopped]
  change v.AnsweredOnce (taken.register id username password) place _
  rw [hrefused]
  exact answeredOnce_reply (w := taken) hfind hopen (Response.fits_flags false 0 ⟨0⟩).1 rfl

/-- Otherwise it is answered when it is written, as the database has taken it. -/
theorem answeredOnce_write {i : Nat}
    (hwaits : v.gateway.pending[i]? = some (.register id username password))
    (hfind : v.find? id = some (place, s)) (hopen : s.closed = false) :
    let accepted := v.gateway.database.account? username = none ∧ v.gateway.database.failing = 0
    v.AnsweredOnce (v.write i) place (.registerResult (decide accepted)) ∧
      (v.write i).gateway.database.account? username =
        if accepted then some ⟨v.gateway.database.nextUserId, username, password⟩
        else v.gateway.database.account? username := by
  intro accepted
  let database := (v.gateway.database.execute (.insertUser username password)).1
  have hwrite := write_of_register hwaits
  dsimp only at hwrite
  rw [Database.isOk_insertUser] at hwrite
  rw [hwrite, gateway_reply]
  refine ⟨?_, Database.account?_insertUser _ username password⟩
  exact answeredOnce_reply (w := v.written i database) hfind hopen
    (Response.fits_flags _ 0 ⟨0⟩).1 rfl

end Registrations

/-! ### Every run -/

/-- **Every question is answered exactly once.**  Whatever has happened so far: when an answer is
    due to an open session, that session gets one response of the kind that is due, which fits a
    frame, and nobody else gets an answer; when none is due, or nobody is there to be answered,
    nobody gets an answer.  A question is due when it is executed, and no other command is, except
    that a registration waits for a worker while the gateway runs; once the gateway has stopped it
    is refused at once.  A worker answers it with success exactly if the name was free and the
    database took the write, and exactly then makes the account.  And along every further run, for
    a session that is open at its end, the answers it has got and those it is still owed are the
    questions it has put. -/
theorem every_question_answered (hstart : w.Pristine) (events : List Event)
    (hrun : Along next Enabled w events) :
    let v := after next w events
    (∀ e id kind place s, v.due? e = some (id, kind) → v.find? id = some (place, s) →
      s.closed = false →
      ∃ a : Response, a.packet = kind ∧ a.Fits ∧ v.AnsweredOnce (v.next e) place a) ∧
    (∀ e, (∀ id kind, v.due? e = some (id, kind) →
        ∀ place s, v.find? id = some (place, s) → s.closed = true) →
      ∀ p, v.Unanswered (v.next e) p) ∧
    (∀ c, v.due? (.execute c) = c.question? ∨
      ∃ id username password, c = .request id (.register username password) ∧
        v.gateway.running = true ∧ v.due? (.execute c) = none ∧
        (v.next (.execute c)).gateway.pending =
          v.gateway.pending ++ [.register id username password]) ∧
    (∀ id username password place s,
      v.gateway.running = false → v.find? id = some (place, s) → s.closed = false →
      v.AnsweredOnce (v.next (.execute (.request id (.register username password)))) place
        (.registerResult false)) ∧
    (∀ i id username password place s,
      v.gateway.pending[i]? = some (.register id username password) →
      v.find? id = some (place, s) → s.closed = false →
      let accepted := v.gateway.database.account? username = none ∧ v.gateway.database.failing = 0
      v.AnsweredOnce (v.write i) place (.registerResult (decide accepted)) ∧
        (v.write i).gateway.database.account? username =
          if accepted then some ⟨v.gateway.database.nextUserId, username, password⟩
          else v.gateway.database.account? username) ∧
    ∀ later, Along next Enabled v later → ∀ (p : Place) (s : Session), v.sessions[p]? = some s →
      ∃ t : Session, (after next v later).sessions[p]? = some t ∧
        (t.closed = false → ∀ kind,
          t.answered kind + (after next v later).owed s.id kind =
            s.answered kind + v.owed s.id kind + questions s.id kind later) := by
  intro v
  have henrolled : v.Enrolled := kept_enrolled.after hstart.enrolled events hrun
  refine ⟨?_, ?_, v.due?_execute, ?_, ?_, ?_⟩
  · intro e id kind place s hdue hfind hopen
    exact answeredOnce_of_due hdue hfind hopen
  · intro e hgone p
    exact unanswered_next hgone p
  · intro id username password place s hstopped hfind hopen
    exact answeredOnce_of_stopped hstopped hfind hopen
  · intro i id username password place s hwaits hfind hopen
    exact answeredOnce_write hwaits hfind hopen
  · intro later hlater p s hs
    obtain ⟨t, ht, -, -, haccount⟩ := account_after henrolled hs later hlater
    exact ⟨t, ht, haccount⟩

/-- Two ask for the same name, and the second request is written first.  So the second gets the name
    and the first does not, after which the first is told that they are logged in. -/
theorem every_question_answered_overtaken :
    let asks (place : Place) (r : Request) : Event := .hear place (r.encode.toOption.getD [])
    let w : World := { gateway := { database := ({} : Database).seed 1 "ann" "a" } }
    let events : List Event :=
      [.connect 256, .connect 256, asks 0 (.register "bob" "b"), asks 1 (.register "bob" "c"),
        asks 0 (.login "ann" "a"), .execute (.request ⟨1⟩ (.register "bob" "b")),
        .execute (.request ⟨2⟩ (.register "bob" "c"))]
    let later : List Event := [.write 1, .write 0, .execute (.request ⟨1⟩ (.login "ann" "a"))]
    let v := after next w events
    w.Pristine ∧ Along next Enabled w events ∧ Along next Enabled v later ∧
      v.AnsweredOnce (v.write 1) 1 (.registerResult true) ∧
      ∃ s t, v.sessions[0]? = some s ∧ (after next v later).sessions[0]? = some t ∧
        s.answered .registerResult = 0 ∧ t.answered .registerResult = 1 ∧
        t.answered .loginResult = 1 := by
  intro asks w events later v
  have hstart : w.Pristine := pristine_start {} {} (({} : Database).seed 1 "ann" "a") true
  have hrun : Along next Enabled w events := by decide +kernel
  have hlater : Along next Enabled v later := by decide +kernel
  have hwaits : v.gateway.pending[1]? = some (.register ⟨2⟩ "bob" "c") := by decide +kernel
  have hfree : v.gateway.database.account? "bob" = none ∧ v.gateway.database.failing = 0 := by
    decide +kernel
  have hfind : (v.find? ⟨2⟩).map (fun found => (found.1, found.2.closed)) = some (1, false) := by
    decide +kernel
  have hbefore : v.sessions[0]?.map (fun s => (s.id, s.answers)) = some (⟨1⟩, []) := by
    decide +kernel
  have hopen : (after next v later).sessions[0]?.map Session.closed = some false := by
    decide +kernel
  have hregistrations : v.owed ⟨1⟩ .registerResult = 1 ∧
      questions ⟨1⟩ .registerResult later = 0 ∧
      (after next v later).owed ⟨1⟩ .registerResult = 0 := by decide +kernel
  have hlogins : v.owed ⟨1⟩ .loginResult = 0 ∧ questions ⟨1⟩ .loginResult later = 1 ∧
      (after next v later).owed ⟨1⟩ .loginResult = 0 := by decide +kernel
  have hv : after next w events = v := rfl
  obtain ⟨-, -, -, -, hwritten, haccount⟩ := every_question_answered hstart events hrun
  rw [hv] at hwritten haccount
  obtain ⟨⟨place, u⟩, hfound, hu⟩ := Option.map_eq_some_iff.mp hfind
  obtain ⟨rfl, hstays⟩ := Prod.mk.inj hu
  obtain ⟨honce, -⟩ := hwritten 1 ⟨2⟩ "bob" "c" _ u hwaits hfound hstays
  rw [decide_eq_true hfree] at honce
  obtain ⟨s, hs, hown⟩ := Option.map_eq_some_iff.mp hbefore
  obtain ⟨hid, hnone⟩ := Prod.mk.inj hown
  obtain ⟨t, ht, hall⟩ := haccount later hlater 0 s hs
  rw [ht] at hopen
  have hkinds := hall (Option.some.inj hopen)
  have hzero : ∀ kind, s.answered kind = 0 := fun kind => by rw [Session.answered, hnone]; rfl
  rw [hid] at hkinds
  have hregistered := hkinds .registerResult
  have hloggedIn := hkinds .loginResult
  rw [hregistrations.1, hregistrations.2.1, hregistrations.2.2, hzero] at hregistered
  rw [hlogins.1, hlogins.2.1, hlogins.2.2, hzero] at hloggedIn
  exact ⟨hstart, hrun, hlater, honce, s, t, hs, ht, hzero _, hregistered, hloggedIn⟩

end World

end GameServer
