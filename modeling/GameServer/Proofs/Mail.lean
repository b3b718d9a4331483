import GameServer.Proofs.Letters
import GameServer.Proofs.Membership

/-!
The letters of every event.

Most events send nothing.  Some tell others: of a departure, of what was said, of where everybody
stands.  And five kinds of request are questions, which are answered: one letter, to the session
that asked.  A registration is the exception, for it is answered when it has been written.
-/

namespace GameServer

open Wire

/-! ### Questions and answers -/

/-- The kinds of packet that answer a question. -/
def Wire.Packet.isAnswer : Packet → Bool
  | registerResult | loginResult | enterRoom | roomListResult | createRoomResult => true
  | _ => false

/-- The kind of packet that answers a request, if it is a question. -/
def Wire.Request.answeredBy? : Request → Option Packet
  | .register .. => some .registerResult
  | .login .. => some .loginResult
  | .enterRoom _ => some .enterRoom
  | .createRoom _ => some .createRoomResult
  | .listRooms => some .roomListResult
  | .leaveRoom | .move .. | .chat _ | .logout => none

/-- The letters of the kinds that are looked for. -/
def lettersOf (f : Packet → Bool) (letters : List Letter) : List Letter :=
  letters.filter (f ·.response.packet)

theorem lettersOf_append (f : Packet → Bool) (letters more : List Letter) :
    lettersOf f (letters ++ more) = lettersOf f letters ++ lettersOf f more :=
  List.filter_append ..

theorem lettersOf_map {α : Type} {f : Packet → Bool} {g : α → Letter}
    (h : ∀ a, f (g a).response.packet = false) (l : List α) : lettersOf f (l.map g) = [] := by
  apply List.filter_eq_nil_iff.mpr
  intro letter hletter
  obtain ⟨a, -, rfl⟩ := List.mem_map.mp hletter
  rw [h a]
  exact Bool.false_ne_true

namespace Wire.Response

theorem fits_flags (success : Bool) (user : UInt32) (room : RoomId) :
    (registerResult success).Fits ∧ (loginResult success user).Fits ∧
      (createRoomResult success room).Fits := by
  simp only [Fits, body, List.length_append, length_flag, length_room, length_word]
  decide

/-- As many lines as a room list takes fit a frame. -/
theorem fits_roomList {rooms : List RoomEntry} (h : rooms.length ≤ maxRoomEntries) :
    (roomList rooms).Fits := by
  have hentries : maxRoomEntries = 1638 := by decide
  have hentry : roomEntrySize = 40 := by decide
  rw [Fits, length_roomList, hentry]
  simp only [headerSize, maxFrame]
  omega

end Wire.Response

/-- What those who stay are told of a departure. -/
def Departure.letters (d : Departure) : List Letter :=
  d.remaining.map (⟨·, .playerLeft d.session⟩)

/-- The snapshots that tell a room's members how it stands. -/
def RoomView.letters (view : RoomView) : List Letter := view.members.map (⟨·, view.response⟩)

namespace World

/-! ### Telling others -/

/-- What is told of a departure, if there was one. -/
def partingLetters (d : Option Departure) : List Letter := d.toList.flatMap Departure.letters

theorem silent_partingLetters (d : Option Departure) :
    lettersOf Packet.isAnswer (partingLetters d) = [] := by
  cases d with
  | none => rfl
  | some d =>
    rw [partingLetters, Option.toList_some, List.flatMap_singleton]
    exact lettersOf_map (fun _ => rfl) _

theorem delivered_announce (w : World) (d : Option Departure) :
    Sessions.Delivered (partingLetters d) w.sessions (w.announce d).sessions := by
  cases d with
  | none => exact .refl _
  | some d =>
    rw [partingLetters, Option.toList_some, List.flatMap_singleton]
    exact Sessions.delivered_broadcast ..

theorem delivered_retell (w : World) (place : Place) (room : RoomId) :
    Sessions.Delivered
      ((w.gateway.history room).reverse.map fun line => ⟨place, .chat historySender line⟩)
      w.sessions (w.retell place room).sessions := by
  unfold retell
  generalize (w.gateway.history room).reverse = lines
  induction lines generalizing w with
  | nil => exact .refl _
  | cons line rest ih =>
    exact (Sessions.delivered_send place _ w.sessions).trans (ih (w.send place _))

theorem delivered_reply (w : World) (id : SessionId) (r : Response) :
    Sessions.Delivered ((w.directory.find? id).toList.map (⟨·, r⟩)) w.sessions
      (w.reply id r).sessions := by
  unfold reply
  split
  · next hnone =>
    rw [hnone]
    exact .refl _
  · next place hplace =>
    rw [hplace]
    exact Sessions.delivered_send ..

theorem delivered_tellAll (w : World) (tick : UInt32) :
    Sessions.Delivered ((w.lobby.views tick).flatMap RoomView.letters) w.sessions
      (w.lobby.tellAll tick).1.sessions := by
  have heach : ∀ (views : List RoomView) (l : Lobby),
      Sessions.Delivered (views.flatMap RoomView.letters) l.sessions
        (Lobby.tellEach views l).1.sessions := by
    intro views
    induction views with
    | nil => exact fun l => .refl _
    | cons view rest ih =>
      intro l
      have hfirst := Sessions.delivered_broadcast view.response view.members l.sessions
      rw [List.flatMap_cons]
      exact hfirst.trans (ih (l.broadcast view.members view.response).1)
  exact heach (w.lobby.views tick) w.lobby

theorem silent_views (views : List RoomView) :
    lettersOf Packet.isAnswer (views.flatMap RoomView.letters) = [] := by
  induction views with
  | nil => rfl
  | cons view rest ih =>
    rw [List.flatMap_cons, lettersOf_append, ih, RoomView.letters, lettersOf_map fun _ => rfl]
    rfl

/-! ### Leaving -/

theorem delivered_leaveRoom (w : World) (id : SessionId) :
    Sessions.Delivered (partingLetters (w.lobby.leave id).2) w.sessions
      (w.leaveRoom id).sessions := by
  have hleave : Sessions.Delivered [] w.sessions (w.lobby.leave id).1.sessions :=
    Sessions.delivered_of_map (Lobby.map_leave (fun _ _ => rfl) w.lobby id)
  exact hleave.trans (delivered_announce (w.withLobby (w.lobby.leave id).1) (w.lobby.leave id).2)

theorem delivered_unname (w : World) (id : SessionId) (carried : Option String) :
    Sessions.Delivered [] w.sessions (w.unname id carried).1.sessions := by
  unfold unname
  split
  · exact .refl _
  · split
    · exact .refl _
    · next place _ =>
      unfold takeName
      split
      · exact .refl _
      · next s hs =>
        apply Sessions.delivered_modify
        intro t ht
        obtain rfl := Option.some.inj (hs.symm.trans ht)
        exact Session.took_of_post_eq rfl

theorem delivered_closeAt (w : World) (found : Option Place) :
    Sessions.Delivered [] w.sessions (w.closeAt found).sessions := by
  cases found with
  | none => exact .refl _
  | some place => exact Sessions.delivered_disconnect ..

theorem delivered_logout (w : World) (id : SessionId) (carried : Option String) :
    Sessions.Delivered (partingLetters ((w.unname id carried).1.lobby.leave id).2) w.sessions
      (w.logout id carried).sessions := by
  have hunname := w.delivered_unname id carried
  have hleave := (w.unname id carried).1.delivered_leaveRoom id
  have hrelease : (((w.unname id carried).1.leaveRoom id).release (w.unname id carried).2).sessions =
      ((w.unname id carried).1.leaveRoom id).sessions := congrArg Lobby.sessions (lobby_release _ _)
  have hclose := delivered_closeAt
    (((w.unname id carried).1.leaveRoom id).release (w.unname id carried).2)
    (w.directory.find? id)
  rw [hrelease] at hclose
  have hall := hunname.trans (hleave.trans hclose)
  rw [List.nil_append, List.append_nil] at hall
  rwa [logout_eq]

/-! ### Requests -/

/-- Whether the answer to a request waits until the request has been written. -/
def defers (w : World) : Request → Bool
  | .register .. => w.gateway.running
  | _ => false

/-- The letters of a request answer it once, if it is a question and the session that asked is there
    to be answered; else they answer nothing. -/
inductive Mail (w : World) (id : SessionId) (r : Request) (letters : List Letter) : Prop
  | silent (none : lettersOf Packet.isAnswer letters = [])
      (reason : r.answeredBy? = .none ∨ w.defers r = true ∨
        ∀ place s, w.find? id = some (place, s) → s.closed = true)
  | answer {place : Place} {a : Response} (one : lettersOf Packet.isAnswer letters = [⟨place, a⟩])
      (found : w.directory.find? id = some place) (kind : r.answeredBy? = some a.packet)
      (prompt : w.defers r = false) (fits : a.Fits)

section Requests

variable (w : World) (id : SessionId)

/-- A question to a session that is not there is not answered. -/
theorem mail_unfound (h : w.find? id = none) (r : Request) : Mail w id r [] :=
  .silent rfl (.inr (.inr fun place s hs => by rw [h] at hs; cases hs))

theorem mail_reply {r : Request} {a : Response} (hkind : r.answeredBy? = some a.packet)
    (hprompt : w.defers r = false) (hfits : a.Fits) (hanswer : a.packet.isAnswer = true) :
    Mail w id r ((w.directory.find? id).toList.map (⟨·, a⟩)) := by
  cases hfind : w.directory.find? id with
  | none =>
    apply mail_unfound
    simp [find?, hfind]
  | some place =>
    refine .answer ?_ hfind hkind hprompt hfits
    simp [lettersOf, hanswer]

theorem mail_register (username password : String) :
    ∃ letters, Mail w id (.register username password) letters ∧
      Sessions.Delivered letters w.sessions (w.register id username password).sessions := by
  unfold register
  cases hrunning : w.gateway.running with
  | true =>
    simp only [Gateway.post?, hrunning, if_true]
    exact ⟨[], .silent rfl (.inr (.inl hrunning)), .refl _⟩
  | false =>
    simp only [Gateway.post?, hrunning, Bool.false_eq_true, if_false]
    exact ⟨_, w.mail_reply id rfl hrunning (Response.fits_flags false 0 ⟨0⟩).1 rfl,
      w.delivered_reply id _⟩

variable {w id}

/-- One letter that is an answer. -/
theorem mail_send {place : Place} {s : Session} (hfind : w.find? id = some (place, s)) {r : Request}
    {a : Response} (hkind : r.answeredBy? = some a.packet) (hprompt : w.defers r = false)
    (hfits : a.Fits) (hanswer : a.packet.isAnswer = true) : Mail w id r [⟨place, a⟩] := by
  refine .answer ?_ (find?_eq_some.mp hfind).1 hkind hprompt hfits
  simp [lettersOf, hanswer]

variable (w id)

theorem mail_login (username password : String) :
    ∃ letters, Mail w id (.login username password) letters ∧
      Sessions.Delivered letters w.sessions (w.login id username password).sessions := by
  have hfits : ∀ success user, (Response.loginResult success user).Fits :=
    fun success user => (Response.fits_flags success user ⟨0⟩).2.1
  unfold login
  split
  · next hnone => exact ⟨[], mail_unfound w id hnone _, .refl _⟩
  · next place s hfind =>
    have hrefused : ∃ letters, Mail w id (.login username password) letters ∧
        Sessions.Delivered letters w.sessions (w.refuseLogin place).sessions :=
      ⟨_, mail_send hfind rfl rfl (hfits ..) rfl, Sessions.delivered_send ..⟩
    split
    · exact hrefused
    · split
      · exact hrefused
      · split
        · exact hrefused
        · next user _ _ gateway _ =>
          split
          · next hclosed =>
            refine ⟨[], .silent rfl (.inr (.inr fun p t ht => ?_)), .refl _⟩
            cases hfind.symm.trans ht
            exact hclosed
          · have hlogin : Sessions.Delivered [] w.sessions
                ({ w with gateway }.modify place (·.login username)).sessions :=
              Sessions.delivered_modify fun _ _ => Session.took_of_post_eq rfl
            exact ⟨_, mail_send hfind rfl rfl (hfits ..) rfl,
              hlogin.trans (Sessions.delivered_send ..)⟩

theorem mail_enterRoom (room : RoomId) :
    ∃ letters, Mail w id (.enterRoom room) letters ∧
      Sessions.Delivered letters w.sessions (w.enterRoom id room).sessions := by
  have hfits : ∀ success, (Response.enterRoomResult success room).Fits :=
    fun success => Response.fits_enterRoomResult success room
  unfold enterRoom
  split
  · next hnone => exact ⟨[], mail_unfound w id hnone _, .refl _⟩
  · next place s hfind =>
    have hrefused : ∃ letters, Mail w id (.enterRoom room) letters ∧
        Sessions.Delivered letters w.sessions
          (w.send place (.enterRoomResult false room)).sessions :=
      ⟨_, mail_send hfind rfl rfl (hfits _) rfl, Sessions.delivered_send ..⟩
    split
    · split
      · next joined lobby hok =>
        have hjoin : Sessions.Delivered [] w.sessions (w.withLobby lobby).sessions :=
          Sessions.delivered_of_map (Lobby.map_join (fun _ _ => rfl) hok)
        let told := (w.withLobby lobby).announce joined.left
        refine ⟨_, .answer ?_ (find?_eq_some.mp hfind).1 rfl rfl (hfits true),
          ((hjoin.trans (delivered_announce _ joined.left)).trans
            (Sessions.delivered_send place (.enterRoomResult true room) told.sessions)).trans
            (delivered_retell (told.send place (.enterRoomResult true room)) place room)⟩
        -- the departure and the lines of chat are no answers
        rw [lettersOf_append, lettersOf_append, List.nil_append, silent_partingLetters,
          lettersOf_map fun _ => rfl, List.append_nil, List.nil_append]
        rfl
      · exact hrefused
      · next id' hclosed =>
        refine ⟨[], .silent rfl (.inr (.inr fun p t ht => ?_)), .refl _⟩
        cases hfind.symm.trans ht
        by_contra hopen
        rw [Lobby.join, if_neg hopen] at hclosed
        dsimp only at hclosed
        split at hclosed
        · cases hclosed
        · split at hclosed
          · cases hclosed
          · split at hclosed <;> cases hclosed
    · exact hrefused

theorem mail_createRoom (title : String) :
    ∃ letters, Mail w id (.createRoom title) letters ∧
      Sessions.Delivered letters w.sessions (w.createRoom id title).sessions := by
  have hfits : ∀ success room, (Response.createRoomResult success room).Fits :=
    fun success room => (Response.fits_flags success 0 room).2.2
  unfold createRoom
  split
  · next hnone => exact ⟨[], mail_unfound w id hnone _, .refl _⟩
  · next place s hfind =>
    split
    · split
      · next joined lobby hok =>
        have hopen : Sessions.Delivered [] w.sessions (w.withLobby lobby).sessions :=
          Sessions.delivered_of_map (Lobby.map_openRoom (fun _ _ => rfl) hok)
        refine ⟨_, .answer ?_ (find?_eq_some.mp hfind).1 rfl rfl (hfits true joined.room),
          (hopen.trans (delivered_announce _ joined.left)).trans
            (Sessions.delivered_send place (.createRoomResult true joined.room) _)⟩
        rw [lettersOf_append, List.nil_append, silent_partingLetters, List.nil_append]
        rfl
      · next fault hfault =>
        refine ⟨[], .silent rfl (.inr (.inr fun p t ht => ?_)), .refl _⟩
        cases hfind.symm.trans ht
        by_contra hopen
        rw [Lobby.openRoom, if_neg hopen] at hfault
        cases hfault
    · exact ⟨_, mail_send hfind rfl rfl (hfits ..) rfl, Sessions.delivered_send ..⟩

theorem mail_chat (message : String) :
    ∃ letters, Mail w id (.chat message) letters ∧
      Sessions.Delivered letters w.sessions (w.chat id message).sessions := by
  unfold chat
  split
  · exact ⟨[], .silent rfl (.inl rfl), .refl _⟩
  · split
    · exact ⟨[], .silent rfl (.inl rfl), .refl _⟩
    · exact ⟨_, .silent (lettersOf_map (fun _ => rfl) _) (.inl rfl),
        Sessions.delivered_broadcast ..⟩

theorem length_roomEntries (w : World) : w.roomEntries.length ≤ maxRoomEntries := by
  rw [roomEntries, List.length_map]
  exact List.length_take_le ..

/-- **Every request is answered once or not at all**, and sends its letters and nothing else. -/
theorem mail_answer (r : Request) :
    ∃ letters, Mail w id r letters ∧
      Sessions.Delivered letters w.sessions (w.answer id r).sessions := by
  cases r with
  | register username password => exact w.mail_register id username password
  | login username password => exact w.mail_login id username password
  | enterRoom room => exact w.mail_enterRoom id room
  | createRoom title => exact w.mail_createRoom id title
  | chat message => exact w.mail_chat id message
  | listRooms =>
    exact ⟨_, w.mail_reply id rfl rfl (Response.fits_roomList w.length_roomEntries) rfl,
      w.delivered_reply id _⟩
  | leaveRoom =>
    exact ⟨_, .silent (silent_partingLetters _) (.inl rfl), w.delivered_leaveRoom id⟩
  | move vx vy =>
    refine ⟨[], .silent rfl (.inl rfl), ?_⟩
    change Sessions.Delivered [] w.sessions (w.move id vx vy).sessions
    unfold move
    split
    · exact .refl _
    · next lobby hsteer =>
      obtain ⟨room, r, -, rfl⟩ := Lobby.steer?_eq_some hsteer
      exact .refl _
  | logout =>
    exact ⟨_, .silent (silent_partingLetters _) (.inl rfl), w.delivered_logout id none⟩

end Requests

/-! ### Events -/

section Events

variable (w : World)

theorem delivered_drop (place : Place) (id : SessionId) :
    Sessions.Delivered [] w.sessions (w.drop place id).sessions := Sessions.delivered_disconnect ..

theorem delivered_hear (place : Place) (bytes : Bytes) :
    Sessions.Delivered [] w.sessions (w.hear place bytes).sessions := by
  unfold hear
  split
  · exact .refl _
  · next s hs =>
    apply Sessions.delivered_modify
    intro t ht
    obtain rfl := Option.some.inj (hs.symm.trans ht)
    exact s.took_receive ..

theorem delivered_dispatch (c : Completion) :
    Sessions.Delivered [] w.sessions (w.dispatch c).2.sessions := by
  unfold dispatch
  split
  · exact .refl _
  · split
    · exact .refl _
    · next id _ place s hfind =>
      obtain ⟨-, hs⟩ := find?_eq_some.mp hfind
      cases c with
      | shutdown => exact .refl _
      | sent session count => exact Sessions.delivered_modify fun t _ => t.took_beginNext
      | failed session transfer => exact w.delivered_drop place s.id
      | received session bytes =>
        cases bytes with
        | nil => exact w.delivered_drop place s.id
        | cons byte rest =>
          have hheard := w.delivered_hear place (byte :: rest)
          unfold hear at hheard
          simp only [hs] at hheard
          dsimp only [receive]
          split
          · exact hheard
          · exact hheard.trans (delivered_drop _ place _)

theorem delivered_completeSend (place : Place) :
    Sessions.Delivered [] w.sessions (w.completeSend place).2.sessions := by
  unfold completeSend
  split
  · exact .refl _
  · next s hs =>
    split
    · exact w.delivered_dispatch _
    · next link hlink =>
      have hdone : Sessions.Delivered [] w.sessions
          (w.modify place fun s => { s with link }).sessions := by
        apply Sessions.delivered_modify
        intro t ht
        obtain rfl := Option.some.inj (hs.symm.trans ht)
        apply Session.took_of_post_eq
        unfold Link.complete? at hlink
        split at hlink
        · cases hlink
        · cases hlink
          rfl
      exact hdone.trans (delivered_dispatch _ _)

theorem delivered_dropAll : Sessions.Delivered [] w.sessions w.dropAll.2.sessions := by
  rw [dropAll_eq]
  exact keeps_disconnectEach (P := fun v => Sessions.Delivered [] w.sessions v.sessions)
    (fun {v} place hv => hv.trans (Sessions.delivered_disconnect place v.sessions v.queue))
    (.refl _) w.directory.places

theorem delivered_execute (c : Command) :
    ∃ letters, Sessions.Delivered letters w.sessions (w.execute c).sessions := by
  cases c with
  | request id r =>
    obtain ⟨letters, -, hdelivered⟩ := w.mail_answer id r
    exact ⟨letters, hdelivered⟩
  | hangUp id username =>
    exact ⟨_, w.delivered_logout id (some username)⟩

theorem delivered_report (outcome : Option Registration) :
    Sessions.Delivered
      (outcome.toList.flatMap fun r =>
        (w.directory.find? r.session).toList.map (⟨·, .registerResult r.success⟩))
      w.sessions (w.report outcome.toList).sessions := by
  cases outcome with
  | none => exact .refl _
  | some r =>
    rw [Option.toList_some, List.flatMap_singleton]
    exact w.delivered_reply r.session _

theorem delivered_write (i : Nat) :
    ∃ letters, Sessions.Delivered letters w.sessions (w.write i).sessions := by
  unfold write
  split
  · exact ⟨[], .refl _⟩
  · next r _ =>
    let performed := Gateway.perform w.gateway.database r
    exact ⟨_, (w.written i performed.1).delivered_report performed.2⟩

/-- Events that neither bring a session, nor execute a command, nor write a request, answer
    nothing. -/
theorem delivered_next {e : Event} (hconnect : ∀ capacity, e ≠ .connect capacity)
    (hexecute : ∀ c, e ≠ .execute c) (hwrite : ∀ i, e ≠ .write i) :
    ∃ letters, lettersOf Packet.isAnswer letters = [] ∧
      Sessions.Delivered letters w.sessions (w.next e).sessions := by
  cases e with
  | connect capacity => exact absurd rfl (hconnect capacity)
  | execute c => exact absurd rfl (hexecute c)
  | write i => exact absurd rfl (hwrite i)
  | complete c => exact ⟨[], rfl, w.delivered_dispatch c⟩
  | hear place bytes => exact ⟨[], rfl, w.delivered_hear place bytes⟩
  | finishSend place => exact ⟨[], rfl, w.delivered_completeSend place⟩
  | disconnect place => exact ⟨[], rfl, Sessions.delivered_disconnect ..⟩
  | dropAll => exact ⟨[], rfl, w.delivered_dropAll⟩
  | tell tick => exact ⟨_, silent_views _, w.delivered_tellAll tick⟩
  | forget | ask | advance | stores | stopStores => exact ⟨[], rfl, .refl _⟩

/-- **Whatever happens to a session that was there before happens by letters.** -/
theorem delivered_event {e : Event} (hconnect : ∀ capacity, e ≠ .connect capacity) :
    ∃ letters, Sessions.Delivered letters w.sessions (w.next e).sessions := by
  cases e with
  | execute c => exact delivered_execute (w.dequeue c) c
  | write i => exact w.delivered_write i
  | _ =>
    obtain ⟨letters, -, hdelivered⟩ := w.delivered_next hconnect (by simp) (by simp)
    exact ⟨letters, hdelivered⟩

end Events

end World

end GameServer
