import GameServer.Proofs.Layouts
import GameServer.Wire.Request

/-!
The format of requests: which bodies are accepted, and what of them counts.

Nine kinds of packet are sent by clients, each with the least body that its layout needs.  From a
body that has as much, a request is read without running out, and what stands behind it is
ignored.  The chat alone has no width of its own: unless its limit is reached, or a zero octet
ends it, what is put behind it belongs to it.
-/

namespace GameServer.Wire

namespace Request

open Reader

/-- What clients send, and the least body that each kind needs. -/
def layouts : List (Packet × Nat) :=
  [(.registerRequest, 100), (.loginRequest, 100), (.enterRoom, 4), (.leaveRoom, 0), (.chat, 0),
    (.move, 8), (.roomListRequest, 0), (.createRoomRequest, 32), (.logoutRequest, 0)]

/-- The texts of a request, each behind the width of its field. -/
def texts : Request → List (Nat × String)
  | register username password | login username password => [(50, username), (50, password)]
  | chat message => [(256, message)]
  | createRoom title => [(32, title)]
  | enterRoom _ | leaveRoom | move _ _ | listRooms | logout => []

/-- No text of a request holds the zero character, or more characters than its field has octets. -/
def TextsFit (r : Request) : Prop :=
  ∀ width text, (width, text) ∈ r.texts → Utf8.nul ∉ text.toList ∧ text.length ≤ width

variable {packet : Packet} {least : Nat} {body : Bytes}

theorem minRequestBody_iff :
    packet.minRequestBody = some least ↔ (packet, least) ∈ layouts := by
  cases packet <;> simp [Packet.minRequestBody, layouts, usernameWidth, passwordWidth, titleWidth,
    eq_comm]

/-! ### Reading -/

theorem text_fits {octets : Bytes} {width : Nat} (h : octets.length ≤ width) :
    Utf8.nul ∉ (textOf octets).toList ∧ (textOf octets).length ≤ width :=
  ⟨nul_notMem_textOf octets, (length_textOf_le octets).trans h⟩

/-- Two texts of fifty octets. -/
theorem takes_names (make : String → String → Request) (packet : Packet)
    (hpacket : ∀ username password, (make username password).packet = packet)
    (htexts : ∀ username password,
      (make username password).texts = [(50, username), (50, password)]) :
    Takes (do return make (← field 50) (← field 50)) 100 fun _ r =>
      r.packet = packet ∧ r.TextsFit := by
  apply ((takes_field 50).bind fun username => (takes_field 50).map (make username)).mono
  rintro taken r ⟨front, back, username, -, ⟨hfront, rfl⟩, password, rfl, hback, rfl⟩
  refine ⟨hpacket _ _, fun width text htext => ?_⟩
  rw [htexts] at htext
  simp only [List.mem_cons, List.not_mem_nil, or_false, Prod.mk.injEq] at htext
  rcases htext with ⟨rfl, rfl⟩ | ⟨rfl, rfl⟩
  · exact text_fits (Nat.le_of_eq hfront)
  · exact text_fits (Nat.le_of_eq hback)

/-- Every layout but that of the chat has a fixed width. -/
theorem takes_read (hlayout : (packet, least) ∈ layouts) (hchat : packet ≠ .chat) :
    Takes (read packet) least fun _ r => r.packet = packet ∧ r.TextsFit := by
  rw [← minRequestBody_iff] at hlayout
  cases packet with
  | registerRequest =>
    cases hlayout
    exact takes_names register _ (fun _ _ => rfl) fun _ _ => rfl
  | loginRequest =>
    cases hlayout
    exact takes_names login _ (fun _ _ => rfl) fun _ _ => rfl
  | enterRoom =>
    cases hlayout
    apply (takes_room.map enterRoom).mono
    rintro taken r ⟨room, rfl, -⟩
    exact ⟨rfl, fun _ _ h => nomatch h⟩
  | move =>
    cases hlayout
    apply (takes_single.bind fun vx => takes_single.map (move vx)).mono
    rintro taken r ⟨-, -, vx, -, -, vy, rfl, -⟩
    exact ⟨rfl, fun _ _ h => nomatch h⟩
  | createRoomRequest =>
    cases hlayout
    apply ((takes_field 32).map createRoom).mono
    rintro taken r ⟨title, rfl, hlength, rfl⟩
    refine ⟨rfl, fun width text htext => ?_⟩
    obtain ⟨rfl, rfl⟩ := Prod.mk.inj (List.mem_singleton.mp htext)
    exact text_fits (Nat.le_of_eq hlength)
  | leaveRoom | roomListRequest | logoutRequest =>
    cases hlayout
    apply (Takes.pure _).mono
    rintro taken r ⟨-, rfl⟩
    exact ⟨rfl, fun _ _ h => nomatch h⟩
  | chat => exact absurd rfl hchat
  | registerResult | loginResult | snapshot | roomListResult | createRoomResult => cases hlayout

theorem read_chat (body : Bytes) :
    read .chat body = some (chat (textOf (body.take 256)), body.drop 256) := by
  rw [read, bind_of_some (tail_apply chatLimit body)]
  rfl

/-- A body that is as long as its layout asks for is read without running out. -/
theorem read_whole (hlayout : (packet, least) ∈ layouts) (hbody : least ≤ body.length) :
    ∃ r rest, read packet body = some (r, rest) ∧ rest <:+ body ∧ r.packet = packet ∧
      r.TextsFit := by
  by_cases hchat : packet = .chat
  · subst hchat
    refine ⟨_, _, read_chat body, List.drop_suffix _ _, rfl, fun width text htext => ?_⟩
    obtain ⟨rfl, rfl⟩ := Prod.mk.inj (List.mem_singleton.mp htext)
    exact text_fits (List.length_take_le _ _)
  · obtain ⟨front, rest, r, rfl, ⟨hpacket, hfit⟩, hread⟩ :=
      (takes_read hlayout hchat).split hbody
    exact ⟨r, rest, hread rest, List.suffix_append front rest, hpacket, hfit⟩

/-! ### What stands behind a request -/

/-- What stands behind a chat is ignored when the chat is ended before, by the limit or by a zero
    octet. -/
theorem take_chat_append (hends : 256 ≤ body.length ∨ 0 ∈ body) (more : Bytes) :
    textOf ((body ++ more).take 256) = textOf (body.take 256) := by
  by_cases hlong : 256 ≤ body.length
  · rw [List.take_append_of_le_length hlong]
  · have hshort : body.length ≤ 256 := by omega
    rw [List.take_append, List.take_of_length_le hshort]
    exact textOf_append (hends.resolve_left hlong) _

/-- Otherwise a letter behind it is read as part of it. -/
theorem take_chat_concat_ne (hshort : body.length < 256) (hzero : 0 ∉ body) :
    textOf ((body ++ [0x41]).take 256) ≠ textOf (body.take 256) := by
  have hmore : (body ++ [0x41]).length ≤ 256 := by
    rw [List.length_append]
    exact hshort
  rw [List.take_of_length_le hmore, List.take_of_length_le (Nat.le_of_lt hshort)]
  exact textOf_concat_ne hzero

/-! ### Decoding -/

theorem decode_short (hlayout : (packet, least) ∈ layouts) (hbody : body.length < least) :
    decode packet.code body = .error (.bodyTooShort packet least body.length) := by
  simp only [decode, Packet.ofCode?_code, minRequestBody_iff.mpr hlayout, if_pos hbody]

theorem decode_whole {r : Request} {rest : Bytes} (hlayout : (packet, least) ∈ layouts)
    (hbody : least ≤ body.length) (hread : read packet body = some (r, rest)) :
    decode packet.code body = .ok r := by
  simp only [decode, Packet.ofCode?_code, minRequestBody_iff.mpr hlayout,
    if_neg (Nat.not_lt.mpr hbody), hread]

/-- A number stands for a kind that clients send, or nothing is accepted under it. -/
theorem decode_unknown {code : UInt16} (h : ∀ layout ∈ layouts, layout.1.code ≠ code)
    (body : Bytes) : decode code body = .error (.unknownPacket code) := by
  cases hpacket : Packet.ofCode? code with
  | none => simp only [decode, hpacket]
  | some packet =>
    cases hleast : packet.minRequestBody with
    | none => simp only [decode, hpacket, hleast]
    | some least =>
      exact absurd (Packet.code_of_ofCode? hpacket) (h _ (minRequestBody_iff.mp hleast))

/-- Whether more octets change what was read. -/
theorem append_iff (hlayout : (packet, least) ∈ layouts) (hbody : least ≤ body.length) {r : Request}
    (hdecode : decode packet.code body = .ok r) :
    (∀ more, decode packet.code (body ++ more) = .ok r) ↔
      ¬ (packet = .chat ∧ body.length < 256 ∧ 0 ∉ body) := by
  by_cases hchat : packet = .chat
  · subst hchat
    have hopen : (Packet.chat, 0) ∈ layouts := by decide
    have hchat : ∀ body, decode Packet.chat.code body = .ok (chat (textOf (body.take 256))) :=
      fun body => decode_whole hopen (Nat.zero_le _) (read_chat body)
    obtain rfl := Except.ok.inj ((hchat body).symm.trans hdecode)
    constructor
    · rintro hsame ⟨-, hshort, hzero⟩
      have hletter := Except.ok.inj ((hchat _).symm.trans (hsame [0x41]))
      exact take_chat_concat_ne hshort hzero (Request.chat.inj hletter)
    · intro hends more
      have hended : 256 ≤ body.length ∨ 0 ∈ body := by
        by_contra hopen
        rw [not_or] at hopen
        exact hends ⟨rfl, Nat.lt_of_not_le hopen.1, hopen.2⟩
      rw [hchat, take_chat_append hended]
  · refine iff_of_true (fun more => ?_) fun h => hchat h.1
    have hlonger : least ≤ (body ++ more).length := by
      rw [List.length_append]
      omega
    obtain ⟨front, rest, s, rfl, -, hread⟩ := (takes_read hlayout hchat).split hbody
    obtain rfl := Except.ok.inj ((decode_whole hlayout hbody (hread rest)).symm.trans hdecode)
    rw [List.append_assoc] at hlonger ⊢
    exact decode_whole hlayout hlonger (hread (rest ++ more))

/-- **The format of requests.**  Under the number of a kind that clients send, a body is accepted
    exactly when it is as long as the layout asks for, and then it is read without running out;
    if it is shorter the answer says by how much, and under every other number nothing is accepted.
    What is accepted has no zero character in its texts and no text longer than its field, and more
    octets behind the body make no difference, unless it is a chat that nothing has ended. -/
theorem accepts_its_format (code : UInt16) (body : Bytes) :
    (∀ packet least, (packet, least) ∈ layouts → packet.code = code →
      (body.length < least →
        decode code body = .error (.bodyTooShort packet least body.length)) ∧
      (least ≤ body.length →
        ∃ r rest, decode code body = .ok r ∧ read packet body = some (r, rest) ∧ rest <:+ body)) ∧
    ((∀ layout ∈ layouts, layout.1.code ≠ code) →
      decode code body = .error (.unknownPacket code)) ∧
    ∀ r, decode code body = .ok r →
      (∃ least, (r.packet, least) ∈ layouts ∧ r.packet.code = code ∧ least ≤ body.length) ∧
      (∀ width text, (width, text) ∈ r.texts →
        Utf8.nul ∉ text.toList ∧ text.length ≤ width) ∧
      ((∀ more, decode code (body ++ more) = .ok r) ↔
        ¬ (code = Packet.chat.code ∧ body.length < 256 ∧ 0 ∉ body)) := by
  refine ⟨?_, fun hcode => decode_unknown hcode body, fun r hdecode => ?_⟩
  · rintro packet least hlayout rfl
    refine ⟨decode_short hlayout, fun hbody => ?_⟩
    obtain ⟨r, rest, hread, hrest, -⟩ := read_whole hlayout hbody
    exact ⟨r, rest, decode_whole hlayout hbody hread, hread, hrest⟩
  · obtain ⟨packet, least, hlayout, rfl⟩ :
        ∃ packet least, (packet, least) ∈ layouts ∧ packet.code = code := by
      by_contra hnone
      have hcode : ∀ layout ∈ layouts, layout.1.code ≠ code :=
        fun layout hlayout hsame => hnone ⟨layout.1, layout.2, hlayout, hsame⟩
      cases (decode_unknown hcode body).symm.trans hdecode
    have hbody : least ≤ body.length := by
      by_contra hshort
      cases (decode_short hlayout (Nat.lt_of_not_le hshort)).symm.trans hdecode
    obtain ⟨s, rest, hread, -, hpacket, hfit⟩ := read_whole hlayout hbody
    obtain rfl := Except.ok.inj ((decode_whole hlayout hbody hread).symm.trans hdecode)
    rw [hpacket]
    refine ⟨⟨least, hlayout, rfl, hbody⟩, hfit, ?_⟩
    rw [append_iff hlayout hbody hdecode, Packet.code_inj]

/-- The field of a name may end in the middle of a letter, and a chat of half a letter is changed
    by what is put behind it. -/
theorem accepts_its_format_cut :
    let body := List.replicate 49 0x61 ++ [0xC3, 0xA9] ++ List.replicate 49 0
    (∃ name password, (∀ more, decode 3 (body ++ more) = .ok (login name password)) ∧
      Utf8.nul ∉ name.toList ∧ name.length ≤ 50) ∧
    decode 3 body.dropLast = .error (.bodyTooShort .loginRequest 100 99) ∧
    decode 2 body = .error (.unknownPacket 2) ∧
    decode 7 [0xC3] = .ok (chat "\uFFFD") ∧
    ∃ more, decode 7 ([0xC3] ++ more) ≠ .ok (chat "\uFFFD") := by
  intro body
  have hlogin : (Packet.loginRequest, 100) ∈ layouts := by decide
  obtain ⟨haccepted, -, hread⟩ := accepts_its_format 3 body
  obtain ⟨r, rest, hdecode, -⟩ := (haccepted _ _ hlogin rfl).2 (by decide)
  obtain ⟨⟨least, -, hcode, -⟩, htexts, hmore⟩ := hread r hdecode
  have hchat : decode 7 [0xC3] = .ok (chat "\uFFFD") := by decide +kernel
  refine ⟨?_, ((accepts_its_format 3 body.dropLast).1 _ _ hlogin rfl).1 (by decide),
    (accepts_its_format 2 body).2.1 (by decide), hchat, ?_⟩
  · cases r with
    | login name password =>
      refine ⟨name, password, hmore.mpr (by decide), htexts 50 name List.mem_cons_self⟩
    | _ => cases hcode
  · have hopen := ((accepts_its_format 7 [0xC3]).2.2 _ hchat).2.2
    by_contra hsame
    exact hopen.mp (fun more => not_not.mp fun h => hsame ⟨more, h⟩) ⟨rfl, by decide, by decide⟩

end Request

end GameServer.Wire
