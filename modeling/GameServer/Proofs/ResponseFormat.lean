import GameServer.Proofs.Layouts
import GameServer.Proofs.RoundTrip

/-!
The format of responses: a response that was cut off is never taken for a whole one.

The count of a list comes from the wire and may be anything, so the body is measured against it
before the list is read.  Then reading does not run out, and as many entries are read as the count
calls for.  But for a chat, which ends where its body ends, a body that was written is just as long
as its count calls for, so that no proper prefix of it is accepted.
-/

namespace GameServer.Wire

open Reader

/-! ### Entries -/

/-- A line of a room list stands in a row of octets. -/
def RoomEntry.StandsIn (row : Bytes) (e : RoomEntry) : Prop :=
  ∃ title : Bytes, title.length = titleWidth ∧ e.title = textOf title ∧
    row = Write.room e.room ++ (Write.int e.users ++ title)

theorem SnapshotEntry.takes_read :
    Takes SnapshotEntry.read snapshotEntrySize fun taken e => taken = e.bytes := by
  apply (takes_session.bind fun session => takes_single.bind fun x =>
    takes_single.map (SnapshotEntry.mk session x)).mono
  rintro taken e ⟨-, -, session, rfl, rfl, -, -, x, rfl, rfl, y, rfl, rfl⟩
  rw [SnapshotEntry.bytes, List.append_assoc]

theorem RoomEntry.takes_read : Takes RoomEntry.read roomEntrySize RoomEntry.StandsIn := by
  apply (takes_room.bind fun room => takes_int.bind fun users =>
    (takes_field titleWidth).map (RoomEntry.mk room users)).mono
  rintro taken e ⟨-, -, room, rfl, rfl, -, title, users, rfl, rfl, text, rfl, hlength, rfl⟩
  exact ⟨title, hlength, rfl, rfl⟩

namespace Response

/-- The list of a response stands in the body, all of it, behind the count that announces it; a
    negative count announces nothing. -/
def ListedIn (body : Bytes) : Response → Prop
  | snapshot tick entries =>
    ∃ (count : UInt32) (rest : Bytes), entries.length = count.toNat ∧
      body = Write.word tick ++ (Write.word count ++ (entries.flatMap SnapshotEntry.bytes ++ rest))
  | roomList rooms =>
    ∃ (count : Int32) (rows : List Bytes) (rest : Bytes), (rooms.length : Int) = max 0 count.toInt ∧
      List.Forall₂ RoomEntry.StandsIn rows rooms ∧
      body = Write.int count ++ (rows.flatten ++ rest)
  | registerResult _ | loginResult _ _ | enterRoomResult _ _ | playerLeft _ | chat _ _
  | createRoomResult _ _ => True

variable {packet : Packet} {fixed : Nat} {body : Bytes}

/-! ### Counts -/

theorem listLength_snapshot (tick count : UInt32) (rest : Bytes) :
    listLength .snapshot (Write.word tick ++ (Write.word count ++ rest)) =
      snapshotEntrySize * count.toNat := by
  have hdrop : (Write.word tick ++ (Write.word count ++ rest)).drop 4 = Write.word count ++ rest :=
    rfl
  rw [listLength, hdrop, word_append]

theorem listLength_roomList (count : Int32) (rest : Bytes) :
    listLength .roomListResult (Write.int count ++ rest) = roomEntrySize * entryCount count := by
  rw [listLength, int_append]

/-- The fixed part of a body, taken apart as far as its count. -/
theorem fixed_cases (hfixed : packet.minResponseBody = some fixed) (hbody : fixed ≤ body.length) :
    (∃ tick count rest, packet = .snapshot ∧ fixed = 8 ∧
        body = Write.word tick ++ (Write.word count ++ rest)) ∨
      (∃ count rest, packet = .roomListResult ∧ fixed = 4 ∧ body = Write.int count ++ rest) ∨
      packet ≠ .snapshot ∧ packet ≠ .roomListResult := by
  by_cases hsnapshot : packet = .snapshot
  · subst hsnapshot
    obtain rfl : 8 = fixed := Option.some.inj hfixed
    obtain ⟨-, later, tick, rfl, rfl, -⟩ := takes_word.split (Nat.le_trans (by decide) hbody)
    rw [List.length_append, length_word] at hbody
    obtain ⟨-, rest, count, rfl, rfl, -⟩ := takes_word.split (Nat.le_of_add_le_add_left hbody)
    exact .inl ⟨tick, count, rest, rfl, rfl, rfl⟩
  by_cases hroomList : packet = .roomListResult
  · subst hroomList
    obtain rfl : 4 = fixed := Option.some.inj hfixed
    obtain ⟨-, rest, count, rfl, rfl, -⟩ := takes_int.split hbody
    exact .inr (.inl ⟨count, rest, rfl, rfl, rfl⟩)
  · exact .inr (.inr ⟨hsnapshot, hroomList⟩)

theorem listLength_of_ne (hsnapshot : packet ≠ .snapshot) (hroomList : packet ≠ .roomListResult)
    (body : Bytes) : listLength packet body = 0 := by
  cases packet with
  | snapshot => exact absurd rfl hsnapshot
  | roomListResult => exact absurd rfl hroomList
  | _ => rfl

/-- The count stands in the fixed part: what is put behind it does not change what it calls for. -/
theorem listLength_append (hfixed : packet.minResponseBody = some fixed)
    (hbody : fixed ≤ body.length) (more : Bytes) :
    listLength packet (body ++ more) = listLength packet body := by
  rcases fixed_cases hfixed hbody with ⟨tick, count, rest, rfl, -, rfl⟩ | ⟨count, rest, rfl, -, rfl⟩ |
    ⟨hsnapshot, hroomList⟩
  · rw [List.append_assoc, List.append_assoc, listLength_snapshot, listLength_snapshot]
  · rw [List.append_assoc, listLength_roomList, listLength_roomList]
  · rw [listLength_of_ne hsnapshot hroomList, listLength_of_ne hsnapshot hroomList]

/-- No count makes the length that a body is measured against overflow a word of 64 bits. -/
theorem announced_lt (hfixed : packet.minResponseBody = some fixed) (body : Bytes) :
    fixed + listLength packet body < UInt64.size := by
  have hfew : fixed ≤ 8 := by
    cases packet <;> cases hfixed <;> decide
  have hlist : listLength packet body ≤ roomEntrySize * UInt32.size := by
    simp only [listLength, snapshotEntrySize, roomEntrySize, titleWidth, UInt32.size]
    split
    · split
      · next count _ _ =>
        have := count.toNat_lt
        omega
      · exact Nat.zero_le _
    · split
      · next count _ _ =>
        have := count.toInt_lt
        rw [entryCount]
        omega
      · exact Nat.zero_le _
    · exact Nat.zero_le _
  simp only [roomEntrySize, titleWidth, UInt32.size] at hlist
  rw [UInt64.size]
  omega

/-! ### Reading -/

theorem read_snapshot (tick : UInt32) {count : UInt32} {rest : Bytes}
    (hrest : snapshotEntrySize * count.toNat ≤ rest.length) :
    ∃ entries later, rest = entries.flatMap SnapshotEntry.bytes ++ later ∧
      entries.length = count.toNat ∧
      read .snapshot (Write.word tick ++ (Write.word count ++ rest)) =
        some (snapshot tick entries, later) := by
  obtain ⟨-, later, entries, rfl, ⟨hlength, parts, rfl, hparts⟩, hread⟩ :=
    (SnapshotEntry.takes_read.times count.toNat).split hrest
  have hparts : parts = entries.map SnapshotEntry.bytes := by
    rwa [← List.forall₂_eq_eq_eq, List.forall₂_map_right_iff]
  subst hparts
  refine ⟨entries, later, rfl, hlength, ?_⟩
  rw [read, bind_of_some (word_append _ _), bind_of_some (word_append _ _),
    bind_of_some (hread later)]
  rfl

theorem read_roomList {count : Int32} {rest : Bytes}
    (hrest : roomEntrySize * entryCount count ≤ rest.length) :
    ∃ rooms rows later, rest = List.flatten rows ++ later ∧ rooms.length = entryCount count ∧
      List.Forall₂ RoomEntry.StandsIn rows rooms ∧
      read .roomListResult (Write.int count ++ rest) = some (roomList rooms, later) := by
  obtain ⟨-, later, rooms, rfl, ⟨hlength, rows, rfl, hrows⟩, hread⟩ :=
    (RoomEntry.takes_read.times (entryCount count)).split hrest
  refine ⟨rooms, rows, later, rfl, hlength, hrows, ?_⟩
  rw [read, bind_of_some (int_append _ _), bind_of_some (hread later)]
  rfl

/-- What has neither a list nor a text is read from the fixed part of the body. -/
theorem takes_plain (hfixed : packet.minResponseBody = some fixed) (hsnapshot : packet ≠ .snapshot)
    (hroomList : packet ≠ .roomListResult) (hchat : packet ≠ .chat) :
    Takes (read packet) fixed fun _ r => ∀ body, r.ListedIn body := by
  cases packet with
  | registerResult =>
    cases hfixed
    apply (takes_flag.map registerResult).mono
    rintro _ _ ⟨success, rfl, -⟩ _
    trivial
  | loginResult =>
    cases hfixed
    apply (takes_flag.bind fun success => takes_word.map (loginResult success)).mono
    rintro _ _ ⟨-, -, success, -, -, user, rfl, -⟩ _
    trivial
  | enterRoom =>
    cases hfixed
    apply (takes_flag.bind fun success => takes_room.map (enterRoomResult success)).mono
    rintro _ _ ⟨-, -, success, -, -, room, rfl, -⟩ _
    trivial
  | createRoomResult =>
    cases hfixed
    apply (takes_flag.bind fun success => takes_room.map (createRoomResult success)).mono
    rintro _ _ ⟨-, -, success, -, -, room, rfl, -⟩ _
    trivial
  | leaveRoom =>
    cases hfixed
    apply (takes_session.map playerLeft).mono
    rintro _ _ ⟨session, rfl, -⟩ _
    trivial
  | chat => exact absurd rfl hchat
  | snapshot => exact absurd rfl hsnapshot
  | roomListResult => exact absurd rfl hroomList
  | registerRequest | loginRequest | move | roomListRequest | createRoomRequest | logoutRequest =>
    cases hfixed

/-- The text of a chat is what remains, up to its limit. -/
theorem read_chat (sender : UInt32) (rest : Bytes) :
    read .chat (Write.word sender ++ rest) =
      some (chat sender (textOf (rest.take chatLimit)), rest.drop chatLimit) := by
  rw [read, bind_of_some (word_append _ _), bind_of_some (tail_apply _ _)]
  rfl

/-- A body that is as long as its kind and its count ask for is read without running out. -/
theorem read_whole (hfixed : packet.minResponseBody = some fixed)
    (hbody : fixed + listLength packet body ≤ body.length) :
    ∃ r rest, read packet body = some (r, rest) ∧ rest <:+ body ∧ r.ListedIn body := by
  rcases fixed_cases hfixed (Nat.le_of_add_right_le hbody) with
    ⟨tick, count, rest, rfl, rfl, rfl⟩ | ⟨count, rest, rfl, rfl, rfl⟩ | ⟨hsnapshot, hroomList⟩
  · have hrest : snapshotEntrySize * count.toNat ≤ rest.length := by
      rw [listLength_snapshot, List.length_append, List.length_append, length_word,
        length_word] at hbody
      omega
    obtain ⟨entries, later, rfl, hlength, hread⟩ := read_snapshot tick hrest
    refine ⟨_, later, hread, ?_, count, later, hlength, rfl⟩
    simp only [← List.append_assoc]
    exact List.suffix_append _ later
  · have hrest : roomEntrySize * entryCount count ≤ rest.length := by
      rw [listLength_roomList, List.length_append, length_int] at hbody
      omega
    obtain ⟨rooms, rows, later, rfl, hlength, hrows, hread⟩ := read_roomList hrest
    refine ⟨_, later, hread, ?_, count, rows, later, ?_, hrows, rfl⟩
    · rw [← List.append_assoc]
      exact List.suffix_append _ later
    · rw [hlength, entryCount, Int.toNat_eq_max, Int.max_comm]
  · by_cases hchat : packet = .chat
    · subst hchat
      obtain rfl : 4 = fixed := Option.some.inj hfixed
      obtain ⟨-, rest, sender, rfl, rfl, -⟩ := takes_word.split (Nat.le_of_add_right_le hbody)
      exact ⟨_, _, read_chat sender rest,
        (List.drop_suffix _ rest).trans (List.suffix_append _ rest), trivial⟩
    · obtain ⟨front, rest, r, rfl, hr, hread⟩ :=
        (takes_plain hfixed hsnapshot hroomList hchat).split (Nat.le_of_add_right_le hbody)
      exact ⟨r, rest, hread rest, List.suffix_append front rest, hr _⟩

/-! ### Decoding -/

theorem decode_short (hfixed : packet.minResponseBody = some fixed) (hbody : body.length < fixed) :
    decode packet.code body = .error (.bodyTooShort packet fixed body.length) := by
  simp only [decode, Packet.ofCode?_code, hfixed, if_pos hbody]

theorem decode_cut (hfixed : packet.minResponseBody = some fixed) (hbody : fixed ≤ body.length)
    (hlist : body.length < fixed + listLength packet body) :
    decode packet.code body =
      .error (.bodyTooShort packet (fixed + listLength packet body) body.length) := by
  simp only [decode, Packet.ofCode?_code, hfixed, if_neg (Nat.not_lt.mpr hbody), if_pos hlist]

theorem decode_whole {r : Response} {rest : Bytes} (hfixed : packet.minResponseBody = some fixed)
    (hbody : fixed + listLength packet body ≤ body.length)
    (hread : read packet body = some (r, rest)) : decode packet.code body = .ok r := by
  have hleast : ¬ body.length < fixed := by omega
  simp only [decode, Packet.ofCode?_code, hfixed, if_neg hleast, if_neg (Nat.not_lt.mpr hbody),
    hread]

theorem decode_unknown {code : UInt16}
    (h : ∀ packet : Packet, packet.code = code → packet.minResponseBody = none) (body : Bytes) :
    decode code body = .error (.unknownPacket code) := by
  cases hpacket : Packet.ofCode? code with
  | none => simp only [decode, hpacket]
  | some packet => simp only [decode, hpacket, h packet (Packet.code_of_ofCode? hpacket)]

/-- What is too short for its kind and its count is not accepted. -/
theorem decode_too_short (hfixed : packet.minResponseBody = some fixed)
    (hbody : body.length < fixed + listLength packet body) :
    ∃ expected, decode packet.code body = .error (.bodyTooShort packet expected body.length) ∧
      body.length < expected := by
  by_cases hleast : body.length < fixed
  · exact ⟨fixed, decode_short hfixed hleast, hleast⟩
  · exact ⟨_, decode_cut hfixed (Nat.le_of_not_lt hleast) hbody, hbody⟩

/-- Whatever is accepted was long enough. -/
theorem announced_of_ok {code : UInt16} {r : Response} (hdecode : decode code body = .ok r) :
    ∃ packet fixed, packet.code = code ∧ packet.minResponseBody = some fixed ∧
      fixed + listLength packet body ≤ body.length := by
  by_contra hnone
  simp only [not_exists, not_and, Nat.not_le] at hnone
  by_cases hknown : ∃ packet : Packet, packet.code = code ∧ packet.minResponseBody ≠ none
  · obtain ⟨packet, rfl, hkind⟩ := hknown
    obtain ⟨fixed, hfixed⟩ := Option.ne_none_iff_exists'.mp hkind
    obtain ⟨expected, herror, -⟩ := decode_too_short hfixed (hnone packet fixed rfl hfixed)
    cases herror.symm.trans hdecode
  · simp only [not_exists, not_and, not_not] at hknown
    cases (decode_unknown hknown body).symm.trans hdecode

/-- No proper prefix of a body that was written is accepted, but for a chat. -/
theorem decode_prefix {r : Response} (hchat : r.packet ≠ .chat)
    (hfits : headerSize + r.body.length ≤ maxFrame) {front : Bytes} (hfront : front <+: r.body)
    (hproper : front ≠ r.body) :
    ∃ expected, decode r.packet.code front =
        .error (.bodyTooShort r.packet expected front.length) ∧
      front.length < expected ∧ expected ≤ r.body.length := by
  obtain ⟨fixed, hfixed, hlength⟩ := announced_eq hchat hfits
  by_cases hleast : front.length < fixed
  · exact ⟨fixed, decode_short hfixed hleast, hleast, Nat.le.intro hlength⟩
  · have hbody := Nat.le_of_not_lt hleast
    have hcount : fixed + listLength r.packet front = r.body.length := by
      obtain ⟨more, hmore⟩ := hfront
      rw [← hlength, ← hmore, listLength_append hfixed hbody]
    have hshort : front.length < fixed + listLength r.packet front := by
      rw [hcount]
      exact Nat.lt_of_le_of_ne hfront.length_le fun h => hproper (hfront.eq_of_length h)
    exact ⟨_, decode_cut hfixed hbody hshort, hshort, Nat.le_of_eq hcount⟩

/-- **A response that was cut off is never taken for a whole one.**  Whatever the body, the length
    that it is measured against does not overflow; if it is shorter it is refused as too short, and
    if it is not it is read without running out.  Every list that is decoded stands in the body,
    and has as many entries as the count before it says.  No proper prefix of the body of a
    response that fits a frame is decoded, unless the response is a chat. -/
theorem never_mistaken_when_cut :
    (∀ (code : UInt16) (body : Bytes),
      ((∀ packet : Packet, packet.code = code → packet.minResponseBody = none) →
        decode code body = .error (.unknownPacket code)) ∧
      (∀ packet fixed, packet.code = code → packet.minResponseBody = some fixed →
        fixed + listLength packet body < UInt64.size ∧
        (fixed + listLength packet body ≤ body.length →
          ∃ r rest, decode code body = .ok r ∧ read packet body = some (r, rest) ∧
            rest <:+ body) ∧
        (body.length < fixed + listLength packet body →
          ∃ expected, decode code body = .error (.bodyTooShort packet expected body.length) ∧
            body.length < expected)) ∧
      ∀ r, decode code body = .ok r → r.ListedIn body) ∧
    ∀ (r : Response) (frame : Bytes), r.encode = .ok frame → r.packet ≠ .chat →
      ∀ front, front <+: r.body → front ≠ r.body →
        ∃ expected, decode r.packet.code front =
            .error (.bodyTooShort r.packet expected front.length) ∧
          front.length < expected ∧ expected ≤ r.body.length := by
  refine ⟨fun code body => ⟨fun hunknown => decode_unknown hunknown body, ?_, ?_⟩, ?_⟩
  · rintro packet fixed rfl hfixed
    refine ⟨announced_lt hfixed body, fun hbody => ?_, decode_too_short hfixed⟩
    obtain ⟨r, rest, hread, hrest, -⟩ := read_whole hfixed hbody
    exact ⟨r, rest, decode_whole hfixed hbody hread, hread, hrest⟩
  · intro r hdecode
    obtain ⟨packet, fixed, rfl, hfixed, hbody⟩ := announced_of_ok hdecode
    obtain ⟨s, rest, hread, -, hlisted⟩ := read_whole hfixed hbody
    obtain rfl := Except.ok.inj ((decode_whole hfixed hbody hread).symm.trans hdecode)
    exact hlisted
  · intro r frame hencode hchat front hfront hproper
    exact decode_prefix hchat (Frame.fits_of_encode hencode) hfront hproper

/-- A snapshot cut anywhere, a count that nothing stands behind, a count below zero, and the number
    of a request. -/
theorem never_mistaken_when_cut_anywhere :
    let r : Response := snapshot 7 [⟨⟨1⟩, ⟨0x3F800000⟩, ⟨0⟩⟩, ⟨⟨2⟩, ⟨0⟩, ⟨0x3F800000⟩⟩]
    let most : Bytes := Write.word 7 ++ Write.word 0xFFFFFFFF
    (∀ length < 32, ∃ expected, decode 9 (r.body.take length) =
      .error (.bodyTooShort .snapshot expected (r.body.take length).length)) ∧
    (8 + listLength .snapshot most < UInt64.size ∧
      ∃ expected, decode 9 most = .error (.bodyTooShort .snapshot expected 8)) ∧
    (∃ rooms, decode 11 (Write.int (-1)) = .ok (roomList rooms) ∧
      (roomList rooms).ListedIn (Write.int (-1))) ∧
    decode 1 most = .error (.unknownPacket 1) := by
  intro r most
  obtain ⟨hany, hprefix⟩ := never_mistaken_when_cut
  obtain ⟨hwide, -, hrefused⟩ := (hany 9 most).2.1 .snapshot 8 rfl rfl
  obtain ⟨expected, hmost, -⟩ := hrefused (by decide +kernel)
  obtain ⟨-, hread, -⟩ := (hany 11 (Write.int (-1))).2.1 .roomListResult 4 rfl rfl
  obtain ⟨s, rest, hdecode, -⟩ := hread (by decide +kernel)
  have hnone : decode 11 (Write.int (-1)) = .ok (roomList []) := by decide +kernel
  refine ⟨fun length hlength => ?_, ⟨hwide, expected, hmost⟩, ⟨[], hnone, ?_⟩, ?_⟩
  · have hproper : r.body.take length ≠ r.body := by
      intro hsame
      have hcut := congrArg List.length hsame
      have htotal : r.body.length = 32 := by decide
      rw [List.length_take] at hcut
      omega
    obtain ⟨expected, hcut, -⟩ :=
      hprefix r _ rfl (by decide) _ (List.take_prefix length r.body) hproper
    exact ⟨expected, hcut⟩
  · obtain rfl := Except.ok.inj (hnone.symm.trans hdecode)
    exact (hany 11 (Write.int (-1))).2.2 _ hdecode
  · refine (hany 1 most).1 fun packet hcode => ?_
    rw [show (1 : UInt16) = Packet.registerRequest.code from rfl, Packet.code_inj] at hcode
    rw [hcode]
    rfl

end Response

end GameServer.Wire
