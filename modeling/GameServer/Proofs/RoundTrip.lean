import GameServer.Proofs.Fields
import GameServer.Wire.Request
import GameServer.Wire.Response

/-!
Requests and responses survive the wire.

Whatever is sent in a frame is found in it again, whatever follows the frame: first the frame
itself, then every field of its body.  Texts come back in their normal form, which is all that
a request or a response loses on the way.
-/

namespace GameServer.Wire

/-! ### Frames -/

theorem Header.decode?_encode (h : Header) (rest : Bytes) :
    Header.decode? (h.encode ++ rest) = some h := by
  change some (⟨word16 _ _, word16 _ _⟩ : Header) = _
  rw [word16_bytes16, word16_bytes16]

theorem Header.length_encode (h : Header) : h.encode.length = headerSize := rfl

theorem Frame.fits_of_encode {packet : Packet} {body bytes : Bytes}
    (h : Frame.encode packet body = .ok bytes) : headerSize + body.length ≤ maxFrame := by
  by_contra hlarge
  simp only [Frame.encode, gt_iff_lt, if_pos (Nat.lt_of_not_le hlarge)] at h
  cases h

/-- A body that fits is framed, and the frame is taken off the front of whatever it is the
    front of. -/
theorem Frame.split_encode (packet : Packet) {body : Bytes}
    (hfits : headerSize + body.length ≤ maxFrame) :
    ∃ bytes f, Frame.encode packet body = .ok bytes ∧ f.header.code = packet.code ∧
      f.body = body ∧ f.size = bytes.length ∧
        ∀ later, Frame.split (bytes ++ later) = .ok (some f) := by
  let header : Header := ⟨UInt16.ofNat (headerSize + body.length), packet.code⟩
  have htotal : header.total = headerSize + body.length := by
    simp only [maxFrame] at hfits
    simp only [header, Header.total, UInt16.toNat_ofNat']
    omega
  have hlength : (header.encode ++ body).length = header.total := by
    rw [List.length_append, Header.length_encode, htotal]
  refine ⟨header.encode ++ body, ⟨header, body⟩, ?_, rfl, rfl, hlength.symm, fun later => ?_⟩
  · rw [Frame.encode]
    simp only [gt_iff_lt, if_neg (Nat.not_lt.mpr hfits)]
    rfl
  · have hleast : ¬ header.total < headerSize := by omega
    have htake : (header.encode ++ body ++ later).take header.total = header.encode ++ body := by
      rw [← hlength, List.take_left']
      rfl
    have hdrop : (header.encode ++ body).drop headerSize = body := by
      rw [← header.length_encode, List.drop_left']
      rfl
    rw [Frame.split, List.append_assoc, Header.decode?_encode]
    simp only [if_neg hleast, ← List.append_assoc, htake, hlength, if_true, hdrop]

/-! ### Requests -/

/-- A request with its texts in normal form. -/
def Request.normal : Request → Request
  | register username password =>
    register (normalText usernameWidth username) (normalText passwordWidth password)
  | login username password =>
    login (normalText usernameWidth username) (normalText passwordWidth password)
  | chat message => chat (normalText chatLimit message)
  | createRoom title => createRoom (normalText titleWidth title)
  | r => r

namespace Request

open Reader

/-- A body is read back to its end. -/
theorem read_body (r : Request) : read r.packet r.body = some (r.normal, []) := by
  cases r with
  | register username password | login username password =>
    rw [packet, body, read, bind_of_some (field_append _ _ _),
      bind_of_some (to_end fun rest => field_append rest _ _)]
    rfl
  | enterRoom room =>
    rw [packet, body, read, bind_of_some (to_end fun rest => room_append rest _)]
    rfl
  | move vx vy =>
    rw [packet, body, read, bind_of_some (single_append _ _),
      bind_of_some (to_end fun rest => single_append rest _)]
    rfl
  | chat message =>
    rw [packet, body, read, bind_of_some (tail_eq _ _)]
    rfl
  | createRoom title =>
    rw [packet, body, read, bind_of_some (to_end fun rest => field_append rest _ _)]
    rfl
  | leaveRoom | listRooms | logout => rfl

/-- A body is never shorter than the layout of its kind. -/
theorem minRequestBody_le (r : Request) :
    ∃ least, r.packet.minRequestBody = some least ∧ least ≤ r.body.length := by
  cases r <;> exact ⟨_, rfl, by simp [body]⟩

theorem length_body_le (r : Request) : r.body.length ≤ chatLimit := by
  cases r with
  | chat message => exact length_tail_le chatLimit message
  | _ => simp [body, chatLimit, usernameWidth, passwordWidth, titleWidth]

theorem decode_body (r : Request) : decode r.packet.code r.body = .ok r.normal := by
  obtain ⟨least, hleast, hlength⟩ := r.minRequestBody_le
  simp only [decode, Packet.ofCode?_code, hleast, if_neg (Nat.not_lt.mpr hlength), read_body]

end Request

/-- **Every request survives the wire.**  It fits a frame; the frame is found at the front of
    whatever begins with it, with the header and the body that it was made of; and the body is
    read back as the request with its texts in normal form, which leaves a text as it is when
    it fits its field and has no zero character in it. -/
theorem request_survives_wire (r : Request) :
    (∃ bytes f, r.encode = .ok bytes ∧
      (f.header.code = r.packet.code ∧ f.body = r.body ∧ f.size = bytes.length) ∧
      (∀ later, Frame.split (bytes ++ later) = .ok (some f)) ∧
      Request.decode f.header.code f.body = .ok r.normal) ∧
    ∀ limit text, Utf8.nul ∉ text.toList → text.utf8ByteSize ≤ limit →
      normalText limit text = text := by
  refine ⟨?_, fun limit text hnul hfits => normalText_of_fits hnul hfits⟩
  have hfits : headerSize + r.body.length ≤ maxFrame :=
    Nat.le_trans (Nat.add_le_add_left r.length_body_le headerSize) (by decide)
  obtain ⟨bytes, f, hencode, hcode, hbody, hsize, hsplit⟩ :=
    Frame.split_encode r.packet hfits
  refine ⟨bytes, f, hencode, ⟨hcode, hbody, hsize⟩, hsplit, ?_⟩
  rw [hcode, hbody]
  exact r.decode_body

/-- A title that is one octet too long for its field loses its last character,
    which takes two. -/
theorem request_survives_wire_straddling :
    let r : Request := .createRoom "a fine place for a round of caf\u00e9"
    (∃ bytes f, r.encode = .ok bytes ∧ Frame.split (bytes ++ [8, 0]) = .ok (some f) ∧
      Request.decode f.header.code f.body = .ok (.createRoom "a fine place for a round of caf")) ∧
    normalText 4 "caf" = "caf" := by
  intro r
  obtain ⟨⟨bytes, f, hencode, -, hsplit, hdecode⟩, hkept⟩ := request_survives_wire r
  have hnormal : r.normal = .createRoom "a fine place for a round of caf" := by decide +kernel
  refine ⟨⟨bytes, f, hencode, hsplit [8, 0], hdecode.trans (congrArg _ hnormal)⟩, ?_⟩
  exact hkept 4 "caf" (by decide) (by decide)

/-! ### Responses -/

def RoomEntry.normal (e : RoomEntry) : RoomEntry :=
  { e with title := normalText titleWidth e.title }

def Response.normal : Response → Response
  | chat sender text => chat sender (normalText chatLimit text)
  | roomList rooms => roomList (rooms.map RoomEntry.normal)
  | r => r

open Reader in
theorem SnapshotEntry.read_append (e : SnapshotEntry) (rest : Bytes) :
    SnapshotEntry.read (e.bytes ++ rest) = some (e, rest) := by
  rw [read, bytes, List.append_assoc, List.append_assoc, bind_of_some (session_append _ _),
    bind_of_some (single_append _ _), bind_of_some (single_append _ _)]
  rfl

open Reader in
theorem RoomEntry.read_append (e : RoomEntry) (rest : Bytes) :
    RoomEntry.read (e.bytes ++ rest) = some (e.normal, rest) := by
  rw [read, bytes, List.append_assoc, List.append_assoc, bind_of_some (room_append _ _),
    bind_of_some (int_append _ _), bind_of_some (field_append _ _ _)]
  rfl

theorem SnapshotEntry.length_bytes (e : SnapshotEntry) : e.bytes.length = snapshotEntrySize := rfl

theorem RoomEntry.length_bytes (e : RoomEntry) : e.bytes.length = roomEntrySize := by
  simp only [bytes, List.length_append, length_room, length_int, length_field, roomEntrySize]

/-- Items of one size. -/
theorem length_items {α : Type} {write : α → Bytes} {size : Nat}
    (hsize : ∀ a, (write a).length = size) (items : List α) :
    (items.flatMap write).length = size * items.length := by
  induction items with
  | nil => rfl
  | cons a later ih =>
    rw [List.flatMap_cons, List.length_append, hsize, ih, List.length_cons, Nat.mul_succ,
      Nat.add_comm]

namespace Response

open Reader

theorem length_snapshot (tick : UInt32) (entries : List SnapshotEntry) :
    (snapshot tick entries).body.length = 8 + snapshotEntrySize * entries.length := by
  rw [body, List.length_append, length_items SnapshotEntry.length_bytes, List.length_append,
    length_word, length_word]

theorem length_roomList (rooms : List RoomEntry) :
    (roomList rooms).body.length = 4 + roomEntrySize * rooms.length := by
  rw [body, List.length_append, length_items RoomEntry.length_bytes, length_int]

/-- The entries of a snapshot that fits a frame can be counted. -/
theorem snapshotCount {tick : UInt32} {entries : List SnapshotEntry}
    (hfits : headerSize + (snapshot tick entries).body.length ≤ maxFrame) :
    (UInt32.ofNat entries.length).toNat = entries.length := by
  rw [length_snapshot, snapshotEntrySize, maxFrame] at hfits
  apply UInt32.toNat_ofNat_of_lt'
  simp only [UInt32.size]
  omega

/-- The lines of a room list that fits a frame can be counted, without a sign. -/
theorem roomCount {rooms : List RoomEntry}
    (hfits : headerSize + (roomList rooms).body.length ≤ maxFrame) :
    entryCount (Int32.ofNat rooms.length) = rooms.length := by
  simp only [length_roomList, roomEntrySize, titleWidth, headerSize, maxFrame] at hfits
  rw [entryCount, Int32.toInt_ofNat_of_lt (by omega), Int.toNat_natCast]

/-- A body is read back to its end. -/
theorem read_body (r : Response) (hfits : headerSize + r.body.length ≤ maxFrame) :
    read r.packet r.body = some (r.normal, []) := by
  cases r with
  | registerResult success =>
    rw [packet, body, read, bind_of_some (to_end fun rest => flag_append rest _)]
    rfl
  | loginResult success user =>
    rw [packet, body, read, bind_of_some (flag_append _ _),
      bind_of_some (to_end fun rest => word_append rest _)]
    rfl
  | enterRoomResult success room | createRoomResult success room =>
    rw [packet, body, read, bind_of_some (flag_append _ _),
      bind_of_some (to_end fun rest => room_append rest _)]
    rfl
  | playerLeft session =>
    rw [packet, body, read, bind_of_some (to_end fun rest => session_append rest _)]
    rfl
  | chat sender text =>
    rw [packet, body, read, bind_of_some (word_append _ _), bind_of_some (tail_eq _ _)]
    rfl
  | snapshot tick entries =>
    have hentries : SnapshotEntry.read.times entries.length (entries.flatMap SnapshotEntry.bytes) =
        some (entries.map id, []) :=
      to_end fun rest => times_append rest SnapshotEntry.read_append entries
    rw [packet, body, read, List.append_assoc, bind_of_some (word_append _ _),
      bind_of_some (word_append _ _), snapshotCount hfits, bind_of_some hentries, List.map_id]
    rfl
  | roomList rooms =>
    have hrooms := to_end fun rest => times_append rest RoomEntry.read_append rooms
    rw [packet, body, read, bind_of_some (int_append _ _), roomCount hfits, bind_of_some hrooms]
    rfl

/-- But for a chat, a body is exactly as long as its kind and its count ask for. -/
theorem announced_eq {r : Response} (hchat : r.packet ≠ .chat)
    (hfits : headerSize + r.body.length ≤ maxFrame) :
    ∃ fixed, r.packet.minResponseBody = some fixed ∧
      fixed + listLength r.packet r.body = r.body.length := by
  cases r with
  | snapshot tick entries =>
    have hcount : listLength .snapshot (snapshot tick entries).body =
        snapshotEntrySize * entries.length := by
      have hdrop : (snapshot tick entries).body.drop 4 =
          Write.word (UInt32.ofNat entries.length) ++ entries.flatMap SnapshotEntry.bytes := rfl
      rw [listLength, hdrop, word_append]
      simp only [snapshotCount hfits]
    refine ⟨8, rfl, ?_⟩
    rw [packet, hcount, length_snapshot]
  | roomList rooms =>
    have hcount : listLength .roomListResult (roomList rooms).body =
        roomEntrySize * rooms.length := by
      rw [listLength, body, int_append]
      simp only [roomCount hfits]
    refine ⟨4, rfl, ?_⟩
    rw [packet, hcount, length_roomList]
  | chat => exact absurd rfl hchat
  | registerResult | loginResult | enterRoomResult | createRoomResult | playerLeft =>
    exact ⟨_, rfl, by simp [body, packet, listLength]⟩

/-- No body is shorter than its kind and its count ask for. -/
theorem announced_le (r : Response) (hfits : headerSize + r.body.length ≤ maxFrame) :
    ∃ fixed, r.packet.minResponseBody = some fixed ∧
      fixed + listLength r.packet r.body ≤ r.body.length := by
  by_cases hchat : r.packet = .chat
  · cases r with
    | chat sender text =>
      refine ⟨4, rfl, ?_⟩
      rw [body, List.length_append, length_word]
      exact Nat.le_add_right 4 _
    | _ => cases hchat
  · obtain ⟨fixed, hfixed, hlength⟩ := announced_eq hchat hfits
    exact ⟨fixed, hfixed, Nat.le_of_eq hlength⟩

theorem decode_body (r : Response) (hfits : headerSize + r.body.length ≤ maxFrame) :
    decode r.packet.code r.body = .ok r.normal := by
  obtain ⟨fixed, hfixed, hlength⟩ := r.announced_le hfits
  have hleast : ¬ r.body.length < fixed := by omega
  simp only [decode, Packet.ofCode?_code, hfixed, if_neg hleast, if_neg (Nat.not_lt.mpr hlength),
    r.read_body hfits]

end Response

/-- **Every response that fits a frame survives the wire.**  It is framed exactly when header
    and body together have at most 65535 octets.  Then the frame is found at the front of
    whatever begins with it, with the header and the body that it was made of; and the body is
    read back as the response with its texts in normal form, every entry in its place. -/
theorem response_survives_wire (r : Response) :
    ((∃ bytes, r.encode = .ok bytes) ↔ 4 + r.body.length ≤ 65535) ∧
    ∀ bytes, r.encode = .ok bytes →
      ∃ f, (f.header.code = r.packet.code ∧ f.body = r.body ∧ f.size = bytes.length) ∧
        (∀ later, Frame.split (bytes ++ later) = .ok (some f)) ∧
        Response.decode f.header.code f.body = .ok r.normal := by
  refine ⟨⟨?_, ?_⟩, ?_⟩
  · rintro ⟨bytes, hencode⟩
    exact Frame.fits_of_encode hencode
  · intro hfits
    obtain ⟨bytes, -, hencode, -⟩ := Frame.split_encode r.packet hfits
    exact ⟨bytes, hencode⟩
  · intro bytes hencode
    have hfits : headerSize + r.body.length ≤ maxFrame := Frame.fits_of_encode hencode
    obtain ⟨framed, f, hframed, hcode, hbody, hsize, hsplit⟩ := Frame.split_encode r.packet hfits
    obtain rfl := Except.ok.inj (hframed.symm.trans hencode)
    refine ⟨f, ⟨hcode, hbody, hsize⟩, hsplit, ?_⟩
    rw [hcode, hbody]
    exact r.decode_body hfits

/-- What stands behind a zero character is lost, and nothing else. -/
theorem response_survives_wire_ended :
    let r : Response := .chat 7 "caf\u00e9\x00 noir"
    ∃ bytes f, r.encode = .ok bytes ∧ Frame.split (bytes ++ [8, 0]) = .ok (some f) ∧
      Response.decode f.header.code f.body = .ok (.chat 7 "caf\u00e9") := by
  intro r
  obtain ⟨hfits, hsurvives⟩ := response_survives_wire r
  obtain ⟨bytes, hencode⟩ := hfits.mpr (by decide +kernel)
  obtain ⟨f, -, hsplit, hdecode⟩ := hsurvives bytes hencode
  have hnormal : r.normal = .chat 7 "caf\u00e9" := by decide +kernel
  exact ⟨bytes, f, hencode, hsplit [8, 0], hdecode.trans (congrArg _ hnormal)⟩

end GameServer.Wire
