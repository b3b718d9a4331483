import GameServer.Wire.Packet

/-!
Frames: a four-byte header, then a body.

The header declares the length of the whole frame, itself included, and the number of
the packet.  A stream of frames needs no other separator: taking frames off the front
is all there is to it, and it stops where fewer bytes remain than the header asks for.

`Header` is `FrameHeader` of `skirmish-protocol`, with `total_len` and `body_len`; `encode`
and `split` are `encode_frame` and `split_frame`.
-/

namespace GameServer.Wire

structure Header where
  /-- Length of the whole frame. -/
  size : UInt16
  /-- Number of the packet, known or not. -/
  code : UInt16
deriving DecidableEq, Repr

namespace Header

/-- Reads a header, if four bytes are there. -/
def decode? : Bytes → Option Header
  | a :: b :: c :: d :: _ => some ⟨word16 a b, word16 c d⟩
  | _ => none

def encode (h : Header) : Bytes := bytes16 h.size ++ bytes16 h.code

def total (h : Header) : Nat := h.size.toNat

/-- The declared length of the body; none is left when the frame is shorter than a
    header. -/
def bodyLength (h : Header) : Nat := h.total - headerSize

def packet? (h : Header) : Option Packet := Packet.ofCode? h.code

end Header

structure Frame where
  header : Header
  body : Bytes
deriving DecidableEq, Repr

namespace Frame

def size (f : Frame) : Nat := f.header.total

/-- The bytes of a body under a header of its kind. -/
def encode (packet : Packet) (body : Bytes) : Except WireFault Bytes :=
  let total := headerSize + body.length
  if total > maxFrame then .error (.frameTooLarge total)
  else .ok (Header.encode ⟨UInt16.ofNat total, packet.code⟩ ++ body)

/-- Takes the frame at the front of some bytes: nothing while it is incomplete, a
    fault when it can never be a frame.  No byte behind the frame is looked at. -/
def split (bytes : Bytes) : Except WireFault (Option Frame) :=
  match Header.decode? bytes with
  | none => .ok none
  | some header =>
    if header.total < headerSize then .error (.invalidSize header.total)
    else
      let whole := bytes.take header.total
      if whole.length = header.total then .ok (some ⟨header, whole.drop headerSize⟩)
      else .ok none

end Frame

end GameServer.Wire
