/-!
Machine words in octets, the least significant octet first.

Signed words are carried as the unsigned word of the same bits.

The order is that of the `Reader`, the `Writer` and the `FrameHeader` of
`skirmish-protocol`.
-/

namespace GameServer.Wire

/-- A run of octets. -/
abbrev Bytes := List UInt8

/-- A 16-bit word in two octets. -/
def bytes16 (w : UInt16) : Bytes :=
  [UInt8.ofNat w.toNat, UInt8.ofNat (w.toNat / 256)]

def word16 (a b : UInt8) : UInt16 :=
  UInt16.ofNat (a.toNat + 256 * b.toNat)

/-- A 32-bit word in four octets. -/
def bytes32 (w : UInt32) : Bytes :=
  [UInt8.ofNat w.toNat, UInt8.ofNat (w.toNat / 256),
    UInt8.ofNat (w.toNat / 65536), UInt8.ofNat (w.toNat / 16777216)]

def word32 (a b c d : UInt8) : UInt32 :=
  UInt32.ofNat (a.toNat + 256 * b.toNat + 65536 * c.toNat + 16777216 * d.toNat)

theorem word16_bytes16 (w : UInt16) :
    word16 (UInt8.ofNat w.toNat) (UInt8.ofNat (w.toNat / 256)) = w := by
  apply UInt16.toNat_inj.1
  have h := w.toNat_lt
  simp only [word16, UInt16.toNat_ofNat', UInt8.toNat_ofNat']
  omega

theorem word32_bytes32 (w : UInt32) :
    word32 (UInt8.ofNat w.toNat) (UInt8.ofNat (w.toNat / 256))
      (UInt8.ofNat (w.toNat / 65536)) (UInt8.ofNat (w.toNat / 16777216)) = w := by
  apply UInt32.toNat_inj.1
  have h := w.toNat_lt
  simp only [word32, UInt32.toNat_ofNat', UInt8.toNat_ofNat']
  omega

end GameServer.Wire
