/-!
Single-precision numbers, kept as their bits.

Coordinates and velocities cross the wire bit for bit, whatever the bits mean, so
the type *is* the bit pattern: a value that is only carried can never be changed by
being carried, not even a signalling not-a-number.  Arithmetic goes through the
machine's IEEE operations, each one rounded on its own: a product and the sum it
goes into are two roundings, never one.

The program computes with such numbers in two places: `integrate` of `skirmish-room` and
`dt_secs` of `skirmish-tick`.
-/

namespace GameServer

structure Single where
  bits : UInt32
deriving DecidableEq, Repr, Inhabited

namespace Single

def zero : Single := ⟨0⟩

def toFloat32 (a : Single) : Float32 := Float32.ofBits a.bits

def ofFloat32 (x : Float32) : Single := ⟨x.toBits⟩

def add (a b : Single) : Single := ofFloat32 (a.toFloat32 + b.toFloat32)

def mul (a b : Single) : Single := ofFloat32 (a.toFloat32 * b.toFloat32)

def div (a b : Single) : Single := ofFloat32 (a.toFloat32 / b.toFloat32)

/-- The number nearest to a word. -/
def ofWord (n : UInt64) : Single := ofFloat32 n.toFloat32

instance : Add Single := ⟨add⟩
instance : Mul Single := ⟨mul⟩
instance : Div Single := ⟨div⟩

/-- Whether the bits are those of a not-a-number: all exponent bits set and some
    fraction bit too. -/
def isNaN (a : Single) : Bool := a.bits &&& 0x7fffffff > 0x7f800000

end Single

end GameServer
