import Std.Data.ExtTreeMap

/-!
Names of things: clients and rooms.

Both are bare machine words, because both travel on the wire.  A session id is
unsigned; a room id is signed, since a client may ask for any room it likes and
negative numbers are rooms too.  Each is ordered by its number, and the order is
lawful, so either can be the key of an ordered map whose listing is ascending.

These are `SessionId` and `RoomId` of `skirmish-protocol`, and a label is how each of them
is displayed.
-/

namespace GameServer

structure SessionId where
  val : UInt32
deriving DecidableEq, Repr, Inhabited

structure RoomId where
  val : Int32
deriving DecidableEq, Repr, Inhabited

namespace SessionId

/-- Sessions are ordered by number. -/
instance : Ord SessionId := ⟨fun a b => compare a.val b.val⟩

instance : Std.TransOrd SessionId where
  eq_swap := Std.OrientedOrd.eq_swap (α := UInt32)
  isLE_trans {a b c} := @Std.TransCmp.isLE_trans UInt32 compare _ a.val b.val c.val

instance : Std.LawfulEqOrd SessionId where
  eq_of_compare {a b} h := by
    cases a
    cases b
    exact congrArg SessionId.mk (Std.LawfulEqOrd.eq_of_compare h)

/-- How a session is written in messages: `S-7`. -/
def label (s : SessionId) : String := "S-" ++ toString s.val.toNat

end SessionId

namespace RoomId

/-- Rooms are ordered by number, negative ones first. -/
instance : Ord RoomId := ⟨fun a b => compare a.val b.val⟩

instance : Std.TransOrd RoomId where
  eq_swap := Std.OrientedOrd.eq_swap (α := Int32)
  isLE_trans {a b c} := @Std.TransCmp.isLE_trans Int32 compare _ a.val b.val c.val

instance : Std.LawfulEqOrd RoomId where
  eq_of_compare {a b} h := by
    cases a
    cases b
    exact congrArg RoomId.mk (Std.LawfulEqOrd.eq_of_compare h)

def digits (r : RoomId) : String := toString r.val.toInt

/-- How a room is written in messages: `R-42`, and `R--1` below zero. -/
def label (r : RoomId) : String := "R-" ++ r.digits

end RoomId

end GameServer
