import Std.Data.ExtTreeMap
import Std.Data.ExtTreeSet

/-!
The cache: named sets and named lists of text.

Lists grow at the front.  A range of a list runs from one position to another, both
included, counted from zero; a range that starts behind its end still names the one
element it starts at, while trimming a list to such a range leaves nothing.  While the
cache is down every call fails and changes nothing.

`Cache` is that of `skirmish-persistence`, as `MemoryCache` keeps it: `add` is its
`add_to_set`, `remove` its `remove_from_set`, `push` its `push_list`, `trim` its
`trim_list`, `range` its `list_range` and `members` its `set_members`.  `CacheFault` is
`CacheError`.  `MemoryCache` never fails.  A cache that fails does so for as long as one
command takes: of the calls that a command makes either all fail or none does.  What a
failure between two calls leaves behind is a fact about the calls, and is proved of them.
-/

namespace GameServer

inductive CacheFault where
  | unavailable (reason : String)
deriving DecidableEq, Repr

def CacheFault.message : CacheFault → String
  | unavailable reason => "cache unavailable: " ++ reason

/-! ### Lists of lines -/

/-- A list of lines that knows its length, so that neither adding a line nor a trim that
    cuts nothing off has to walk through it. -/
structure Lines where
  toList : List String := []
  size : Nat := 0
  size_eq : size = toList.length := by rfl

namespace Lines

def ofList (lines : List String) : Lines := ⟨lines, lines.length, rfl⟩

def push (line : String) (l : Lines) : Lines :=
  ⟨line :: l.toList, l.size + 1, by simp [l.size_eq]⟩

def trim (start stop : Nat) (l : Lines) : Lines :=
  if start = 0 ∧ l.size ≤ stop + 1 then l
  else ofList ((l.toList.take (stop + 1)).drop start)

@[simp] theorem toList_ofList (lines : List String) : (ofList lines).toList = lines := rfl

@[simp] theorem toList_push (line : String) (l : Lines) :
    (l.push line).toList = line :: l.toList := rfl

@[simp] theorem toList_trim (start stop : Nat) (l : Lines) :
    (l.trim start stop).toList = (l.toList.take (stop + 1)).drop start := by
  unfold trim
  split
  next h =>
    rw [h.1, List.drop_zero, List.take_of_length_le (l.size_eq ▸ h.2)]
  next => rfl

end Lines

/-! ### The cache -/

/-- The cache. -/
structure Cache where
  sets : Std.ExtTreeMap String (Std.ExtTreeSet String) := ∅
  lists : Std.ExtTreeMap String Lines := ∅
  down : Bool := false

namespace Cache

/-! ### Looking in -/

/-- The set under a key; empty if there is none. -/
def set (c : Cache) (key : String) : Std.ExtTreeSet String := c.sets[key]?.getD ∅

/-- The lines under a key; none if there is no list. -/
def lines (c : Cache) (key : String) : Lines := c.lists[key]?.getD {}

def list (c : Cache) (key : String) : List String := (c.lines key).toList

/-- The members of a set, ascending. -/
def members (c : Cache) (key : String) : List String := (c.set key).toList

/-! ### Sets -/

/-- Does something, unless the cache is down. -/
def whenUp (c : Cache) (answer : α) : Except CacheFault α :=
  if c.down then .error (.unavailable "no answer") else .ok answer

/-- Adds a member to a set.  Tells whether it was new. -/
def add (c : Cache) (key value : String) : Except CacheFault (Bool × Cache) :=
  c.whenUp
    (!(c.set key).contains value, { c with sets := c.sets.insert key ((c.set key).insert value) })

/-- Takes a member out of a set.  Tells whether it was there. -/
def remove (c : Cache) (key value : String) : Except CacheFault (Bool × Cache) :=
  c.whenUp
    ((c.set key).contains value, { c with sets := c.sets.modify key (·.erase value) })

/-! ### Lists -/

def push (c : Cache) (key value : String) : Except CacheFault (Nat × Cache) :=
  let longer := (c.lines key).push value
  c.whenUp (longer.size, { c with lists := c.lists.insert key longer })

def trim (c : Cache) (key : String) (start stop : Nat) : Except CacheFault Cache :=
  c.whenUp { c with lists := c.lists.modify key (Lines.trim start stop) }

def range (c : Cache) (key : String) (start stop : Nat) : Except CacheFault (List String) :=
  c.whenUp (((c.list key).drop start).take (stop - start + 1))

end Cache

end GameServer
