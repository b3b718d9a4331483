import GameServer.Proofs.JsonRecords
import GameServer.Settings.Json

/-!
Settings as text: what is written is read back, and what is not given keeps its default.

Settings of which only some are given are a record of their own, with a gap for each that is not.
They stand for the default with the gaps left as they are, and they can be written as any object
that has a member for each of those given, in any order.  The text that the server writes gives
them all.
-/

namespace GameServer

open Json

/-! ### Writing -/

/-- A member is written in its form. -/
def Written (m : String × List Char) (entry : String × Form) : Prop := m.1 = entry.1 ∧ entry.2 m.2

section Writing

variable {members : List (String × List Char)} {ms : List (String × Form)}

def writeMember (m : String × List Char) : List Char := quote m.1 ++ ':' :: m.2

theorem members_writeMember {m : String × List Char} {entry : String × Form} {first : Bool}
    {lead more : List Char} (hlead : Lead first lead) (hm : Written m entry)
    (hmore : Members false ms more) :
    Members first (entry :: ms) (lead ++ (writeMember m ++ more)) := by
  obtain ⟨name, value⟩ := m
  obtain ⟨_, form⟩ := entry
  obtain ⟨rfl, hvalue⟩ := hm
  have hmember :=
    Members.member hlead (spelled_quote name.toList) blanks_nil blanks_nil hvalue hmore
  simpa only [writeMember, quote, List.cons_append, List.append_assoc, List.nil_append] using
    hmember

/-- **Members that are written in their forms make an object.** -/
theorem object_writeObject (h : List.Forall₂ Written members ms) :
    Object ms (writeObject members) := by
  have hlater : ∀ {members ms}, List.Forall₂ Written members ms →
      Members false ms (members.flatMap (fun m => ',' :: writeMember m) ++ ['\x7d']) := by
    intro members ms h
    induction h with
    | nil => exact .close blanks_nil
    | cons hm _ ih =>
      have hmember := members_writeMember (.later blanks_nil blanks_nil) hm ih
      simpa only [List.flatMap_cons, List.append_assoc, List.cons_append, List.nil_append] using
        hmember
  have hjoin (m : String × List Char) (later : List (String × List Char)) :
      (((m :: later).map writeMember).intersperse [',']).flatten =
        writeMember m ++ later.flatMap fun m => ',' :: writeMember m := by
    induction later generalizing m with
    | nil => simp
    | cons next later ih =>
      simp only [List.map_cons, List.intersperse_cons_cons, List.flatten_cons,
        List.flatMap_cons] at ih ⊢
      rw [ih]
      rfl
  cases h with
  | nil => exact ⟨['\x7d'], .close blanks_nil, rfl⟩
  | @cons m _ later _ hm hrest =>
    have hmember := members_writeMember (.first blanks_nil) hm (hlater hrest)
    refine ⟨_, hmember, ?_⟩
    have hwritten : writeObject (m :: later) =
        '\x7b' :: (((m :: later).map writeMember).intersperse [',']).flatten ++ ['\x7d'] := rfl
    rw [hwritten, hjoin, List.cons_append, List.append_assoc, List.nil_append]

end Writing

/-! ### Fields that are given -/

section Given

variable {α β σ : Type} {fields : List (RecordField σ)} {name : String} {form : α → Form}
  {ms : List (String × Form)} {names : List String} {later : List (σ → σ)}

/-- A member for a field, if something is given for it, in front of others. -/
def given (name : String) (form : α → Form) (a : Option α) (ms : List (String × Form)) :
    List (String × Form) :=
  (a.map fun a => (name, form a)).toList ++ ms

/-- What becomes of the record, if something is given for a field, and of the others behind it. -/
def puts (put : β → σ → σ) (b : Option β) (later : List (σ → σ)) : List (σ → σ) :=
  (b.map put).toList ++ later

theorem names_given (a : Option α) (h : (ms.map Prod.fst).Sublist names) :
    ((given name form a ms).map Prod.fst).Sublist (name :: names) := by
  cases a with
  | none => exact h.cons name
  | some a => exact h.cons_cons name

theorem reads_of {scan : Scan β} {put : β → σ → σ} {form : Form} {b : β} (h : Reads scan form b)
    (start : σ) : Reads ((RecordField.of name scan put).scan start) form (put b start) := by
  intro blanks text rest hblanks htext hrest
  simp only [RecordField.of, h blanks text rest hblanks htext hrest, bind, Except.bind]
  rfl

/-- What is given for a field, and what that stands for, is taken in by it. -/
theorem fills_given_map {scan : Scan β} {put : β → σ → σ} {value : α → β}
    (hfield : fields.find? (·.name = name) = some (.of name scan put))
    (hreads : ∀ a, Reads scan (form a) (value a)) (a : Option α)
    (hlater : List.Forall₂ (Fills fields) ms later) :
    List.Forall₂ (Fills fields) (given name form a ms) (puts put (a.map value) later) := by
  cases a with
  | none => exact hlater
  | some a => exact .cons ⟨_, hfield, fun start => reads_of (hreads a) start⟩ hlater

theorem fills_given {scan : Scan α} {put : α → σ → σ}
    (hfield : fields.find? (·.name = name) = some (.of name scan put))
    (hreads : ∀ a, Reads scan (form a) a) (a : Option α)
    (hlater : List.Forall₂ (Fills fields) ms later) :
    List.Forall₂ (Fills fields) (given name form a ms) (puts put a later) := by
  have hsame : ∀ a, Reads scan (form a) (id a) := hreads
  simpa only [Option.map_id_apply] using fills_given_map hfield hsame a hlater

theorem forall_mem_puts {r : (σ → σ) → Prop} {put : β → σ → σ} {b : Option β} :
    (∀ f ∈ puts put b later, r f) ↔ (∀ a ∈ b, r (put a)) ∧ ∀ f ∈ later, r f := by
  simp [puts, or_imp, forall_and]

/-- Of one field there is one change at most, so only the fields have to lie apart. -/
theorem pairwise_puts {r : (σ → σ) → (σ → σ) → Prop} {put : β → σ → σ} {b : Option β} :
    (puts put b later).Pairwise r ↔ (∀ a ∈ b, ∀ f ∈ later, r (put a) f) ∧ later.Pairwise r := by
  cases b with
  | none => simp [puts]
  | some b => simp [puts]

/-- A field of which nothing is given stays as it is. -/
theorem foldl_puts (get : σ → β) {put : β → σ → σ} (hsame : ∀ c, put (get c) c = c) (b : Option β)
    (c : σ) : (puts put b later).foldl (fun c put => put c) c =
      later.foldl (fun c put => put c) (put (b.getD (get c)) c) := by
  cases b with
  | none => exact congrArg (later.foldl fun c put => put c) (hsame c).symm
  | some b => rfl

end Given

/-! ### Policies -/

/-- How a policy may stand in a text: by its name, or with its bound in an object. -/
def LatePolicy.form : LatePolicy → Form
  | skip => Quoted "skip"
  | drop => Quoted "drop"
  | catchUp most => Object [("catch_up", Object [("max_catchup", Whole most.toNat)])]

namespace LatePolicy

theorem reads_catchUp (most : UInt32) :
    Reads scanCatchUp (Object [("max_catchup", Whole most.toNat)]) (.catchUp most) := by
  intro blanks text rest hblanks htext hrest
  let bound : RecordField (Option UInt32) := .of "max_catchup" Json.word32 fun n _ => some n
  have hfills : List.Forall₂ (Fills [bound]) [("max_catchup", Whole most.toNat)]
      [fun _ => some most] :=
    .cons ⟨bound, rfl, fun start => reads_of (reads_word32 most) start⟩ .nil
  have hread := reads_record hfills (by simp) none blanks text rest hblanks htext hrest
  simp only [scanCatchUp, bound, hread, bind, Except.bind, List.foldl_cons, List.foldl_nil]

theorem reads_scan (p : LatePolicy) : Reads scan p.form p := by
  have hplain : ∀ {name p}, plain? name = some p → Reads scan (Quoted name) p := by
    rintro name p hname blanks _ rest hblanks ⟨inner, hinner, rfl⟩ -
    rw [scan, skip_blanks hblanks]
    simp only [List.cons_append, List.append_assoc, List.nil_append, skip_cons (c := '"') rfl,
      if_true, pieces_spelled hinner, bind, Except.bind, String.ofList_toList, hname]
    rfl
  cases p with
  | skip => exact hplain rfl
  | drop => exact hplain rfl
  | catchUp most =>
    rintro blanks _ rest hblanks ⟨body, hbody, rfl⟩ hrest
    -- the one member of the object is the policy, and what it has is the bound
    cases hbody with
    | @member _ name _ _ lead inner b b' value more hlead hname hb hb' hvalue hmore =>
      have hstops := hmore.stops rest
      cases hlead with
      | first hlead =>
        cases hmore with
        | @close _ b'' hb'' =>
          have hcontent := reads_catchUp most b' value (b'' ++ ['\x7d'] ++ rest) hb' hvalue hstops
          have hbrace : ('\x7b' : Char) ≠ '"' := by decide
          have hnoPlain : plain? "catch_up" = none := by decide
          have hisName : isName "catch_up" = true := by decide
          rw [scan, skip_blanks hblanks]
          simp only [List.cons_append, List.append_assoc, List.nil_append] at hcontent ⊢
          simp only [skip_cons (c := '\x7b') rfl, if_neg hbrace, if_true, bind, Except.bind,
            key_quoted hlead hname, hisName, mark_blanks hb (m := ':') rfl, scanContent, hnoPlain,
            hcontent, mark_blanks hb'' (m := '\x7d') rfl]
          rfl

theorem form_write (p : LatePolicy) : p.form p.write := by
  cases p with
  | skip => exact quoted_quote _
  | drop => exact quoted_quote _
  | catchUp most =>
    have hbound : Object [("max_catchup", Whole most.toNat)]
        (writeObject [("max_catchup", digits most.toNat)]) :=
      object_writeObject (.cons ⟨rfl, whole_digits _⟩ .nil)
    exact object_writeObject (.cons ⟨rfl, hbound⟩ .nil)

end LatePolicy

/-! ### Gateway settings -/

/-- Gateway settings of which only some are given. -/
structure StoreSettings.Given where
  workers : Option UInt64 := none
  historyLength : Option UInt64 := none

namespace StoreSettings.Given

variable (p : StoreSettings.Given)

def members : List (String × Form) :=
  given "workers" (fun n : UInt64 => Whole n.toNat) p.workers <|
  given "chat_history_len" (fun n : UInt64 => Whole n.toNat) p.historyLength []

/-- Some settings with what is given in place of theirs. -/
def overlay (c : StoreSettings) : StoreSettings where
  workers := p.workers.getD c.workers
  historyLength := p.historyLength.getD c.historyLength

end StoreSettings.Given

theorem StoreSettings.reads_scan (p : StoreSettings.Given) :
    Reads StoreSettings.scan (ObjectOf p.members) (p.overlay {}) := by
  let changes : List (StoreSettings → StoreSettings) :=
    puts (fun n c => { c with workers := n }) p.workers <|
    puts (fun n c => { c with historyLength := n }) p.historyLength []
  have hfills : List.Forall₂ (Fills StoreSettings.fields) p.members changes :=
    fills_given rfl reads_word64 p.workers <|
    fills_given rfl reads_word64 p.historyLength .nil
  have hnames : (p.members.map Prod.fst).Sublist (StoreSettings.fields.map (·.name)) :=
    names_given _ <| names_given _ <| .refl _
  have hapart : changes.Pairwise Apart := by
    simp only [changes, pairwise_puts, forall_mem_puts, Apart, List.not_mem_nil, false_implies,
      implies_true, and_true, List.Pairwise.nil]
  have hover : changes.foldl (fun c put => put c) {} = p.overlay {} := by
    rw [foldl_puts workers fun _ => rfl, foldl_puts historyLength fun _ => rfl]
    rfl
  exact hover ▸ reads_record_of hfills (hnames.nodup (by decide)) hapart {}

/-! ### Room settings -/

/-- Room settings of which only some are given. -/
structure RoomSettings.Given where
  maxPlayers : Option UInt64 := none
  defaultTitle : Option String := none

namespace RoomSettings.Given

variable (p : RoomSettings.Given)

def members : List (String × Form) :=
  given "max_players" (fun n : UInt64 => Whole n.toNat) p.maxPlayers <|
  given "default_title" Quoted p.defaultTitle []

/-- Some settings with what is given in place of theirs. -/
def overlay (c : RoomSettings) : RoomSettings where
  maxPlayers := p.maxPlayers.getD c.maxPlayers
  defaultTitle := p.defaultTitle.getD c.defaultTitle

end RoomSettings.Given

theorem RoomSettings.reads_scan (p : RoomSettings.Given) :
    Reads RoomSettings.scan (ObjectOf p.members) (p.overlay {}) := by
  let changes : List (RoomSettings → RoomSettings) :=
    puts (fun n c => { c with maxPlayers := n }) p.maxPlayers <|
    puts (fun t c => { c with defaultTitle := t }) p.defaultTitle []
  have hfills : List.Forall₂ (Fills RoomSettings.fields) p.members changes :=
    fills_given rfl reads_word64 p.maxPlayers <|
    fills_given rfl reads_string p.defaultTitle .nil
  have hnames : (p.members.map Prod.fst).Sublist (RoomSettings.fields.map (·.name)) :=
    names_given _ <| names_given _ <| .refl _
  have hapart : changes.Pairwise Apart := by
    simp only [changes, pairwise_puts, forall_mem_puts, Apart, List.not_mem_nil, false_implies,
      implies_true, and_true, List.Pairwise.nil]
  have hover : changes.foldl (fun c put => put c) {} = p.overlay {} := by
    rw [foldl_puts maxPlayers fun _ => rfl, foldl_puts defaultTitle fun _ => rfl]
    rfl
  exact hover ▸ reads_record_of hfills (hnames.nodup (by decide)) hapart {}

/-! ### Server settings -/

/-- Server settings of which only some are given. -/
structure ServerSettings.Given where
  bindAddress : Option String := none
  ioThreads : Option UInt64 := none
  reactorThreads : Option UInt64 := none
  tickRate : Option UInt32 := none
  tickPolicy : Option LatePolicy := none
  tolerant : Option Bool := none
  persistence : Option StoreSettings.Given := none
  room : Option RoomSettings.Given := none

namespace ServerSettings.Given

variable (p : ServerSettings.Given)

def members : List (String × Form) :=
  given "bind_addr" Quoted p.bindAddress <|
  given "io_threads" (fun n : UInt64 => Whole n.toNat) p.ioThreads <|
  given "reactor_threads" (fun n : UInt64 => Whole n.toNat) p.reactorThreads <|
  given "tick_rate_hz" (fun n : UInt32 => Whole n.toNat) p.tickRate <|
  given "tick_policy" LatePolicy.form p.tickPolicy <|
  given "tolerate_malformed_login" Truth p.tolerant <|
  given "persistence" (fun q : StoreSettings.Given => ObjectOf q.members) p.persistence <|
  given "room" (fun q : RoomSettings.Given => ObjectOf q.members) p.room []

/-- Some settings with what is given in place of theirs.  Of settings inside these that are given in
    part, the rest is as by default. -/
def overlay (c : ServerSettings) : ServerSettings where
  bindAddress := p.bindAddress.getD c.bindAddress
  ioThreads := p.ioThreads.getD c.ioThreads
  reactorThreads := p.reactorThreads.getD c.reactorThreads
  tickRate := p.tickRate.getD c.tickRate
  tickPolicy := p.tickPolicy.getD c.tickPolicy
  tolerant := p.tolerant.getD c.tolerant
  persistence := (p.persistence.map fun q => q.overlay {}).getD c.persistence
  room := (p.room.map fun q => q.overlay {}).getD c.room

/-- The texts that give these settings and no others: an object, with blanks around it. -/
def Text (t : List Char) : Prop :=
  ∃ before object behind, Blanks before ∧ ObjectOf p.members object ∧ Blanks behind ∧
    t = before ++ (object ++ behind)

end ServerSettings.Given

theorem ServerSettings.reads_scan (p : ServerSettings.Given) :
    Reads ServerSettings.scan (ObjectOf p.members) (p.overlay {}) := by
  let changes : List (ServerSettings → ServerSettings) :=
    puts (fun t c => { c with bindAddress := t }) p.bindAddress <|
    puts (fun n c => { c with ioThreads := n }) p.ioThreads <|
    puts (fun n c => { c with reactorThreads := n }) p.reactorThreads <|
    puts (fun n c => { c with tickRate := n }) p.tickRate <|
    puts (fun policy c => { c with tickPolicy := policy }) p.tickPolicy <|
    puts (fun b c => { c with tolerant := b }) p.tolerant <|
    puts (fun q c => { c with persistence := q }) (p.persistence.map fun q => q.overlay {}) <|
    puts (fun r c => { c with room := r }) (p.room.map fun q => q.overlay {}) []
  have hfills : List.Forall₂ (Fills ServerSettings.fields) p.members changes :=
    fills_given rfl reads_string p.bindAddress <|
    fills_given rfl reads_word64 p.ioThreads <|
    fills_given rfl reads_word64 p.reactorThreads <|
    fills_given rfl reads_word32 p.tickRate <|
    fills_given rfl LatePolicy.reads_scan p.tickPolicy <|
    fills_given rfl reads_truth p.tolerant <|
    fills_given_map rfl StoreSettings.reads_scan p.persistence <|
    fills_given_map rfl RoomSettings.reads_scan p.room .nil
  have hnames : (p.members.map Prod.fst).Sublist (ServerSettings.fields.map (·.name)) :=
    names_given _ <| names_given _ <| names_given _ <| names_given _ <| names_given _ <|
    names_given _ <| names_given _ <| names_given _ <| .refl _
  have hapart : changes.Pairwise Apart := by
    simp only [changes, pairwise_puts, forall_mem_puts, Apart, List.not_mem_nil, false_implies,
      implies_true, and_true, List.Pairwise.nil]
  have hover : changes.foldl (fun c put => put c) {} = p.overlay {} := by
    rw [foldl_puts bindAddress fun _ => rfl, foldl_puts ioThreads fun _ => rfl,
      foldl_puts reactorThreads fun _ => rfl, foldl_puts tickRate fun _ => rfl,
      foldl_puts tickPolicy fun _ => rfl, foldl_puts tolerant fun _ => rfl,
      foldl_puts persistence fun _ => rfl, foldl_puts room fun _ => rfl]
    rfl
  exact hover ▸ reads_record_of hfills (hnames.nodup (by decide)) hapart {}

/-! ### All of them -/

def StoreSettings.all (c : StoreSettings) : StoreSettings.Given where
  workers := some c.workers
  historyLength := some c.historyLength

def RoomSettings.all (c : RoomSettings) : RoomSettings.Given where
  maxPlayers := some c.maxPlayers
  defaultTitle := some c.defaultTitle

def ServerSettings.all (c : ServerSettings) : ServerSettings.Given where
  bindAddress := some c.bindAddress
  ioThreads := some c.ioThreads
  reactorThreads := some c.reactorThreads
  tickRate := some c.tickRate
  tickPolicy := some c.tickPolicy
  tolerant := some c.tolerant
  persistence := some c.persistence.all
  room := some c.room.all

theorem StoreSettings.object_write (c : StoreSettings) : ObjectOf c.all.members c.write := by
  refine ⟨_, .refl _, object_writeObject ?_⟩
  exact .cons ⟨rfl, whole_digits _⟩ <| .cons ⟨rfl, whole_digits _⟩ .nil

theorem RoomSettings.object_write (c : RoomSettings) : ObjectOf c.all.members c.write := by
  refine ⟨_, .refl _, object_writeObject ?_⟩
  exact .cons ⟨rfl, whole_digits _⟩ <| .cons ⟨rfl, quoted_quote _⟩ .nil

theorem truth_writeTruth (b : Bool) : Truth b (writeTruth b) := by
  cases b <;> rfl

/-- **What the server writes gives all of its settings.** -/
theorem ServerSettings.object_write (c : ServerSettings) : ObjectOf c.all.members c.write := by
  refine ⟨_, .refl _, object_writeObject ?_⟩
  exact .cons ⟨rfl, quoted_quote _⟩ <| .cons ⟨rfl, whole_digits _⟩ <|
    .cons ⟨rfl, whole_digits _⟩ <| .cons ⟨rfl, whole_digits _⟩ <|
    .cons ⟨rfl, c.tickPolicy.form_write⟩ <| .cons ⟨rfl, truth_writeTruth _⟩ <|
    .cons ⟨rfl, c.persistence.object_write⟩ <| .cons ⟨rfl, c.room.object_write⟩ .nil

/-! ### Every order can be written -/

section Order

variable {α : Type} {name : String} {form : α → Form} {ms : List (String × Form)}

theorem exists_object (h : ∀ m ∈ ms, ∃ t, m.2 t) : ∃ t, Object ms t := by
  have hwritten : ∃ members, List.Forall₂ Written members ms := by
    induction ms with
    | nil => exact ⟨[], .nil⟩
    | cons m ms ih =>
      obtain ⟨value, hvalue⟩ := h m List.mem_cons_self
      obtain ⟨members, hmembers⟩ := ih fun m hm => h m (List.mem_cons_of_mem _ hm)
      exact ⟨(m.1, value) :: members, .cons ⟨rfl, hvalue⟩ hmembers⟩
  obtain ⟨members, hmembers⟩ := hwritten
  exact ⟨_, object_writeObject hmembers⟩

theorem exists_text_given {a : Option α} (h : ∀ a, ∃ t, form a t) (hms : ∀ m ∈ ms, ∃ t, m.2 t) :
    ∀ m ∈ given name form a ms, ∃ t, m.2 t := by
  intro m hm
  rcases List.mem_append.mp hm with hown | hlater
  · obtain ⟨a, -, rfl⟩ := Option.map_eq_some_iff.mp (Option.mem_toList.mp hown)
    exact h a
  · exact hms m hlater

theorem exists_objectOf (h : ∀ m ∈ ms, ∃ t, m.2 t) : ∃ t, ObjectOf ms t := by
  obtain ⟨t, ht⟩ := exists_object h
  exact ⟨t, ms, .refl _, ht⟩

end Order

theorem StoreSettings.Given.exists_text (p : StoreSettings.Given) :
    ∀ m ∈ p.members, ∃ t, m.2 t :=
  exists_text_given (fun n => ⟨_, whole_digits n.toNat⟩) <|
  exists_text_given (fun n => ⟨_, whole_digits n.toNat⟩) nofun

theorem RoomSettings.Given.exists_text (p : RoomSettings.Given) : ∀ m ∈ p.members, ∃ t, m.2 t :=
  exists_text_given (fun n => ⟨_, whole_digits n.toNat⟩) <|
  exists_text_given (fun t => ⟨_, quoted_quote t⟩) nofun

theorem ServerSettings.Given.exists_text (p : ServerSettings.Given) :
    ∀ m ∈ p.members, ∃ t, m.2 t :=
  exists_text_given (fun t => ⟨_, quoted_quote t⟩) <|
  exists_text_given (fun n => ⟨_, whole_digits n.toNat⟩) <|
  exists_text_given (fun n => ⟨_, whole_digits n.toNat⟩) <|
  exists_text_given (fun n => ⟨_, whole_digits n.toNat⟩) <|
  exists_text_given (fun policy => ⟨_, policy.form_write⟩) <|
  exists_text_given (fun b => ⟨_, truth_writeTruth b⟩) <|
  exists_text_given (fun q => exists_objectOf q.exists_text) <|
  exists_text_given (fun q => exists_objectOf q.exists_text) nofun

/-! ### From text to settings -/

namespace ServerSettings

theorem ofJson_of_text (p : Given) {text : String} (h : p.Text text.toList) :
    ofJson text = .ok (p.overlay {}) := by
  obtain ⟨before, object, behind, hbefore, hobject, hbehind, htext⟩ := h
  have hstops : Stops behind := by
    have hnone : Stops [] := nofun
    simpa only [List.append_nil] using stops_blanks hbehind hnone
  have hread := reads_scan p before object behind hbefore hobject hstops
  simp only [ofJson, document, htext, hread, bind, Except.bind, skip_all hbehind]

/-- **Settings survive being written and read back, and what is not given keeps its default.**  The
    text that is written for settings is read as those settings.  Settings of which only some are
    given, here and in the settings inside, can be written with their members in any order; and
    every text that is an object with just those members, however they are ordered and spelled and
    whatever blanks there are, is read as the default with those fields replaced and no others. -/
theorem settings_survive_text :
    (∀ c : ServerSettings, ofJson c.toJson = .ok c) ∧
      ∀ p : Given,
        (∀ ms, ms.Perm p.members → ∃ text : String, Object ms text.toList ∧ p.Text text.toList) ∧
          ∀ text : String, p.Text text.toList → ofJson text = .ok (p.overlay {}) := by
  refine ⟨fun c => ?_, fun p => ⟨fun ms hperm => ?_, fun text htext => ofJson_of_text p htext⟩⟩
  · have htext : c.all.Text c.toJson.toList := by
      refine ⟨[], c.write, [], blanks_nil, c.object_write, blanks_nil, ?_⟩
      rw [toJson, String.toList_ofList, List.nil_append, List.append_nil]
    exact ofJson_of_text c.all htext
  · obtain ⟨t, ht⟩ := exists_object fun m hm => p.exists_text m (hperm.mem_iff.mp hm)
    refine ⟨String.ofList t, ?_⟩
    rw [String.toList_ofList]
    exact ⟨ht, [], t, [], blanks_nil, ⟨ms, hperm, ht⟩, blanks_nil, (List.append_nil t).symm⟩

/-- Two fields out of order, one of them settings given in part, with blanks and with an escape
    where none is needed. -/
theorem settings_survive_text_in_part :
    let p : Given := { tickPolicy := some .drop, room := some { defaultTitle := some "é" } }
    let text :=
      "\x7b \"room\": \x7b\"default_title\":\"\\u00E9\"\x7d,\n\"tick_policy\":\"drop\"\x7d\n"
    p.Text text.toList ∧
      ofJson text = .ok { tickPolicy := .drop, room := { defaultTitle := "é" } } := by
  intro p text
  have hblank : Blanks [' '] := fun c hc => by rw [List.mem_singleton.mp hc]; decide
  have hline : Blanks ['\n'] := fun c hc => by rw [List.mem_singleton.mp hc]; decide
  have hunit : HexUnit 'é'.toNat ['0', '0', 'E', '9'] :=
    .digits (a := 0) (b := 0) (c := 14) (d := 9) (.upper (by decide)) (.upper (by decide))
      (.upper (by decide)) (.upper (by decide))
  have htitle : Quoted "é" "\"\\u00E9\"".toList := ⟨_, .cons (.unit hunit) .nil, by decide⟩
  have hroom : ObjectOf [("default_title", Quoted "é")]
      "\x7b\"default_title\":\"\\u00E9\"\x7d".toList :=
    ⟨_, .refl _, _, .member (.first blanks_nil) (spelled_quote _) blanks_nil blanks_nil htitle
      (.close blanks_nil), by decide⟩
  have hmembers := Members.member (.first hblank) (spelled_quote "room".toList) blanks_nil hblank
    hroom (.member (.later blanks_nil hline) (spelled_quote "tick_policy".toList) blanks_nil
      blanks_nil (quoted_quote "drop") (.close blanks_nil))
  have htext : p.Text text.toList :=
    ⟨[], _, ['\n'], blanks_nil, ⟨_, .swap _ _ _, _, hmembers, rfl⟩, hline, by decide⟩
  exact ⟨htext, (settings_survive_text.2 p).2 text htext⟩

end ServerSettings

end GameServer
