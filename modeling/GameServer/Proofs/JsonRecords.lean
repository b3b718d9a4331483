import GameServer.Proofs.JsonValues
import Mathlib.Data.List.Pairwise

/-!
Objects in JSON, and the records that are read out of them.

An object has its members between braces, with commas between them and blanks wherever they do not
tear a token apart.  A record takes each of them in by the field of that name; since no name comes
twice, the order in which they come is of no consequence as long as the fields do not meddle with
each other.
-/

namespace GameServer.Json

/-! ### Objects -/

/-- What stands before a member: blanks, and a comma among them unless it is the first. -/
inductive Lead : (first : Bool) → List Char → Prop
  | first {b : List Char} (hb : Blanks b) : Lead true b
  | later {b b' : List Char} (hb : Blanks b) (hb' : Blanks b') : Lead false (b ++ ',' :: b')

/-- What remains of an object before its first member or behind another: members, each with the form
    of its value, and the closing brace. -/
inductive Members : (first : Bool) → List (String × Form) → Form
  | close {first : Bool} {b : List Char} (hb : Blanks b) : Members first [] (b ++ ['\x7d'])
  | member {first : Bool} {name : String} {form : Form} {ms : List (String × Form)}
      {lead inner b b' value more : List Char} (hlead : Lead first lead)
      (hname : Spelled name.toList inner) (hb : Blanks b) (hb' : Blanks b') (hvalue : form value)
      (hmore : Members false ms more) :
      Members first ((name, form) :: ms)
        (lead ++ '"' :: (inner ++ '"' :: (b ++ ':' :: (b' ++ (value ++ more)))))

def Object (ms : List (String × Form)) : Form := fun t =>
  ∃ body, Members true ms body ∧ t = '\x7b' :: body

/-- An object with some members, in whatever order. -/
def ObjectOf (ms : List (String × Form)) : Form := fun t => ∃ ms', ms'.Perm ms ∧ Object ms' t

variable {first : Bool} {ms : List (String × Form)} {t : List Char}

theorem Members.length_lt (h : Members first ms t) : ms.length < t.length := by
  induction h with
  | close hb => simp
  | member hlead hname hb hb' hvalue hmore ih =>
    simp only [List.length_cons, List.length_append]
    omega

/-- A value ends where the members behind it begin. -/
theorem Members.stops (h : Members false ms t) (rest : List Char) : Stops (t ++ rest) := by
  cases h with
  | close hb =>
    rw [List.append_assoc]
    exact stops_blanks hb fun c hc => by cases hc; decide
  | member hlead =>
    cases hlead with
    | later hb hb' =>
      rw [List.append_assoc, List.append_assoc]
      exact stops_blanks hb fun c hc => by cases hc; decide

/-! ### Records -/

section Records

variable {σ : Type} {fields : List (RecordField σ)}

theorem another_close {b rest : List Char} (hb : Blanks b) :
    another '\x7d' first (b ++ '\x7d' :: rest) = .ok none := by
  simp only [another, skip_blanks hb, skip_cons (c := '\x7d') rfl, if_true]

theorem another_lead {lead rest : List Char} (hlead : Lead first lead) :
    another '\x7d' first (lead ++ '"' :: rest) = .ok (some ('"' :: rest)) := by
  have hquote : ('"' : Char) ≠ '\x7d' := by decide
  have hcomma : (',' : Char) ≠ '\x7d' := by decide
  cases hlead with
  | first hb =>
    simp only [another, skip_blanks hb, skip_cons (c := '"') rfl, if_neg hquote, if_true]
  | later hb hb' =>
    simp only [another, List.append_assoc, List.cons_append, skip_blanks hb, skip_blanks hb',
      skip_cons (c := ',') rfl, skip_cons (c := '"') rfl, if_neg hquote, if_neg hcomma,
      Bool.false_eq_true, if_false, if_true]

/-- A member is taken in by the field of its name, which changes the record in this way. -/
def Fills (fields : List (RecordField σ)) (m : String × Form) (put : σ → σ) : Prop :=
  ∃ f, fields.find? (·.name = m.1) = some f ∧ ∀ start, Reads (f.scan start) m.2 (put start)

/-- **Members are taken in one after the other**, each by the field of its name. -/
theorem membersFor_members {puts : List (σ → σ)} (hfills : List.Forall₂ (Fills fields) ms puts)
    (hms : Members first ms t) (hnodup : (ms.map Prod.fst).Nodup) {seen : List String}
    (hseen : ∀ m ∈ ms, m.1 ∉ seen) {n : Nat} (hn : ms.length < n) (start : σ)
    (rest : List Char) :
    ∃ b, Blanks b ∧ membersFor fields n seen first start (t ++ rest) =
      .ok (puts.foldl (fun r put => put r) start, b ++ '\x7d' :: rest) := by
  -- what is carried along: the names still to come are none of those that have been seen
  induction hms generalizing puts seen n start with
  | @close first b hb =>
    cases hfills
    obtain ⟨n, rfl⟩ := Nat.exists_eq_succ_of_ne_zero (Nat.ne_zero_of_lt hn)
    refine ⟨b, hb, ?_⟩
    rw [List.append_assoc, List.singleton_append]
    simp only [membersFor, another_close hb, bind, Except.bind]
    rfl
  | @member first name form ms lead inner b b' value more hlead hname hb hb' hvalue hmore ih =>
    cases hfills with
    | @cons _ put _ puts hfill hrest =>
      obtain ⟨n, rfl⟩ := Nat.exists_eq_succ_of_ne_zero (Nat.ne_zero_of_lt hn)
      obtain ⟨f, hfield, hreads⟩ := hfill
      rw [List.map_cons, List.nodup_cons] at hnodup
      have hnew : name ∉ seen := hseen _ List.mem_cons_self
      have hlater : ∀ m ∈ ms, m.1 ∉ name :: seen := by
        intro m hm hin
        rcases List.mem_cons.mp hin with heq | hin
        · exact hnodup.1 (List.mem_map.mpr ⟨m, hm, heq⟩)
        · exact hseen m (List.mem_cons_of_mem _ hm) hin
      have hscan := hreads start b' value (more ++ rest) hb' hvalue (hmore.stops rest)
      have hkey (after : List Char) : key ('"' :: (inner ++ '"' :: after)) = .ok (name, after) :=
        key_quoted blanks_nil hname
      obtain ⟨b'', hb'', hmembers⟩ :=
        ih hrest hnodup.2 hlater (Nat.lt_of_succ_lt_succ hn) (put start)
      refine ⟨b'', hb'', ?_⟩
      simp only [membersFor, List.append_assoc, List.cons_append, another_lead hlead, bind,
        Except.bind, hkey, hfield, if_neg hnew, mark_blanks hb (m := ':') rfl, hscan,
        hmembers, List.foldl_cons]

/-- **A record is read out of an object**, whatever blanks there are in it. -/
theorem reads_record {puts : List (σ → σ)} (hfills : List.Forall₂ (Fills fields) ms puts)
    (hnodup : (ms.map Prod.fst).Nodup) (start : σ) :
    Reads (record fields start) (Object ms) (puts.foldl (fun r put => put r) start) := by
  rintro blanks _ rest hblanks ⟨body, hbody, rfl⟩ -
  have hlist : ('\x7b' : Char) ≠ '[' := by decide
  have hlength : ms.length < (body ++ rest).length + 1 := by
    have := hbody.length_lt
    rw [List.length_append]
    omega
  obtain ⟨b, hb, hmembers⟩ :=
    membersFor_members hfills hbody hnodup (fun _ _ => List.not_mem_nil) hlength start rest
  rw [record, skip_blanks hblanks]
  simp only [List.cons_append, skip_cons (c := '\x7b') rfl, if_neg hlist, if_true, bind,
    Except.bind, hmembers, mark_blanks hb (m := '\x7d') rfl]
  rfl

/-- Two changes do not meddle with each other. -/
def Apart (f g : σ → σ) : Prop := ∀ c, g (f c) = f (g c)

instance : Std.Symm (Apart (σ := σ)) := ⟨fun _ _ h c => (h c).symm⟩

/-- **The order of the members does not matter**, if what they change lies apart. -/
theorem reads_record_of {puts : List (σ → σ)} (hfills : List.Forall₂ (Fills fields) ms puts)
    (hnodup : (ms.map Prod.fst).Nodup) (hapart : puts.Pairwise Apart) (start : σ) :
    Reads (record fields start) (ObjectOf ms) (puts.foldl (fun r put => put r) start) := by
  rintro blanks text rest hblanks ⟨ms', hperm, hobject⟩ hrest
  obtain ⟨puts', hfills', hperm'⟩ := List.perm_comp_forall₂ hperm hfills
  -- the changes of the text, in its own order, come to the same
  have hsame : puts.foldl (fun r put => put r) start = puts'.foldl (fun r put => put r) start :=
    hperm'.symm.foldl_eq' (f := fun r put => put r)
      (fun f hf g hg c => hapart.forall_of_forall (fun _ _ _ => rfl) hf hg c) start
  rw [hsame]
  exact reads_record hfills' ((hperm.map _).nodup_iff.mpr hnodup) start blanks text rest hblanks
    hobject hrest

end Records

end GameServer.Json
