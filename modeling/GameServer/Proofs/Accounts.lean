import Mathlib.Algebra.Ring.Nat
import GameServer.Proofs.Run
import GameServer.Proofs.Tables
import GameServer.Store.Database

/-!
Accounts, and the numbers they go by.

An account can be put in by hand, with any number and over whatever had its name before; or it is
made by a statement, which never touches a name that is taken and which gives the account the next
number of a counter.  The two do not get in each other's way: putting an account in pushes the
counter past its number, so the counter is ahead of every number that is in the table, as long as
there are numbers left to count with.
-/

namespace GameServer

namespace Database

variable {d d' : Database} {statement : Statement} {outcome : Except DatabaseFault Nat}

/-! ### One statement -/

/-- What carrying out one statement can come to. -/
inductive Carries (d : Database) : Statement → Database → Except DatabaseFault Nat → Prop
  /-- The failure is one that was asked for. -/
  | injected {n : Nat} (hfailing : d.failing = n + 1) (statement : Statement) :
    Carries d statement { d with failing := n } (.error (.connection "injected failure"))
  | logged (hfailing : d.failing = 0) (row : ChatRow) :
    Carries d (.insertChat row) { d with chatLog := d.chatLog ++ [row] } (.ok 1)
  | made (hfailing : d.failing = 0) {username : String} (hfree : d.account? username = none)
      (password : String) :
    Carries d (.insertUser username password)
      { d with
        users := d.users.insert username { id := d.nextUserId, username, password }
        nextUserId := d.nextUserId + 1 } (.ok 1)
  | taken (hfailing : d.failing = 0) {username : String} (htaken : d.account? username ≠ none)
      (password : String) :
    Carries d (.insertUser username password) d (.error (.duplicateKey username))
  | misplaced (hfailing : d.failing = 0) (username password : String) :
    Carries d (.selectUser username password) d
      (.error (.query "SELECT_USER is not a write statement"))

/-- There is nothing else that a statement can come to. -/
theorem carries_execute (d : Database) (statement : Statement) :
    d.Carries statement (d.execute statement).1 (d.execute statement).2 := by
  obtain ⟨users, counter, log, failing, deaf, refusing, opened⟩ := d
  cases failing with
  | succ n => exact .injected rfl statement
  | zero =>
    cases statement with
    | insertChat row => exact .logged rfl row
    | selectUser username password => exact .misplaced rfl username password
    | insertUser username password =>
      dsimp only [execute]
      cases hname : users[username]? with
      | some row =>
        rw [if_pos (Std.ExtTreeMap.contains_iff_mem.mpr (mem_of_lookup hname))]
        refine .taken rfl ?_ password
        exact fun hnone => Option.some_ne_none row (hname.symm.trans hnone)
      | none =>
        have hnew : ¬ users.contains username = true := by
          rw [Std.ExtTreeMap.contains_iff_mem]
          exact lookup_eq_none_iff.mp hname
        rw [if_neg hnew]
        refine .made rfl ?_ password
        exact hname

/-- A statement that fails leaves no trace but one failure less to come. -/
theorem Carries.of_error {fault : DatabaseFault} (h : d.Carries statement d' (.error fault)) :
    d'.users = d.users ∧ d'.chatLog = d.chatLog ∧ d'.nextUserId = d.nextUserId := by
  cases h <;> exact ⟨rfl, rfl, rfl⟩

theorem Carries.isOk_insertUser {username password : String}
    (h : d.Carries (.insertUser username password) d' outcome) :
    outcome.isOk = decide (d.account? username = none ∧ d.failing = 0) := by
  cases h with
  | injected hfailing => simp [hfailing, Except.isOk, Except.toBool]
  | made hfailing hfree => simp [hfailing, hfree, Except.isOk, Except.toBool]
  | taken hfailing htaken => simp [htaken, Except.isOk, Except.toBool]

theorem Carries.account?_insertUser {username password : String}
    (h : d.Carries (.insertUser username password) d' outcome) :
    d'.account? username =
      if d.account? username = none ∧ d.failing = 0 then
        some { id := d.nextUserId, username, password }
      else d.account? username := by
  cases h with
  | injected hfailing => simp [hfailing, account?]
  | made hfailing hfree =>
    rw [if_pos ⟨hfree, hfailing⟩, account?, lookup_insert, if_pos rfl]
  | taken hfailing htaken => simp [htaken]

/-- The database takes a new name unless it has it already or its writes fail. -/
theorem isOk_insertUser (d : Database) (username password : String) :
    (d.execute (.insertUser username password)).2.isOk =
      decide (d.account? username = none ∧ d.failing = 0) :=
  (d.carries_execute _).isOk_insertUser

/-- An account is made exactly if the registration succeeds. -/
theorem account?_insertUser (d : Database) (username password : String) :
    (d.execute (.insertUser username password)).1.account? username =
      if d.account? username = none ∧ d.failing = 0 then
        some { id := d.nextUserId, username, password }
      else d.account? username :=
  (d.carries_execute _).account?_insertUser

/-! ### Calls -/

/-- What can be asked of a database. -/
inductive Call where
  | seed (id : UInt32) (username password : String)
  | failNext (n : Nat)
  | connect (n : Nat)
  | refuse
  /-- A statement that writes, over one of the connections. -/
  | execute (connection : Nat) (statement : Statement)
  /-- A statement that reads, over one of the connections. -/
  | query (connection : Nat) (statement : Statement)

/-- What a call makes of the database.  A connection keeps nothing to itself, so it does not
    matter over which of them a statement comes. -/
def next (d : Database) : Call → Database
  | .seed id username password => d.seed id username password
  | .failNext n => d.failNext n
  | .connect n => (d.connect n).toOption.getD d
  | .refuse => d.refuse
  | .execute _ statement => (d.execute statement).1
  | .query .. => d

/-- There are still numbers to count with. -/
def Counts (d : Database) : Prop := d.nextUserId.toNat < 2 ^ 32 - 1

instance (d : Database) : Decidable d.Counts :=
  inferInstanceAs (Decidable (d.nextUserId.toNat < 2 ^ 32 - 1))

def Affords (d : Database) (c : Call) : Prop := (d.next c).Counts

instance (d : Database) (c : Call) : Decidable (d.Affords c) :=
  inferInstanceAs (Decidable (d.next c).Counts)

/-- The accounts are in order: each is kept under its own name, and its number is one that the
    counter has left behind. -/
structure Sound (d : Database) : Prop where
  named : ∀ {name row}, d.account? name = some row → row.username = name
  fresh : ∀ {name row}, d.account? name = some row → row.id < d.nextUserId
  counts : d.Counts
  answers : d.deaf = false

theorem sound_empty : Sound {} where
  named h := by simp [account?] at h
  fresh h := by simp [account?] at h
  counts := by decide
  answers := rfl

/-- Order is a matter of the accounts, the counter and the answers alone. -/
theorem Sound.congr (h : d.Sound) (husers : d'.users = d.users)
    (hcounter : d'.nextUserId = d.nextUserId) (hdeaf : d'.deaf = d.deaf) : d'.Sound where
  named hrow := h.named (by rwa [account?, husers] at hrow)
  fresh hrow := hcounter ▸ h.fresh (by rwa [account?, husers] at hrow)
  counts := by rw [Counts, hcounter]; exact h.counts
  answers := hdeaf.trans h.answers

/-! #### What one call keeps -/

/-- While there are numbers left, counting goes up. -/
theorem Counts.lt_add_one (h : d.Counts) : d.nextUserId < d.nextUserId + 1 := by
  have hcounts : d.nextUserId.toNat < 2 ^ 32 - 1 := h
  rw [UInt32.lt_iff_toNat_lt, UInt32.toNat_add]
  simp only [UInt32.reduceToNat]
  omega

theorem account?_seed (d : Database) (id : UInt32) (username password name : String) :
    (d.seed id username password).account? name =
      if name = username then some { id, username, password } else d.account? name :=
  lookup_insert ..

/-- Putting an account in by hand pushes the counter past its number, if there is one past it. -/
theorem toNat_nextUserId_seed (d : Database) (id : UInt32) (username password : String) :
    (d.seed id username password).nextUserId.toNat =
      max d.nextUserId.toNat (min (id.toNat + 1) (2 ^ 32 - 1)) := by
  let beyond := UInt32.ofNat (min (id.toNat + 1) 4294967295)
  have hbeyond : beyond.toNat = min (id.toNat + 1) (2 ^ 32 - 1) :=
    UInt32.toNat_ofNat_of_lt' (by simp only [UInt32.size]; omega)
  rw [← hbeyond, Nat.max_def]
  change (if d.nextUserId ≤ beyond then beyond else d.nextUserId).toNat = _
  simp only [UInt32.le_iff_toNat_le]
  split <;> rfl

theorem Sound.seed (h : d.Sound) {id : UInt32} {username password : String}
    (hafford : (d.seed id username password).Counts) : (d.seed id username password).Sound where
  named {name row} hrow := by
    rw [account?_seed] at hrow
    split at hrow
    next hname => cases hrow; exact hname.symm
    next => exact h.named hrow
  fresh {name row} hrow := by
    have hcounts : (d.seed id username password).nextUserId.toNat < 2 ^ 32 - 1 := hafford
    rw [UInt32.lt_iff_toNat_lt]
    rw [toNat_nextUserId_seed] at hcounts ⊢
    rw [account?_seed] at hrow
    split at hrow
    next => cases hrow; dsimp only; omega
    next =>
      have hold : row.id.toNat < d.nextUserId.toNat := h.fresh hrow
      omega
  counts := hafford
  answers := h.answers

theorem Sound.execute (h : d.Sound) (hcarries : d.Carries statement d' outcome)
    (hafford : d'.Counts) : d'.Sound := by
  cases hcarries with
  | injected hfailing statement => exact h.congr rfl rfl rfl
  | logged hfailing row => exact h.congr rfl rfl rfl
  | taken hfailing htaken password => exact h
  | misplaced hfailing username password => exact h
  | @made hfailing username hfree password =>
    have hup := h.counts.lt_add_one
    refine ⟨fun {name row} hrow => ?_, fun {name row} hrow => ?_, hafford, h.answers⟩
    all_goals
      rw [account?, lookup_insert] at hrow
      split at hrow
    next hname => cases hrow; exact hname.symm
    next => exact h.named hrow
    next => cases hrow; exact hup
    next => exact UInt32.lt_trans (h.fresh hrow) hup

theorem Sound.next (h : d.Sound) (c : Call) (hafford : d.Affords c) : (d.next c).Sound := by
  cases c with
  | seed id username password => exact h.seed hafford
  | failNext n => exact h.congr rfl rfl rfl
  | refuse => exact h.congr rfl rfl rfl
  | query => exact h
  | execute connection statement => exact h.execute (d.carries_execute statement) hafford
  | connect n =>
    dsimp only [Database.next, connect]
    split
    · exact h
    · exact h.congr rfl rfl rfl

/-- **Any calls keep the accounts in order.** -/
theorem Sound.after (h : d.Sound) (calls : List Call) (hrun : Along Database.next Affords d calls) :
    (after Database.next d calls).Sound :=
  after_invariant (fun _ c hsound hafford => hsound.next c hafford) h calls hrun

/-! ### Numbers -/

/-- A number that was given to an account. -/
structure Grant where
  id : UInt32
  /-- Whether it came from the counter; otherwise it was set by hand. -/
  counted : Bool
deriving DecidableEq, Repr

def grant? (d : Database) : Call → Option Grant
  | .seed id .. => some { id, counted := false }
  | .execute _ (.insertUser username password) =>
    let (d', outcome) := d.execute (.insertUser username password)
    if outcome.isOk then (d'.account? username).map fun row => { id := row.id, counted := true }
    else none
  | _ => none

def grants : Database → List Call → List Grant
  | _, [] => []
  | d, c :: rest => (d.grant? c).toList ++ grants (d.next c) rest

theorem grant?_insertUser (d : Database) (connection : Nat) (username password : String) :
    d.grant? (.execute connection (.insertUser username password)) =
      if d.account? username = none ∧ d.failing = 0 then some { id := d.nextUserId, counted := true }
      else none := by
  unfold grant?
  dsimp only
  rw [isOk_insertUser, account?_insertUser]
  by_cases hfree : d.account? username = none ∧ d.failing = 0 <;> simp [hfree]

theorem Carries.nextUserId_le (h : d.Carries statement d' outcome) (hcounts : d.Counts) :
    d.nextUserId ≤ d'.nextUserId := by
  cases h with
  | made => exact UInt32.le_of_lt hcounts.lt_add_one
  | injected | logged | taken | misplaced => exact UInt32.le_refl _

theorem Sound.nextUserId_le (h : d.Sound) (c : Call) : d.nextUserId ≤ (d.next c).nextUserId := by
  cases c with
  | seed id username password =>
    rw [UInt32.le_iff_toNat_le]
    dsimp only [Database.next]
    rw [toNat_nextUserId_seed]
    exact Nat.le_max_left ..
  | failNext | refuse | query => exact UInt32.le_refl _
  | connect n =>
    dsimp only [Database.next, connect]
    split <;> exact UInt32.le_refl _
  | execute connection statement => exact (d.carries_execute statement).nextUserId_le h.counts

/-- The counter has left a number behind as soon as it is given, and had not reached it before if
    the counter gave it. -/
theorem Sound.of_grant? (h : d.Sound) {c : Call} (hafford : d.Affords c) {g : Grant}
    (hgrant : d.grant? c = some g) :
    g.id < (d.next c).nextUserId ∧ (g.counted = true → d.nextUserId ≤ g.id) := by
  cases c with
  | seed id username password =>
    cases hgrant
    refine ⟨?_, fun hcounted => nomatch hcounted⟩
    exact (h.next _ hafford).fresh (by rw [Database.next, account?_seed, if_pos rfl])
  | execute connection statement =>
    cases statement with
    | insertUser username password =>
      rw [grant?_insertUser] at hgrant
      split at hgrant
      next hfree =>
        cases hgrant
        refine ⟨?_, fun _ => UInt32.le_refl _⟩
        exact (h.next _ hafford).fresh (by rw [Database.next, account?_insertUser, if_pos hfree])
      next => cases hgrant
    | insertChat | selectUser => cases hgrant
  | failNext | connect | refuse | query => cases hgrant

/-- What the counter gives later is not below where it stands now. -/
theorem Sound.le_of_mem_grants (h : d.Sound) {calls : List Call}
    (hrun : Along Database.next Affords d calls) {g : Grant} (hg : g ∈ grants d calls)
    (hcounted : g.counted = true) : d.nextUserId ≤ g.id := by
  induction calls generalizing d with
  | nil => cases hg
  | cons c rest ih =>
    rw [grants, List.mem_append, Option.mem_toList] at hg
    rcases hg with hnow | hlater
    · exact (h.of_grant? hrun.1 hnow).2 hcounted
    · exact UInt32.le_trans (h.nextUserId_le c) (ih (h.next c hrun.1) hrun.2 hlater)

/-- **What the counter gives is above everything given before.** -/
theorem Sound.pairwise_grants (h : d.Sound) {calls : List Call}
    (hrun : Along Database.next Affords d calls) :
    (grants d calls).Pairwise fun earlier later => later.counted = true → earlier.id < later.id := by
  induction calls generalizing d with
  | nil => exact .nil
  | cons c rest ih =>
    have hnext := h.next c hrun.1
    rw [grants, List.pairwise_append]
    refine ⟨by cases d.grant? c <;> simp, ih hnext hrun.2, ?_⟩
    intro earlier hearlier later hlater hcounted
    have hpassed := (h.of_grant? hrun.1 (Option.mem_toList.mp hearlier)).1
    exact UInt32.lt_of_lt_of_le hpassed (hnext.le_of_mem_grants hrun.2 hlater hcounted)

/-! ### What the log holds -/

/-- The statements that are carried out, with what each comes to, in their order. -/
def executed : Database → List Call → List (Statement × Except DatabaseFault Nat)
  | _, [] => []
  | d, .execute connection statement :: rest =>
    (statement, (d.execute statement).2) :: executed (d.next (.execute connection statement)) rest
  | d, c :: rest => executed (d.next c) rest

/-- The line that a statement wrote to the log. -/
def line? : Statement × Except DatabaseFault Nat → Option ChatRow
  | (.insertChat row, .ok _) => some row
  | _ => none

theorem Carries.chatLog (h : d.Carries statement d' outcome) :
    d'.chatLog = d.chatLog ++ (line? (statement, outcome)).toList := by
  cases h with
  | logged => rfl
  | injected | made | taken | misplaced => simp [line?]

/-- **The log is what was written to it, in order.** -/
theorem chatLog_after (d : Database) (calls : List Call) :
    (after next d calls).chatLog = d.chatLog ++ (executed d calls).filterMap line? := by
  induction calls generalizing d with
  | nil => simp [after, executed]
  | cons c rest ih =>
    change (after next (d.next c) rest).chatLog = _
    rw [ih]
    cases c with
    | execute connection statement =>
      rw [executed, List.filterMap_cons, next, (d.carries_execute statement).chatLog]
      cases line? (statement, (d.execute statement).2) <;> simp
    | seed | failNext | refuse | query => rfl
    | connect n =>
      have hlog : (d.next (.connect n)).chatLog = d.chatLog := by
        dsimp only [next, connect]
        split <;> rfl
      rw [hlog]
      rfl

/-! ### What is asked and what is changed -/

/-- A question for a name and a password is answered with the account that has both, or with
    nothing. -/
theorem Sound.query (h : d.Sound) (username password : String) :
    ∃ rows, d.query (.selectUser username password) = .ok rows ∧ rows.length ≤ 1 ∧
      ∀ row, row ∈ rows ↔
        row ∈ d.users.values ∧ row.username = username ∧ row.password = password := by
  refine ⟨_, by rw [Database.query, h.answers, if_neg (by simp)], ?_, fun row => ?_⟩
  · exact Option.length_toList_le
  · rw [Option.mem_toList, Option.filter_eq_some_iff, mem_values_iff, decide_eq_true_iff]
    constructor
    · rintro ⟨hrow, hpassword⟩
      exact ⟨⟨username, hrow⟩, h.named hrow, hpassword⟩
    · rintro ⟨⟨name, hrow⟩, hname, hpassword⟩
      refine ⟨?_, hpassword⟩
      rw [← hname, h.named hrow]
      exact hrow

/-- An account that is made is one more, under a number above all others. -/
theorem Sound.insertUser (h : d.Sound) {username password : String}
    (hcarries : d.Carries (.insertUser username password) d' outcome)
    (hfree : d.account? username = none) (hfailing : d.failing = 0) :
    ∃ id, (∀ row ∈ d.users.values, row.id < id) ∧ d'.users.size = d.users.size + 1 ∧
      ∀ name, d'.account? name =
        if name = username then some { id, username, password } else d.account? name := by
  cases hcarries with
  | injected hfails => exact absurd (hfailing.symm.trans hfails) nofun
  | taken _ htaken => exact absurd hfree htaken
  | made =>
    refine ⟨d.nextUserId, fun row hrow => ?_, ?_, fun name => lookup_insert ..⟩
    · obtain ⟨name, hname⟩ := mem_values_iff.mp hrow
      exact h.fresh hname
    · dsimp only
      rw [Std.ExtTreeMap.size_insert, if_neg]
      rw [Std.ExtTreeMap.contains_iff_mem]
      exact lookup_eq_none_iff.mp hfree

/-! ### Whole runs -/

/-- **Accounts are never overwritten, and the numbers given to new ones are new.**
    After any calls to a new database that leave the counter numbers to count with: a statement that
    fails leaves the accounts, the log and the counter as they are; a name is taken exactly if no
    failure is due and nobody has it, which adds one account, with a number above all others, and
    changes none; a question finds the one account with that name and password or nothing; the log
    is what was written to it, in order; and every number that the counter gave is above all that
    were given before it, by the counter or by hand. -/
theorem accounts_kept (calls : List Call) (hcounts : Along next Affords {} calls) :
    let d := after next {} calls
    (∀ connection statement fault, (d.execute statement).2 = .error fault →
      let d' := d.next (.execute connection statement)
      d'.users = d.users ∧ d'.chatLog = d.chatLog ∧ d'.nextUserId = d.nextUserId) ∧
    (∀ connection username password,
      let d' := d.next (.execute connection (.insertUser username password))
      let succeeds := (d.execute (.insertUser username password)).2.isOk = true
      (succeeds ↔ d.failing = 0 ∧ d.account? username = none) ∧
      (succeeds → ∃ id, (∀ row ∈ d.users.values, row.id < id) ∧
        d'.users.size = d.users.size + 1 ∧
        ∀ name, d'.account? name =
          if name = username then some { id, username, password } else d.account? name)) ∧
    (∀ username password, ∃ rows,
      d.query (.selectUser username password) = .ok rows ∧ rows.length ≤ 1 ∧
      ∀ row, row ∈ rows ↔
        row ∈ d.users.values ∧ row.username = username ∧ row.password = password) ∧
    d.chatLog = (executed {} calls).filterMap line? ∧
    (grants {} calls).Pairwise fun earlier later =>
      later.counted = true → earlier.id < later.id := by
  intro d
  have hsound : d.Sound := sound_empty.after calls hcounts
  refine ⟨?_, fun connection username password => ?_, hsound.query, ?_,
    sound_empty.pairwise_grants hcounts⟩
  · intro connection statement fault hfault
    have hcarries := d.carries_execute statement
    rw [hfault] at hcarries
    exact hcarries.of_error
  · rw [isOk_insertUser, decide_eq_true_iff]
    exact ⟨and_comm,
      fun ⟨hfree, hfailing⟩ => hsound.insertUser (d.carries_execute _) hfree hfailing⟩
  · exact chatLog_after {} calls

/-- A name is set by hand under 7 and again under 3; between, the counter gives 8, and after it 9,
    once the failure that was asked for is over and although a name was asked for twice. -/
theorem accounts_kept_mixed :
    let calls : List Call :=
      [.seed 7 "ann" "a", .execute 0 (.insertUser "bob" "b"), .seed 3 "ann" "c", .failNext 1,
        .execute 1 (.insertUser "cid" "d"), .execute 0 (.insertUser "bob" "e"),
        .execute 1 (.insertUser "cid" "d"), .query 0 (.selectUser "bob" "b")]
    let d := after next {} calls
    Along next Affords {} calls ∧
      (grants {} calls).map Grant.id = [7, 8, 3, 9] ∧
      (d.execute (.insertUser "bob" "e")).2.isOk = false ∧
      ∃ id, (∀ row ∈ d.users.values, row.id < id) ∧
        (d.execute (.insertUser "dee" "f")).1.account? "dee" = some ⟨id, "dee", "f"⟩ := by
  intro calls d
  have hcounts : Along next Affords {} calls := by decide +kernel
  obtain ⟨-, haccounts, -⟩ := accounts_kept calls hcounts
  have hbob := (haccounts 0 "bob" "e").1
  have hdee := haccounts 0 "dee" "f"
  have htaken : ¬ (d.failing = 0 ∧ d.account? "bob" = none) := by decide +kernel
  have hfree : d.failing = 0 ∧ d.account? "dee" = none := by decide +kernel
  refine ⟨hcounts, by decide +kernel, ?_, ?_⟩
  · rw [← Bool.not_eq_true]
    exact fun hok => htaken (hbob.mp hok)
  · obtain ⟨id, habove, -, haccount⟩ := hdee.2 (hdee.1.mpr hfree)
    exact ⟨id, habove, (haccount "dee").trans (if_pos rfl)⟩

end Database

end GameServer
