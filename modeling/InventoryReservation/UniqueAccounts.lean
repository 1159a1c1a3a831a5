/-
# Unique accounts

`register` looks for the email and the username, and inserts the user in later statements; between
them any number of other signups may do the same.  The unique indexes decide: in every order of the
statements the accounts stay apart, and of the signups that want one email at most one commits.
-/
import InventoryReservation.AccountLog

namespace InventoryReservation.Auth

open RowTxn

variable (cfg : AuthSettings)

/-- The entries of the indexes are the rows of the table. -/
structure Indexed (d : UserDb) : Prop where
  email : ∀ id user, d.users.get id = some user → d.emails (cfg.collate user.email) = some id
  username : ∀ id user, d.users.get id = some user →
    d.usernames (cfg.collate user.username) = some id
  of_email : ∀ key id, d.emails key = some id →
    ∃ user, d.users.get id = some user ∧ cfg.collate user.email = key
  of_username : ∀ key id, d.usernames key = some id →
    ∃ user, d.users.get id = some user ∧ cfg.collate user.username = key

lemma Indexed.empty : Indexed cfg .empty where
  email _ _ h := by cases h
  username _ _ h := by cases h
  of_email _ _ h := by cases h
  of_username _ _ h := by cases h

section Unique

variable {cfg} {T : Type} {calls : T → AuthCall} {d : UserDb}
  {log : List (Commit T UserKey AuthReply)} {id : ℕ} {user : User}

namespace Indexed

lemma emails (h : Indexed cfg d) : d.users.Index (fun u => cfg.collate u.email) d.emails :=
  ⟨h.email, h.of_email⟩

lemma usernames (h : Indexed cfg d) :
    d.users.Index (fun u => cfg.collate u.username) d.usernames :=
  ⟨h.username, h.of_username⟩

lemma register (h : Indexed cfg d) (hid : d.users.get id = none)
    (hemail : d.emails (cfg.collate user.email) = none)
    (husername : d.usernames (cfg.collate user.username) = none) :
    Indexed cfg (d.register cfg id user) := by
  have he := h.emails.insert hid hemail
  have hn := h.usernames.insert hid husername
  exact ⟨he.entry, hn.entry, he.row, hn.row⟩

lemma setUser {f p a : Prop} {row : User} (h : Indexed cfg d) (hrow : d.users.get id = some row)
    (hu : User.Updated f p a row user) : Indexed cfg (d.setUser id user) := by
  have he := h.emails.update hrow (congrArg cfg.collate hu.email)
  have hn := h.usernames.update hrow (congrArg cfg.collate hu.username)
  exact ⟨he.entry, hn.entry, he.row, hn.row⟩

/-- A lawful commit keeps the indexes. -/
lemma effect (h : Indexed cfg d) {call : AuthCall} {reply : AuthReply}
    (hl : call.Lawful cfg reply d) : Indexed cfg (call.effect cfg reply d) := by
  cases hl with
  | signup hid hemail husername _ => exact h.register hid hemail husername
  | @update _ credentials fullName password id row user hrow hu =>
    rcases fullName with _ | fullName <;> rcases password with _ | password
    · exact h
    all_goals exact h.setUser hrow hu
  | toggle hrow hu => exact h.setUser hrow hu
  | _ => exact h

lemma effects (h : Indexed cfg d) (hl : EachLawful cfg calls d log) :
    Indexed cfg (Auth.effects cfg calls d log) := by
  induction log generalizing d with
  | nil => exact h
  | cons cm log ih => exact ih (h.effect hl.1) hl.2

/-- Two users do not share an email or a username. -/
lemma unique (h : Indexed cfg d) {id' : ℕ} {user' : User} (hu : d.users.get id = some user)
    (hu' : d.users.get id' = some user')
    (heq : cfg.collate user.email = cfg.collate user'.email ∨
      cfg.collate user.username = cfg.collate user'.username) : id = id' := by
  rcases heq with heq | heq
  · exact h.emails.unique hu hu' heq
  · exact h.usernames.unique hu hu' heq

end Indexed

/-- Two signups have nothing in common. -/
structure Apart (cfg : AuthSettings) (id : ℕ) (user : User) (id' : ℕ) (user' : User) : Prop where
  id : id ≠ id'
  email : cfg.collate user.email ≠ cfg.collate user'.email
  username : cfg.collate user.username ≠ cfg.collate user'.username

/-- A later signup is apart from every user there is. -/
lemma apart_of_lawful (h : Indexed cfg d) (hl : EachLawful cfg calls d log)
    (hu : d.users.get id = some user) {cm : Commit T UserKey AuthReply} (hcm : cm ∈ log) {id' : ℕ}
    {user' : User} (hres : cm.result = .created id' user') : Apart cfg id user id' user' := by
  induction log generalizing d user with
  | nil => cases hcm
  | cons cm' log ih =>
    rcases List.mem_cons.mp hcm with rfl | hcm
    · have hl := hl.1
      rw [hres] at hl
      generalize calls cm.tid = call at hl
      cases hl with
      | signup hid hemail husername _ =>
        refine ⟨?_, ?_, ?_⟩
        · rintro rfl
          rw [hid] at hu
          cases hu
        · intro heq
          have := h.email id user hu
          rw [heq, hemail] at this
          cases this
        · intro heq
          have := h.username id user hu
          rw [heq, husername] at this
          cases this
    · obtain ⟨user₁, hu₁, hup⟩ := updated_of_effect hl.1 hu
      have hap := ih (h.effect hl.1) hl.2 hu₁ hcm
      exact ⟨hap.id, by rw [← hup.email]; exact hap.email,
        by rw [← hup.username]; exact hap.username⟩

end Unique

/-! ### Runs -/

section Runs

variable {T : Type} {calls : T → AuthCall} {d : UserDb}
  {log : List (Commit T UserKey AuthReply)} {cfg}

/-- The account of a signup that is in the log: it has what the request asked for, and is there. -/
lemma account_of_created (hl : EachLawful cfg calls d log) {cm : Commit T UserKey AuthReply}
    (hcm : cm ∈ log) {id : ℕ} {user : User} (hres : cm.result = .created id user) :
    (∃ password, calls cm.tid = .signup user.email user.username user.fullName password) ∧
      ∃ user', (effects cfg calls d log).users.get id = some user' ∧
        user'.email = user.email ∧ user'.username = user.username := by
  induction log generalizing d with
  | nil => cases hcm
  | cons cm' log ih =>
    rcases List.mem_cons.mp hcm with rfl | hcm
    · obtain ⟨hl, hl'⟩ := hl
      generalize hcall : calls cm.tid = call at hl
      have heff : effects cfg calls d (cm :: log) =
          effects cfg calls (call.effect cfg (.created id user) d) log := by
        rw [← hcall, ← hres]
        rfl
      rw [hcall, hres] at hl'
      rw [hres] at hl
      rw [heff]
      cases hl with
      | signup _ _ _ _ =>
        refine ⟨⟨_, rfl⟩, ?_⟩
        obtain ⟨user', hu', hup⟩ := updated_of_effects hl' (UserDb.get_register_self cfg d id _)
        exact ⟨user', hu', hup.email, hup.username⟩
    · exact ih hl.2 hcm

lemma pairwise_apart (h : Indexed cfg d) (hl : EachLawful cfg calls d log) :
    log.Pairwise fun cm cm' => ∀ id user id' user', cm.result = .created id user →
      cm'.result = .created id' user' → Apart cfg id user id' user' := by
  induction log generalizing d with
  | nil => exact .nil
  | cons cm log ih =>
    refine .cons (fun cm' hcm' id user id' user' hres hres' => ?_) (ih (h.effect hl.1) hl.2)
    have hl₁ := hl.1
    rw [hres] at hl₁
    have hu : ((calls cm.tid).effect cfg cm.result d).users.get id = some user := by
      rw [hres]
      generalize calls cm.tid = call at hl₁
      cases hl₁ with
      | signup _ _ _ _ => exact UserDb.get_register_self cfg d id _
    exact apart_of_lawful (h.effect hl.1) hl.2 hu hcm' hres'

end Runs

/-- Whatever calls run at once, and in whatever order: no two accounts share an email or a username
under the collation; of the committed signups each has an email, a username and an id of its own;
and the account of each is there, with the email and the username it asked for. -/
theorem accounts_apart {T : Type} [DecidableEq T] (cfg : AuthSettings) (iso : Isolation)
    (env : T → AuthEnv) (calls : T → AuthCall) {d : UserDb} (hd : Indexed cfg d) (n : ℕ)
    {c : Conf T UserDb UserKey UserRow AuthQuery AuthAnswer AuthErr AuthReply}
    (h : Reachable iso env (calling cfg calls d n) c) :
    (∀ id user id' user', c.db.users.get id = some user → c.db.users.get id' = some user' →
      cfg.collate user.email = cfg.collate user'.email ∨
        cfg.collate user.username = cfg.collate user'.username → id = id') ∧
    (c.log.Pairwise fun cm cm' => ∀ id user id' user', cm.result = .created id user →
      cm'.result = .created id' user' → Apart cfg id user id' user') ∧
    ∀ cm ∈ c.log, ∀ id user, cm.result = .created id user →
      (∃ password, calls cm.tid = .signup user.email user.username user.fullName password) ∧
        ∃ user', c.db.users.get id = some user' ∧
          user'.email = user.email ∧ user'.username = user.username := by
  obtain ⟨hdb, hlaw⟩ := ledger_of_run h
  have hi : Indexed cfg c.db := hdb ▸ hd.effects hlaw
  refine ⟨fun _ _ _ _ hu hu' heq => hi.unique hu hu' heq, pairwise_apart hd hlaw, ?_⟩
  intro cm hcm id user hres
  rw [hdb]
  exact account_of_created hlaw hcm hres

/-- Two signups want one email, in two spellings. -/
def twoSignups (t : Bool) : AuthCall :=
  if t then .signup "ada@example.com" "ada" "Ada" "Passw0rd"
  else .signup "ADA@example.com" "ada2" "Ada" "Passw1rd"

/-- Both have found the email free before one of them inserts it. -/
def bothFree : List (Act Bool) :=
  List.replicate 3 (.step true) ++ List.replicate 3 (.step false) ++
    List.replicate 11 (.step true) ++ List.replicate 7 (.step false)

theorem accounts_apart_ada :
    ∃ c, Reachable .readCommitted (fun _ => midday) (calling plain twoSignups .empty 1) c ∧
      c.log.map Commit.tid = [true] ∧ c.db.users.get 2 = none ∧
      ∀ cm ∈ c.log, ∀ id user, cm.result = .created id user →
        ∃ user', c.db.users.get id = some user' ∧ user'.email = user.email := by
  have hrun : (exec .readCommitted (fun _ => midday) (calling plain twoSignups .empty 1)
      bothFree).map (fun c => (c.log.map Commit.tid, c.db.users.get 2)) = some ([true], none) := by
    decide +kernel
  obtain ⟨c, hc, hrun⟩ := Option.map_eq_some_iff.mp hrun
  simp only [Prod.mk.injEq] at hrun
  have hr := reachable_of_exec .init hc
  obtain ⟨-, -, haccount⟩ := accounts_apart plain .readCommitted (fun _ => midday) twoSignups
    (.empty plain) 1 hr
  refine ⟨c, hr, hrun.1, hrun.2, fun cm hcm id user hres => ?_⟩
  obtain ⟨-, user', hu', hemail, -⟩ := haccount cm hcm id user hres
  exact ⟨user', hu', hemail⟩

end InventoryReservation.Auth
