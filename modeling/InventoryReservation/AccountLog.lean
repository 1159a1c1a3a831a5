/-
# Accounts under concurrent calls

Any number of calls run at once, and their statements interleave in any order.  The check that an
email is free and the `INSERT` are statements of their own, so another signup may come between them;
what is stored is decided by the unique indexes and by the changed columns of an `UPDATE`.  Whatever
the order, the table is what the committed calls make of it one after the other (`ledger_of_run`),
and each of them commits lawfully: a signup on a free email and username, an update of the columns
that the call assigns, in the row as it is stored then.
-/
import InventoryReservation.AuthApi
import InventoryReservation.RowTxn.Flushing

namespace InventoryReservation.Auth

open RowTxn

variable (cfg : AuthSettings)

/-! ### What a commit does -/

/-- A user is inserted, with its index entries. -/
def UserDb.register (d : UserDb) (id : ℕ) (user : User) : UserDb :=
  ((d.write (.user id) user).write (.email (cfg.collate user.email)) id).write
    (.username (cfg.collate user.username)) id

/-- The row of a user is written. -/
def UserDb.setUser (d : UserDb) (id : ℕ) (user : User) : UserDb := d.write (.user id) user

@[simp] lemma UserDb.get_register_self (d : UserDb) (id : ℕ) (user : User) :
    (d.register cfg id user).users.get id = some user := by
  simp [UserDb.register, UserDb.write]

lemma UserDb.get_register_of_ne (d : UserDb) {id id' : ℕ} (user : User) (h : id' ≠ id) :
    (d.register cfg id user).users.get id' = d.users.get id' := by
  simp [UserDb.register, UserDb.write, Table.get_set_of_ne _ _ h]

@[simp] lemma UserDb.emails_register (d : UserDb) (id : ℕ) (user : User) :
    (d.register cfg id user).emails =
      Function.update d.emails (cfg.collate user.email) (some id) := rfl

@[simp] lemma UserDb.usernames_register (d : UserDb) (id : ℕ) (user : User) :
    (d.register cfg id user).usernames =
      Function.update d.usernames (cfg.collate user.username) (some id) := rfl

@[simp] lemma UserDb.get_setUser_self (d : UserDb) (id : ℕ) (user : User) :
    (d.setUser id user).users.get id = some user := by
  simp [UserDb.setUser, UserDb.write]

lemma UserDb.get_setUser_of_ne (d : UserDb) {id id' : ℕ} (user : User) (h : id' ≠ id) :
    (d.setUser id user).users.get id' = d.users.get id' := by
  simp [UserDb.setUser, UserDb.write, Table.get_set_of_ne _ _ h]

@[simp] lemma UserDb.emails_setUser (d : UserDb) (id : ℕ) (user : User) :
    (d.setUser id user).emails = d.emails := rfl

@[simp] lemma UserDb.usernames_setUser (d : UserDb) (id : ℕ) (user : User) :
    (d.setUser id user).usernames = d.usernames := rfl

/-- What the commit of a call that has returned `reply` does to the database. -/
def AuthCall.effect : AuthCall → AuthReply → UserDb → UserDb
  | .signup _ _ _ _, .created id user, d => d.register cfg id user
  | .updateProfile _ none none, _, d => d
  | .updateProfile _ _ _, .profile id user, d => d.setUser id user
  | .toggleActive _, .profile id user, d => d.setUser id user
  | _, _, d => d

/-- A row before and after an update that assigns no columns but those said. -/
structure User.Updated (fullName password active : Prop) (row user : User) : Prop where
  email : user.email = row.email
  username : user.username = row.username
  fullName : fullName ∨ user.fullName = row.fullName
  hashedPassword : password ∨ user.hashedPassword = row.hashedPassword
  isActive : active ∨ user.isActive = row.isActive

/-- The state in which a call may commit with a reply. -/
inductive AuthCall.Lawful : AuthCall → AuthReply → UserDb → Prop
  | signup {d : UserDb} {email username fullName password salt hashed : String} {id : ℕ}
      (hid : d.users.get id = none) (hemail : d.emails (cfg.collate email) = none)
      (husername : d.usernames (cfg.collate username) = none)
      (hhash : cfg.bcrypt.hashpw password salt = some hashed) :
      Lawful (.signup email username fullName password)
        (.created id ⟨email, username, fullName, hashed, true⟩) d
  | update {d : UserDb} {credentials fullName password : Option String} {id : ℕ} {row user : User}
      (hrow : d.users.get id = some row)
      (hu : User.Updated (fullName ≠ none) (password ≠ none) False row user) :
      Lawful (.updateProfile credentials fullName password) (.profile id user) d
  | toggle {d : UserDb} {id : ℕ} {row user : User} (hrow : d.users.get id = some row)
      (hu : User.Updated False False True row user) : Lawful (.toggleActive id) (.profile id user) d
  | unchanged {d : UserDb} {credentials : Option String} {id : ℕ} {user : User} :
      Lawful (.updateProfile credentials none none) (.profile id user) d
  | login {d : UserDb} {email password : String} {id : ℕ} {t : TokenResponse} :
      Lawful (.login email password) (.tokens id t) d
  | refresh {d : UserDb} {token : String} {id : ℕ} {t : TokenResponse} :
      Lawful (.refresh token) (.tokens id t) d
  | logout {d : UserDb} {credentials : Option String} {id : ℕ} :
      Lawful (.logout credentials) (.noContent id) d
  | getProfile {d : UserDb} {credentials : Option String} {id : ℕ} {user : User} :
      Lawful (.getProfile credentials) (.profile id user) d

/-- A call that has returned may commit: whatever is stored beside the rows it has locked, its
commit is lawful and has its effect. -/
def AuthCall.Commits (call : AuthCall) (reply : AuthReply)
    (s : UserSess) (H : Held UserRow) : Prop :=
  ∀ d : UserDb, (∀ k r, H k = some r → RowStore.row d k = r) →
    call.Lawful cfg reply d ∧ s.own d = call.effect cfg reply d

/-! ### The statements of a call -/

section Statements

variable {R : Rely UserDb UserKey} {env : AuthEnv} {α : Type}
  {s : UserSess} {H : Held UserRow} {cfg}

/-- The session has neither objects nor changes. -/
structure Untouched (s : UserSess) : Prop extends s.Clean where
  objs : ∀ k, s.objs k = none

/-- The session has loaded a user, and changed nothing. -/
structure Loaded (s : UserSess) (id : ℕ) (user : User) : Prop
    extends s.Clean where
  obj : s.objs (.user id) = some ⟨some user, user⟩

lemma Untouched.init : Untouched Session.init := ⟨.init, fun _ => rfl⟩

lemma Untouched.log (h : Untouched s) (q : AuthQuery) (a : AuthAnswer q) : Untouched (s.log q a) :=
  ⟨⟨h.dirty, h.writes⟩, h.objs⟩

lemma Untouched.own (h : Untouched s) (d : UserDb) : s.own d = d := h.toClean.own d

lemma Untouched.load (h : Untouched s) {d : UserDb} {id : ℕ} {user : User}
    (hu : d.users.get id = some user) : Loaded (s.load [.user id] d) id user := by
  refine ⟨h.toClean.load _ _, ?_⟩
  have hrow : RowStore.row d (.user id) = some user := hu
  simp only [Session.load, List.foldl_cons, List.foldl_nil, hrow,
    Session.load1_of_none _ (h.objs _), Function.update_self]

lemma Loaded.val {id : ℕ} {user : User} (h : Loaded s id user) :
    s.val (.user id) = some user := Session.val_of_objs h.obj

/-- The rule for a read of a user. -/
lemma wp_getById {id : ℕ} {P : Option User → UserSess → Held UserRow → Prop}
    {E : AuthErr → UserSess → Held UserRow → Prop} (hs : Untouched s) (hnone : ∀ s, P none s H)
    (hsome : ∀ user s', Loaded s' id user → P (some user) s' H) :
    wp R env (UserRepository.getById id) P E s H := by
  intro d _
  rw [hs.own]
  rcases hu : d.users.get id with _ | user
  · simp only [hu]
    exact hnone _
  · simp only [hu]
    have hl := hs.load hu
    show P _ _ H
    rw [hl.val]
    exact hsome user _ hl

/-- The rule for the user that a token names. -/
lemma wp_subject {sub : String} {P : Option (ℕ × User) → UserSess → Held UserRow → Prop}
    (hs : Untouched s) (hnone : ∀ s, P none s H)
    (hsome : ∀ id user s', Loaded s' id user → P (some (id, user)) s' H) :
    wp R env (subject sub) P (fun _ _ _ => True) s H := by
  unfold subject
  split
  · trivial
  · exact hnone s
  · exact wp_bind.mpr (wp_getById hs (fun s => hnone s) fun user s' hl => hsome _ user s' hl)

/-- The rule for the dependency: it reads one user. -/
lemma wp_getCurrentUser {credentials : Option String}
    {P : ℕ × User → UserSess → Held UserRow → Prop} (hs : Untouched s)
    (h : ∀ id user s', Loaded s' id user → P (id, user) s' H) :
    wp R env (getCurrentUser cfg credentials) P (fun _ _ _ => True) s H := by
  rcases credentials with _ | token
  · trivial
  · simp only [getCurrentUser, decodeToken, Prog.bind_eq, Prog.bind, Prog.pure_eq, wp]
    rcases cfg.jwt.decode (env (.now .decode)) token with _ | payload
    · trivial
    · rcases hsub : payload.subjectOf .access with _ | sub
      · simp only [hsub]
        trivial
      · simp only [hsub]
        refine wp_bind.mpr (wp_subject (hs.log _ _) (fun _ => trivial) fun id user s' hl => ?_)
        simp only
        split
        · exact h id user s' hl
        · trivial

/-- The rule for the flush of a changed user: the columns that have changed are set in the row as
it is stored then. -/
lemma wp_flushRefresh {id : ℕ} {b c : User} {P : ℕ × User → UserSess → Held UserRow → Prop}
    (hd : s.dirty = [.user id]) (hw : s.writes = []) (ho : s.objs (.user id) = some ⟨some b, c⟩)
    (hH : ∀ k, H k = none)
    (h : ∀ row s', s'.dirty = [] → s'.writes = [⟨.user id, b.merge c row⟩] →
      P (id, b.merge c row) s' (H.hold (.user id) (some row))) :
    wp R env (UserRepository.flushRefresh id) P (fun _ _ _ => True) s H := by
  show wpFlush R s.dirty _ s H
  rw [hd]
  refine wpFlush_cons ho (hH _) trivial (fun hb => by cases hb) fun b' hb d row _ _ => ?_
  cases hb
  intro d' _
  have hown : (s.flushed (.user id) c (RowStore.merge UserDb (UserKey.user id) b c row)).own d' =
      d'.write (.user id) (b.merge c row) := by
    rw [Session.own_flushed, Session.own_of_nil hw]
    rfl
  have hget : (d'.write (.user id) (b.merge c row)).users.get id = some (b.merge c row) := by
    simp [UserDb.write]
  simp only [hown, hget]
  refine h row _ ?_ ?_
  · simp [Session.flushed, hd]
  · rw [show Session.writes _ = s.writes ++ [⟨.user id, b.merge c row⟩] from rfl, hw]
    rfl

/-- The rule for the flush of a new user: its keys were free, and are locked. -/
lemma wp_create {user : User} {P : ℕ × User → UserSess → Held UserRow → Prop} (hs : Untouched s)
    (hH : ∀ k, H k = none)
    (h : ∀ id s' H', s'.dirty = [] → H' (.user id) = some none →
      H' (.email (cfg.collate user.email)) = some none →
      H' (.username (cfg.collate user.username)) = some none →
      (∀ d : UserDb, s'.own d = d.register cfg id user) → P (id, user) s' H') :
    wp R env (UserRepository.create cfg user) P (fun _ _ _ => True) s H := by
  intro id _
  refine ⟨hH _, hH _, hH _, ?_⟩
  show wpFlush R _ (fun ok => wp R env (if ok then UserRepository.refresh id else throw _) P _) _ H
  refine wpFlush_inserts (l := [⟨.user id, user⟩, ⟨.email (cfg.collate user.email), id⟩,
    ⟨.username (cfg.collate user.username), id⟩]) ?_ (by simp) ?_ (fun _ _ => hH _)
    (fun _ _ => trivial) fun s' H' hd hw hH' => ?_
  · simp [Session.insert, hs.dirty]
  · simp [Session.insert]
  have hown : ∀ d : UserDb, s'.own d = d.register cfg id user := by
    intro d
    simp only [Session.own, hw, Session.insert, hs.writes]
    rfl
  intro d _
  have hget : (d.register cfg id user).users.get id = some user := by
    simp [UserDb.register, UserDb.write]
  rw [hown]
  simp only [hget]
  exact h id _ _ (by simpa using hd) (by simp [hH']) (by simp [hH']) (by simp [hH']) hown

/-- The rule for the hash of a password. -/
lemma wp_getPasswordHash {password : String} {P : String → UserSess → Held UserRow → Prop}
    (h : ∀ hashed, cfg.bcrypt.hashpw password (env .gensalt) = some hashed →
      P hashed (s.log .gensalt (env .gensalt)) H) :
    wp R env (getPasswordHash cfg password) P (fun _ _ _ => True) s H := by
  simp only [getPasswordHash, wp]
  rcases hh : cfg.bcrypt.hashpw password (env .gensalt) with _ | hashed
  · trivial
  · exact h hashed hh

/-- A session that has changed nothing commits a call that only reads. -/
lemma commits_of_clean {call : AuthCall} {reply : AuthReply} (hs : s.Clean)
    (hlaw : ∀ d, call.Lawful cfg reply d) (heff : ∀ d, call.effect cfg reply d = d) :
    s.dirty = [] ∧ call.Commits cfg reply s H :=
  ⟨hs.dirty, fun d _ => ⟨hlaw d, (hs.own d).trans (heff d).symm⟩⟩

lemma wp_issueTokens {id : ℕ} {P : AuthReply → UserSess → Held UserRow → Prop} (hs : s.Clean)
    (h : ∀ t s', s'.Clean → P (.tokens id t) s' H) :
    wp R env (issueTokens cfg id) P (fun _ _ _ => True) s H :=
  h _ _ ⟨hs.dirty, hs.writes⟩

/-- A signup commits on a free email and a free username. -/
lemma wp_signup {email username fullName password : String} (hs : Untouched s)
    (hH : ∀ k, H k = none) :
    wp R env (signup cfg email username fullName password) (fun a s H => s.dirty = [] ∧
      (AuthCall.signup email username fullName password).Commits cfg a s H)
      (fun _ _ _ => True) s H := by
  refine wp_bind.mpr ?_
  unfold UserService.register
  intro d _
  simp only [Prog.pure_eq, Prog.pure_bind]
  split
  · trivial
  · intro d _
    simp only [Prog.pure_eq, Prog.pure_bind]
    split
    · trivial
    · refine wp_bind.mpr (wp_getPasswordHash fun hashed hh => ?_)
      refine wp_create (hs.log _ _) hH fun id s' H' hd hid hemail husername hown => ⟨hd, ?_⟩
      intro d hrow
      exact ⟨.signup (hrow _ _ hid) (hrow _ _ hemail) (hrow _ _ husername) hh, hown d⟩

/-- The merged row has the stored values of the columns in which the object has not changed. -/
lemma User.Updated.merge {fullName password active : Prop} {b c : User} (row : User)
    (h : User.Updated fullName password active b c) :
    User.Updated fullName password active row (b.merge c row) where
  email := by simp [User.merge, h.email, col]
  username := by simp [User.merge, h.username, col]
  fullName := h.fullName.imp_right fun h => by simp [User.merge, h, col]
  hashedPassword := h.hashedPassword.imp_right fun h => by simp [User.merge, h, col]
  isActive := h.isActive.imp_right fun h => by simp [User.merge, h, col]

lemma User.Updated.imp {fullName password active fullName' password' active' : Prop} {b c : User}
    (h : User.Updated fullName password active b c) (hf : fullName → fullName')
    (hp : password → password') (ha : active → active') :
    User.Updated fullName' password' active' b c :=
  ⟨h.email, h.username, h.fullName.imp_left hf, h.hashedPassword.imp_left hp,
    h.isActive.imp_left ha⟩

/-- The session has loaded the user `b`, which is `c` now. -/
structure Editing (s : UserSess) (id : ℕ) (b c : User) : Prop where
  writes : s.writes = []
  obj : s.objs (.user id) = some ⟨some b, c⟩
  dirty : s.dirty = [.user id]

lemma Loaded.log {id : ℕ} {user : User} (h : Loaded s id user) (q : AuthQuery) (a : AuthAnswer q) :
    Loaded (s.log q a) id user := ⟨⟨h.dirty, h.writes⟩, h.obj⟩

lemma Loaded.modify {id : ℕ} {user : User} (h : Loaded s id user) (f : User → User) :
    Editing (s.modify (.user id) f) id user (f user) where
  writes := by simpa using h.writes
  obj := by rw [Session.modify_of_some f h.obj]; simp
  dirty := by rw [Session.modify_of_some f h.obj]; simp [h.dirty]

lemma Editing.modify {id : ℕ} {b c : User} (h : Editing s id b c) (f : User → User) :
    Editing (s.modify (.user id) f) id b (f c) where
  writes := by simpa using h.writes
  obj := by rw [Session.modify_of_some f h.obj]; simp
  dirty := by rw [Session.modify_of_some f h.obj]; simp [h.dirty]

lemma Editing.log {id : ℕ} {b c : User} (h : Editing s id b c) (q : AuthQuery) (a : AuthAnswer q) :
    Editing (s.log q a) id b c := ⟨h.writes, h.obj, h.dirty⟩

/-- A changed user is flushed, and its call commits. -/
lemma wp_edited {id : ℕ} {b c : User} {call : AuthCall} {f p i : Prop}
    (he : Editing s id b c) (hH : ∀ k, H k = none)
    (hu : User.Updated f p i b c)
    (hlaw : ∀ d row user, d.users.get id = some row → User.Updated f p i row user →
      call.Lawful cfg (.profile id user) d ∧
        call.effect cfg (.profile id user) d = d.setUser id user) :
    wp R env (UserRepository.flushRefresh id) (fun a s H => s.dirty = [] ∧
      call.Commits cfg (.profile a.1 a.2) s H) (fun _ _ _ => True) s H := by
  refine wp_flushRefresh he.dirty he.writes he.obj hH fun row s' hd hw => ⟨hd, fun d hrow => ?_⟩
  have hid := hrow (.user id) (some row) (by simp [Held.hold])
  obtain ⟨hl, heff⟩ := hlaw d row _ hid (hu.merge row)
  refine ⟨hl, ?_⟩
  rw [heff, Session.own, hw]
  rfl

lemma wp_login {email password : String} (hs : Untouched s) :
    wp R env (login cfg email password) (fun a s H => s.dirty = [] ∧
      (AuthCall.login email password).Commits cfg a s H) (fun _ _ _ => True) s H := by
  refine wp_bind.mpr ?_
  unfold UserService.authenticate
  refine wp_bind.mpr fun d _ => ?_
  rcases hid : (d.whose cfg User.email email).head? with _ | id
  · simp only [hs.own, hid]
    trivial
  · have hclean : (s.load [.user id] d).Clean := hs.toClean.load _ _
    simp only [hs.own, hid, Option.map_some, Option.toList_some, wp, Prog.pure_eq]
    rcases (s.load [.user id] d).val (.user id) with _ | user
    · trivial
    · refine wp_bind.mpr ?_
      unfold verifyPassword
      rcases cfg.bcrypt.checkpw password user.hashedPassword with _ | _ | _
      · trivial
      · trivial
      · simp only [Prog.pure_eq, wp, if_true]
        split
        · simp only [wp]
          exact wp_issueTokens hclean fun t s' hs' =>
            commits_of_clean hs' (fun _ => .login) fun _ => rfl
        · trivial

lemma wp_refresh {token : String} (hs : Untouched s) :
    wp R env (refreshToken cfg token) (fun a s H => s.dirty = [] ∧
      (AuthCall.refresh token).Commits cfg a s H) (fun _ _ _ => True) s H := by
  simp only [refreshToken, decodeToken, Prog.bind_eq, Prog.bind, Prog.pure_eq, wp]
  rcases cfg.jwt.decode (env (.now .decode)) token with _ | payload
  · trivial
  · rcases hsub : payload.subjectOf .refresh with _ | sub
    · simp only [hsub]
      trivial
    · simp only [hsub]
      unfold refreshSubject
      split
      · trivial
      · refine wp_bind.mpr (wp_bind.mpr (wp_getById (hs.log _ _) (fun _ => trivial) ?_))
        intro user s' hl
        simp only [Prog.pure_eq, wp]
        split
        · show wp R env (issueTokens cfg _) _ _ _ H
          exact wp_issueTokens hl.toClean fun t s' hs' =>
            commits_of_clean hs' (fun _ => .refresh) fun _ => rfl
        · trivial
      · trivial

/-- An update without fields reads the user again; one with fields sets their columns. -/
lemma wp_updateProfile {credentials fullName password : Option String} (hs : Untouched s)
    (hH : ∀ k, H k = none) :
    wp R env (updateProfile cfg credentials fullName password) (fun a s H => s.dirty = [] ∧
      (AuthCall.updateProfile credentials fullName password).Commits cfg a s H)
      (fun _ _ _ => True) s H := by
  refine wp_bind.mpr (wp_getCurrentUser hs fun id user s' hl => wp_bind.mpr (wp_bind.mpr ?_))
  rcases fullName with _ | fullName
  · rcases password with _ | password
    · show wpFlush R s'.dirty _ s' H
      rw [hl.dirty]
      intro d _
      rw [hl.toClean.own]
      rcases hu : d.users.get id with _ | user'
      · simp only [hu]
        trivial
      · simp only [hu]
        exact commits_of_clean hl.toClean (fun _ => .unchanged) fun _ => rfl
    · refine wp_bind.mpr (wp_bind.mpr (wp_getPasswordHash fun hashed _ => ?_))
      refine wp_edited ((hl.log _ _).modify fun user => { user with hashedPassword := hashed }) hH
        (f := False) (p := True) (i := False) ?_ fun d row user hrow hu => ⟨?_, rfl⟩
      · exact ⟨rfl, rfl, Or.inr rfl, Or.inl trivial, Or.inr rfl⟩
      · exact .update hrow (hu.imp False.elim (fun _ => by simp) fun h => h)
  · have he := hl.modify fun user => { user with fullName := fullName }
    rcases password with _ | password
    · refine wp_edited he hH (f := True) (p := False) (i := False) ?_
        fun d row user hrow hu => ⟨?_, rfl⟩
      · exact ⟨rfl, rfl, Or.inl trivial, Or.inr rfl, Or.inr rfl⟩
      · exact .update hrow (hu.imp (fun _ => by simp) False.elim fun h => h)
    · refine wp_bind.mpr (wp_bind.mpr (wp_getPasswordHash fun hashed _ => ?_))
      refine wp_edited ((he.log _ _).modify fun user => { user with hashedPassword := hashed }) hH
        (f := True) (p := True) (i := False) ?_ fun d row user hrow hu => ⟨?_, rfl⟩
      · exact ⟨rfl, rfl, Or.inl trivial, Or.inl trivial, Or.inr rfl⟩
      · exact .update hrow (hu.imp (fun _ => by simp) (fun _ => by simp) fun h => h)

/-- Every call commits as it may. -/
theorem wp_call (call : AuthCall) (hs : Untouched s) (hH : ∀ k, H k = none) :
    wp R env (call.program cfg) (fun a s H => s.dirty = [] ∧ call.Commits cfg a s H)
      (fun _ _ _ => True) s H := by
  cases call with
  | signup email username fullName password => exact wp_signup hs hH
  | login email password => exact wp_login hs
  | refresh token => exact wp_refresh hs
  | logout credentials =>
    exact wp_bind.mpr (wp_getCurrentUser hs fun id user s' hl =>
      commits_of_clean hl.toClean (fun _ => .logout) fun _ => rfl)
  | getProfile credentials =>
    exact wp_bind.mpr (wp_getCurrentUser hs fun id user s' hl =>
      commits_of_clean hl.toClean (fun _ => .getProfile) fun _ => rfl)
  | updateProfile credentials fullName password => exact wp_updateProfile hs hH
  | toggleActive id =>
    refine wp_bind.mpr (wp_bind.mpr (wp_bind.mpr (wp_getById hs (fun _ => trivial) ?_)))
    intro user s' hl
    refine wp_mono (fun a s H h => h) (fun _ _ _ h => h) (wp_edited (hl.modify _) hH
      (f := False) (p := False) (i := True) ?_ fun d row user hrow hu => ⟨.toggle hrow hu, rfl⟩)
    exact ⟨rfl, rfl, Or.inr rfl, Or.inr rfl, Or.inl trivial⟩

end Statements

/-! ### The ledger -/

section Ledger

variable {T : Type} (calls : T → AuthCall)

/-- What the commits of a log make of a database, one after the other. -/
def effects (d : UserDb) (log : List (Commit T UserKey AuthReply)) : UserDb :=
  log.foldl (fun d cm => (calls cm.tid).effect cfg cm.result d) d

/-- Every commit of a log is lawful where it comes. -/
def EachLawful : UserDb → List (Commit T UserKey AuthReply) → Prop
  | _, [] => True
  | d, cm :: log => (calls cm.tid).Lawful cfg cm.result d ∧
      EachLawful ((calls cm.tid).effect cfg cm.result d) log

variable {cfg calls} {d : UserDb} {log log' : List (Commit T UserKey AuthReply)}

lemma effects_append : effects cfg calls d (log ++ log') =
    effects cfg calls (effects cfg calls d log) log' := List.foldl_append

lemma eachLawful_append : EachLawful cfg calls d (log ++ log') ↔
    EachLawful cfg calls d log ∧ EachLawful cfg calls (effects cfg calls d log) log' := by
  induction log generalizing d with
  | nil => simp [EachLawful, effects]
  | cons cm log ih => simp [EachLawful, effects, ih, and_assoc]

variable [DecidableEq T] {iso : Isolation} {env : T → AuthEnv} {guard : UserKey → Prop} {n : ℕ}
  {c c' : Conf T UserDb UserKey UserRow AuthQuery AuthAnswer AuthErr AuthReply}

/-- The system of the calls, before the first statement. -/
def calling (cfg : AuthSettings) (calls : T → AuthCall) (d : UserDb) (n : ℕ) :
    Conf T UserDb UserKey UserRow AuthQuery AuthAnswer AuthErr AuthReply :=
  .init d n fun t => (calls t).transaction cfg

/-- Whatever the order of the statements, the table is what the commits make of it, one after the
other, each of them lawful where it comes. -/
theorem ledger_of_run (h : Run iso env guard (calling cfg calls d n) c) :
    c.db = effects cfg calls d c.log ∧ EachLawful cfg calls d c.log := by
  refine invariant_of_run (I := fun log d' => d' = effects cfg calls d log ∧
    EachLawful cfg calls d log) ⟨rfl, trivial⟩ (fun t => ?_) h
  refine wp_mono (fun a s H hP => ?_) (fun _ _ _ h => h)
    (wp_commit_of_flushed (wp_call (calls t) .init fun _ => rfl))
  intro log d' hI _ hheld _
  obtain ⟨rfl, hlaw⟩ := hI
  obtain ⟨hl, hown⟩ := hP _ hheld
  rw [effects_append, eachLawful_append]
  exact ⟨hown, hlaw, hl, trivial⟩

/-- What is committed between two configurations of a run. -/
theorem ledger_between (h : Run iso env guard (calling cfg calls d n) c)
    (h' : Run iso env guard c c') : ∃ new, c'.log = c.log ++ new ∧
      c'.db = effects cfg calls c.db new ∧ EachLawful cfg calls c.db new := by
  obtain ⟨new, hnew⟩ := log_of_run h'
  obtain ⟨hdb, -⟩ := ledger_of_run h
  obtain ⟨hdb', hlaw'⟩ := ledger_of_run (h.trans h')
  rw [hnew, effects_append, ← hdb] at hdb'
  rw [hnew, eachLawful_append, ← hdb] at hlaw'
  exact ⟨new, hnew, hdb', hlaw'.2⟩

end Ledger

/-! ### The columns of a user -/

section Columns

variable {T : Type} {calls : T → AuthCall} {d d' : UserDb}
  {log : List (Commit T UserKey AuthReply)} {id : ℕ} {user : User} {cfg}

/-- A commit of a profile update for the user that assigns `full_name`. -/
def Renames (calls : T → AuthCall) (id : ℕ) (cm : Commit T UserKey AuthReply) : Prop :=
  ∃ credentials fullName password user,
    calls cm.tid = .updateProfile credentials (some fullName) password ∧ cm.result = .profile id user

/-- A commit of a profile update for the user that assigns `password`. -/
def Rehashes (calls : T → AuthCall) (id : ℕ) (cm : Commit T UserKey AuthReply) : Prop :=
  ∃ credentials fullName password user,
    calls cm.tid = .updateProfile credentials fullName (some password) ∧ cm.result = .profile id user

/-- A commit of `toggle_active` for the user. -/
def Toggles (calls : T → AuthCall) (id : ℕ) (cm : Commit T UserKey AuthReply) : Prop :=
  calls cm.tid = .toggleActive id

lemma User.Updated.trans {f p a f' p' a' : Prop} {u v w : User} (h : User.Updated f p a u v)
    (h' : User.Updated f' p' a' v w) : User.Updated (f ∨ f') (p ∨ p') (a ∨ a') u w where
  email := h'.email.trans h.email
  username := h'.username.trans h.username
  fullName := by
    rcases h.fullName with hf | hf <;> rcases h'.fullName with hf' | hf' <;> simp_all
  hashedPassword := by
    rcases h.hashedPassword with hf | hf <;> rcases h'.hashedPassword with hf' | hf' <;> simp_all
  isActive := by
    rcases h.isActive with hf | hf <;> rcases h'.isActive with hf' | hf' <;> simp_all

lemma User.Updated.refl (u : User) : User.Updated False False False u u :=
  ⟨rfl, rfl, Or.inr rfl, Or.inr rfl, Or.inr rfl⟩

/-- An update of one user, seen by any user. -/
lemma updated_of_setUser {row v : User} {k : ℕ} {f p a : Prop} (hrow : d.users.get k = some row)
    (hv : User.Updated f p a row v) (hu : d.users.get id = some user) :
    ∃ user', (d.setUser k v).users.get id = some user' ∧
      User.Updated (f ∧ id = k) (p ∧ id = k) (a ∧ id = k) user user' := by
  by_cases hk : id = k
  · subst hk
    obtain rfl : row = user := Option.some.inj (hrow.symm.trans hu)
    exact ⟨v, d.get_setUser_self id v, hv.imp (⟨·, rfl⟩) (⟨·, rfl⟩) (⟨·, rfl⟩)⟩
  · refine ⟨user, (d.get_setUser_of_ne v hk).trans hu, ?_⟩
    exact (User.Updated.refl user).imp False.elim False.elim False.elim

/-- What one commit does to a user. -/
lemma updated_of_effect {cm : Commit T UserKey AuthReply}
    (h : (calls cm.tid).Lawful cfg cm.result d) (hu : d.users.get id = some user) :
    ∃ user', ((calls cm.tid).effect cfg cm.result d).users.get id = some user' ∧
      User.Updated (Renames calls id cm) (Rehashes calls id cm) (Toggles calls id cm)
        user user' := by
  generalize hcall : calls cm.tid = call at h
  generalize hreply : cm.result = reply at h
  have hsame : ∃ user', d.users.get id = some user' ∧
      User.Updated (Renames calls id cm) (Rehashes calls id cm) (Toggles calls id cm) user user' :=
    ⟨user, hu, (User.Updated.refl user).imp False.elim False.elim False.elim⟩
  cases h with
  | @signup _ email username fullName password salt hashed k hid _ _ _ =>
    have hne : id ≠ k := by
      rintro rfl
      rw [hid] at hu
      cases hu
    obtain ⟨user', hu', hup⟩ := hsame
    exact ⟨user', (UserDb.get_register_of_ne cfg d _ hne).trans hu', hup⟩
  | @update _ credentials fullName password k row v hrow hv =>
    rcases fullName with _ | fullName <;> rcases password with _ | password
    · exact hsame
    all_goals
      obtain ⟨user', hu', hup⟩ := updated_of_setUser hrow hv hu
      refine ⟨user', hu', hup.imp ?_ ?_ fun h => h.1.elim⟩ <;> rintro ⟨hne, rfl⟩
      all_goals first
        | exact absurd rfl hne
        | exact ⟨_, _, _, _, hcall, hreply⟩
  | @toggle _ k row v hrow hv =>
    obtain ⟨user', hu', hup⟩ := updated_of_setUser hrow hv hu
    refine ⟨user', hu', hup.imp (fun h => h.1.elim) (fun h => h.1.elim) ?_⟩
    rintro ⟨-, rfl⟩
    exact hcall
  | unchanged => exact hsame
  | login => exact hsame
  | refresh => exact hsame
  | logout => exact hsame
  | getProfile => exact hsame

/-- What the commits of a log do to a user: a column changes with a commit that assigns it. -/
theorem updated_of_effects (h : EachLawful cfg calls d log) (hu : d.users.get id = some user) :
    ∃ user', (effects cfg calls d log).users.get id = some user' ∧
      User.Updated (∃ cm ∈ log, Renames calls id cm) (∃ cm ∈ log, Rehashes calls id cm)
        (∃ cm ∈ log, Toggles calls id cm) user user' := by
  induction log generalizing d user with
  | nil =>
    exact ⟨user, hu, (User.Updated.refl user).imp False.elim False.elim False.elim⟩
  | cons cm log ih =>
    obtain ⟨user₁, hu₁, hup₁⟩ := updated_of_effect h.1 hu
    obtain ⟨user₂, hu₂, hup₂⟩ := ih h.2 hu₁
    refine ⟨user₂, hu₂, (hup₁.trans hup₂).imp ?_ ?_ ?_⟩ <;>
    · rintro (h | ⟨cm', hmem, h⟩)
      · exact ⟨cm, by simp, h⟩
      · exact ⟨cm', by simp [hmem], h⟩

/-- An account is never removed or renamed, and no other column of it changes but by a call that
assigns it: an update that began before a deactivation does not undo it, nor does a deactivation
undo a new password. -/
theorem changes_grounded {T : Type} [DecidableEq T] (cfg : AuthSettings) (iso : Isolation)
    (env : T → AuthEnv) (calls : T → AuthCall) (d : UserDb) (n : ℕ)
    {c c' : Conf T UserDb UserKey UserRow AuthQuery AuthAnswer AuthErr AuthReply}
    (h : Reachable iso env (calling cfg calls d n) c) (h' : Reachable iso env c c') :
    ∃ new, c'.log = c.log ++ new ∧ ∀ id user, c.db.users.get id = some user →
      ∃ user', c'.db.users.get id = some user' ∧
        user'.email = user.email ∧ user'.username = user.username ∧
        ((∃ cm ∈ new, Renames calls id cm) ∨ user'.fullName = user.fullName) ∧
        ((∃ cm ∈ new, Rehashes calls id cm) ∨ user'.hashedPassword = user.hashedPassword) ∧
        ((∃ cm ∈ new, Toggles calls id cm) ∨ user'.isActive = user.isActive) := by
  obtain ⟨new, hnew, hdb, hlaw⟩ := ledger_between h h'
  refine ⟨new, hnew, fun id user hu => ?_⟩
  obtain ⟨user', hu', hup⟩ := updated_of_effects hlaw hu
  exact ⟨user', hdb ▸ hu', hup.email, hup.username, hup.fullName, hup.hashedPassword, hup.isActive⟩

end Columns

def midday : AuthEnv
  | .now _ => 43200000000
  | .gensalt => "salt"

def withAda : UserDb :=
  .register plain .empty 1 ⟨"ada@example.com", "ada", "Ada", "Passw0rd", true⟩

/-- A new password for a user who is deactivated meanwhile. -/
def lockOut (t : Bool) : AuthCall :=
  if t then
    .updateProfile (some (plainJwt.encode "1" (minutes 1000) .access)) none (some "NewPassw0rd")
  else .toggleActive 1

/-- The update has read the user, then the deactivation commits. -/
def readThenToggled : List (Act Bool) :=
  List.replicate 3 (.step true) ++ List.replicate 8 (.step false)

theorem changes_grounded_ada : ∃ c c', Reachable .repeatableRead (fun _ => midday)
      (calling plain lockOut withAda 2) c ∧ Reachable .repeatableRead (fun _ => midday) c c' ∧
    c.log.map Commit.tid = [false] ∧ c'.log.map Commit.tid = [false, true] ∧
    ∃ user', c'.db.users.get 1 = some user' ∧ user'.email = "ada@example.com" ∧
      user'.isActive = false := by
  have hrun : ((exec .repeatableRead (fun _ => midday) (calling plain lockOut withAda 2)
      readThenToggled).bind fun c => (exec .repeatableRead (fun _ => midday) c
        (List.replicate 7 (.step true))).map fun c' =>
          (c.log.map Commit.tid, c'.log.map Commit.tid, c.db.users.get 1)) =
      some ([false], [false, true], some ⟨"ada@example.com", "ada", "Ada", "Passw0rd", false⟩) := by
    decide +kernel
  obtain ⟨c, hc, hrun⟩ := Option.bind_eq_some_iff.mp hrun
  obtain ⟨c', hc', hrun⟩ := Option.map_eq_some_iff.mp hrun
  simp only [Prod.mk.injEq] at hrun
  obtain ⟨hlog, hlog', hu⟩ := hrun
  have hr := reachable_of_exec .init hc
  have hr' := reachable_of_exec (.init : Reachable .repeatableRead (fun _ => midday) c c) hc'
  obtain ⟨new, hnew, hall⟩ := changes_grounded plain .repeatableRead (fun _ => midday) lockOut
    withAda 2 hr hr'
  obtain ⟨user', hu', hemail, -, -, -, hactive⟩ := hall 1 _ hu
  refine ⟨c, c', hr, hr', hlog, hlog', user', hu', hemail, ?_⟩
  -- the only later commit is the update, which does not toggle
  have htids : new.map Commit.tid = [true] := by
    have := hlog'
    rw [hnew, List.map_append, hlog] at this
    exact List.append_cancel_left this
  refine hactive.resolve_left ?_
  rintro ⟨cm, hcm, ht⟩
  have hmem : cm.tid ∈ new.map Commit.tid := List.mem_map_of_mem hcm
  rw [htids, List.mem_singleton] at hmem
  rw [Toggles, hmem] at ht
  cases ht

end InventoryReservation.Auth
