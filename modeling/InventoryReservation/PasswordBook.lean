/-
# The accounts as a book of passwords

What the service is for: it remembers the accounts with their passwords, and answers a request by
what it remembers.  The book does just that; it has neither hashes nor sessions, transactions or
indexes.  Call after call, the service gives the answers of the book (`passwords_refined`), so a
stored hash is as good as the password, and a login succeeds with the password set last and with no
other.
-/
import InventoryReservation.UniqueAccounts

namespace InventoryReservation.Auth

open RowTxn

/-! ### The book -/

structure Account where
  email : String
  username : String
  fullName : String
  password : String
  isActive : Bool
deriving DecidableEq, Repr

abbrev Book : Type := Table Account

def Account.response (a : Account) (id : ℕ) : UserResponse :=
  ⟨id, a.email, a.username, a.fullName, a.isActive⟩

/-- The answer with an account, or with the tokens for one. -/
def profileAnswer (id : ℕ) (a : Account) : AuthResponse :=
  ⟨200, [], .success 200 "Ok" (.user (a.response id))⟩

def tokensFor (cfg : AuthSettings) (env : AuthEnv) (id : ℕ) : TokenResponse where
  accessToken := cfg.jwt.encode (toString id) (accessExpire cfg (env (.now .access))) .access
  refreshToken := cfg.jwt.encode (toString id) (refreshExpire cfg (env (.now .refresh))) .refresh

def tokensAnswer (cfg : AuthSettings) (env : AuthEnv) (id : ℕ) : AuthResponse :=
  ⟨200, [], .success 200 "Ok" (.tokens (tokensFor cfg env id))⟩

namespace Book

variable (cfg : AuthSettings) (env : AuthEnv) (b : Book)

/-- The account that a string finds by its email, or by its username. -/
def find (column : Account → String) (value : String) : Option ℕ :=
  ((b.rows.filter fun r => cfg.collate (column r.2) = cfg.collate value).map Prod.fst).head?

/-- The account with the id that a token names. -/
def holder : ℤ → Option (ℕ × Account)
  | .ofNat id => (b.get id).map (id, ·)
  | .negSucc _ => none

/-- Who has sent a request. -/
def sender : Option String → Except AuthErr (ℕ × Account)
  | none => .error (.httpException 401 "Not authenticated." bearer)
  | some token =>
    match cfg.jwt.decode (env (.now .decode)) token with
    | none => .error (.httpException 401 "Could not validate credentials." bearer)
    | some payload =>
      match payload.subjectOf .access with
      | none => .error (.httpException 401 "Invalid token." bearer)
      | some sub =>
        match int sub with
        | none => .error .valueError
        | some z =>
          match b.holder z with
          | none => .error (.httpException 401 "User not found." bearer)
          | some (id, a) =>
            if a.isActive then .ok (id, a)
            else .error (.httpException 403 "Account is inactive." [])

/-- Whose session a refresh token goes on with. -/
def renewed (token : String) : Except AuthErr ℕ :=
  match (cfg.jwt.decode (env (.now .decode)) token).bind fun payload =>
    payload.subjectOf .refresh with
  | none => .error (.httpException 401 "Invalid refresh token." [])
  | some sub =>
    match int sub with
    | none => .error .valueError
    | some z =>
      match b.holder z with
      | none => .error (.appError .notFoundError s!"User with id {z} not found.")
      | some (id, a) =>
        if a.isActive then .ok id else .error (.httpException 403 "Account is inactive." [])

/-- Who logs in with an email and a password. -/
def loggedIn (email password : String) : Except AuthErr ℕ :=
  match (b.find cfg Account.email email).bind fun id => (b.get id).map (id, ·) with
  | none => .error (.appError .authenticationError "Invalid email or password.")
  | some (id, a) =>
    match cfg.bcrypt.secret password with
    | none => .error .valueError
    | some s =>
      if some s ≠ cfg.bcrypt.secret a.password then
        .error (.appError .authenticationError "Invalid email or password.")
      else if a.isActive then .ok id
      else .error (.appError .inactiveAccountError "Account is inactive.")

/-- The answer to a call, and the book after it. -/
def answer : AuthCall → Except AuthErr AuthResponse × Book
  | .signup email username fullName password =>
    if (b.find cfg Account.email email).isSome then
      (.error (.appError .conflictError "A user with this email already exists."), b)
    else if (b.find cfg Account.username username).isSome then
      (.error (.appError .conflictError "A user with this username already exists."), b)
    else if cfg.bcrypt.secret password = none then (.error .valueError, b)
    else
      let a := ⟨email, username, fullName, password, true⟩
      (.ok ⟨201, [], .success 201 "Created" (.user (Account.response a b.fresh))⟩, b.set b.fresh a)
  | .login email password => ((b.loggedIn cfg email password).map (tokensAnswer cfg env), b)
  | .refresh token => ((b.renewed cfg env token).map (tokensAnswer cfg env), b)
  | .logout credentials => ((b.sender cfg env credentials).map fun _ => .ofHttp .noContent, b)
  | .getProfile credentials => ((b.sender cfg env credentials).map fun r => profileAnswer r.1 r.2, b)
  | .updateProfile credentials fullName password =>
    match b.sender cfg env credentials with
    | .error e => (.error e, b)
    | .ok (id, a) =>
      if ∃ p ∈ password, cfg.bcrypt.secret p = none then (.error .valueError, b)
      else
        let a' := { a with
          fullName := fullName.getD a.fullName
          password := password.getD a.password }
        (.ok (profileAnswer id a'), b.set id a')
  | .toggleActive id =>
    match b.get id with
    | none => (.error (.appError .notFoundError s!"User with id {id} not found."), b)
    | some a =>
      let a' := { a with isActive := !a.isActive }
      (.ok (profileAnswer id a'), b.set id a')

/-- The response that the book gives. -/
def respond : Except AuthErr AuthResponse → AuthResponse
  | .ok r => r
  | .error e => e.response

end Book

/-! ### What is stored for a book -/

section Stored

variable (cfg : AuthSettings)

/-- A row keeps an account: the password is hashed, the rest is as it is. -/
structure Kept (a : Account) (user : User) : Prop where
  email : user.email = a.email
  username : user.username = a.username
  fullName : user.fullName = a.fullName
  isActive : user.isActive = a.isActive
  hash : ∃ salt, cfg.bcrypt.hashpw a.password salt = some user.hashedPassword

/-- The database keeps the accounts of a book. -/
structure Stored (b : Book) (d : UserDb) : Prop extends Indexed cfg d where
  fresh : d.users.fresh = b.fresh
  rows : ∀ id, Option.Rel (Kept cfg) (b.get id) (d.users.get id)

variable {cfg} {env : AuthEnv} {b : Book} {d : UserDb} {id n : ℕ} {s : UserSess}

lemma Stored.empty : Stored cfg .empty .empty where
  toIndexed := .empty cfg
  fresh := rfl
  rows _ := .none

lemma Stored.get_none (h : Stored cfg b d) : d.users.get id = none ↔ b.get id = none := by
  have := h.rows id
  generalize b.get id = x at this
  generalize d.users.get id = y at this
  cases this <;> simp

lemma Stored.get_some (h : Stored cfg b d) {a : Account} (ha : b.get id = some a) :
    ∃ user, d.users.get id = some user ∧ Kept cfg a user := by
  have := h.rows id
  rw [ha] at this
  generalize d.users.get id = y at this
  cases this with
  | some hk => exact ⟨_, rfl, hk⟩

/-- A column that is stored as it is finds the rows of the accounts that it finds. -/
lemma Stored.find (h : Stored cfg b d) {column : User → String} {column' : Account → String}
    (hcol : ∀ a user, Kept cfg a user → column user = column' a) (value : String) :
    (d.whose cfg column value).head? = b.find cfg column' value := by
  rw [UserDb.whose, Book.find, Table.ids_filter, Table.ids_filter, h.fresh]
  congr 1
  refine List.filter_congr fun k _ => ?_
  have := h.rows k
  generalize b.get k = x at this
  generalize d.users.get k = y at this
  cases this with
  | none => rfl
  | some hk => simp [hcol _ _ hk]

/-! ### The statements of a call that runs alone -/

lemma solo_getById {α : Type} (hs : Untouched s) (f : Option User → UserSvc α) :
    solo env d ((UserRepository.getById id).bind f) n s =
      solo env d (f (d.users.get id)) n (s.load [.user id] d) := by
  simp only [UserRepository.getById, Prog.bind, solo, hs.own]
  rcases hu : d.users.get id with _ | user
  · rfl
  · show solo env d (f ((s.load [.user id] d).val (.user id))) n _ = _
    rw [(hs.load hu).val]

/-- The dependency finds who the book says has sent the request. -/
lemma solo_sender {α : Type} (env : AuthEnv) (n : ℕ) (h : Stored cfg b d) (hs : Untouched s)
    (credentials : Option String) (f : ℕ × User → UserSvc α) :
    match b.sender cfg env credentials with
    | .ok (id, a) => ∃ user s', b.get id = some a ∧ d.users.get id = some user ∧
        Kept cfg a user ∧ Loaded s' id user ∧
        solo env d ((getCurrentUser cfg credentials).bind f) n s = solo env d (f (id, user)) n s'
    | .error e => (solo env d ((getCurrentUser cfg credentials).bind f) n s).1 = .error e := by
  rcases credentials with _ | token
  · rfl
  · simp only [Book.sender, getCurrentUser, decodeToken, Prog.bind_eq, Prog.bind, Prog.pure_eq, solo]
    rcases cfg.jwt.decode (env (.now .decode)) token with _ | payload
    · rfl
    rcases hsub : payload.subjectOf .access with _ | sub
    · simp only [hsub]
      rfl
    simp only [hsub, subject]
    rcases hint : int sub with _ | id | z
    · rfl
    · simp only [Book.holder, Prog.bind_eq, Prog.bind_assoc, solo_getById (hs.log _ _)]
      rcases ha : b.get id with _ | a
      · rw [h.get_none.mpr ha]
        rfl
      · obtain ⟨user, hu, hk⟩ := h.get_some ha
        rw [hu]
        simp only [Option.map_some, Prog.pure_eq, Prog.pure_bind, hk.isActive]
        rcases a.isActive with _ | _
        · rfl
        · exact ⟨user, _, ha, hu, hk, (hs.log _ _).load hu, rfl⟩
    · rfl

lemma solo_issueTokens (env : AuthEnv) (hs : s.Clean) (id : ℕ) :
    ∃ s', s'.Clean ∧
      solo env d (issueTokens cfg id) n s = (.ok (.tokens id (tokensFor cfg env id)), s') :=
  ⟨(s.log (.now .access) (env (.now .access))).log (.now .refresh) (env (.now .refresh)),
    ⟨hs.dirty, hs.writes⟩, rfl⟩

/-- The tokens are renewed for whom the book says. -/
lemma solo_refresh (h : Stored cfg b d) (hs : Untouched s) (token : String) :
    match b.renewed cfg env token with
    | .ok id => ∃ s', s'.Clean ∧
        solo env d (refreshToken cfg token) n s = (.ok (.tokens id (tokensFor cfg env id)), s')
    | .error e => (solo env d (refreshToken cfg token) n s).1 = .error e := by
  simp only [Book.renewed, refreshToken, decodeToken, Prog.bind_eq, Prog.bind, Prog.pure_eq, solo]
  rcases cfg.jwt.decode (env (.now .decode)) token with _ | payload
  · rfl
  simp only [Option.bind_some]
  rcases hsub : payload.subjectOf .refresh with _ | sub
  · rfl
  simp only [refreshSubject]
  rcases hint : int sub with _ | id | z
  · rfl
  · simp only [UserService.getById, Book.holder, Prog.bind_eq, Prog.bind_assoc,
      solo_getById (hs.log _ _)]
    rcases ha : b.get id with _ | a
    · rw [h.get_none.mpr ha]
      rfl
    · obtain ⟨user, hu, hk⟩ := h.get_some ha
      rw [hu]
      simp only [Option.map_some, Prog.pure_eq, Prog.pure_bind, hk.isActive]
      rcases a.isActive with _ | _
      · rfl
      · exact solo_issueTokens env ((hs.log (.now .decode) (env (.now .decode))).load hu).toClean id
  · rfl

/-- A login is for whom the book says. -/
lemma solo_login (h : Stored cfg b d) (hs : Untouched s) (email password : String) :
    match b.loggedIn cfg email password with
    | .ok id => ∃ s', s'.Clean ∧
        solo env d (login cfg email password) n s = (.ok (.tokens id (tokensFor cfg env id)), s')
    | .error e => (solo env d (login cfg email password) n s).1 = .error e := by
  simp only [Book.loggedIn, login, UserService.authenticate, UserRepository.getByEmail,
    Prog.bind_eq, Prog.bind, solo, hs.own, h.find fun _ _ hk => hk.email]
  rcases b.find cfg Account.email email with _ | id
  · rfl
  simp only [Option.map_some, Option.toList_some, Option.bind_some, Prog.bind, solo]
  rcases ha : b.get id with _ | a
  · have hu : RowStore.row d (.user id) = none := h.get_none.mpr ha
    simp only [Session.load, List.foldl_cons, List.foldl_nil, hu, Session.load1_none,
      Session.val, hs.objs]
    rfl
  obtain ⟨user, hu, hk⟩ := h.get_some ha
  obtain ⟨salt, hsalt⟩ := hk.hash
  have hl := hs.load hu
  simp only [hl.val, Option.map_some, verifyPassword, Prog.pure_eq, Prog.pure_bind,
    cfg.bcrypt.checkpw_hashpw _ _ _ hsalt, hk.isActive]
  rcases cfg.bcrypt.secret password with _ | secret
  · rfl
  simp only [Option.map_some, ne_eq, ite_not]
  by_cases hsecret : some secret = cfg.bcrypt.secret a.password
  · rw [if_pos hsecret, decide_eq_true hsecret]
    rcases a.isActive with _ | _
    · rfl
    · exact solo_issueTokens env hl.toClean id
  · rw [if_neg hsecret, decide_eq_false hsecret]
    rfl

/-! ### One call -/

/-- How a program that runs alone ends: with an answer of the book, and what the book remembers. -/
def Ends (cfg : AuthSettings) (env : AuthEnv) (d : UserDb) (p : UserSvc AuthReply) (s : UserSess) :
    Except AuthErr AuthResponse × Book → Prop
  | (.ok r, b) => ∃ reply s', solo env d p d.users.fresh s = (.ok reply, s') ∧ s'.dirty = [] ∧
      reply.response = r ∧ Stored cfg b (s'.own d)
  | (.error e, b) => (solo env d p d.users.fresh s).1 = .error e ∧ Stored cfg b d

lemma collate_ne_of_whose {column : User → String} {value : String}
    (hfree : (d.whose cfg column value).head? = none) (id : ℕ) (user : User)
    (hu : d.users.get id = some user) : cfg.collate (column user) ≠ cfg.collate value := by
  intro hkey
  have hmem : id ∈ d.whose cfg column value := by
    simp only [UserDb.whose, List.mem_map, List.mem_filter, Prod.exists, decide_eq_true_eq]
    exact ⟨id, user, ⟨Table.mem_rows.mpr hu, hkey⟩, rfl⟩
  rw [List.head?_eq_none_iff.mp hfree] at hmem
  cases hmem

lemma Indexed.email_free (h : Indexed cfg d) {email : String}
    (hfree : (d.whose cfg User.email email).head? = none) :
    d.emails (cfg.collate email) = none :=
  h.emails.free (collate_ne_of_whose hfree)

lemma Indexed.username_free (h : Indexed cfg d) {username : String}
    (hfree : (d.whose cfg User.username username).head? = none) :
    d.usernames (cfg.collate username) = none :=
  h.usernames.free (collate_ne_of_whose hfree)

/-- A user whose keys are free is inserted. -/
lemma solo_create {α : Type} (env : AuthEnv) (hs : Untouched s) (user : User)
    (hid : d.users.get n = none) (hemail : d.emails (cfg.collate user.email) = none)
    (husername : d.usernames (cfg.collate user.username) = none) (f : ℕ × User → UserSvc α) :
    ∃ s', solo env d ((UserRepository.create cfg user).bind f) n s =
        solo env d (f (n, user)) (n + 1) s' ∧
      s'.dirty = [] ∧ s'.own d = d.register cfg n user := by
  generalize hs₃ : ((s.insert (.user n) user).insert (.email (cfg.collate user.email)) n).insert
    (.username (cfg.collate user.username)) n = s₃
  have hd : s₃.dirty =
      [.user n, .email (cfg.collate user.email), .username (cfg.collate user.username)] := by
    simp [← hs₃, Session.insert, hs.dirty]
  have hw : s₃.writes = [] := by
    simp [← hs₃, Session.insert, hs.writes]
  obtain ⟨s', hflush, hd', hw'⟩ := flushAll_inserts (d := d) (s := s₃)
    (l := [⟨.user n, user⟩, ⟨.email (cfg.collate user.email), n⟩,
      ⟨.username (cfg.collate user.username), n⟩]) hd (by simp) (by simp [← hs₃, Session.insert])
    (by simp [Session.own_of_nil hw, hid, hemail, husername])
  have hown : s'.own d = d.register cfg n user := by
    rw [Session.own, hw', hw]
    rfl
  refine ⟨s', ?_, hd', hown⟩
  show solo env d ((UserRepository.flushRefresh n).bind f) (n + 1) _ = _
  rw [hs₃]
  simp only [UserRepository.flushRefresh, UserRepository.refresh, Prog.bind, solo, hflush, if_true,
    hown, UserDb.get_register_self]
  rfl

/-- A user whose row is as it was loaded is updated. -/
lemma solo_flushRefresh {α : Type} {u v : User} (env : AuthEnv) (n : ℕ) (he : Editing s id u v)
    (hu : d.users.get id = some u) (f : ℕ × User → UserSvc α) :
    ∃ s', solo env d ((UserRepository.flushRefresh id).bind f) n s = solo env d (f (id, v)) n s' ∧
      s'.dirty = [] ∧ s'.own d = d.setUser id v := by
  have hown : (s.flushed (.user id) v v).own d = d.setUser id v := by
    rw [Session.own_flushed, Session.own_of_nil he.writes]
    rfl
  refine ⟨s.flushed (.user id) v v, ?_, by simp [Session.flushed, he.dirty], hown⟩
  have hrow : RowStore.row (s.own d) (.user id) = some u := by
    rw [Session.own_of_nil he.writes]
    exact hu
  simp only [UserRepository.flushRefresh, UserRepository.refresh, Prog.bind, solo, if_true,
    flushAll_update he.dirty he.obj hrow, hown, UserDb.get_setUser_self]
  rfl

lemma solo_getPasswordHash {α : Type} (cfg : AuthSettings) (env : AuthEnv) (d : UserDb) (n : ℕ)
    (s : UserSess) (password : String) (f : String → UserSvc α) :
    (cfg.bcrypt.secret password = none ∧
      (solo env d ((getPasswordHash cfg password).bind f) n s).1 = .error .valueError) ∨
    ∃ hashed, cfg.bcrypt.secret password ≠ none ∧
      cfg.bcrypt.hashpw password (env .gensalt) = some hashed ∧
      solo env d ((getPasswordHash cfg password).bind f) n s =
        solo env d (f hashed) n (s.log .gensalt (env .gensalt)) := by
  have hsome := cfg.bcrypt.isSome_hashpw password (env .gensalt)
  rcases hh : cfg.bcrypt.hashpw password (env .gensalt) with _ | hashed
  · refine Or.inl ⟨?_, ?_⟩
    · rw [hh] at hsome
      exact Option.isSome_eq_false_iff.mp hsome.symm |> Option.isNone_iff_eq_none.mp
    · simp only [getPasswordHash, Prog.bind, solo, hh]
      rfl
  · refine Or.inr ⟨hashed, ?_, rfl, ?_⟩
    · intro hnone
      simp [hh, hnone] at hsome
    · simp only [getPasswordHash, Prog.bind, solo, hh]
      rfl

lemma Stored.register (h : Stored cfg b d) {a : Account} {user : User} (hk : Kept cfg a user)
    (hemail : d.emails (cfg.collate user.email) = none)
    (husername : d.usernames (cfg.collate user.username) = none) :
    Stored cfg (b.set b.fresh a) (d.register cfg d.users.fresh user) where
  toIndexed := h.toIndexed.register (d.users.get_fresh) hemail husername
  fresh := by
    show max d.users.fresh (d.users.fresh + 1) = max b.fresh (b.fresh + 1)
    rw [h.fresh]
  rows id := by
    by_cases hid : id = b.fresh
    · subst hid
      rw [h.fresh, UserDb.get_register_self, Table.get_set_self]
      exact .some hk
    · rw [Table.get_set_of_ne _ _ hid, UserDb.get_register_of_ne _ _ _ (h.fresh ▸ hid)]
      exact h.rows id

lemma Stored.setUser (h : Stored cfg b d) {a : Account} {u v : User} {f p c : Prop}
    (hu : d.users.get id = some u) (huv : User.Updated f p c u v) (hk : Kept cfg a v) :
    Stored cfg (b.set id a) (d.setUser id v) where
  toIndexed := h.toIndexed.setUser hu huv
  fresh := by
    show max d.users.fresh (id + 1) = max b.fresh (id + 1)
    rw [h.fresh]
  rows id' := by
    by_cases hid : id' = id
    · subst hid
      rw [UserDb.get_setUser_self, Table.get_set_self]
      exact .some hk
    · rw [Table.get_set_of_ne _ _ hid, UserDb.get_setUser_of_ne _ _ hid]
      exact h.rows id'

lemma solo_emailExists {α : Type} (hs : Untouched s) (email : String) (f : Bool → UserSvc α) :
    solo env d ((UserRepository.emailExists cfg email).bind f) n s =
      solo env d (f (d.whose cfg User.email email).head?.isSome) n s := by
  show solo env d (f ((s.own d).whose cfg User.email email).head?.isSome) n s = _
  rw [hs.own]

lemma solo_usernameExists {α : Type} (hs : Untouched s) (username : String) (f : Bool → UserSvc α) :
    solo env d ((UserRepository.usernameExists cfg username).bind f) n s =
      solo env d (f (d.whose cfg User.username username).head?.isSome) n s := by
  show solo env d (f ((s.own d).whose cfg User.username username).head?.isSome) n s = _
  rw [hs.own]

lemma ends_signup (h : Stored cfg b d) (hs : Untouched s)
    (email username fullName password : String) :
    Ends cfg env d (signup cfg email username fullName password) s
      (b.answer cfg env (.signup email username fullName password)) := by
  simp only [Book.answer, ← h.find fun _ _ hk => hk.email, ← h.find fun _ _ hk => hk.username]
  simp only [Ends, signup, UserService.register, Prog.bind_eq, Prog.bind_assoc, solo_emailExists hs]
  rcases he : (d.whose cfg User.email email).head? with _ | id
  · simp only [Option.isSome_none, Bool.false_eq_true, if_false, Prog.bind_assoc,
      solo_usernameExists hs]
    rcases hn : (d.whose cfg User.username username).head? with _ | id
    · simp only [Option.isSome_none, Bool.false_eq_true, if_false, Prog.bind_assoc]
      rcases solo_getPasswordHash cfg env d d.users.fresh s password fun hashed =>
          (UserRepository.create cfg ⟨email, username, fullName, hashed, true⟩).bind fun r =>
            pure (AuthReply.created r.1 r.2) with ⟨hsecret, hsolo⟩ | ⟨hashed, hsecret, hhash, hsolo⟩
      · rw [if_pos hsecret]
        exact ⟨hsolo, h⟩
      · rw [if_neg hsecret]
        obtain ⟨s', hcreate, hd, hown⟩ := solo_create env (hs.log .gensalt (env .gensalt))
          ⟨email, username, fullName, hashed, true⟩ d.users.get_fresh
          (h.email_free he) (h.username_free hn) fun r => pure (AuthReply.created r.1 r.2)
        refine ⟨_, s', hsolo.trans hcreate, hd, ?_, ?_⟩
        · rw [h.fresh]
          rfl
        · rw [hown]
          exact h.register ⟨rfl, rfl, rfl, rfl, _, hhash⟩ (h.email_free he) (h.username_free hn)
    · exact ⟨rfl, h⟩
  · exact ⟨rfl, h⟩

lemma ends_of_solo {p q : UserSvc AuthReply} {s' : UserSess}
    {out : Except AuthErr AuthResponse × Book}
    (hpq : solo env d p d.users.fresh s = solo env d q d.users.fresh s')
    (h : Ends cfg env d q s' out) : Ends cfg env d p s out := by
  unfold Ends at h ⊢
  rwa [hpq]

/-- A request is answered for its sender. -/
lemma ends_sent (h : Stored cfg b d) (hs : Untouched s) (credentials : Option String)
    (f : ℕ × User → UserSvc AuthReply) {out : Except AuthErr AuthResponse × Book}
    (herror : ∀ e, b.sender cfg env credentials = .error e → out = (.error e, b))
    (hok : ∀ id a user s, b.sender cfg env credentials = .ok (id, a) → b.get id = some a →
      d.users.get id = some user → Kept cfg a user → Loaded s id user →
      Ends cfg env d (f (id, user)) s out) :
    Ends cfg env d ((getCurrentUser cfg credentials).bind f) s out := by
  have hsolo := solo_sender env d.users.fresh h hs credentials f
  rcases hsender : b.sender cfg env credentials with e | ⟨id, a⟩
  · rw [hsender] at hsolo
    rw [herror e hsender]
    exact ⟨hsolo, h⟩
  · rw [hsender] at hsolo
    obtain ⟨user, s', ha, hu, hk, hl, hsolo⟩ := hsolo
    exact ends_of_solo hsolo (hok id a user s' hsender ha hu hk hl)

/-- Tokens for whom the book names, or its exception. -/
lemma ends_tokens {p : UserSvc AuthReply} {out : Except AuthErr ℕ} (h : Stored cfg b d)
    (hp : match out with
      | .ok id => ∃ s', s'.Clean ∧
          solo env d p d.users.fresh s = (.ok (.tokens id (tokensFor cfg env id)), s')
      | .error e => (solo env d p d.users.fresh s).1 = .error e) :
    Ends cfg env d p s (out.map (tokensAnswer cfg env), b) := by
  rcases out with e | id
  · exact ⟨hp, h⟩
  · obtain ⟨s', hs', hsolo⟩ := hp
    refine ⟨_, s', hsolo, hs'.dirty, rfl, ?_⟩
    rwa [hs'.own]

lemma profile_response {a : Account} {user : User} (hk : Kept cfg a user) :
    (AuthReply.profile id user).response = profileAnswer id a := by
  simp only [AuthReply.response, profileAnswer, UserResponse.modelValidate, Account.response,
    hk.email, hk.username, hk.fullName, hk.isActive]

/-- A changed user is flushed, and answered with. -/
lemma ends_edited {a : Account} {u v : User} {f p c : Prop} (h : Stored cfg b d)
    (he : Editing s id u v) (hu : d.users.get id = some u) (huv : User.Updated f p c u v)
    (hk : Kept cfg a v) :
    Ends cfg env d ((UserRepository.flushRefresh id).bind fun r => pure (.profile r.1 r.2)) s
      (.ok (profileAnswer id a), b.set id a) := by
  obtain ⟨s', hsolo, hd, hown⟩ := solo_flushRefresh env d.users.fresh he hu fun r =>
    pure (AuthReply.profile r.1 r.2)
  refine ⟨_, s', hsolo, hd, profile_response hk, ?_⟩
  rw [hown]
  exact h.setUser hu huv hk

lemma ends_toggleActive (h : Stored cfg b d) (hs : Untouched s) (id : ℕ) :
    Ends cfg env d ((AuthCall.toggleActive id).program cfg) s
      (b.answer cfg env (.toggleActive id)) := by
  simp only [AuthCall.program, UserService.toggleActive, UserService.getById, Prog.bind_eq,
    Prog.bind_assoc, Book.answer]
  rcases ha : b.get id with _ | a
  · refine ⟨?_, h⟩
    rw [solo_getById hs, h.get_none.mpr ha]
    rfl
  · obtain ⟨user, hu, hk⟩ := h.get_some ha
    refine ends_of_solo ((solo_getById hs _).trans ?_) <|
      ends_edited (a := { a with isActive := !a.isActive }) h
        ((hs.load hu).modify fun user => { user with isActive := !user.isActive }) hu
        (f := False) (p := False) (c := True) ⟨rfl, rfl, .inr rfl, .inr rfl, .inl trivial⟩
        ⟨hk.email, hk.username, hk.fullName, by simp [hk.isActive], hk.hash⟩
    rw [hu]
    rfl

/-- A session that has changed nothing answers with a user. -/
lemma ends_read {r : AuthReply} {resp : AuthResponse} (h : Stored cfg b d)
    (hs : s.Clean) (hr : r.response = resp) : Ends cfg env d (pure r) s (.ok resp, b) := by
  refine ⟨r, s, rfl, hs.dirty, hr, ?_⟩
  rwa [hs.own]

/-- A password is hashed and set in an object of the session. -/
lemma ends_rehashed {a : Account} {u v : User} {f p c : Prop} (h : Stored cfg b d)
    (password : String) (he : ∀ hashed, Editing ((s.log .gensalt (env .gensalt)).modify (.user id)
      fun user => { user with hashedPassword := hashed }) id u { v with hashedPassword := hashed })
    (hu : d.users.get id = some u) (huv : User.Updated f p c u v) (hk : Kept cfg a v) :
    Ends cfg env d (((UserService.setPassword cfg id (some password)).bind fun _ =>
        UserRepository.flushRefresh id).bind fun r => pure (.profile r.1 r.2)) s
      (if cfg.bcrypt.secret password = none then (.error .valueError, b)
       else (.ok (profileAnswer id { a with password := password }),
        b.set id { a with password := password })) := by
  simp only [UserService.setPassword, Prog.bind_eq, Prog.bind_assoc]
  rcases solo_getPasswordHash cfg env d d.users.fresh s password fun hashed =>
      ((Prog.modify (.user id) (fun user : User => { user with hashedPassword := hashed })
        (pure ()) : UserSvc Unit).bind fun _ => UserRepository.flushRefresh id).bind fun r =>
          pure (AuthReply.profile r.1 r.2) with ⟨hsecret, hsolo⟩ | ⟨hashed, hsecret, hhash, hsolo⟩
  · rw [if_pos hsecret]
    exact ⟨hsolo, h⟩
  · rw [if_neg hsecret]
    exact ends_of_solo hsolo <| ends_edited h (he hashed) hu (f := f) (p := True) (c := c)
      ⟨huv.email, huv.username, huv.fullName, .inl trivial, huv.isActive⟩
      ⟨hk.email, hk.username, hk.fullName, hk.isActive, _, hhash⟩

lemma ends_updateProfile (h : Stored cfg b d) (hs : Untouched s)
    (credentials fullName password : Option String) :
    Ends cfg env d (updateProfile cfg credentials fullName password) s
      (b.answer cfg env (.updateProfile credentials fullName password)) := by
  refine ends_sent h hs credentials _ (fun e he => ?_) fun id a user s' hsent ha hu hk hl => ?_
  · simp only [Book.answer, he]
  simp only [Book.answer, hsent, UserService.updateProfile, Prog.bind_eq]
  rcases fullName with _ | fullName
  · rcases password with _ | password
    · simp only [Option.mem_def, reduceCtorEq, false_and, exists_false, if_false, Option.getD_none,
        Table.set_of_get ha]
      refine ends_of_solo ?_ (ends_read h hl.toClean (profile_response hk))
      simp only [UserService.setFullName, UserService.setPassword, UserRepository.flushRefresh,
        UserRepository.refresh, Prog.bind, Prog.pure_eq, solo, hl.toClean.flushAll, if_true,
        hl.toClean.own, hu]
      rfl
    · simp only [Option.mem_def, Option.some.injEq, exists_eq_left', Option.getD_some,
        Option.getD_none]
      exact ends_rehashed h password (fun hashed => (hl.log _ _).modify _) hu (.refl user) hk
  · have he := hl.modify fun user => { user with fullName := fullName }
    rcases password with _ | password
    · simp only [Option.mem_def, reduceCtorEq, false_and, exists_false, if_false, Option.getD_none,
        Option.getD_some]
      exact ends_edited h he hu (f := True) (p := False) (c := False)
        ⟨rfl, rfl, .inl trivial, .inr rfl, .inr rfl⟩
        ⟨hk.email, hk.username, rfl, hk.isActive, hk.hash⟩
    · simp only [Option.mem_def, Option.some.injEq, exists_eq_left', Option.getD_some]
      exact ends_rehashed (a := { a with fullName := fullName }) h password
        (fun hashed => (he.log _ _).modify _) hu (f := True) (p := False)
        (c := False) ⟨rfl, rfl, .inl trivial, .inr rfl, .inr rfl⟩
        ⟨hk.email, hk.username, rfl, hk.isActive, hk.hash⟩

/-- Every call, alone, ends as the book says. -/
theorem ends_call (h : Stored cfg b d) (env : AuthEnv) (call : AuthCall) :
    Ends cfg env d (call.program cfg) .init (b.answer cfg env call) := by
  have hs : Untouched (Session.init : UserSess) := .init
  cases call with
  | signup email username fullName password =>
    exact ends_signup h hs email username fullName password
  | login email password => exact ends_tokens h (solo_login h hs email password)
  | refresh token => exact ends_tokens h (solo_refresh h hs token)
  | logout credentials =>
    refine ends_sent h hs credentials _ (fun e he => ?_) fun id a user s' hsent _ _ _ hl => ?_
    · simp only [Book.answer, he, Except.map]
    · simp only [Book.answer, hsent, Except.map]
      exact ends_read h hl.toClean rfl
  | getProfile credentials =>
    refine ends_sent h hs credentials _ (fun e he => ?_) fun id a user s' hsent _ _ hk hl => ?_
    · simp only [Book.answer, he, Except.map]
    · simp only [Book.answer, hsent, Except.map]
      exact ends_read h hl.toClean (profile_response hk)
  | updateProfile credentials fullName password =>
    exact ends_updateProfile h hs credentials fullName password
  | toggleActive id => exact ends_toggleActive h hs id

/-- What the service returns or raises is what the book answers, and the two levels still agree. -/
lemma serve_answers (h : Stored cfg b d) (env : AuthEnv) (call : AuthCall) :
    (b.answer cfg env call).1 = (serve cfg env d call).1.map AuthReply.response ∧
      Stored cfg (b.answer cfg env call).2 (serve cfg env d call).2 := by
  have hends := ends_call h env call
  unfold serve AuthCall.transaction
  generalize b.answer cfg env call = out at hends ⊢
  obtain ⟨e | r, b'⟩ := out
  · obtain ⟨hsolo, hb⟩ := hends
    obtain ⟨hresult, hdb⟩ := transact_commit_of_error .integrityError hsolo
    simp only [hresult, hdb]
    exact ⟨rfl, hb⟩
  · obtain ⟨reply, s', hsolo, hd, rfl, hb⟩ := hends
    obtain ⟨hresult, hdb⟩ := transact_commit_of_ok .integrityError hsolo hd
    simp only [hresult, hdb]
    exact ⟨rfl, hb⟩

/-- One call: the response of the book, and what the book remembers. -/
theorem serve_refines (h : Stored cfg b d) (env : AuthEnv) (call : AuthCall) :
    respond (serve cfg env d call).1 = Book.respond (b.answer cfg env call).1 ∧
      Stored cfg (b.answer cfg env call).2 (serve cfg env d call).2 := by
  obtain ⟨hanswer, hstored⟩ := serve_answers h env call
  refine ⟨?_, hstored⟩
  rw [hanswer]
  rcases (serve cfg env d call).1 with e | reply <;> rfl

end Stored

/-! ### Runs -/

/-- The responses to calls that come one after the other, each at its time. -/
def serveAll (cfg : AuthSettings) : UserDb → List (AuthEnv × AuthCall) → List AuthResponse
  | _, [] => []
  | d, (env, call) :: calls =>
    respond (serve cfg env d call).1 :: serveAll cfg (serve cfg env d call).2 calls

def Book.answerAll (cfg : AuthSettings) : Book → List (AuthEnv × AuthCall) → List AuthResponse
  | _, [] => []
  | b, (env, call) :: calls =>
    Book.respond (b.answer cfg env call).1 :: Book.answerAll cfg (b.answer cfg env call).2 calls

lemma serveAll_eq {cfg : AuthSettings} {b : Book} {d : UserDb} (h : Stored cfg b d)
    (calls : List (AuthEnv × AuthCall)) : serveAll cfg d calls = b.answerAll cfg calls := by
  induction calls generalizing b d with
  | nil => rfl
  | cons c calls ih =>
    obtain ⟨hr, hstored⟩ := serve_refines h c.1 c.2
    simp only [serveAll, Book.answerAll, hr, ih hstored]

end InventoryReservation.Auth
