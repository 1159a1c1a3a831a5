/-
# Accounts as the schemas allow them

Only what has passed its schema is stored.  A password is stored as a hash, so that it was a strong
one can only be said with the book of passwords behind the database.
-/
import InventoryReservation.Desk

namespace InventoryReservation.Auth

open RowTxn

open RateLimit (RateLimiter)

section Accounts

variable {app : AuthApp} {st : AuthState} {b : Book} {d : UserDb} {env : AuthEnv} {id : ℕ}

/-- An account of which every field has passed its schema. -/
structure ValidAccount (app : AuthApp) (a : Account) : Prop where
  email : ValidEmail app.validateEmail a.email
  username : LowerUsername a.username
  fullName : 2 ≤ a.fullName.length ∧ a.fullName.length ≤ 255
  password : StrongPassword a.password

/-- A row of which every field has passed its schema, and the hash is that of such a password. -/
structure ValidUser (app : AuthApp) (user : User) : Prop where
  email : ValidEmail app.validateEmail user.email
  username : LowerUsername user.username
  fullName : 2 ≤ user.fullName.length ∧ user.fullName.length ≤ 255
  hash : ∃ password salt, StrongPassword password ∧
    app.settings.bcrypt.hashpw password salt = some user.hashedPassword

def ValidBook (app : AuthApp) (b : Book) : Prop := ∀ id a, b.get id = some a → ValidAccount app a

lemma ValidBook.set (h : ValidBook app b) {a : Account} (ha : ValidAccount app a) :
    ValidBook app (b.set id a) := by
  intro id' a' hget
  by_cases hid : id' = id
  · subst hid
    rw [Table.get_set_self] at hget
    exact Option.some.inj hget ▸ ha
  · rw [Table.get_set_of_ne _ _ hid] at hget
    exact h id' a' hget

lemma sender_get {credentials : Option String} {a : Account} {cfg : AuthSettings}
    (h : b.sender cfg env credentials = .ok (id, a)) : b.get id = some a := by
  rcases credentials with _ | token
  · cases h
  · obtain ⟨-, -, -, -, -, ha, -⟩ := sender_eq_ok h
    exact ha

lemma validBook_signup (h : ValidBook app b) (env : AuthEnv) (body : SignupBody) :
    ValidBook app (Desk.signup app b env body).2 := by
  unfold Desk.signup
  split
  · exact h
  next body _ =>
    simp only [Desk.reply, Book.answer]
    split_ifs
    · exact h
    · exact h
    · exact h
    · exact h.set
        ⟨body.email_valid, body.username_lower, body.fullName_length, body.password_strong⟩

lemma validBook_updateProfile (h : ValidBook app b) (env : AuthEnv) (credentials : Option String)
    (body : UpdateBody) : ValidBook app (Desk.updateProfile app b env credentials body).2 := by
  unfold Desk.updateProfile
  split
  next body _ =>
    simp only [Desk.reply, Book.answer]
    split
    · exact h
    next id a hsender =>
      split_ifs
      · exact h
      · have ha := h id a (sender_get hsender)
        refine h.set ⟨ha.email, ha.username, ?_, ?_⟩
        · rcases hname : body.fullName with _ | fullName
          · exact ha.fullName
          · exact body.fullName_length fullName hname
        · rcases hpassword : body.password with _ | password
          · exact ha.password
          · exact body.password_strong password hpassword
  · split
    · exact h
    · exact h

/-- A valid book behind the database. -/
def Sane (app : AuthApp) (d : UserDb) : Prop := ∃ b, Stored app.settings b d ∧ ValidBook app b

lemma Sane.agree {out : AuthResponse × UserDb} {out' : AuthResponse × Book}
    (h : Agree app.settings out out') (hb : ValidBook app out'.2) : Sane app out.2 :=
  ⟨out'.2, h.2, hb⟩

lemma sane_handle (h : Sane app st.db) (a : AuthArrival) : Sane app (app.handle st a).2.db := by
  obtain ⟨b, hstored, hb⟩ := h
  unfold AuthApp.handle
  rcases a.request with body | body | token | credentials | credentials | ⟨credentials, body⟩
  · rcases st.signupLimiter.call app.rateLimitEnabled ⟨a.client, signupPath⟩ a.now with
      ⟨e | u, limiter⟩
    · exact ⟨b, hstored, hb⟩
    · exact .agree (agree_signup hstored a.env body) (validBook_signup hb a.env body)
  · rcases st.loginLimiter.call app.rateLimitEnabled ⟨a.client, loginPath⟩ a.now with
      ⟨e | u, limiter⟩
    · exact ⟨b, hstored, hb⟩
    · refine .agree (agree_login hstored a.env body) ?_
      unfold Desk.login
      split
      · exact hb
      · exact hb
  · exact .agree (agree_route hstored a.env (.refresh token)) hb
  · exact .agree (agree_route hstored a.env (.logout credentials)) hb
  · exact .agree (agree_route hstored a.env (.getProfile credentials)) hb
  · exact .agree (agree_updateProfile hstored a.env credentials body)
      (validBook_updateProfile hb a.env credentials body)

lemma sane_run (h : Sane app st.db) (arrivals : List AuthArrival) :
    Sane app (app.run st arrivals).db := by
  induction arrivals generalizing st with
  | nil => exact h
  | cons a arrivals ih => exact ih (sane_handle h a)

end Accounts

/-- Whatever requests come: every account that is stored has passed the schemas.  Its email is in
normal form, its username is in lower case and made of letters, digits and underscores (but for a
newline at the end), the names fit their columns, and its hash is that of a strong password. -/
theorem accounts_valid (app : AuthApp) (arrivals : List AuthArrival) (id : ℕ) (user : User)
    (hu : (app.run .init arrivals).db.users.get id = some user) : ValidUser app user := by
  have hinit : Sane app AuthState.init.db := ⟨.empty, .empty, fun id a ha => by cases ha⟩
  obtain ⟨b, hstored, hb⟩ := sane_run hinit arrivals
  rcases ha : b.get id with _ | a
  · rw [hstored.get_none.mpr ha] at hu
    cases hu
  · obtain ⟨user', hu', hk⟩ := hstored.get_some ha
    obtain rfl : user' = user := Option.some.inj (hu'.symm.trans hu)
    obtain ⟨salt, hsalt⟩ := hk.hash
    have hv := hb id a ha
    exact ⟨hk.email ▸ hv.email, hk.username ▸ hv.username, hk.fullName ▸ hv.fullName, a.password,
      salt, hv.password, hsalt⟩

theorem accounts_valid_ada :
    ValidUser openApp ⟨"ada@example.com", "ada", "Ada L", "Passw0rd", true⟩ := by
  have hu : (openApp.run .init adaGuessed).db.users.get 1 =
      some ⟨"ada@example.com", "ada", "Ada L", "Passw0rd", true⟩ := by
    decide +kernel
  exact accounts_valid openApp adaGuessed 1 _ hu

end InventoryReservation.Auth
