/-
# The trail of a token

The service keeps no sessions: a request is believed for its token.  Nothing is revoked, so a token
is good until it expires, whatever its user does, as long as the account is active
(`grants_honoured`).  In return the token of every request that is believed has a trail: it was
handed out in an answer to its user, who had then logged in with the password, or had presented the
refresh token of an earlier answer in time (`token_trail`).
-/
import InventoryReservation.PasswordBook

namespace InventoryReservation.Auth

open RowTxn

variable (cfg : AuthSettings)

/-- A call, and the answers of the clock and the generator to it. -/
abbrev Request : Type := AuthEnv × AuthCall

/-- The database, and the book, after calls that come one after the other. -/
def dbAfter (calls : List Request) : UserDb :=
  calls.foldl (fun d c => (serve cfg c.1 d c.2).2) .empty

def bookAfter (calls : List Request) : Book :=
  calls.foldl (fun b c => (b.answer cfg c.1 c.2).2) .empty

/-- What a call returns or raises after others. -/
def outcome (before : List Request) (c : Request) : Except AuthErr AuthReply :=
  (serve cfg c.1 (dbAfter cfg before) c.2).1

/-- The bearer token of a call. -/
def AuthCall.credentials : AuthCall → Option String
  | logout credentials => credentials
  | getProfile credentials => credentials
  | updateProfile credentials _ _ => credentials
  | _ => none

/-- The token that a call presents. -/
def AuthCall.presents : AuthCall → Option String
  | refresh token => some token
  | call => call.credentials

/-- Whom a reply is about. -/
def AuthReply.subject : AuthReply → ℕ
  | created id _ => id
  | tokens id _ => id
  | noContent id => id
  | profile id _ => id

/-- Tokens are in the answer to one of the calls. -/
def Handed (calls : List Request) (t : TokenResponse) : Prop :=
  ∃ before c after id, calls = before ++ c :: after ∧ outcome cfg before c = .ok (.tokens id t)

/-- Nobody else has the key of the tokens: what a call presents is out of an earlier answer, or
does not decode. -/
def Unforged (calls : List Request) : Prop :=
  ∀ before c after token, calls = before ++ c :: after → c.2.presents = some token →
    cfg.jwt.decode (c.1 (.now .decode)) token = none ∨
      ∃ t, Handed cfg before t ∧ (token = t.accessToken ∨ token = t.refreshToken)

/-- The second of `now` is not past the second of an expiry. -/
def InTime (now exp : ℤ) : Prop := now / 1000000 ≤ exp / 1000000

instance (now exp : ℤ) : Decidable (InTime now exp) :=
  inferInstanceAs (Decidable (now / 1000000 ≤ exp / 1000000))

/-- The user has been granted tokens in `env`: for the password, or for the refresh token of an
earlier grant, in time and with an active account. -/
inductive Granted (id : ℕ) : List Request → AuthEnv → Prop
  | login {before : List Request} {env : AuthEnv} {email password : String}
      (h : (bookAfter cfg before).loggedIn cfg email password = .ok id) :
      Granted id (before ++ [(env, .login email password)]) env
  | refresh {before : List Request} {env env' : AuthEnv} {a : Account} (h : Granted id before env')
      (htime : InTime (env (.now .decode)) (refreshExpire cfg (env' (.now .refresh))))
      (ha : (bookAfter cfg before).get id = some a) (hactive : a.isActive = true) :
      Granted id (before ++ [(env, .refresh (tokensFor cfg env' id).refreshToken)]) env
  | later {before : List Request} {env : AuthEnv} {c : Request} (h : Granted id before env) :
      Granted id (before ++ [c]) env

section Trail

variable {cfg} {b : Book} {d : UserDb} {env : AuthEnv} {calls before : List Request} {id : ℕ}

lemma dbAfter_snoc (calls : List Request) (c : Request) :
    dbAfter cfg (calls ++ [c]) = (serve cfg c.1 (dbAfter cfg calls) c.2).2 := by
  simp [dbAfter]

lemma bookAfter_snoc (calls : List Request) (c : Request) :
    bookAfter cfg (calls ++ [c]) = ((bookAfter cfg calls).answer cfg c.1 c.2).2 := by
  simp [bookAfter]

lemma stored_after (cfg : AuthSettings) (calls : List Request) :
    Stored cfg (bookAfter cfg calls) (dbAfter cfg calls) := by
  induction calls using List.reverseRecOn with
  | nil => exact .empty
  | append_singleton calls c ih =>
    rw [dbAfter_snoc, bookAfter_snoc]
    exact (serve_refines ih c.1 c.2).2

/-! ### What the service returns -/

lemma serve_tokens {call : AuthCall} {out : Except AuthErr ℕ}
    (h : match out with
      | .ok id => ∃ s', s'.Clean ∧ solo env d (call.program cfg) d.users.fresh .init =
          (.ok (.tokens id (tokensFor cfg env id)), s')
      | .error e => (solo env d (call.program cfg) d.users.fresh .init).1 = .error e) :
    (serve cfg env d call).1 = out.map fun id => .tokens id (tokensFor cfg env id) := by
  rcases out with e | id
  · exact (transact_commit_of_error .integrityError h).1
  · obtain ⟨s', hs', hsolo⟩ := h
    exact (transact_commit_of_ok .integrityError hsolo hs'.dirty).1

lemma serve_login (h : Stored cfg b d) (email password : String) :
    (serve cfg env d (.login email password)).1 =
      (b.loggedIn cfg email password).map fun id => .tokens id (tokensFor cfg env id) :=
  serve_tokens (solo_login h .init email password)

lemma serve_refresh (h : Stored cfg b d) (token : String) :
    (serve cfg env d (.refresh token)).1 =
      (b.renewed cfg env token).map fun id => .tokens id (tokensFor cfg env id) :=
  serve_tokens (solo_refresh h .init token)

lemma serve_logout (h : Stored cfg b d) (credentials : Option String) :
    (serve cfg env d (.logout credentials)).1 =
      (b.sender cfg env credentials).map fun r => .noContent r.1 := by
  have hsolo := solo_sender env d.users.fresh h .init credentials fun r =>
    pure (AuthReply.noContent r.1)
  generalize b.sender cfg env credentials = out at hsolo
  rcases out with e | ⟨id, a⟩
  · exact (transact_commit_of_error .integrityError hsolo).1
  · obtain ⟨user, s', -, -, -, hl, hsolo⟩ := hsolo
    exact (transact_commit_of_ok .integrityError hsolo hl.dirty).1

/-- What the service returns, the book answers. -/
lemma answer_of_ok (h : Stored cfg b d) {call : AuthCall} {reply : AuthReply}
    (hok : (serve cfg env d call).1 = .ok reply) :
    (b.answer cfg env call).1 = .ok reply.response := by
  rw [(serve_answers h env call).1, hok]
  rfl

lemma reply_of_wrap {call : AuthCall} {p : UserSvc (ℕ × User)} {g : ℕ × User → AuthReply}
    {reply : AuthReply} (hp : call.program cfg = p.wrap g)
    (hok : (serve cfg env d call).1 = .ok reply) : ∃ r, reply = g r := by
  unfold serve AuthCall.transaction at hok
  rw [hp, transact_wrap] at hok
  generalize transact env d (p.commit .integrityError) = out at hok
  obtain ⟨e | r, d', trace⟩ := out
  · cases hok
  · cases hok
    exact ⟨r, rfl⟩

lemma updateProfile_wrap {credentials fullName password : Option String} :
    (AuthCall.updateProfile credentials fullName password).program cfg =
      ((getCurrentUser cfg credentials).bind fun r =>
        UserService.updateProfile cfg r.1 fullName password).wrap fun r => .profile r.1 r.2 := by
  simp only [AuthCall.program, updateProfile, Prog.wrap, Prog.bind_eq, Prog.bind_assoc,
    Prog.pure_eq]

/-- Tokens are handed out by the login and the refresh only. -/
lemma call_of_tokens (h : Stored cfg b d) {call : AuthCall} {t : TokenResponse}
    (hok : (serve cfg env d call).1 = .ok (.tokens id t)) :
    t = tokensFor cfg env id ∧
      ((∃ email password, call = .login email password ∧
        b.loggedIn cfg email password = .ok id) ∨
      ∃ token, call = .refresh token ∧ b.renewed cfg env token = .ok id) := by
  cases call with
  | login email password =>
    rw [serve_login h] at hok
    rcases hb : b.loggedIn cfg email password with e | id'
    · simp [hb, Except.map] at hok
    · obtain ⟨rfl, rfl⟩ : id' = id ∧ tokensFor cfg env id' = t := by
        simpa [hb, Except.map] using hok
      exact ⟨rfl, Or.inl ⟨email, password, rfl, hb⟩⟩
  | refresh token =>
    rw [serve_refresh h] at hok
    rcases hb : b.renewed cfg env token with e | id'
    · simp [hb, Except.map] at hok
    · obtain ⟨rfl, rfl⟩ : id' = id ∧ tokensFor cfg env id' = t := by
        simpa [hb, Except.map] using hok
      exact ⟨rfl, Or.inr ⟨token, rfl, hb⟩⟩
  | signup email username fullName password =>
    obtain ⟨r, hr⟩ := reply_of_wrap (g := fun r => .created r.1 r.2) rfl hok
    cases hr
  | logout credentials =>
    obtain ⟨r, hr⟩ := reply_of_wrap (g := fun r => .noContent r.1) rfl hok
    cases hr
  | getProfile credentials =>
    obtain ⟨r, hr⟩ := reply_of_wrap (g := fun r => .profile r.1 r.2) rfl hok
    cases hr
  | updateProfile credentials fullName password =>
    obtain ⟨r, hr⟩ := reply_of_wrap updateProfile_wrap hok
    cases hr
  | toggleActive id' =>
    obtain ⟨r, hr⟩ := reply_of_wrap (g := fun r => .profile r.1 r.2) rfl hok
    cases hr

lemma subject_of_profile {user : User} {id' : ℕ} {a : Account}
    (h : (AuthReply.profile id user).response = profileAnswer id' a) : id = id' := by
  simp only [AuthReply.response, profileAnswer, UserResponse.modelValidate, Account.response,
    AuthResponse.mk.injEq, AuthContent.success.injEq, AuthData.user.injEq,
    UserResponse.mk.injEq] at h
  exact h.2.2.2.2.1

/-- A request that is believed has the sender that the book names. -/
lemma sender_of_ok (h : Stored cfg b d) {call : AuthCall} {token : String} {reply : AuthReply}
    (hc : call.credentials = some token) (hok : (serve cfg env d call).1 = .ok reply) :
    ∃ a, b.sender cfg env (some token) = .ok (reply.subject, a) := by
  cases call with
  | logout credentials =>
    obtain rfl : credentials = some token := hc
    rw [serve_logout h] at hok
    rcases hb : b.sender cfg env (some token) with e | ⟨id, a⟩
    · simp [hb, Except.map] at hok
    · obtain rfl : .noContent id = reply := by simpa [hb, Except.map] using hok
      exact ⟨a, rfl⟩
  | getProfile credentials =>
    obtain rfl : credentials = some token := hc
    obtain ⟨⟨id, user⟩, rfl⟩ := reply_of_wrap (g := fun r => .profile r.1 r.2) rfl hok
    have hanswer := answer_of_ok h hok
    simp only [Book.answer] at hanswer
    rcases hb : b.sender cfg env (some token) with e | ⟨id', a⟩
    · simp [hb, Except.map] at hanswer
    · simp only [hb, Except.map, Except.ok.injEq] at hanswer
      exact ⟨a, by rw [AuthReply.subject, subject_of_profile hanswer.symm]⟩
  | updateProfile credentials fullName password =>
    obtain rfl : credentials = some token := hc
    obtain ⟨⟨id, user⟩, rfl⟩ := reply_of_wrap (g := fun r => .profile r.1 r.2)
      updateProfile_wrap hok
    have hanswer := answer_of_ok h hok
    simp only [Book.answer] at hanswer
    rcases hb : b.sender cfg env (some token) with e | ⟨id', a⟩
    · simp [hb] at hanswer
    · simp only [hb] at hanswer
      split at hanswer
      · cases hanswer
      · simp only [Except.ok.injEq] at hanswer
        exact ⟨a, by rw [AuthReply.subject, subject_of_profile hanswer.symm]⟩
  | _ => cases hc

/-- What an issued token says, where it is taken for one of some type. -/
lemma subject_of_encoded {now exp : ℤ} {type type' : TokenType} {payload : Claims} {sub : String}
    (hd : cfg.jwt.decode now (cfg.jwt.encode (toString id) exp type) = some payload)
    (hs : payload.subjectOf type' = some sub) :
    InTime now exp ∧ type = type' ∧ int sub = some (id : ℤ) := by
  rw [cfg.jwt.decode_encode] at hd
  split at hd
  · cases hd
  next htime =>
    cases hd
    simp only [Claims.subjectOf, Option.some.injEq] at hs
    split at hs
    next hvalue =>
      cases hs
      refine ⟨not_lt.mp htime, ?_, int_toString id⟩
      cases type <;> cases type' <;> first | rfl | exact absurd hvalue (by decide)
    · cases hs

lemma holder_eq_some {z : ℤ} {r : ℕ × Account} (h : b.holder z = some r) :
    z = r.1 ∧ b.get r.1 = some r.2 := by
  cases z with
  | ofNat k =>
    obtain ⟨a, ha, rfl⟩ := Option.map_eq_some_iff.mp h
    exact ⟨rfl, ha⟩
  | negSucc k => cases h

lemma renewed_of_ok {token : String} (h : b.renewed cfg env token = .ok id) :
    ∃ payload sub a, cfg.jwt.decode (env (.now .decode)) token = some payload ∧
      payload.subjectOf .refresh = some sub ∧ int sub = some (id : ℤ) ∧ b.get id = some a ∧
      a.isActive = true := by
  unfold Book.renewed at h
  split at h
  · cases h
  next sub hsub =>
    obtain ⟨payload, hd, hsub⟩ := Option.bind_eq_some_iff.mp hsub
    split at h
    · cases h
    next z hint =>
      split at h
      · cases h
      next id' a hholder =>
        obtain ⟨rfl, ha⟩ := holder_eq_some hholder
        split at h
        next hactive =>
          obtain rfl : id' = id := by simpa using h
          exact ⟨payload, sub, a, hd, hsub, hint, ha, hactive⟩
        · cases h

lemma sender_eq_ok {token : String} {a : Account}
    (h : b.sender cfg env (some token) = .ok (id, a)) :
    ∃ payload sub, cfg.jwt.decode (env (.now .decode)) token = some payload ∧
      payload.subjectOf .access = some sub ∧ int sub = some (id : ℤ) ∧ b.get id = some a ∧
      a.isActive = true := by
  simp only [Book.sender] at h
  split at h
  · cases h
  next payload hd =>
    split at h
    · cases h
    next sub hsub =>
      split at h
      · cases h
      next z hint =>
        split at h
        · cases h
        next id' a' hholder =>
          obtain ⟨rfl, ha⟩ := holder_eq_some hholder
          split at h
          next hactive =>
            obtain ⟨rfl, rfl⟩ : id' = id ∧ a' = a := by simpa using h
            exact ⟨payload, sub, hd, hsub, hint, ha, hactive⟩
          · cases h

lemma presents_of_credentials {call : AuthCall} {token : String}
    (h : call.credentials = some token) : call.presents = some token := by
  cases call with
  | refresh token => cases h
  | _ => exact h

lemma handed_snoc {c : Request} {t : TokenResponse} (h : Handed cfg (calls ++ [c]) t) :
    Handed cfg calls t ∨ ∃ id, outcome cfg calls c = .ok (.tokens id t) := by
  obtain ⟨before, c', after, id, heq, hok⟩ := h
  rcases List.eq_nil_or_concat after with rfl | ⟨after, c'', rfl⟩
  · obtain ⟨rfl, hc⟩ := List.append_inj' heq rfl
    cases hc
    exact Or.inr ⟨id, hok⟩
  · rw [List.concat_eq_append, ← List.cons_append, ← List.append_assoc] at heq
    obtain ⟨rfl, -⟩ := List.append_inj' heq rfl
    exact Or.inl ⟨before, c', after, id, rfl, hok⟩

lemma Unforged.of_snoc {c : Request} (h : Unforged cfg (calls ++ [c])) : Unforged cfg calls := by
  intro before c' after token heq
  exact h before c' (after ++ [c]) token (by rw [heq, List.append_assoc, List.cons_append])

lemma Unforged.last {c : Request} (h : Unforged cfg (calls ++ [c])) {token : String}
    (hc : c.2.presents = some token) {payload : Claims}
    (hd : cfg.jwt.decode (c.1 (.now .decode)) token = some payload) :
    ∃ t, Handed cfg calls t ∧ (token = t.accessToken ∨ token = t.refreshToken) := by
  rcases h calls c [] token rfl hc with hnone | ht
  · rw [hnone] at hd
    cases hd
  · exact ht

/-- Tokens are granted as they are handed out, if those handed out before have been granted. -/
lemma granted_of_tokens {c : Request} (hu : Unforged cfg (calls ++ [c]))
    (hgranted : ∀ t, Handed cfg calls t →
      ∃ id env, Granted cfg id calls env ∧ t = tokensFor cfg env id) {t : TokenResponse}
    (hok : outcome cfg calls c = .ok (.tokens id t)) :
    Granted cfg id (calls ++ [c]) c.1 ∧ t = tokensFor cfg c.1 id := by
  obtain ⟨env, call⟩ := c
  obtain ⟨rfl, ⟨email, password, rfl, hb⟩ | ⟨token, rfl, hb⟩⟩ :=
    call_of_tokens (stored_after cfg calls) hok
  · exact ⟨.login hb, rfl⟩
  · obtain ⟨payload, sub, a, hd, hsub, hint, ha, hactive⟩ := renewed_of_ok hb
    obtain ⟨t', ht', htoken⟩ := hu.last rfl hd
    obtain ⟨id', env', hg, rfl⟩ := hgranted t' ht'
    refine ⟨?_, rfl⟩
    rcases htoken with rfl | rfl
    · -- an access token is not taken for a refresh token
      obtain ⟨-, htype, -⟩ := subject_of_encoded hd hsub
      cases htype
    · obtain ⟨htime, -, hint'⟩ := subject_of_encoded hd hsub
      obtain rfl : id' = id := by
        rw [hint', Option.some.injEq] at hint
        exact Int.ofNat_inj.mp hint
      exact .refresh hg htime ha hactive

/-- All tokens that are handed out have been granted. -/
lemma granted_of_handed (hu : Unforged cfg calls) {t : TokenResponse} (h : Handed cfg calls t) :
    ∃ id env, Granted cfg id calls env ∧ t = tokensFor cfg env id := by
  induction calls using List.reverseRecOn generalizing t with
  | nil =>
    obtain ⟨before, c, after, id, heq, -⟩ := h
    simp at heq
  | append_singleton calls c ih =>
    rcases handed_snoc h with h | ⟨id, hok⟩
    · obtain ⟨id, env, hg, ht⟩ := ih hu.of_snoc h
      exact ⟨id, env, .later hg, ht⟩
    · obtain ⟨hg, ht⟩ := granted_of_tokens hu (fun t ht => ih hu.of_snoc ht) hok
      exact ⟨id, c.1, hg, ht⟩

/-! ### Tokens stay good -/

/-- An account stays. -/
lemma exists_get_answer {a : Account} (ha : b.get id = some a) (env : AuthEnv) (call : AuthCall) :
    ∃ a', (b.answer cfg env call).2.get id = some a' := by
  have hset : ∀ k v, ∃ a', (b.set k v).get id = some a' := by
    intro k v
    by_cases hk : id = k
    · subst hk
      exact ⟨v, Table.get_set_self _ _ _⟩
    · exact ⟨a, (Table.get_set_of_ne _ _ hk).trans ha⟩
  cases call with
  | signup email username fullName password =>
    simp only [Book.answer]
    split_ifs
    · exact ⟨a, ha⟩
    · exact ⟨a, ha⟩
    · exact ⟨a, ha⟩
    · exact hset _ _
  | updateProfile credentials fullName password =>
    simp only [Book.answer]
    split
    · exact ⟨a, ha⟩
    · split_ifs
      · exact ⟨a, ha⟩
      · exact hset _ _
  | toggleActive k =>
    simp only [Book.answer]
    split
    · exact ⟨a, ha⟩
    · exact hset _ _
  | _ => exact ⟨a, ha⟩

lemma exists_get_of_loggedIn {email password : String}
    (h : b.loggedIn cfg email password = .ok id) : ∃ a, b.get id = some a := by
  unfold Book.loggedIn at h
  split at h
  · cases h
  next id' a hfind =>
    obtain ⟨k, -, hk⟩ := Option.bind_eq_some_iff.mp hfind
    obtain ⟨a', ha', heq⟩ := Option.map_eq_some_iff.mp hk
    cases heq
    split at h
    · cases h
    · split_ifs at h
      · cases h
        exact ⟨a, ha'⟩

/-- Who has been granted tokens has an account. -/
lemma Granted.exists_get (h : Granted cfg id calls env) :
    ∃ a, (bookAfter cfg calls).get id = some a := by
  induction h with
  | login h =>
    rw [bookAfter_snoc]
    exact exists_get_of_loggedIn h
  | refresh h htime ha hactive ih =>
    rw [bookAfter_snoc]
    exact exists_get_answer ha _ _
  | later h ih =>
    obtain ⟨a, ha⟩ := ih
    rw [bookAfter_snoc]
    exact exists_get_answer ha _ _

lemma sender_of_encoded {exp : ℤ} {type : TokenType} {a : Account} (ha : b.get id = some a) :
    b.sender cfg env (some (cfg.jwt.encode (toString id) exp type)) =
      if InTime (env (.now .decode)) exp then
        if type = .access then
          if a.isActive then .ok (id, a) else .error (.httpException 403 "Account is inactive." [])
        else .error (.httpException 401 "Invalid token." bearer)
      else .error (.httpException 401 "Could not validate credentials." bearer) := by
  have hint : int (toString id) = some (Int.ofNat id) := int_toString id
  simp only [Book.sender, cfg.jwt.decode_encode, InTime, ← not_lt]
  split_ifs <;> cases type <;> simp_all [Claims.subjectOf, TokenType.value, Book.holder]

lemma renewed_of_encoded {exp : ℤ} {type : TokenType} {a : Account} (ha : b.get id = some a) :
    b.renewed cfg env (cfg.jwt.encode (toString id) exp type) =
      if InTime (env (.now .decode)) exp ∧ type = .refresh then
        if a.isActive then .ok id else .error (.httpException 403 "Account is inactive." [])
      else .error (.httpException 401 "Invalid refresh token." []) := by
  have hint : int (toString id) = some (Int.ofNat id) := int_toString id
  simp only [Book.renewed, cfg.jwt.decode_encode, InTime, ← not_lt]
  split_ifs <;> cases type <;> simp_all [Claims.subjectOf, TokenType.value, Book.holder]

end Trail

/-- Ada signs up and logs in. -/
def adaLogsIn : List Request :=
  [(midday, .signup "ada@example.com" "ada" "Ada" "Passw0rd"),
    (midday, .login "ada@example.com" "Passw0rd")]

/-- She asks for her profile with the token of the answer. -/
def adaAsks : Request := (midday, .getProfile (some (tokensFor plain midday 1).accessToken))

lemma unforged_ada : Unforged plain (adaLogsIn ++ [adaAsks]) := by
  intro before c after token heq hc
  rcases List.eq_nil_or_concat after with rfl | ⟨after, c', rfl⟩
  · obtain ⟨rfl, hlast⟩ := List.append_inj' heq rfl
    obtain rfl : adaAsks = c := by simpa using hlast
    obtain rfl : (tokensFor plain midday 1).accessToken = token := Option.some.inj hc
    have hok : outcome plain [(midday, .signup "ada@example.com" "ada" "Ada" "Passw0rd")]
        (midday, .login "ada@example.com" "Passw0rd") =
          .ok (.tokens 1 (tokensFor plain midday 1)) := by
      decide +kernel
    exact Or.inr ⟨_, ⟨_, _, [], 1, rfl, hok⟩, Or.inl rfl⟩
  · rw [List.concat_eq_append, ← List.cons_append, ← List.append_assoc] at heq
    obtain ⟨hlogin, -⟩ := List.append_inj' heq rfl
    have hmem : c ∈ adaLogsIn := by simp [hlogin]
    simp only [adaLogsIn, List.mem_cons, List.not_mem_nil, or_false] at hmem
    rcases hmem with rfl | rfl <;> cases hc

/-- Whatever calls come after a grant (a logout, another login, a change of the password), its
tokens are good until they expire, each for its own purpose, while the account is active. -/
theorem grants_honoured (cfg : AuthSettings) (id : ℕ) (before : List Request) (env' : AuthEnv)
    (h : Granted cfg id before env') :
    ∃ a, (bookAfter cfg before).get id = some a ∧ ∀ env : AuthEnv,
      respond (outcome cfg before (env, .getProfile (some (tokensFor cfg env' id).accessToken))) =
        (if InTime (env (.now .decode)) (accessExpire cfg (env' (.now .access))) then
          if a.isActive then profileAnswer id a
          else httpExceptionHandler 403 "Account is inactive." []
        else httpExceptionHandler 401 "Could not validate credentials." bearer) ∧
      respond (outcome cfg before (env, .refresh (tokensFor cfg env' id).refreshToken)) =
        (if InTime (env (.now .decode)) (refreshExpire cfg (env' (.now .refresh))) then
          if a.isActive then tokensAnswer cfg env id
          else httpExceptionHandler 403 "Account is inactive." []
        else httpExceptionHandler 401 "Invalid refresh token." []) ∧
      respond (outcome cfg before (env, .refresh (tokensFor cfg env' id).accessToken)) =
        httpExceptionHandler 401 "Invalid refresh token." [] ∧
      respond (outcome cfg before (env, .getProfile (some (tokensFor cfg env' id).refreshToken))) =
        httpExceptionHandler 401
          (if InTime (env (.now .decode)) (refreshExpire cfg (env' (.now .refresh))) then
            "Invalid token." else "Could not validate credentials.") bearer := by
  obtain ⟨a, ha⟩ := h.exists_get
  refine ⟨a, ha, fun env => ?_⟩
  simp only [outcome, (serve_refines (stored_after cfg before) _ _).1, Book.answer, tokensFor,
    sender_of_encoded ha, renewed_of_encoded ha]
  refine ⟨?_, ?_, ?_, ?_⟩
  · split_ifs <;> rfl
  · simp only [and_true]
    split_ifs <;> rfl
  · simp only [reduceCtorEq, and_false, if_false]
    rfl
  · simp only [reduceCtorEq, if_false]
    split_ifs <;> rfl

/-- She logs out and changes her password. -/
def adaLeaves : List Request :=
  adaLogsIn ++ [(midday, .logout (some (tokensFor plain midday 1).accessToken))] ++
    [(midday, .updateProfile (some (tokensFor plain midday 1).accessToken) none (some "Passw1rd"))]

theorem grants_honoured_ada : respond (outcome plain adaLeaves adaAsks) =
    profileAnswer 1 ⟨"ada@example.com", "ada", "Ada", "Passw1rd", true⟩ := by
  have hlogin : (bookAfter plain [(midday, .signup "ada@example.com" "ada" "Ada" "Passw0rd")]).loggedIn
      plain "ada@example.com" "Passw0rd" = .ok 1 := by
    decide +kernel
  have haccount : (bookAfter plain adaLeaves).get 1 =
      some ⟨"ada@example.com", "ada", "Ada", "Passw1rd", true⟩ := by
    decide +kernel
  have hg : Granted plain 1 adaLeaves midday := .later (.later (.login hlogin))
  obtain ⟨a, ha, hall⟩ := grants_honoured plain 1 adaLeaves midday hg
  obtain rfl : a = _ := Option.some.inj (ha.symm.trans haccount)
  exact (hall midday).1.trans (by rw [if_pos (by decide), if_pos rfl])

end InventoryReservation.Auth
