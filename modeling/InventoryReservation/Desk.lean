/-
# The desk behind the routes

What the routes of the accounts are for: a desk with two doors.  It knows the passwords themselves,
and everyone it has let pass; it has neither hashes nor indexes, and its lists are never pruned.
The routes answer as the desk does (`interface_refines_desk`), so there is a bound on how often a
host may guess a password (`guesses_bounded`).
-/
import InventoryReservation.AuthRoutes
import InventoryReservation.TokenTrail

namespace InventoryReservation.Auth

open RowTxn

open RateLimit (RateLimiter CallError)

/-! ### The desk -/

/-- What the routes are for: the book of passwords, behind two doors that let a host pass five and
ten times in a minute, and remember whom they have let pass. -/
structure Desk where
  signups : List (String × ℚ)
  logins : List (String × ℚ)
  book : Book

def AuthArrival.host (a : AuthArrival) : String := a.client.getD "unknown"

/-- The times at which a host was let pass. -/
def timesOf (entries : List (String × ℚ)) (host : String) : List ℚ :=
  (entries.filter fun e => e.1 = host).map Prod.snd

/-- Those in the last minute. -/
def recentAt (entries : List (String × ℚ)) (host : String) (now : ℚ) : List ℚ :=
  SlidingWindow.recent 60 now (timesOf entries host)

namespace Desk

variable (app : AuthApp)

def init : Desk := ⟨[], [], .empty⟩

/-- A door that is closed, until the first of the recent entries is a minute old. -/
def refusal (times : ℕ) (entries : List (String × ℚ)) (a : AuthArrival) : Option AuthResponse :=
  let recent := recentAt entries a.host a.now
  if app.rateLimitEnabled ∧ times ≤ recent.length then
    some (limitResponse (.http (RateLimiter.tooManyRequests 60 a.now (recent.head?.getD a.now))))
  else none

def enter (entries : List (String × ℚ)) (a : AuthArrival) : List (String × ℚ) :=
  if app.rateLimitEnabled then entries ++ [(a.host, a.now)] else entries

def reply (b : Book) (env : AuthEnv) (call : AuthCall) : AuthResponse × Book :=
  (Book.respond (b.answer app.settings env call).1, (b.answer app.settings env call).2)

def signup (b : Book) (env : AuthEnv) (body : SignupBody) : AuthResponse × Book :=
  match body.validate app.validateEmail with
  | .error errors => (invalid errors, b)
  | .ok body => reply app b env (.signup body.email body.username body.fullName body.password)

def login (b : Book) (env : AuthEnv) (body : LoginBody) : AuthResponse × Book :=
  match body.validate app.validateEmail with
  | .error errors => (invalid errors, b)
  | .ok body => reply app b env (.login body.email body.password)

def updateProfile (b : Book) (env : AuthEnv) (credentials : Option String) (body : UpdateBody) :
    AuthResponse × Book :=
  match body.validate with
  | .ok body => reply app b env (.updateProfile credentials body.fullName body.password)
  | .error errors =>
    match b.sender app.settings env credentials with
    | .error e => (e.response, b)
    | .ok _ => (invalid errors, b)

/-- The answer to a request, and what is remembered. -/
def answer (k : Desk) (a : AuthArrival) : AuthResponse × Desk :=
  match a.request with
  | .signup body =>
    match refusal app 5 k.signups a with
    | some r => (r, k)
    | none =>
      let out := signup app k.book a.env body
      (out.1, ⟨enter app k.signups a, k.logins, out.2⟩)
  | .login body =>
    match refusal app 10 k.logins a with
    | some r => (r, k)
    | none =>
      let out := login app k.book a.env body
      (out.1, ⟨k.signups, enter app k.logins a, out.2⟩)
  | .refreshToken token =>
    ((reply app k.book a.env (.refresh token)).1, k)
  | .logout credentials => ((reply app k.book a.env (.logout credentials)).1, k)
  | .getProfile credentials => ((reply app k.book a.env (.getProfile credentials)).1, k)
  | .updateProfile credentials body =>
    let out := updateProfile app k.book a.env credentials body
    (out.1, { k with book := out.2 })

def answers : Desk → List AuthArrival → List AuthResponse
  | _, [] => []
  | k, a :: arrivals => (k.answer app a).1 :: answers (k.answer app a).2 arrivals

end Desk

/-! ### The doors -/

section Doors

variable {limiter : RateLimiter} {times : ℕ} {path : String} {entries : List (String × ℚ)} {t : ℚ}
  {app : AuthApp} {a : AuthArrival}

lemma timesOf_snoc (entries : List (String × ℚ)) (e : String × ℚ) (host : String) :
    timesOf (entries ++ [e]) host =
      if e.1 = host then timesOf entries host ++ [e.2] else timesOf entries host := by
  by_cases h : e.1 = host <;> simp [timesOf, h]

/-- Up to the time `t`, a limiter has served the requests to a path, and has let pass the entries. -/
structure Remembers (limiter : RateLimiter) (times : ℕ) (path : String)
    (entries : List (String × ℚ)) (t : ℚ) (past : List RateLimit.Served) : Prop
    extends RateLimit.Tracks limiter past where
  times_eq : limiter.times = times
  seconds_eq : limiter.seconds = 60
  log_eq : ∀ host, RateLimit.log past (host ++ ":" ++ path) = timesOf entries host
  before : ∀ e ∈ past, e.1.now ≤ t

/-- The request as the limiter sees it. -/
def AuthArrival.at (a : AuthArrival) (path : String) : RateLimit.Arrival := ⟨⟨a.client, path⟩, a.now⟩

lemma AuthArrival.key_at (a : AuthArrival) (path : String) :
    (a.at path).key = a.host ++ ":" ++ path := rfl

lemma Remembers.init (times : ℕ) (path : String) (t : ℚ) :
    Remembers (.init times 60) times path [] t [] where
  toTracks := .init times 60
  times_eq := rfl
  seconds_eq := rfl
  log_eq _ := rfl
  before := by simp

lemma Remembers.mono {past : List RateLimit.Served} (h : Remembers limiter times path entries t past)
    {t' : ℚ} (ht : t ≤ t') : Remembers limiter times path entries t' past where
  toTracks := h.toTracks
  times_eq := h.times_eq
  seconds_eq := h.seconds_eq
  log_eq := h.log_eq
  before e he := (h.before e he).trans ht

lemma Remembers.recentHits {past : List RateLimit.Served}
    (h : Remembers limiter times path entries t past) (ht : t ≤ a.now) :
    limiter.recentHits (a.at path) = recentAt entries a.host a.now := by
  rw [h.toTracks.recentHits fun e he => (h.before e he).trans ht, h.seconds_eq, a.key_at, h.log_eq]
  rfl

/-- A request that finds the door open. -/
lemma Remembers.enter {past : List RateLimit.Served}
    (h : Remembers limiter times path entries t past) (ht : t ≤ a.now)
    (hlt : (recentAt entries a.host a.now).length < times) :
    (limiter.step (a.at path)).1 = .ok () ∧
      Remembers (limiter.step (a.at path)).2 times path (entries ++ [(a.host, a.now)]) a.now
        (past ++ [(a.at path, .ok ())]) := by
  have hlt' : ((limiter.recentHits (a.at path)).length : ℤ) < limiter.times := by
    rw [h.recentHits ht, h.times_eq]
    exact_mod_cast hlt
  have hok : (limiter.step (a.at path)).1 = .ok () := by rw [RateLimiter.step_of_lt hlt']
  have htracks := h.toTracks.step (a := a.at path) fun e he => (h.before e he).trans ht
  rw [hok] at htracks
  refine ⟨hok, ⟨htracks, ?_, ?_, ?_, ?_⟩⟩
  · rw [RateLimiter.step_times, h.times_eq]
  · rw [RateLimiter.step_seconds, h.seconds_eq]
  · intro host
    rw [RateLimit.log_snoc, timesOf_snoc, h.log_eq, a.key_at]
    by_cases hhost : a.host = host
    · subst hhost
      rw [if_pos ⟨rfl, rfl⟩, if_pos rfl]
      rfl
    · rw [if_neg, if_neg hhost]
      rintro ⟨-, hkey⟩
      have hchars := congrArg String.toList hkey
      simp only [String.toList_append, List.append_assoc] at hchars
      exact hhost (String.toList_injective (List.append_cancel_right hchars))
  · intro e he
    rcases List.mem_append.mp he with he | he
    · exact (h.before e he).trans ht
    · rw [List.mem_singleton.mp he]
      exact le_rfl

/-- A request that finds the door closed. -/
lemma Remembers.refused {past : List RateLimit.Served}
    (h : Remembers limiter times path entries t past) (htimes : 0 < times) (ht : t ≤ a.now)
    (hge : times ≤ (recentAt entries a.host a.now).length) :
    limiter.step (a.at path) = (.error (.http (RateLimiter.tooManyRequests 60 a.now
      ((recentAt entries a.host a.now).head?.getD a.now))), limiter) := by
  have hge' : limiter.times ≤ (limiter.recentHits (a.at path)).length := by
    rw [h.recentHits ht, h.times_eq]
    exact_mod_cast hge
  obtain ⟨-, hsame, herror⟩ := RateLimiter.step_of_le hge'
  rw [h.recentHits ht] at herror
  rcases hrecent : recentAt entries a.host a.now with _ | ⟨first, rest⟩
  · rw [hrecent] at hge
    simp only [List.length_nil] at hge
    omega
  · refine Prod.ext ?_ hsame
    rw [herror first rest hrecent, h.seconds_eq]
    rfl

end Doors

/-! ### One request -/

section Requests

variable {app : AuthApp} {env : AuthEnv} {st : AuthState} {k : Desk} {t : ℚ} {a : AuthArrival}
  {b : Book} {d : UserDb}

/-- The two levels agree on a response, and on what is stored. -/
def Agree (cfg : AuthSettings) (out : AuthResponse × UserDb) (out' : AuthResponse × Book) : Prop :=
  out.1 = out'.1 ∧ Stored cfg out'.2 out.2

lemma agree_route (h : Stored app.settings b d) (env : AuthEnv) (call : AuthCall) :
    Agree app.settings (app.route env d call) (Desk.reply app b env call) :=
  serve_refines h env call

lemma agree_signup (h : Stored app.settings b d) (env : AuthEnv) (body : SignupBody) :
    Agree app.settings (app.signup env d body) (Desk.signup app b env body) := by
  unfold AuthApp.signup Desk.signup
  rcases body.validate app.validateEmail with errors | body
  · exact ⟨rfl, h⟩
  · exact agree_route h env _

lemma agree_login (h : Stored app.settings b d) (env : AuthEnv) (body : LoginBody) :
    Agree app.settings (app.login env d body) (Desk.login app b env body) := by
  unfold AuthApp.login Desk.login
  rcases body.validate app.validateEmail with errors | body
  · exact ⟨rfl, h⟩
  · exact agree_route h env _

lemma agree_updateProfile (h : Stored app.settings b d) (env : AuthEnv)
    (credentials : Option String) (body : UpdateBody) :
    Agree app.settings (app.updateProfile env d credentials body)
      (Desk.updateProfile app b env credentials body) := by
  unfold AuthApp.updateProfile Desk.updateProfile
  rcases body.validate with errors | body
  · have heq := (serve_answers h env (.getProfile credentials)).1
    simp only [Book.answer] at heq
    rcases hs : (serve app.settings env d (.getProfile credentials)).1 with e | reply <;>
      rcases hb : b.sender app.settings env credentials with e' | r <;>
        simp only [hs, hb, Except.map] at heq
    · obtain rfl : e' = e := Except.error.inj heq
      exact ⟨rfl, h⟩
    · cases heq
    · cases heq
    · exact ⟨rfl, h⟩
  · exact agree_route h env _

/-- The desk remembers what the limiters and the database say. -/
structure Behind (app : AuthApp) (st : AuthState) (k : Desk) (t : ℚ) : Prop where
  stored : Stored app.settings k.book st.db
  signups : ∃ past, Remembers st.signupLimiter 5 signupPath k.signups t past
  logins : ∃ past, Remembers st.loginLimiter 10 loginPath k.logins t past

lemma Behind.init (app : AuthApp) (t : ℚ) : Behind app .init .init t where
  stored := .empty
  signups := ⟨[], .init 5 signupPath t⟩
  logins := ⟨[], .init 10 loginPath t⟩

lemma Behind.mono (h : Behind app st k t) {t' : ℚ} (ht : t ≤ t') : Behind app st k t' where
  stored := h.stored
  signups := h.signups.imp fun _ h => h.mono ht
  logins := h.logins.imp fun _ h => h.mono ht

/-- A door of the desk, and the limiter behind it. -/
lemma door (app : AuthApp) {limiter : RateLimiter} {times : ℕ} {path : String}
    {entries : List (String × ℚ)} (h : ∃ past, Remembers limiter times path entries t past)
    (htimes : 0 < times) (ht : t ≤ a.now) :
    (∃ e, Desk.refusal app times entries a = some (limitResponse e) ∧
      limiter.call app.rateLimitEnabled ⟨a.client, path⟩ a.now = (.error e, limiter)) ∨
    ∃ limiter', Desk.refusal app times entries a = none ∧
      limiter.call app.rateLimitEnabled ⟨a.client, path⟩ a.now = (.ok (), limiter') ∧
      ∃ past, Remembers limiter' times path (Desk.enter app entries a) a.now past := by
  obtain ⟨past, h⟩ := h
  rcases henabled : app.rateLimitEnabled with _ | _
  · refine Or.inr ⟨limiter, ?_, rfl, past, ?_⟩
    · simp [Desk.refusal, henabled]
    · rw [Desk.enter, henabled]
      exact h.mono ht
  · rcases lt_or_ge (recentAt entries a.host a.now).length times with hlt | hge
    · obtain ⟨hok, hnext⟩ := h.enter ht hlt
      refine Or.inr ⟨_, ?_, Prod.ext hok rfl, past ++ [(a.at path, .ok ())], ?_⟩
      · simp [Desk.refusal, hlt]
      · rw [Desk.enter, henabled]
        exact hnext
    · refine Or.inl ⟨_, ?_, h.refused htimes ht hge⟩
      rw [Desk.refusal, if_pos ⟨henabled, hge⟩]

/-- One request: the answer of the desk, and what the desk remembers. -/
theorem handle_refines (h : Behind app st k t) (ht : t ≤ a.now) :
    (app.handle st a).1 = (k.answer app a).1 ∧
      Behind app (app.handle st a).2 (k.answer app a).2 a.now := by
  have hnow := h.mono ht
  unfold AuthApp.handle Desk.answer
  rcases a.request with body | body | token | credentials | credentials | ⟨credentials, body⟩
  · rcases door app h.signups (by decide) ht with
      ⟨e, hdesk, hcall⟩ | ⟨limiter, hdesk, hcall, hnext⟩
    · simp only [hdesk, hcall]
      exact ⟨trivial, hnow⟩
    · simp only [hdesk, hcall]
      obtain ⟨hr, hs⟩ := agree_signup h.stored a.env body
      exact ⟨hr, hs, hnext, hnow.logins⟩
  · rcases door app h.logins (by decide) ht with
      ⟨e, hdesk, hcall⟩ | ⟨limiter, hdesk, hcall, hnext⟩
    · simp only [hdesk, hcall]
      exact ⟨trivial, hnow⟩
    · simp only [hdesk, hcall]
      obtain ⟨hr, hs⟩ := agree_login h.stored a.env body
      exact ⟨hr, hs, hnow.signups, hnext⟩
  · obtain ⟨hr, hs⟩ := agree_route h.stored a.env (.refresh token)
    exact ⟨hr, hs, hnow.signups, hnow.logins⟩
  · obtain ⟨hr, hs⟩ := agree_route h.stored a.env (.logout credentials)
    exact ⟨hr, hs, hnow.signups, hnow.logins⟩
  · obtain ⟨hr, hs⟩ := agree_route h.stored a.env (.getProfile credentials)
    exact ⟨hr, hs, hnow.signups, hnow.logins⟩
  · obtain ⟨hr, hs⟩ := agree_updateProfile h.stored a.env credentials body
    exact ⟨hr, hs, hnow.signups, hnow.logins⟩

end Requests

/-! ### Runs -/

section Runs

variable {app : AuthApp} {st : AuthState} {k : Desk} {t : ℚ} {a : AuthArrival}
  {arrivals : List AuthArrival} {b : Book} {d : UserDb} {cfg : AuthSettings} {env : AuthEnv}

/-- What the desk remembers after some requests. -/
def Desk.run (app : AuthApp) (k : Desk) (arrivals : List AuthArrival) : Desk :=
  arrivals.foldl (fun k a => (k.answer app a).2) k

/-- The requests in the order of time: all answers are those of the desk, which is behind the
service all the time. -/
lemma responses_eq (h : Behind app st k t) (hsorted : arrivals.Pairwise fun a b => a.now ≤ b.now)
    (ht : ∀ a ∈ arrivals, t ≤ a.now) :
    app.responses st arrivals = k.answers app arrivals ∧
      ∃ t', Behind app (app.run st arrivals) (k.run app arrivals) t' := by
  induction arrivals generalizing st k t with
  | nil => exact ⟨rfl, t, h⟩
  | cons a arrivals ih =>
    obtain ⟨hhead, htail⟩ := List.pairwise_cons.mp hsorted
    obtain ⟨hr, hnext⟩ := handle_refines h (ht a List.mem_cons_self)
    obtain ⟨hrest, hend⟩ := ih hnext htail hhead
    exact ⟨by rw [AuthApp.responses, Desk.answers, hr, hrest], hend⟩

lemma responses_init (app : AuthApp) (hsorted : arrivals.Pairwise fun a b => a.now ≤ b.now) :
    app.responses .init arrivals = Desk.answers app .init arrivals ∧
      ∃ t, Behind app (app.run .init arrivals) (Desk.run app .init arrivals) t := by
  cases arrivals with
  | nil => exact ⟨rfl, 0, .init app 0⟩
  | cons a arrivals =>
    refine responses_eq (.init app a.now) hsorted fun a' ha' => ?_
    rcases List.mem_cons.mp ha' with rfl | ha'
    · exact le_rfl
    · exact (List.pairwise_cons.mp hsorted).1 a' ha'

/-! ### Answers that are no refusals -/

lemma status_appError (type : AppError) (detail : String) :
    (AuthErr.appError type detail).response.status ≠ 429 := by
  show (domainStatusMap.lookup type).getD 400 ≠ 429
  cases type <;> decide

lemma status_sender {credentials : Option String} {e : AuthErr}
    (h : b.sender cfg env credentials = .error e) : e.response.status ≠ 429 := by
  rcases credentials with _ | token
  · cases h
    decide
  simp only [Book.sender] at h
  split at h
  · cases h
    decide
  split at h
  · cases h
    decide
  split at h
  · cases h
    decide
  split at h
  · cases h
    decide
  split at h
  · cases h
  · cases h
    decide

lemma status_renewed {token : String} {e : AuthErr} (h : b.renewed cfg env token = .error e) :
    e.response.status ≠ 429 := by
  unfold Book.renewed at h
  split at h
  · cases h
    decide
  split at h
  · cases h
    decide
  split at h
  · cases h
    exact status_appError _ _
  split at h
  · cases h
  · cases h
    decide

lemma status_loggedIn {email password : String} {e : AuthErr}
    (h : b.loggedIn cfg email password = .error e) : e.response.status ≠ 429 := by
  unfold Book.loggedIn at h
  split at h
  · cases h
    exact status_appError _ _
  split at h
  · cases h
    decide
  split_ifs at h
  · cases h
    exact status_appError _ _
  · cases h
    exact status_appError _ _

lemma status_map {α : Type} {out : Except AuthErr α} {f : α → AuthResponse}
    (herror : ∀ e, out = .error e → e.response.status ≠ 429) (hok : ∀ x, (f x).status ≠ 429) :
    (Book.respond (out.map f)).status ≠ 429 := by
  rcases out with e | x
  · exact herror e rfl
  · exact hok x

/-- The book never says that there have been too many requests. -/
lemma status_answer (b : Book) (cfg : AuthSettings) (env : AuthEnv) (call : AuthCall) :
    (Book.respond (b.answer cfg env call).1).status ≠ 429 := by
  cases call with
  | signup email username fullName password =>
    simp only [Book.answer]
    split_ifs
    · exact status_appError _ _
    · exact status_appError _ _
    · exact (by decide : (500 : ℕ) ≠ 429)
    · exact (by decide : (201 : ℕ) ≠ 429)
  | login email password =>
    exact status_map (fun e he => status_loggedIn he) fun _ => (by decide : (200 : ℕ) ≠ 429)
  | refresh token =>
    exact status_map (fun e he => status_renewed he) fun _ => (by decide : (200 : ℕ) ≠ 429)
  | logout credentials =>
    exact status_map (fun e he => status_sender he) fun _ => (by decide : (204 : ℕ) ≠ 429)
  | getProfile credentials =>
    exact status_map (fun e he => status_sender he) fun _ => (by decide : (200 : ℕ) ≠ 429)
  | updateProfile credentials fullName password =>
    simp only [Book.answer]
    split
    next e he => exact status_sender he
    next id a he =>
      split_ifs
      · exact (by decide : (500 : ℕ) ≠ 429)
      · exact (by decide : (200 : ℕ) ≠ 429)
  | toggleActive id =>
    simp only [Book.answer]
    split
    · exact status_appError _ _
    · exact (by decide : (200 : ℕ) ≠ 429)

/-! ### Guesses -/

def AuthRequest.isLogin : AuthRequest → Bool
  | .login _ => true
  | _ => false

def AuthRequest.isSignup : AuthRequest → Bool
  | .signup _ => true
  | _ => false

/-- The requests of a kind that were not refused for there having been too many. -/
def passed (p : AuthRequest → Bool) (answered : List (AuthArrival × AuthResponse)) :
    List (AuthArrival × AuthResponse) :=
  answered.filter fun e => p e.1.request && decide (e.2.status ≠ 429)

def entriesOf (answered : List (AuthArrival × AuthResponse)) : List (String × ℚ) :=
  answered.map fun e => (e.1.host, e.1.now)

lemma refusal_status {times : ℕ} {entries : List (String × ℚ)} {r : AuthResponse}
    (h : Desk.refusal app times entries a = some r) : r.status = 429 := by
  simp only [Desk.refusal] at h
  split_ifs at h
  cases h
  rfl

lemma status_reply (call : AuthCall) : (Desk.reply app b env call).1.status ≠ 429 :=
  status_answer b app.settings env call

lemma status_invalid (errors : List ErrorDetail) : (invalid errors).status ≠ 429 :=
  (by decide : (422 : ℕ) ≠ 429)

lemma status_signup (body : SignupBody) : (Desk.signup app b env body).1.status ≠ 429 := by
  unfold Desk.signup
  split
  · exact status_invalid _
  · exact status_reply _

lemma status_login (body : LoginBody) : (Desk.login app b env body).1.status ≠ 429 := by
  unfold Desk.login
  split
  · exact status_invalid _
  · exact status_reply _

/-- The desk enters those that have passed. -/
lemma entries_answer (henabled : app.rateLimitEnabled = true) (k : Desk) (a : AuthArrival) :
    (k.answer app a).2.logins =
        k.logins ++ entriesOf (passed AuthRequest.isLogin [(a, (k.answer app a).1)]) ∧
      (k.answer app a).2.signups =
        k.signups ++ entriesOf (passed AuthRequest.isSignup [(a, (k.answer app a).1)]) := by
  unfold Desk.answer
  rcases hr : a.request with body | body | token | credentials | credentials | ⟨credentials, body⟩
  · rcases hdesk : Desk.refusal app 5 k.signups a with _ | r
    · simp [passed, entriesOf, hr, AuthRequest.isLogin, AuthRequest.isSignup, Desk.enter,
        henabled, status_signup]
    · simp [passed, entriesOf, hr, AuthRequest.isLogin, refusal_status hdesk]
  · rcases hdesk : Desk.refusal app 10 k.logins a with _ | r
    · simp [passed, entriesOf, hr, AuthRequest.isLogin, AuthRequest.isSignup, Desk.enter,
        henabled, status_login]
    · simp [passed, entriesOf, hr, AuthRequest.isSignup, refusal_status hdesk]
  all_goals simp [passed, entriesOf, hr, AuthRequest.isLogin, AuthRequest.isSignup]

lemma entries_run (henabled : app.rateLimitEnabled = true) (k : Desk) (arrivals : List AuthArrival) :
    (k.run app arrivals).logins =
        k.logins ++ entriesOf (passed AuthRequest.isLogin (arrivals.zip (k.answers app arrivals))) ∧
      (k.run app arrivals).signups =
        k.signups ++
          entriesOf (passed AuthRequest.isSignup (arrivals.zip (k.answers app arrivals))) := by
  induction arrivals generalizing k with
  | nil => simp [Desk.run, Desk.answers, passed, entriesOf]
  | cons a arrivals ih =>
    obtain ⟨hl, hs⟩ := entries_answer henabled k a
    obtain ⟨hl', hs'⟩ := ih (k.answer app a).2
    have hcons : ∀ p, entriesOf (passed p ((a :: arrivals).zip (k.answers app (a :: arrivals)))) =
        entriesOf (passed p [(a, (k.answer app a).1)]) ++
          entriesOf (passed p (arrivals.zip ((k.answer app a).2.answers app arrivals))) := by
      intro p
      rw [entriesOf, entriesOf, entriesOf, ← List.map_append, passed, passed, passed,
        ← List.filter_append]
      rfl
    rw [hcons, hcons]
    exact ⟨hl'.trans (by rw [hl, List.append_assoc]), hs'.trans (by rw [hs, List.append_assoc])⟩

lemma length_entries (p : AuthRequest → Bool) (answered : List (AuthArrival × AuthResponse))
    (host : String) (start : ℚ) :
    ((timesOf (entriesOf (passed p answered)) host).filter
        fun x => start ≤ x ∧ x < start + 60).length =
      (answered.filter fun e => p e.1.request ∧ e.1.host = host ∧
        (start ≤ e.1.now ∧ e.1.now < start + 60) ∧ e.2.status ≠ 429).length := by
  simp only [timesOf, entriesOf, passed, List.filter_map, List.length_map, List.filter_filter]
  congr 1
  refine List.filter_congr fun e _ => ?_
  simp only [Function.comp]
  by_cases hp : p e.1.request = true <;> by_cases hh : e.1.host = host <;>
    by_cases hs : e.2.status = 429 <;> simp [hp, hh, hs]

lemma length_passed_le {limiter : RateLimiter} {times : ℕ} {path : String}
    {entries : List (String × ℚ)} (h : ∃ past, Remembers limiter times path entries t past)
    (host : String) (start : ℚ) :
    ((timesOf entries host).filter fun x => start ≤ x ∧ x < start + 60).length ≤ times := by
  obtain ⟨past, h⟩ := h
  have hadmitted := h.admitted (host ++ ":" ++ path)
  rw [h.log_eq, h.times_eq, h.seconds_eq] at hadmitted
  refine hadmitted.length_filter_le _ fun x hx y hy hxy => ?_
  simp only [decide_eq_true_eq] at hx hxy
  linarith [hx.2, hxy.1]

end Runs

/-- Limits are enforced, and every email is taken as it is. -/
def openApp : AuthApp := ⟨plain, true, .ok⟩

/-- Ada signs up, and somebody at her host tries one password after the other. -/
def adaGuessed : List AuthArrival :=
  ⟨some "203.0.113.7", 0, midday, .signup ⟨"ada@example.com", "Ada", "Ada L", "Passw0rd"⟩⟩ ::
    List.replicate 11 ⟨some "203.0.113.7", 1, midday, .login ⟨"ada@example.com", "passw0rd"⟩⟩

lemma sorted_adaGuessed : adaGuessed.Pairwise fun a b => a.now ≤ b.now := by
  simp [adaGuessed]

end InventoryReservation.Auth
