/-
# The routes of the accounts

A request to sign up or to log in meets the limiter of its route first.  Then the body is validated,
and what has passed is a call of the service.
-/
import InventoryReservation.AuthApi
import InventoryReservation.UserSchemas
import InventoryReservation.RateLimit

namespace InventoryReservation.Auth

open RowTxn

open RateLimit (RateLimiter CallError)

/-- The settings of the routes, and the check of an email. -/
structure AuthApp where
  settings : AuthSettings
  rateLimitEnabled : Bool
  validateEmail : String → Except String String

inductive AuthRequest
  | signup (body : SignupBody)
  | login (body : LoginBody)
  | refreshToken (refreshToken : String)
  | logout (credentials : Option String)
  | getProfile (credentials : Option String)
  | updateProfile (credentials : Option String) (body : UpdateBody)
deriving DecidableEq, Repr

/-- A request from a client, at a time of the monotonic clock. -/
structure AuthArrival where
  client : Option String
  now : ℚ
  env : AuthEnv
  request : AuthRequest

/-- The limiters of `auth_router.py`, and the database. -/
structure AuthState where
  signupLimiter : RateLimiter
  loginLimiter : RateLimiter
  db : UserDb

def AuthState.init : AuthState := ⟨.init 5 60, .init 10 60, .empty⟩

def signupPath : String := "/api/v1/auth/signup"

def loginPath : String := "/api/v1/auth/login"

/-- The response to what a limiter raises. -/
def limitResponse : CallError → AuthResponse
  | .http e => httpExceptionHandler e.statusCode e.detail e.headers
  | .indexError => .ofHttp unhandledExceptionHandler

def invalid (errors : List ErrorDetail) : AuthResponse := .ofHttp (validationExceptionHandler errors)

namespace AuthApp

variable (app : AuthApp) (env : AuthEnv) (d : UserDb)

/-- A call of the service in a session of its own. -/
def route (call : AuthCall) : AuthResponse × UserDb :=
  let out := serve app.settings env d call
  (respond out.1, out.2)

def signup (body : SignupBody) : AuthResponse × UserDb :=
  match body.validate app.validateEmail with
  | .error errors => (invalid errors, d)
  | .ok body => app.route env d (.signup body.email body.username body.fullName body.password)

def login (body : LoginBody) : AuthResponse × UserDb :=
  match body.validate app.validateEmail with
  | .error errors => (invalid errors, d)
  | .ok body => app.route env d (.login body.email body.password)

/-- The user is looked up before an invalid body is refused. -/
def updateProfile (credentials : Option String) (body : UpdateBody) : AuthResponse × UserDb :=
  match body.validate with
  | .ok body => app.route env d (.updateProfile credentials body.fullName body.password)
  | .error errors =>
    match (serve app.settings env d (.getProfile credentials)).1 with
    | .error e => (e.response, d)
    | .ok _ => (invalid errors, d)

/-- The response to a request, and the state after it. -/
def handle (st : AuthState) (a : AuthArrival) : AuthResponse × AuthState :=
  match a.request with
  | .signup body =>
    match st.signupLimiter.call app.rateLimitEnabled ⟨a.client, signupPath⟩ a.now with
    | (.error e, limiter) => (limitResponse e, { st with signupLimiter := limiter })
    | (.ok (), limiter) =>
      let out := app.signup a.env st.db body
      (out.1, { st with signupLimiter := limiter, db := out.2 })
  | .login body =>
    match st.loginLimiter.call app.rateLimitEnabled ⟨a.client, loginPath⟩ a.now with
    | (.error e, limiter) => (limitResponse e, { st with loginLimiter := limiter })
    | (.ok (), limiter) =>
      let out := app.login a.env st.db body
      (out.1, { st with loginLimiter := limiter, db := out.2 })
  | .refreshToken token =>
    let out := app.route a.env st.db (.refresh token)
    (out.1, { st with db := out.2 })
  | .logout credentials =>
    let out := app.route a.env st.db (.logout credentials)
    (out.1, { st with db := out.2 })
  | .getProfile credentials =>
    let out := app.route a.env st.db (.getProfile credentials)
    (out.1, { st with db := out.2 })
  | .updateProfile credentials body =>
    let out := app.updateProfile a.env st.db credentials body
    (out.1, { st with db := out.2 })

/-- The state after requests that come one after the other, and the responses to them. -/
def run (st : AuthState) (arrivals : List AuthArrival) : AuthState :=
  arrivals.foldl (fun st a => (app.handle st a).2) st

def responses : AuthState → List AuthArrival → List AuthResponse
  | _, [] => []
  | st, a :: arrivals => (app.handle st a).1 :: responses (app.handle st a).2 arrivals

end AuthApp

end InventoryReservation.Auth
