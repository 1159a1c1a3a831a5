/-
# The authentication interface

The dependency `get_current_user` and the routers of `auth_router.py`, as programs of one session.
A request is answered in a transaction of its own, and an exception by the handler of its type.
The bodies are those that have passed validation.
-/
import InventoryReservation.Accounts

namespace InventoryReservation.Auth

open RowTxn

variable (cfg : AuthSettings)

/-! ### Dependencies -/

/-- `headers={"WWW-Authenticate": "Bearer"}`. -/
def bearer : List (String × String) := [("WWW-Authenticate", "Bearer")]

/-- The claim `sub`, if it is there and the token is of the type: `sub is None or token_type != ...`
is refused. -/
def Claims.subjectOf (payload : Claims) (type : TokenType) : Option String :=
  if payload.type = some type.value then payload.sub else none

/-- The user with the id that `int(sub)` gives; no row has a negative id. -/
def subject (sub : String) : UserSvc (Option (ℕ × User)) :=
  match int sub with
  | none => throw .valueError
  | some (.negSucc _) => pure none
  | some (.ofNat id) => do
    let user ← UserRepository.getById id
    return user.map (id, ·)

def getCurrentUser (credentials : Option String) : UserSvc (ℕ × User) := do
  match credentials with
  | none => throw (.httpException 401 "Not authenticated." bearer)
  | some token =>
    match ← decodeToken cfg token with
    | none => throw (.httpException 401 "Could not validate credentials." bearer)
    | some payload =>
      match payload.subjectOf .access with
      | none => throw (.httpException 401 "Invalid token." bearer)
      | some sub =>
        match ← subject sub with
        | none => throw (.httpException 401 "User not found." bearer)
        | some (id, user) =>
          if user.isActive then return (id, user)
          else throw (.httpException 403 "Account is inactive." [])

/-! ### Responses -/

structure UserResponse where
  id : ℕ
  email : String
  username : String
  fullName : String
  isActive : Bool
deriving DecidableEq, Repr

def UserResponse.modelValidate (id : ℕ) (user : User) : UserResponse :=
  ⟨id, user.email, user.username, user.fullName, user.isActive⟩

structure TokenResponse where
  accessToken : String
  refreshToken : String
  tokenType : String := "bearer"
deriving DecidableEq, Repr

/-- What a router returns. -/
inductive AuthReply
  | created (id : ℕ) (user : User)
  | tokens (id : ℕ) (t : TokenResponse)
  | noContent (id : ℕ)
  | profile (id : ℕ) (user : User)
deriving DecidableEq, Repr

/-- The field `data` of an envelope. -/
inductive AuthData
  | user (u : UserResponse)
  | tokens (t : TokenResponse)
deriving DecidableEq, Repr

inductive AuthContent
  | success (code : ℕ) (message : String) (data : AuthData)
  | plain (content : Content)
deriving DecidableEq, Repr

structure AuthResponse where
  status : ℕ
  headers : List (String × String)
  content : AuthContent
deriving DecidableEq, Repr

def AuthResponse.ofHttp (r : HttpResponse) : AuthResponse := ⟨r.status, [], .plain r.content⟩

def httpExceptionHandler (status : ℕ) (detail : String) (headers : List (String × String)) :
    AuthResponse :=
  ⟨status, headers, .plain (.failure status (errorMessage status) (.detail detail))⟩

/-- An exception is handed to the handler of its type. -/
def AuthErr.response : AuthErr → AuthResponse
  | .appError type detail => .ofHttp (appErrorHandler type detail)
  | .httpException status detail headers => httpExceptionHandler status detail headers
  | _ => .ofHttp unhandledExceptionHandler

def AuthReply.response : AuthReply → AuthResponse
  | .created id user => ⟨201, [], .success 201 "Created" (.user (.modelValidate id user))⟩
  | .tokens _ t => ⟨200, [], .success 200 "Ok" (.tokens t)⟩
  | .noContent _ => .ofHttp .noContent
  | .profile id user => ⟨200, [], .success 200 "Ok" (.user (.modelValidate id user))⟩

/-! ### Routers -/

/-- Both tokens for a user. -/
def issueTokens (id : ℕ) : UserSvc AuthReply := do
  let accessToken ← createAccessToken cfg id
  let refreshToken ← createRefreshToken cfg id
  return .tokens id { accessToken, refreshToken }

def signup (email username fullName password : String) : UserSvc AuthReply := do
  let (id, user) ← UserService.register cfg email username fullName password
  return .created id user

def login (email password : String) : UserSvc AuthReply := do
  let (id, _) ← UserService.authenticate cfg email password
  issueTokens cfg id

/-- The service's `get_by_id` raises for an id without a row. -/
def refreshSubject (sub : String) : UserSvc (ℕ × User) :=
  match int sub with
  | none => throw .valueError
  | some (.ofNat id) => UserService.getById id
  | some (.negSucc n) =>
    throw (.appError .notFoundError s!"User with id {Int.negSucc n} not found.")

def refreshToken (token : String) : UserSvc AuthReply := do
  match ← decodeToken cfg token with
  | none => throw (.httpException 401 "Invalid refresh token." [])
  | some payload =>
    match payload.subjectOf .refresh with
    | none => throw (.httpException 401 "Invalid refresh token." [])
    | some sub =>
      let (id, user) ← refreshSubject sub
      if user.isActive then issueTokens cfg id
      else throw (.httpException 403 "Account is inactive." [])

def logout (credentials : Option String) : UserSvc AuthReply := do
  let (id, _) ← getCurrentUser cfg credentials
  return .noContent id

def getProfile (credentials : Option String) : UserSvc AuthReply := do
  let (id, user) ← getCurrentUser cfg credentials
  return .profile id user

def updateProfile (credentials fullName password : Option String) : UserSvc AuthReply := do
  let (id, _) ← getCurrentUser cfg credentials
  let (id, user) ← UserService.updateProfile cfg id fullName password
  return .profile id user

/-! ### Calls -/

/-- A request, or the service's `toggle_active`, which no router calls. -/
inductive AuthCall
  | signup (email username fullName password : String)
  | login (email password : String)
  | refresh (token : String)
  | logout (credentials : Option String)
  | getProfile (credentials : Option String)
  | updateProfile (credentials fullName password : Option String)
  | toggleActive (id : ℕ)
deriving DecidableEq, Repr

namespace AuthCall

def program : AuthCall → UserSvc AuthReply
  | signup email username fullName password => Auth.signup cfg email username fullName password
  | login email password => Auth.login cfg email password
  | refresh token => refreshToken cfg token
  | logout credentials => Auth.logout cfg credentials
  | getProfile credentials => Auth.getProfile cfg credentials
  | updateProfile credentials fullName password =>
    Auth.updateProfile cfg credentials fullName password
  | toggleActive id => do
    let (id, user) ← UserService.toggleActive id
    return .profile id user

/-- The call in the session of `get_db`. -/
def transaction (call : AuthCall) : UserSvc AuthReply := (call.program cfg).commit .integrityError

end AuthCall

/-- A call is served: what it returns or raises, and the database after it. -/
def serve (env : AuthEnv) (d : UserDb) (call : AuthCall) : Except AuthErr AuthReply × UserDb :=
  let out := transact env d (call.transaction cfg)
  (out.result, out.db)

/-- The response to a call. -/
def respond : Except AuthErr AuthReply → AuthResponse
  | .ok reply => reply.response
  | .error e => e.response

end InventoryReservation.Auth
