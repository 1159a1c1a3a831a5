/-
# User accounts

The table `users` with its two unique indexes, and the service of `services/user_service.py`.  An
entry of a unique index is a row of its own, which a second `INSERT` under the same key meets; the
keys are those of the collation, under which strings that differ in case are equal.
-/
import InventoryReservation.Http
import InventoryReservation.Security

namespace InventoryReservation.Auth

open RowTxn

/-! ### The table -/

structure User where
  email : String
  username : String
  fullName : String
  hashedPassword : String
  isActive : Bool
deriving DecidableEq, Repr

def User.merge (b c r : User) : User where
  email := col b.email c.email r.email
  username := col b.username c.username r.username
  fullName := col b.fullName c.fullName r.fullName
  hashedPassword := col b.hashedPassword c.hashedPassword r.hashedPassword
  isActive := col b.isActive c.isActive r.isActive

/-- The users, and the entries of the indexes on `email` and `username`. -/
structure UserDb where
  users : Table User
  emails : String → Option ℕ
  usernames : String → Option ℕ

inductive UserKey
  | user (id : ℕ)
  | email (key : String)
  | username (key : String)
deriving DecidableEq, Repr

/-- An index entry is the id of the user. -/
abbrev UserRow : UserKey → Type
  | .user _ => User
  | .email _ => ℕ
  | .username _ => ℕ

namespace UserDb

def empty : UserDb := ⟨.empty, fun _ => none, fun _ => none⟩

def row (d : UserDb) : (k : UserKey) → Option (UserRow k)
  | .user id => d.users.get id
  | .email key => d.emails key
  | .username key => d.usernames key

def write (d : UserDb) : (k : UserKey) → UserRow k → UserDb
  | .user id, v => { d with users := d.users.set id v }
  | .email key, id => { d with emails := Function.update d.emails key (some id) }
  | .username key, id => { d with usernames := Function.update d.usernames key (some id) }

end UserDb

def mergeUserRow : (k : UserKey) → UserRow k → UserRow k → UserRow k → UserRow k
  | .user _ => User.merge
  | .email _ => col
  | .username _ => col

instance : RowStore UserDb UserKey UserRow where
  row := UserDb.row
  write := UserDb.write
  merge := mergeUserRow
  fresh d := d.users.fresh
  row_write_self d k v := by
    cases k <;> simp [UserDb.row, UserDb.write]
  row_write_of_ne d k v k' h := by
    cases k <;> cases k' <;> simp_all [UserDb.row, UserDb.write, Table.get_set_of_ne]
  merge_base k b c := by
    cases k <;> simp [mergeUserRow, User.merge]

namespace UserDb

@[simp] lemma row_user (d : UserDb) (id : ℕ) : RowStore.row d (.user id) = d.users.get id := rfl

@[simp] lemma row_email (d : UserDb) (key : String) :
    RowStore.row d (.email key) = d.emails key := rfl

@[simp] lemma row_username (d : UserDb) (key : String) :
    RowStore.row d (.username key) = d.usernames key := rfl

end UserDb

/-! ### Questions and exceptions -/

/-- A reading of the clock, by `jwt.decode` or for the expiry of a new token. -/
inductive Reading
  | decode
  | access
  | refresh
deriving DecidableEq, Repr

inductive AuthQuery
  /-- `datetime.now(UTC)`. -/
  | now (reading : Reading)
  | gensalt
deriving DecidableEq, Repr

abbrev AuthAnswer : AuthQuery → Type
  | .now _ => ℤ
  | .gensalt => String

abbrev AuthEnv : Type := (q : AuthQuery) → AuthAnswer q

inductive AuthErr
  | appError (type : AppError) (detail : String)
  | httpException (status : ℕ) (detail : String) (headers : List (String × String))
  | valueError
  | integrityError
  /-- `refresh` finds no row. -/
  | invalidRequestError
deriving DecidableEq, Repr

/-- Programs of the service. -/
abbrev UserSvc (α : Type) : Type := Prog UserDb UserKey UserRow AuthQuery AuthAnswer AuthErr α

abbrev UserSess : Type := Session UserKey UserRow AuthQuery AuthAnswer

variable (cfg : AuthSettings)

/-! ### Security -/

def getPasswordHash (password : String) : UserSvc String :=
  .ask .gensalt fun salt =>
  match cfg.bcrypt.hashpw password salt with
  | some hashed => pure hashed
  | none => throw .valueError

def verifyPassword (plainPassword hashedPassword : String) : UserSvc Bool :=
  match cfg.bcrypt.checkpw plainPassword hashedPassword with
  | some b => pure b
  | none => throw .valueError

/-- The expiry of a token that is made now. -/
def accessExpire (now : ℤ) : ℤ := now + minutes cfg.accessTokenExpireMinutes

def refreshExpire (now : ℤ) : ℤ := now + minutes (cfg.refreshTokenExpireDays * 1440)

def createAccessToken (subject : ℕ) : UserSvc String :=
  .ask (.now .access) fun now =>
  pure (cfg.jwt.encode (toString subject) (accessExpire cfg now) .access)

def createRefreshToken (subject : ℕ) : UserSvc String :=
  .ask (.now .refresh) fun now =>
  pure (cfg.jwt.encode (toString subject) (refreshExpire cfg now) .refresh)

def decodeToken (token : String) : UserSvc (Option Claims) :=
  .ask (.now .decode) fun now => pure (cfg.jwt.decode now token)

/-! ### Repository -/

/-- The users whose email, or username, is equal to a string under the collation. -/
def UserDb.whose (d : UserDb) (column : User → String) (value : String) : List ℕ :=
  (d.users.rows.filter fun r => cfg.collate (column r.2) = cfg.collate value).map Prod.fst

namespace UserRepository

def getById (id : ℕ) : UserSvc (Option User) :=
  .read (fun _ => [.user id]) fun d =>
  match d.users.get id with
  | none => pure none
  | some _ => .get (.user id) pure

def getByEmail (email : String) : UserSvc (Option (ℕ × User)) :=
  .read (fun d => ((d.whose cfg User.email email).head?.map UserKey.user).toList) fun d =>
  match (d.whose cfg User.email email).head? with
  | none => pure none
  | some id => .get (.user id) fun user => pure (user.map (id, ·))

def emailExists (email : String) : UserSvc Bool :=
  .read (fun _ => []) fun d => pure (d.whose cfg User.email email).head?.isSome

def usernameExists (username : String) : UserSvc Bool :=
  .read (fun _ => []) fun d => pure (d.whose cfg User.username username).head?.isSome

/-- `db.refresh`: the attributes of an object as a `SELECT` reads them now. -/
def refresh (id : ℕ) : UserSvc (ℕ × User) :=
  .read (fun _ => []) fun d =>
  match d.users.get id with
  | some user => pure (id, user)
  | none => throw .invalidRequestError

/-- `await db.flush()`, and `refresh`. -/
def flushRefresh (id : ℕ) : UserSvc (ℕ × User) :=
  .flush fun ok => if ok then refresh id else throw .integrityError

/-- The row and its index entries are inserted together. -/
def create (user : User) : UserSvc (ℕ × User) :=
  .alloc fun id =>
  .insert (.user id) user <|
  .insert (.email (cfg.collate user.email)) id <|
  .insert (.username (cfg.collate user.username)) id <|
  flushRefresh id

end UserRepository

/-! ### Service -/

namespace UserService

def getById (id : ℕ) : UserSvc (ℕ × User) := do
  match ← UserRepository.getById id with
  | none => throw (.appError .notFoundError s!"User with id {id} not found.")
  | some user => return (id, user)

def register (email username fullName password : String) : UserSvc (ℕ × User) := do
  if ← UserRepository.emailExists cfg email then
    throw (.appError .conflictError "A user with this email already exists.")
  else if ← UserRepository.usernameExists cfg username then
    throw (.appError .conflictError "A user with this username already exists.")
  else
    let hashedPassword ← getPasswordHash cfg password
    UserRepository.create cfg ⟨email, username, fullName, hashedPassword, true⟩

def authenticate (email password : String) : UserSvc (ℕ × User) := do
  match ← UserRepository.getByEmail cfg email with
  | none => throw (.appError .authenticationError "Invalid email or password.")
  | some (id, user) =>
    if ← verifyPassword cfg password user.hashedPassword then
      if user.isActive then return (id, user)
      else throw (.appError .inactiveAccountError "Account is inactive.")
    else throw (.appError .authenticationError "Invalid email or password.")

def setFullName (id : ℕ) : Option String → UserSvc Unit
  | none => pure ()
  | some fullName => .modify (.user id) (fun user => { user with fullName := fullName }) (pure ())

def setPassword (id : ℕ) : Option String → UserSvc Unit
  | none => pure ()
  | some password => do
    let hashedPassword ← getPasswordHash cfg password
    .modify (.user id) (fun user => { user with hashedPassword := hashedPassword }) (pure ())

/-- The user is an object of the session. -/
def updateProfile (id : ℕ) (fullName password : Option String) : UserSvc (ℕ × User) := do
  setFullName id fullName
  setPassword cfg id password
  UserRepository.flushRefresh id

def toggleActive (id : ℕ) : UserSvc (ℕ × User) := do
  let _ ← getById id
  .modify (.user id) (fun user => { user with isActive := !user.isActive })
    (UserRepository.flushRefresh id)

end UserService

end InventoryReservation.Auth
