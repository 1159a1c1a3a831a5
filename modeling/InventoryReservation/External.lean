/-
# What the service sees of the outside world

A program asks for the time, for the order in which the database returns rows that it is free
to choose, and for the reply to an HTTP request.  The answers are whatever they are; every
question a transaction asks is different from its other questions, so that no two answers of a
transaction depend on each other.
-/
import InventoryReservation.RowTxn.Session
import InventoryReservation.Schema

namespace InventoryReservation

open RowTxn

/-! ### Times -/

/-- A Python `datetime` in UTC, with or without its time zone. -/
inductive Datetime
  | naive (instant : ℤ)
  | aware (instant : ℤ)
deriving DecidableEq, Repr

/-- The operator `<`; it raises a `TypeError` on a naive and an aware `datetime`. -/
def Datetime.lt? : Datetime → Datetime → Option Bool
  | naive a, naive b => some (a < b)
  | aware a, aware b => some (a < b)
  | _, _ => none

/-- How a driver reads a `DateTime(timezone=True)` column back. -/
inductive Driver
  | naive
  | aware
deriving DecidableEq, Repr

def Driver.load : Driver → ℤ → Datetime
  | naive => .naive
  | aware => .aware

structure Settings where
  reservationTtlMinutes : ℤ
  driver : Driver

/-- `timedelta(minutes=n)`. -/
def minutes (n : ℤ) : ℤ := n * 60000000

/-! ### Exceptions -/

/-- The exceptions, with their text. -/
inductive PyErr
  | insufficientStockError (detail : String)
  | reservationNotFound (detail : String)
  | reservationStateError (detail : String)
  | duplicateOrderError (detail : String)
  | notFoundError (detail : String)
  | capabilityNotSupported (text : String)
  | providerTimeout (text : String)
  | providerUnavailable (text : String)
  | insufficientProviderStock (text : String)
  | valueError (text : String)
  | keyError (key : String)
  | typeError (text : String)
  | attributeError (text : String)
  | jsonDecodeError
  /-- An exception of the HTTP client other than a timeout or an error status. -/
  | httpxError (text : String)
  /-- The database refuses an `INSERT` or an `UPDATE`. -/
  | integrityError
  /-- The database refuses a value that is out of the range of its column. -/
  | dataError
  /-- A relationship that is not loaded is read where the session cannot wait for a query. -/
  | missingGreenlet
deriving DecidableEq, Repr

/-! ### HTTP -/

inductive Method
  | get
  | post
  | delete
deriving DecidableEq, Repr

/-- The JSON body of `POST /holds`. -/
structure HoldBody where
  sku : String
  qty : ℤ
  reservationId : ℕ
deriving DecidableEq, Repr

structure Request where
  method : Method
  url : String
  headers : List (String × String)
  timeout : ℕ
  json : Option HoldBody
deriving DecidableEq, Repr

/-- A response body as `resp.json()` reads it.  Of an object the keys `qty` (none if it is
missing, `some none` if `int` fails on its value), `hold_ref` and `detail` are used. -/
inductive Body
  | invalid
  | notObject
  | object (qty : Option (Option ℤ)) (holdRef : Option String) (detail : Option String)
deriving DecidableEq, Repr

/-- A response; `error` is the text of the exception that `raise_for_status` raises on it. -/
structure Response where
  status : ℕ
  body : Body
  error : String
deriving DecidableEq, Repr

def Response.isSuccess (r : Response) : Bool := 200 ≤ r.status && r.status < 300

/-- How an HTTP call ends: with a response, with `httpx.TimeoutException`, or with another
exception. -/
inductive HttpOutcome
  | response (r : Response)
  | timeout
  | error (text : String)
deriving DecidableEq, Repr

/-- What an HTTP call is about: an item of a reservation, or an inventory row. -/
inductive Call
  | item (reservationId index : ℕ)
  | row (inventoryId : ℕ)
deriving DecidableEq, Repr

/-! ### Questions -/

inductive Query
  /-- `datetime.now(UTC)`. -/
  | now (reading : ℕ)
  /-- Which of several rows that an `ORDER BY` ranks first comes first. -/
  | tie (item productId : ℕ)
  /-- The order in which a `SELECT` without `ORDER BY` visits the reservations. -/
  | scan
  | http (call : Call) (request : Request)
deriving DecidableEq, Repr

abbrev Answer : Query → Type
  | .now _ => ℤ
  | .tie _ _ => ℕ
  | .scan => List ℕ
  | .http _ _ => HttpOutcome

/-- The answers of the outside world during a transaction. -/
abbrev Env : Type := (q : Query) → Answer q

/-- Programs of the service. -/
abbrev Svc (α : Type) : Type := Prog Db RowKey RowOf Query Answer PyErr α

abbrev Sess : Type := Session RowKey RowOf Query Answer

/-- An object that the program goes on with; `None` has no attributes. -/
def obj (k : RowKey) : Svc (RowOf k) :=
  .get k fun
    | some v => pure v
    | none => throw (.attributeError "'NoneType' object has no attribute")

/-- `await db.flush()`. -/
def flush : Svc Unit :=
  .flush fun ok => if ok then pure () else throw .integrityError

end InventoryReservation
