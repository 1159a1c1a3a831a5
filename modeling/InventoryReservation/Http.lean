/-
# The HTTP interface

A request is answered with a status and a content.  The routers validate the body, run the service
in a transaction of its own, and put what it returns into an envelope; what is raised on the way is
answered by the handler of its type.
-/
import InventoryReservation.Schemas
import InventoryReservation.StockBook
import InventoryReservation.RowTxn.Reading

namespace InventoryReservation

open RowTxn

/-! ### Responses -/

structure ReservationItemResponse where
  productId : ℕ
  providerId : ℕ
  providerName : String
  qtyRequested : ℤ
  providerStatus : ProviderItemStatus
  providerHoldRef : Option String
  providerErrorMessage : Option String
deriving DecidableEq, Repr

structure ReservationResponse where
  id : ℕ
  userId : String
  status : ReservationStatus
  expiresAt : Datetime
  items : List ReservationItemResponse
deriving DecidableEq, Repr

structure OrderResponse where
  reservationId : ℕ
  userId : String
  status : OrderStatus
deriving DecidableEq, Repr

structure ProviderSyncResponse where
  updated : ℕ
  errors : List String
  message : String
deriving DecidableEq, Repr

/-- The relationship `provider` of an item, as a router finds it. -/
inductive ProviderAttr
  /-- It was loaded with the item. -/
  | loaded (provider : Option InventoryProvider)
  /-- It would be loaded now, by a query. -/
  | lazy

/-- `item.provider.name`, if there is a provider.  The routers read it outside of the calls that may
wait for the database. -/
def ProviderAttr.name : ProviderAttr → Except PyErr String
  | loaded provider => .ok ((provider.map InventoryProvider.name).getD "")
  | lazy => .error .missingGreenlet

def ReservationItemResponse.fromItem (provider : ProviderAttr) (item : ReservationItem) :
    Except PyErr ReservationItemResponse := do
  let providerName ← provider.name
  return {
    productId := item.productId
    providerId := item.providerId
    providerName := providerName
    qtyRequested := item.qtyRequested
    providerStatus := item.providerStatus
    providerHoldRef := item.providerHoldRef
    providerErrorMessage := item.providerErrorMessage }

def ReservationResponse.fromReservation (cfg : Settings) (id : ℕ) (reservation : Reservation)
    (provider : ReservationItem → ProviderAttr) : Except PyErr ReservationResponse := do
  let items ← reservation.items.mapM fun i => ReservationItemResponse.fromItem (provider i) i
  return {
    id := id
    userId := reservation.userId
    status := reservation.status
    expiresAt := cfg.driver.load reservation.expiresAt
    items := items }

def OrderResponse.modelValidate (order : Order) : OrderResponse :=
  ⟨order.reservationId, order.userId, order.status⟩

def ProviderSyncResponse.ofReport (report : SyncReport) : ProviderSyncResponse :=
  ⟨report.updated, report.errors, report.message.getD ""⟩

/-- The field `data` of an envelope. -/
inductive Data
  | reservation (r : ReservationResponse)
  | order (o : OrderResponse)
  | cancelled (reservationId : ℕ)
  | availability (productId : ℕ) (sources : List Source)
  | sync (r : ProviderSyncResponse)
deriving DecidableEq, Repr

/-- The field `error` of an envelope. -/
inductive ErrorBody
  | detail (text : String)
  | fields (errors : List (String × List String))
deriving DecidableEq, Repr

inductive Content
  | empty
  | success (code : ℕ) (message : String) (data : Data)
  | failure (code : ℕ) (message : String) (error : ErrorBody)
deriving DecidableEq, Repr

structure HttpResponse where
  status : ℕ
  content : Content
deriving DecidableEq, Repr

namespace HttpResponse

def ok (data : Data) : HttpResponse := ⟨200, .success 200 "Ok" data⟩

def created (data : Data) : HttpResponse := ⟨201, .success 201 "Created" data⟩

def noContent : HttpResponse := ⟨204, .empty⟩

end HttpResponse

/-! ### Handlers of exceptions -/

/-- The exceptions of `core/exceptions.py`. -/
inductive AppError
  | notFoundError
  | conflictError
  | authenticationError
  | inactiveAccountError
  | insufficientStockError
  | reservationNotFound
  | reservationStateError
  | duplicateOrderError
deriving DecidableEq, Repr

def errorMessages : List (ℕ × String) := [
  (400, "Bad Request"),
  (401, "Unauthenticated"),
  (403, "Unauthorized"),
  (404, "Not Found"),
  (405, "Method Not Allowed"),
  (409, "Conflict"),
  (422, "Validation Exception"),
  (429, "Too Many Requests"),
  (500, "Unexpected Exception")]

def domainStatusMap : List (AppError × ℕ) := [
  (.notFoundError, 404),
  (.reservationNotFound, 404),
  (.conflictError, 409),
  (.insufficientStockError, 409),
  (.duplicateOrderError, 409),
  (.authenticationError, 401),
  (.inactiveAccountError, 403),
  (.reservationStateError, 422)]

/-- The message of an error status. -/
def errorMessage (status : ℕ) : String := (errorMessages.lookup status).getD "Something went wrong"

def appErrorHandler (type : AppError) (detail : String) : HttpResponse :=
  let status := (domainStatusMap.lookup type).getD 400
  ⟨status, .failure status (errorMessage status) (.detail detail)⟩

def validationExceptionHandler (errors : List ErrorDetail) : HttpResponse :=
  ⟨422, .failure 422 "Validation Exception"
    (.fields (Groups.of (errors.map fun err => (err.field, err.msg))))⟩

def unhandledExceptionHandler : HttpResponse :=
  ⟨500, .failure 500 "Unexpected Exception" (.detail "An unexpected error occurred.")⟩

/-- The type and the detail of an exception that is an `AppError`. -/
def PyErr.appError : PyErr → Option (AppError × String)
  | .insufficientStockError detail => some (.insufficientStockError, detail)
  | .reservationNotFound detail => some (.reservationNotFound, detail)
  | .reservationStateError detail => some (.reservationStateError, detail)
  | .duplicateOrderError detail => some (.duplicateOrderError, detail)
  | .notFoundError detail => some (.notFoundError, detail)
  | _ => none

/-- An exception is handed to the handler of its type. -/
def PyErr.response (e : PyErr) : HttpResponse :=
  match e.appError with
  | some (type, detail) => appErrorHandler type detail
  | none => unhandledExceptionHandler

/-! ### Routers -/

/-- A request with its path parameter or its body. -/
inductive HttpRequest
  | createReservation (body : CreateBody)
  | getReservation (reservationId : ℕ)
  | confirmReservation (reservationId : ℕ)
  | cancelReservation (reservationId : ℕ)
  | paymentOutcome (body : PaymentBody)
  | getAvailability (productId : ℕ)
  | syncProvider (providerId : ℕ)
deriving DecidableEq, Repr

/-- A service in the session of `get_db`, and the response that the router makes of what it returns:
the session commits when both are done, and rolls back when one of them raises. -/
def route {α : Type} (env : Env) (d : Db) (service : Svc α)
    (respond : Db → α → Except PyErr HttpResponse) : HttpResponse × Db :=
  let out := transact env d (service.commit .integrityError)
  match out.result.bind (respond out.db) with
  | .ok response => (response, out.db)
  | .error e => (e.response, d)

def createReservation (cfg : Settings) (env : Env) (d : Db) (body : CreateBody) :
    HttpResponse × Db :=
  match body.validate with
  | .error errors => (validationExceptionHandler errors, d)
  | .ok body => route env d (ReservationService.create cfg body.userId body.items) fun _ r => do
    -- the items were added and not selected, and `refresh` loads the columns of an item alone
    let response ← ReservationResponse.fromReservation cfg r.1 r.2 fun _ => .lazy
    return .created (.reservation response)

def getReservation (cfg : Settings) (env : Env) (d : Db) (reservationId : ℕ) : HttpResponse × Db :=
  route env d (ReservationService.getWithItems reservationId) fun d reservation => do
    let response ← ReservationResponse.fromReservation cfg reservationId reservation fun i =>
      .loaded (d.providers.get i.providerId)
    return .ok (.reservation response)

def confirmReservation (cfg : Settings) (env : Env) (d : Db) (reservationId : ℕ) :
    HttpResponse × Db :=
  route env d (ReservationService.confirm cfg reservationId) fun _ order =>
    return .ok (.order (.modelValidate order))

def cancelReservation (env : Env) (d : Db) (reservationId : ℕ) : HttpResponse × Db :=
  route env d (ReservationService.cancel reservationId) fun _ _ => return .noContent

/-- The router of `POST /payment-outcome`. -/
def postPaymentOutcome (cfg : Settings) (env : Env) (d : Db) (body : PaymentBody) :
    HttpResponse × Db :=
  match body.validate with
  | .error errors => (validationExceptionHandler errors, d)
  | .ok body =>
    match body.outcome with
    | .success => route env d (ReservationService.confirm cfg body.reservationId) fun _ order =>
      return .ok (.order (.modelValidate order))
    | .failed => route env d (ReservationService.cancel body.reservationId) fun _ _ =>
      return .ok (.cancelled body.reservationId)

def getAvailability (env : Env) (d : Db) (productId : ℕ) : HttpResponse × Db :=
  route env d (InventoryService.getAvailability productId) fun _ sources =>
    return .ok (.availability productId sources)

def syncProvider (env : Env) (d : Db) (providerId : ℕ) : HttpResponse × Db :=
  route env d (InventoryService.syncFromProvider providerId) fun _ report =>
    return .ok (.sync (.ofReport report))

/-- The response to a request, and the database after it. -/
def handle (cfg : Settings) (env : Env) (d : Db) : HttpRequest → HttpResponse × Db
  | .createReservation body => createReservation cfg env d body
  | .getReservation x => getReservation cfg env d x
  | .confirmReservation x => confirmReservation cfg env d x
  | .cancelReservation x => cancelReservation env d x
  | .paymentOutcome body => postPaymentOutcome cfg env d body
  | .getAvailability p => getAvailability env d p
  | .syncProvider p => syncProvider env d p

end InventoryReservation
