/-
# Provider adapters

`ExternalHttpProviderAdapter` calls a REST API, `InternalProviderAdapter` works on the
inventory row of the session, and `resolve` chooses between them.
-/
import InventoryReservation.External

namespace InventoryReservation

open RowTxn

/-- `s.rstrip("/")`. -/
def rstripSlash (s : String) : String :=
  String.ofList (s.toList.reverse.dropWhile (· = '/')).reverse

/-- `d[key]` of a JSON object. -/
def item (d : List (String × String)) (key : String) : Except PyErr String :=
  match d.lookup key with
  | some v => .ok v
  | none => .error (.keyError key)

structure ExternalHttpProviderAdapter where
  name : String
  capabilities : List (String × Bool)
  baseUrl : String
  timeout : ℕ
  headers : List (String × String)

namespace ExternalHttpProviderAdapter

def buildAuthHeaders (authConfig : List (String × String)) :
    Except PyErr (List (String × String)) :=
  match authConfig.lookup "type" with
  | some "api_key" => do
    let header ← item authConfig "header"
    let value ← item authConfig "value"
    return [(header, value)]
  | some "bearer" => do
    let token ← item authConfig "token"
    return [("Authorization", s!"Bearer {token}")]
  | _ => return []

def new (provider : InventoryProvider) : Except PyErr ExternalHttpProviderAdapter := do
  let headers ← buildAuthHeaders (provider.authConfig.getD [])
  return {
    name := provider.name
    capabilities := provider.capabilities
    baseUrl := rstripSlash (provider.baseUrl.getD "")
    timeout := provider.timeoutSeconds
    headers := headers }

variable (a : ExternalHttpProviderAdapter)

def requireCapability (cap : String) : Except PyErr Unit :=
  if (a.capabilities.lookup cap).getD false then .ok ()
  else .error (.capabilityNotSupported s!"Provider '{a.name}' does not support '{cap}'")

def request (method : Method) (path : String) (json : Option HoldBody) : Request where
  method := method
  url := s!"{a.baseUrl}{path}"
  headers := a.headers
  timeout := a.timeout
  json := json

def stockRequest (sku : String) : Request := a.request .get s!"/stock/{sku}" none

def holdRequest (sku : String) (qty : ℤ) (reservationId : ℕ) : Request :=
  a.request .post "/holds" (some ⟨sku, qty, reservationId⟩)

def releaseRequest (holdRef : String) : Request := a.request .delete s!"/holds/{holdRef}" none

def confirmRequest (holdRef : String) : Request :=
  a.request .post s!"/holds/{holdRef}/confirm" none

/-- `resp.raise_for_status()`, with `httpx.HTTPStatusError` mapped to `ProviderUnavailable`. -/
def raiseForStatus (r : Response) : Except PyErr Unit :=
  if r.isSuccess then .ok () else .error (.providerUnavailable r.error)

def stockReply (sku : String) : HttpOutcome → Except PyErr ℤ
  | .timeout => .error (.providerTimeout s!"check_stock timed out for sku={sku}")
  | .error text => .error (.httpxError text)
  | .response r => do
    raiseForStatus r
    match r.body with
    | .invalid => .error .jsonDecodeError
    | .notObject => .error (.typeError "indices must be integers")
    | .object none _ _ => .error (.keyError "qty")
    | .object (some none) _ _ => .error (.valueError "invalid literal for int()")
    | .object (some (some qty)) _ _ => .ok qty

def holdReply (sku : String) : HttpOutcome → Except PyErr (Option String)
  | .timeout => .error (.providerTimeout s!"hold_stock timed out for sku={sku}")
  | .error text => .error (.httpxError text)
  | .response r =>
    if r.status = 409 then
      match r.body with
      | .invalid => .error .jsonDecodeError
      | .notObject => .error (.attributeError "object has no attribute 'get'")
      | .object _ _ detail =>
        .error (.insufficientProviderStock (detail.getD "Insufficient stock at provider"))
    else do
      raiseForStatus r
      match r.body with
      | .invalid => .error .jsonDecodeError
      | .notObject => .error (.attributeError "object has no attribute 'get'")
      | .object _ holdRef _ => .ok holdRef

/-- A timeout counts as a release that failed, which is not fatal. -/
def releaseReply : HttpOutcome → Except PyErr Bool
  | .timeout => .ok false
  | .error text => .error (.httpxError text)
  | .response r => .ok (r.status = 200 || r.status = 204)

def confirmReply (holdRef : String) : HttpOutcome → Except PyErr Bool
  | .timeout => .error (.providerTimeout s!"confirm_hold timed out for hold_ref={holdRef}")
  | .error text => .error (.httpxError text)
  | .response r => do
    raiseForStatus r
    return true

def checkStock (call : Call) (sku : String) : Svc ℤ :=
  .ask (.http call (a.stockRequest sku)) fun out => .ofExcept (stockReply sku out)

/-- A call that needs a capability. -/
def callWith {α : Type} (cap : String) (call : Call) (request : Request)
    (reply : HttpOutcome → Except PyErr α) : Svc α := do
  .ofExcept (a.requireCapability cap)
  .ask (.http call request) fun out => .ofExcept (reply out)

def holdStock (call : Call) (sku : String) (qty : ℤ) (reservationId : ℕ) :
    Svc (Option String) :=
  a.callWith "hold_stock" call (a.holdRequest sku qty reservationId) (holdReply sku)

def releaseHold (call : Call) (holdRef : String) : Svc Bool :=
  a.callWith "release_hold" call (a.releaseRequest holdRef) releaseReply

def confirmHold (call : Call) (holdRef : String) : Svc Bool :=
  a.callWith "confirm_hold" call (a.confirmRequest holdRef) (confirmReply holdRef)

end ExternalHttpProviderAdapter

def Inventory.effective (r : Inventory) : ℤ := r.qtyAvailable - r.qtyReserved

namespace InternalProviderAdapter

def checkStock (row : ℕ) : Svc ℤ := do
  let r ← obj (.inventory row)
  return r.effective

/-- The internal adapter takes the stock itself. -/
def holdStock (row : ℕ) (qty : ℤ) : Svc (Option String) := do
  let r ← obj (.inventory row)
  if r.effective < qty then
    throw (.insufficientProviderStock s!"Internal: requested {qty}, available {r.effective}")
  else
    .modify (.inventory row) (fun r => { r with qtyReserved := r.qtyReserved + qty }) (pure none)

end InternalProviderAdapter

inductive ProviderAdapter
  | internal (row : ℕ)
  | external (a : ExternalHttpProviderAdapter)

namespace ProviderAdapter

def checkStock (call : Call) (sku : String) : ProviderAdapter → Svc ℤ
  | internal row => InternalProviderAdapter.checkStock row
  | external a => a.checkStock call sku

def holdStock (call : Call) (sku : String) (qty : ℤ) (reservationId : ℕ) :
    ProviderAdapter → Svc (Option String)
  | internal row => InternalProviderAdapter.holdStock row qty
  | external a => a.holdStock call sku qty reservationId

def releaseHold (call : Call) (holdRef : String) : ProviderAdapter → Svc Bool
  | internal _ => pure true
  | external a => a.releaseHold call holdRef

def confirmHold (call : Call) (holdRef : String) : ProviderAdapter → Svc Bool
  | internal _ => pure true
  | external a => a.confirmHold call holdRef

end ProviderAdapter

namespace ProviderRegistry

def resolve (provider : InventoryProvider) (inventoryRow : Option ℕ) :
    Except PyErr ProviderAdapter :=
  match provider.type, inventoryRow with
  | .internal, none => .error (.valueError "InternalProviderAdapter requires an inventory_row")
  | .internal, some row => .ok (.internal row)
  | .external, _ => do
    let a ← ExternalHttpProviderAdapter.new provider
    return .external a

end ProviderRegistry

end InventoryReservation
