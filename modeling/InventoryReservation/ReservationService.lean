/-
# The reservation service

`create` reserves stock for all items of a request, `confirm` consumes it and creates an order,
`cancel` and `expireBatch` give it back.  Each runs in a transaction of its own.
-/
import InventoryReservation.Repositories

namespace InventoryReservation

open RowTxn InventoryRepository ReservationRepository OrderRepository

/-- An item of a request. -/
structure CreateItem where
  productId : ℕ
  qty : ℤ
deriving DecidableEq, Repr

/-- A `dict` from product ids to inventory objects, which are given by their ids. -/
abbrev InventoryMap : Type := ℕ → Option ℕ

def InventoryMap.empty : InventoryMap := fun _ => none

def InventoryMap.set (m : InventoryMap) (productId inventoryId : ℕ) : InventoryMap :=
  Function.update m productId (some inventoryId)

/-- `m[product_id]`. -/
def InventoryMap.item (m : InventoryMap) (productId : ℕ) : Except PyErr ℕ :=
  match m productId with
  | some id => .ok id
  | none => .error (.keyError s!"{productId}")

/-- Change an item of a reservation. -/
def Reservation.setItem (r : Reservation) (i : ℕ) (f : ReservationItem → ReservationItem) :
    Reservation :=
  { r with items := r.items.modify i f }

namespace ReservationService

/-! ### create -/

/-- Phase 1: a fast check without locks. -/
def preflight : List CreateItem → ℕ → InventoryMap → Svc InventoryMap
  | [], _, m => pure m
  | it :: items, i, m => do
    match ← getBestAvailable i it.productId with
    | none =>
      throw (.insufficientStockError s!"Product {it.productId}: no inventory available")
    | some (id, inv) =>
      if inv.effective < it.qty then
        throw (.insufficientStockError
          s!"Product {it.productId}: requested {it.qty}, available {inv.effective}")
      else preflight items (i + 1) (m.set it.productId id)

/-- Phase 2: lock the rows and check again. -/
def lockRows : List CreateItem → InventoryMap → InventoryMap → Svc InventoryMap
  | [], _, m => pure m
  | it :: items, pre, m => do
    let id ← .ofExcept (pre.item it.productId)
    match ← getByIdForUpdate id with
    | none =>
      throw (.insufficientStockError s!"Product {it.productId}: inventory row disappeared")
    | some locked =>
      if locked.effective < it.qty then
        throw (.insufficientStockError (s!"Product {it.productId}: requested {it.qty}, " ++
          s!"available {locked.effective} (re-checked under lock)"))
      else lockRows items pre (m.set it.productId id)

/-- Phase 3: increment `qty_reserved`. -/
def reserve : List CreateItem → InventoryMap → Svc Unit
  | [], _ => pure ()
  | it :: items, m => do
    let id ← .ofExcept (m.item it.productId)
    .modify (.inventory id) (fun r => { r with qtyReserved := r.qtyReserved + it.qty })
      (reserve items m)

/-- The provider call of phase 5, with what it does to the item. -/
def callProvider (reservationId i : ℕ) (it : CreateItem) (productId : ℕ)
    (adapter : ProviderAdapter) : Svc Unit := do
  try
    let product ← obj (.product productId)
    let holdRef ← adapter.holdStock (.item reservationId i) product.sku it.qty reservationId
    .modify (.reservation reservationId) (fun r => r.setItem i fun ri =>
      { ri with providerHoldRef := holdRef, providerStatus := .held }) (pure ())
  catch
    | .insufficientProviderStock exc =>
      -- the provider has less stock than the database reflects: roll back everything
      throw (.insufficientStockError
        s!"Product {it.productId}: provider rejected reservation: {exc}")
    | .providerTimeout exc | .providerUnavailable exc =>
      -- fail-open: the item is marked and the reservation goes on
      .modify (.reservation reservationId) (fun r => r.setItem i fun ri =>
        { ri with providerStatus := .providerFailed, providerErrorMessage := some exc }) (pure ())
    | e => throw e

/-- Phase 5: create the items and call the provider for each. -/
def holdItems (reservationId : ℕ) : List CreateItem → ℕ → InventoryMap → Svc Unit
  | [], _, _ => pure ()
  | it :: items, i, m => do
    let id ← .ofExcept (m.item it.productId)
    let inv ← obj (.inventory id)
    .modify (.reservation reservationId) (fun r => { r with items := r.items ++ [{
      productId := it.productId
      inventoryId := id
      providerId := inv.providerId
      qtyRequested := it.qty
      providerHoldRef := none
      providerStatus := .pending
      providerErrorMessage := none }] }) (pure ())
    flush
    let provider ← obj (.provider inv.providerId)
    let adapter ← .ofExcept (ProviderRegistry.resolve provider (some id))
    callProvider reservationId i it inv.productId adapter
    holdItems reservationId items (i + 1) m

def create (cfg : Settings) (userId : String) (items : List CreateItem) :
    Svc (ℕ × Reservation) :=
  .ask (.now 0) fun now => do
  let expiresAt := now + minutes cfg.reservationTtlMinutes
  let inventoryMap ← preflight items 0 .empty
  let lockedInventory ← lockRows items inventoryMap .empty
  reserve items lockedInventory
  .alloc fun reservationId =>
  .insert (.reservation reservationId) ⟨userId, .pending, expiresAt, []⟩ do
  flush
  holdItems reservationId items 0 lockedInventory
  flush
  let reservation ← obj (.reservation reservationId)
  return (reservationId, reservation)

def getWithItems (reservationId : ℕ) : Svc Reservation := do
  match ← ReservationRepository.getWithItems reservationId with
  | none => throw (.reservationNotFound s!"Reservation {reservationId} not found")
  | some reservation => return reservation

/-! ### The items of a settled reservation -/

/-- The provider call for an item that is held with a reference. -/
def callHold (method : Call → String → ProviderAdapter → Svc Bool) (nonFatal : PyErr → Bool)
    (reservationId i : ℕ) (it : ReservationItem) : Svc Unit :=
  match it.providerStatus, it.providerHoldRef with
  | .held, some holdRef => do
    let provider ← obj (.provider it.providerId)
    let adapter ← .ofExcept (ProviderRegistry.resolve provider none)
    try
      let _ ← method (.item reservationId i) holdRef adapter
    catch e => if nonFatal e then pure () else throw e
  | _, _ => pure ()

/-- The loop over the items: lock the inventory row and change it by `step`, call the provider,
and give the item its new status. -/
def settleItems (skip : ReservationItem → Bool) (step : ReservationItem → Inventory → Inventory)
    (call : ℕ → ℕ → ReservationItem → Svc Unit) (status : ProviderItemStatus)
    (reservationId : ℕ) : List ReservationItem → ℕ → Svc Unit
  | [], _ => pure ()
  | it :: items, i =>
    if skip it then settleItems skip step call status reservationId items (i + 1)
    else do
      match ← getByIdForUpdate it.inventoryId with
      | none => pure ()
      | some _ => .modify (.inventory it.inventoryId) (step it) (pure ())
      call reservationId i it
      .modify (.reservation reservationId) (fun r => r.setItem i fun ri =>
        { ri with providerStatus := status })
        (settleItems skip step call status reservationId items (i + 1))

/-! ### confirm -/

/-- `except (ProviderTimeout, ProviderUnavailable)`. -/
def isOutage : PyErr → Bool
  | .providerTimeout _ | .providerUnavailable _ => true
  | _ => false

/-- An outage of the provider is not fatal: the stock is consumed locally. -/
def confirmHold : ℕ → ℕ → ReservationItem → Svc Unit :=
  callHold ProviderAdapter.confirmHold isOutage

/-- Both counters go down. -/
def consume (it : ReservationItem) (r : Inventory) : Inventory := { r with
  qtyAvailable := r.qtyAvailable - it.qtyRequested
  qtyReserved := r.qtyReserved - it.qtyRequested }

def confirmItems : ℕ → List ReservationItem → ℕ → Svc Unit :=
  settleItems (fun _ => false) consume confirmHold .confirmed

def confirm (cfg : Settings) (reservationId : ℕ) : Svc Order := do
  match ← ReservationRepository.getWithItems reservationId with
  | none => throw (.reservationNotFound s!"Reservation {reservationId} not found")
  | some reservation =>
    if reservation.status ≠ .pending then
      throw (.reservationStateError
        s!"Cannot confirm reservation {reservationId}: status is '{reservation.status.value}'")
    else .ask (.now 0) fun now =>
    match (cfg.driver.load reservation.expiresAt).lt? (.aware now) with
    | none => throw (.typeError "can't compare offset-naive and offset-aware datetimes")
    | some true =>
      throw (.reservationStateError
        s!"Cannot confirm reservation {reservationId}: already expired")
    | some false => do
      match ← getByReservationId reservationId with
      | some _ =>
        throw (.duplicateOrderError s!"Reservation {reservationId} already has an order")
      | none =>
        confirmItems reservationId reservation.items 0
        .modify (.reservation reservationId) (fun r => { r with status := .confirmed }) do
        .insert (.order reservationId) ⟨reservationId, reservation.userId, .created⟩ do
        flush
        obj (.order reservationId)

/-! ### cancel and expire_batch -/

/-- No exception of the adapter is fatal. -/
def releaseHold : ℕ → ℕ → ReservationItem → Svc Unit :=
  callHold ProviderAdapter.releaseHold fun _ => true

/-- An item that gives nothing back. -/
def isDone (it : ReservationItem) : Bool :=
  it.providerStatus = .released || it.providerStatus = .confirmed

/-- The reserved quantity goes down; `clamp` is applied to the new value. -/
def release (clamp : ℤ → ℤ) (it : ReservationItem) (r : Inventory) : Inventory :=
  { r with qtyReserved := clamp (r.qtyReserved - it.qtyRequested) }

/-- `_release_items`, where `clamp` is `max 0`. -/
def releaseItemsBy (clamp : ℤ → ℤ) : ℕ → List ReservationItem → ℕ → Svc Unit :=
  settleItems isDone (release clamp) releaseHold .released

def cancelBy (clamp : ℤ → ℤ) (reservationId : ℕ) : Svc Unit := do
  match ← ReservationRepository.getWithItems reservationId with
  | none => throw (.reservationNotFound s!"Reservation {reservationId} not found")
  | some reservation =>
    if reservation.status = .cancelled ∨ reservation.status = .expired then
      return ()
    else if reservation.status ≠ .pending then
      throw (.reservationStateError
        s!"Cannot cancel reservation {reservationId}: status is '{reservation.status.value}'")
    else do
      releaseItemsBy clamp reservationId reservation.items 0
      .modify (.reservation reservationId) (fun r => { r with status := .cancelled }) (pure ())

/-- The loop of `expire_batch`. -/
def expireAllBy (clamp : ℤ → ℤ) : List (ℕ × Reservation) → Svc Unit
  | [] => pure ()
  | (id, reservation) :: rs => do
    releaseItemsBy clamp id reservation.items 0
    .modify (.reservation id) (fun r => { r with status := .expired }) (expireAllBy clamp rs)

def expireBatchBy (clamp : ℤ → ℤ) (limit : ℕ) : Svc ℕ := do
  let expired ← getExpiredPending limit
  expireAllBy clamp expired
  return expired.length

/-- Release held inventory; nothing happens if the reservation is cancelled or expired. -/
def cancel (reservationId : ℕ) : Svc Unit := cancelBy (max 0) reservationId

/-- Expire pending reservations past their expiry, and count them. -/
def expireBatch (limit : ℕ) : Svc ℕ := expireBatchBy (max 0) limit

end ReservationService

/-! ### The payment event -/

inductive PaymentOutcome
  | success
  | failed
deriving DecidableEq, Repr

/-- The router behind `POST /payment-outcome`: the order, or none after a cancellation. -/
def paymentOutcomeBy (clamp : ℤ → ℤ) (cfg : Settings) (reservationId : ℕ) :
    PaymentOutcome → Svc (Option Order)
  | .success => do
    let order ← ReservationService.confirm cfg reservationId
    return some order
  | .failed => do
    ReservationService.cancelBy clamp reservationId
    return none

def paymentOutcome (cfg : Settings) (reservationId : ℕ) (outcome : PaymentOutcome) :
    Svc (Option Order) := paymentOutcomeBy (max 0) cfg reservationId outcome

end InventoryReservation
