/-
# The inventory service

`getAvailability` reports the rows of a product, `syncFromProvider` takes the stock over from
an external provider.
-/
import InventoryReservation.Repositories

namespace InventoryReservation

open RowTxn InventoryRepository

/-- An entry of the availability report. -/
structure Source where
  providerId : ℕ
  providerName : String
  qtyAvailable : ℤ
  qtyReserved : ℤ
  effectiveAvailable : ℤ
  lastSyncedAt : Option ℤ
deriving DecidableEq, Repr

/-- The report of a sync. -/
structure SyncReport where
  updated : ℕ
  errors : List String
  message : Option String
deriving DecidableEq, Repr

namespace InventoryService

def source (id : ℕ) : Svc Source := do
  let row ← obj (.inventory id)
  .get (.provider row.providerId) fun provider => return {
    providerId := row.providerId
    providerName := (provider.map InventoryProvider.name).getD "unknown"
    qtyAvailable := row.qtyAvailable
    qtyReserved := row.qtyReserved
    effectiveAvailable := row.qtyAvailable - row.qtyReserved
    lastSyncedAt := row.lastSyncedAt }

def sources : List ℕ → Svc (List Source)
  | [] => return []
  | id :: ids => do
    let s ← source id
    let ss ← sources ids
    return s :: ss

def getAvailability (productId : ℕ) : Svc (List Source) := do
  let ids ← getAllByProduct productId
  sources ids

/-- The loop of `sync_from_provider` over the rows; an exception of the adapter that is a
`ProviderError` is reported, others are not handled.  With the report comes whether all assigned
quantities fit their column. -/
def syncRows (provider : InventoryProvider) : List ℕ → SyncReport → Bool → Svc (SyncReport × Bool)
  | [], report, fits => return (report, fits)
  | id :: ids, report, fits => do
    let row ← obj (.inventory id)
    .get (.product row.productId) fun product => do
    match product.map Product.sku with
    | none | some "" => syncRows provider ids report fits
    | some sku => do
      let adapter ← .ofExcept (ProviderRegistry.resolve provider none)
      let next ← try
          let qty ← adapter.checkStock (.row id) sku
          .ask (.now id) fun now =>
          .modify (.inventory id) (fun r =>
            { r with qtyAvailable := qty, lastSyncedAt := some now }) do
          pure ({ report with updated := report.updated + 1 }, fits && fitsInt qty)
        catch
          | .capabilityNotSupported exc | .providerTimeout exc | .providerUnavailable exc
          | .insufficientProviderStock exc =>
            pure ({ report with errors := report.errors ++ [s!"{sku}: {exc}"] }, fits)
          | e => throw e
      syncRows provider ids next.1 next.2

/-- What is loaded with a provider. -/
def providerKeys (d : Db) (providerId : ℕ) : List RowKey :=
  .provider providerId :: (d.inventory.rows.filter fun r => r.2.providerId = providerId).flatMap
    fun r => [.inventory r.1, .product r.2.productId]

def syncFromProvider (providerId : ℕ) : Svc SyncReport :=
  .read (fun d => providerKeys d providerId) fun d =>
  match d.providers.get providerId with
  | none => throw (.notFoundError s!"Provider {providerId} not found")
  | some _ => do
    let provider ← obj (.provider providerId)
    if !provider.isActive then
      throw (.valueError s!"Provider {providerId} is inactive")
    else if provider.type = .internal then
      return ⟨0, [], some "internal providers do not require sync"⟩
    else do
      let rows ← getAllByProvider providerId
      let (report, fits) ← syncRows provider rows ⟨0, [], none⟩ true
      flush
      -- the `UPDATE` of a quantity that does not fit fails, and the flush with it
      if fits then return report else throw .dataError

end InventoryService

end InventoryReservation
