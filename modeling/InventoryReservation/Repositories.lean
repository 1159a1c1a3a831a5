/-
# Repositories

The queries of the service.  The relationships of the models are loaded with their rows
(`lazy="selectin"`): an inventory row comes with its product and its provider, an item of a
reservation with all inventory rows of its product and of its provider.
-/
import InventoryReservation.Providers

namespace InventoryReservation

open RowTxn

/-- The member of a list that the outside world chooses. -/
def choose {α : Type} (l : List α) (n : ℕ) : Option α := l[n % l.length]?

lemma mem_of_choose {α : Type} {l : List α} {n : ℕ} {a : α} (h : choose l n = some a) : a ∈ l :=
  List.mem_of_getElem? h

lemma choose_eq_none {α : Type} {l : List α} {n : ℕ} : choose l n = none ↔ l = [] := by
  rcases l with _ | ⟨a, l⟩
  · simp [choose]
  · have := Nat.mod_lt n (show 0 < l.length + 1 by omega)
    simp [choose]
    omega

/-- A list of ids in the order in which they are visited. -/
def visit (order ids : List ℕ) : List ℕ :=
  order.filter (· ∈ ids) ++ ids.filter (· ∉ order)

@[simp] lemma mem_visit {order ids : List ℕ} {id : ℕ} : id ∈ visit order ids ↔ id ∈ ids := by
  by_cases h : id ∈ order <;> simp [visit, h]

namespace InventoryRepository

/-- The rows of a product with the highest effective available quantity. -/
def best (d : Db) (productId : ℕ) : List ℕ :=
  let rows := d.inventory.rows.filter fun r => r.2.productId = productId
  (rows.filter fun r => rows.all fun r' => r'.2.effective ≤ r.2.effective).map Prod.fst

lemma mem_best {d : Db} {productId id : ℕ} : id ∈ best d productId ↔
    ∃ r, d.inventory.get id = some r ∧ r.productId = productId ∧
      ∀ id' r', d.inventory.get id' = some r' → r'.productId = productId →
        r'.effective ≤ r.effective := by
  simp only [best, List.mem_map, List.mem_filter, List.all_eq_true, Prod.exists, Table.mem_rows,
    decide_eq_true_eq, and_imp, Prod.forall]
  constructor
  · rintro ⟨_, r, ⟨⟨hr, hp⟩, hmax⟩, rfl⟩
    exact ⟨r, hr, hp, hmax⟩
  · rintro ⟨r, hr, hp, hmax⟩
    exact ⟨id, r, ⟨⟨hr, hp⟩, hmax⟩, rfl⟩

/-- What `select(Inventory)` loads with a row. -/
def rowKeys (d : Db) (id : ℕ) : List RowKey :=
  match d.inventory.get id with
  | none => []
  | some r => [.inventory id, .product r.productId, .provider r.providerId]

/-- A row of the product with the highest effective available quantity. -/
def getBestAvailable (item productId : ℕ) : Svc (Option (ℕ × Inventory)) :=
  .ask (.tie item productId) fun n =>
  .read (fun d => ((choose (best d productId) n).map (rowKeys d)).getD []) fun d =>
  match choose (best d productId) n with
  | none => pure none
  | some id => do
    let r ← obj (.inventory id)
    return some (id, r)

/-- The row's own product and provider are loaded with it; the callers use those of the
object that the session had before. -/
def getByIdForUpdate (inventoryId : ℕ) : Svc (Option Inventory) :=
  .lock (.inventory inventoryId) pure

def getAllByProduct (productId : ℕ) : Svc (List ℕ) :=
  let rows := fun d : Db => d.inventory.rows.filter fun r => r.2.productId = productId
  .read (fun d => (rows d).flatMap fun r => rowKeys d r.1) fun d =>
  pure ((rows d).map Prod.fst)

def getAllByProvider (providerId : ℕ) : Svc (List ℕ) :=
  let rows := fun d : Db => d.inventory.rows.filter fun r => r.2.providerId = providerId
  .read (fun d => (rows d).flatMap fun r => rowKeys d r.1) fun d =>
  pure ((rows d).map Prod.fst)

end InventoryRepository

namespace ReservationRepository

/-- What is loaded with an item of a reservation. -/
def itemKeys (d : Db) (it : ReservationItem) : List RowKey :=
  .product it.productId :: .provider it.providerId ::
    (d.inventory.rows.filter fun r =>
      r.2.productId = it.productId || r.2.providerId = it.providerId).map fun r => .inventory r.1

def getWithItems (reservationId : ℕ) : Svc (Option Reservation) :=
  .read (fun _ => [.reservation reservationId]) fun d =>
  match d.reservations.get reservationId with
  | none => pure none
  | some _ => do
    let r ← obj (.reservation reservationId)
    .read (fun d => r.items.flatMap (itemKeys d)) fun _ => pure (some r)

/-- The pending reservations past their expiry. -/
def expiredPending (d : Db) (now : ℤ) : List ℕ :=
  (d.reservations.rows.filter fun r => r.2.status = .pending && r.2.expiresAt < now).map Prod.fst

lemma mem_expiredPending {d : Db} {now : ℤ} {id : ℕ} : id ∈ expiredPending d now ↔
    ∃ r, d.reservations.get id = some r ∧ r.status = .pending ∧ r.expiresAt < now := by
  simp only [expiredPending, List.mem_map, List.mem_filter, Prod.exists, Table.mem_rows,
    Bool.and_eq_true, decide_eq_true_eq]
  constructor
  · rintro ⟨_, r, ⟨hr, h⟩, rfl⟩
    exact ⟨r, hr, h⟩
  · rintro ⟨r, hr, h⟩
    exact ⟨id, r, ⟨hr, h⟩, rfl⟩

/-- The objects of the rows that a query has returned. -/
def objects : List RowKey → Svc (List (ℕ × Reservation))
  | .reservation id :: ks => do
    let r ← obj (.reservation id)
    let rs ← objects ks
    return (id, r) :: rs
  | _ => return []

/-- `FOR UPDATE SKIP LOCKED` without `ORDER BY`. -/
def getExpiredPending (limit : ℕ) : Svc (List (ℕ × Reservation)) :=
  .ask (.now 0) fun now =>
  .ask .scan fun order =>
  .lockWhere (fun d => (visit order (expiredPending d now)).map .reservation) limit fun ks => do
    let rs ← objects ks
    .read (fun d => rs.flatMap fun r => r.2.items.flatMap (itemKeys d)) fun _ => pure rs

end ReservationRepository

namespace OrderRepository

def getByReservationId (reservationId : ℕ) : Svc (Option Order) :=
  .read (fun _ => []) fun d => pure (d.orders.get reservationId)

end OrderRepository

end InventoryReservation
