/-
# The tables of the service

Products, inventory providers, inventory rows, reservations with their items, and orders.  A
reservation and its items are one row here: the items are loaded, changed and flushed together
with their reservation, after it and under its lock.  An order is stored under its
`reservation_id`, which is unique.  Times are instants in microseconds; how a stored time is
read back is a matter of the driver.
-/
import InventoryReservation.RowTxn.Table
import InventoryReservation.RowTxn.Program

namespace InventoryReservation

open RowTxn

inductive ProviderType
  | internal
  | external
deriving DecidableEq, Repr

inductive ReservationStatus
  | pending
  | confirmed
  | cancelled
  | expired
deriving DecidableEq, Repr

def ReservationStatus.value : ReservationStatus → String
  | pending => "pending"
  | confirmed => "confirmed"
  | cancelled => "cancelled"
  | expired => "expired"

inductive ProviderItemStatus
  | pending
  | held
  | providerFailed
  | released
  | confirmed
deriving DecidableEq, Repr

inductive OrderStatus
  | created
  | fulfilled
  | failed
deriving DecidableEq, Repr

structure Product where
  sku : String
deriving DecidableEq, Repr

/-- A provider.  Of the JSON object `capabilities` only the truth of its values matters, the
values of `auth_config` are strings. -/
structure InventoryProvider where
  name : String
  type : ProviderType
  capabilities : List (String × Bool)
  authConfig : Option (List (String × String))
  baseUrl : Option String
  timeoutSeconds : ℕ
  isActive : Bool
deriving DecidableEq, Repr

structure Inventory where
  productId : ℕ
  providerId : ℕ
  qtyAvailable : ℤ
  qtyReserved : ℤ
  lastSyncedAt : Option ℤ
deriving DecidableEq, Repr

/-- What a column of type `INT` can store. -/
def fitsInt (n : ℤ) : Bool := -2147483648 ≤ n && n ≤ 2147483647

structure ReservationItem where
  productId : ℕ
  inventoryId : ℕ
  providerId : ℕ
  qtyRequested : ℤ
  providerHoldRef : Option String
  providerStatus : ProviderItemStatus
  providerErrorMessage : Option String
deriving DecidableEq, Repr

structure Reservation where
  userId : String
  status : ReservationStatus
  expiresAt : ℤ
  items : List ReservationItem
deriving DecidableEq, Repr

structure Order where
  reservationId : ℕ
  userId : String
  status : OrderStatus
deriving DecidableEq, Repr

/-- The database. -/
structure Db where
  products : Table Product
  providers : Table InventoryProvider
  inventory : Table Inventory
  reservations : Table Reservation
  orders : Table Order

/-- The primary key of a row, with its table. -/
inductive RowKey
  | product (id : ℕ)
  | provider (id : ℕ)
  | inventory (id : ℕ)
  | reservation (id : ℕ)
  | order (reservationId : ℕ)
deriving DecidableEq, Repr

abbrev RowOf : RowKey → Type
  | .product _ => Product
  | .provider _ => InventoryProvider
  | .inventory _ => Inventory
  | .reservation _ => Reservation
  | .order _ => Order

/-! ### `UPDATE` sets the changed columns -/

/-- A column of a stored row after an `UPDATE`: it is set if the object's value `c` is not the
value `b` that was loaded. -/
def col {α : Type} [DecidableEq α] (b c r : α) : α := if c = b then r else c

@[simp] lemma col_base {α : Type} [DecidableEq α] (b c : α) : col b c b = c := by
  unfold col
  split <;> simp [*]

def Product.merge (b c r : Product) : Product := ⟨col b.sku c.sku r.sku⟩

def InventoryProvider.merge (b c r : InventoryProvider) : InventoryProvider where
  name := col b.name c.name r.name
  type := col b.type c.type r.type
  capabilities := col b.capabilities c.capabilities r.capabilities
  authConfig := col b.authConfig c.authConfig r.authConfig
  baseUrl := col b.baseUrl c.baseUrl r.baseUrl
  timeoutSeconds := col b.timeoutSeconds c.timeoutSeconds r.timeoutSeconds
  isActive := col b.isActive c.isActive r.isActive

def Inventory.merge (b c r : Inventory) : Inventory where
  productId := col b.productId c.productId r.productId
  providerId := col b.providerId c.providerId r.providerId
  qtyAvailable := col b.qtyAvailable c.qtyAvailable r.qtyAvailable
  qtyReserved := col b.qtyReserved c.qtyReserved r.qtyReserved
  lastSyncedAt := col b.lastSyncedAt c.lastSyncedAt r.lastSyncedAt

def ReservationItem.merge (b c r : ReservationItem) : ReservationItem where
  productId := col b.productId c.productId r.productId
  inventoryId := col b.inventoryId c.inventoryId r.inventoryId
  providerId := col b.providerId c.providerId r.providerId
  qtyRequested := col b.qtyRequested c.qtyRequested r.qtyRequested
  providerHoldRef := col b.providerHoldRef c.providerHoldRef r.providerHoldRef
  providerStatus := col b.providerStatus c.providerStatus r.providerStatus
  providerErrorMessage := col b.providerErrorMessage c.providerErrorMessage r.providerErrorMessage

/-- The items of a reservation: each one there was is updated, new ones are added. -/
def mergeItems : List ReservationItem → List ReservationItem → List ReservationItem →
    List ReservationItem
  | b :: bs, c :: cs, r :: rs => b.merge c r :: mergeItems bs cs rs
  | _ :: _, cs, _ => cs
  | [], cs, rs => rs ++ cs

def Reservation.merge (b c r : Reservation) : Reservation where
  userId := col b.userId c.userId r.userId
  status := col b.status c.status r.status
  expiresAt := col b.expiresAt c.expiresAt r.expiresAt
  items := mergeItems b.items c.items r.items

def Order.merge (b c r : Order) : Order where
  reservationId := col b.reservationId c.reservationId r.reservationId
  userId := col b.userId c.userId r.userId
  status := col b.status c.status r.status

lemma ReservationItem.merge_base (b c : ReservationItem) : b.merge c b = c := by
  simp [ReservationItem.merge]

lemma mergeItems_base (bs cs : List ReservationItem) : mergeItems bs cs bs = cs := by
  induction bs generalizing cs with
  | nil => simp [mergeItems]
  | cons b bs ih =>
    cases cs with
    | nil => simp [mergeItems]
    | cons c cs => simp [mergeItems, ih, ReservationItem.merge_base]

/-! ### The database as a row store -/

namespace Db

def row (d : Db) : (k : RowKey) → Option (RowOf k)
  | .product id => d.products.get id
  | .provider id => d.providers.get id
  | .inventory id => d.inventory.get id
  | .reservation id => d.reservations.get id
  | .order id => d.orders.get id

def write (d : Db) : (k : RowKey) → RowOf k → Db
  | .product id, v => { d with products := d.products.set id v }
  | .provider id, v => { d with providers := d.providers.set id v }
  | .inventory id, v => { d with inventory := d.inventory.set id v }
  | .reservation id, v => { d with reservations := d.reservations.set id v }
  | .order id, v => { d with orders := d.orders.set id v }

end Db

def mergeRow : (k : RowKey) → RowOf k → RowOf k → RowOf k → RowOf k
  | .product _ => Product.merge
  | .provider _ => InventoryProvider.merge
  | .inventory _ => Inventory.merge
  | .reservation _ => Reservation.merge
  | .order _ => Order.merge

/-- The ids that the service allocates are those of reservations. -/
instance : RowStore Db RowKey RowOf where
  row := Db.row
  write := Db.write
  merge := mergeRow
  fresh d := d.reservations.fresh
  row_write_self d k v := by
    cases k <;> simp [Db.row, Db.write]
  row_write_of_ne d k v k' h := by
    cases k <;> cases k' <;> simp_all [Db.row, Db.write, Table.get_set_of_ne]
  merge_base k b c := by
    cases k with
    | reservation id => simp [mergeRow, Reservation.merge, mergeItems_base]
    | _ => simp [mergeRow, Product.merge, InventoryProvider.merge, Inventory.merge, Order.merge]

namespace Db

@[simp] lemma row_product (d : Db) (id : ℕ) :
    RowStore.row d (.product id) = d.products.get id := rfl

@[simp] lemma row_provider (d : Db) (id : ℕ) :
    RowStore.row d (.provider id) = d.providers.get id := rfl

@[simp] lemma row_inventory (d : Db) (id : ℕ) :
    RowStore.row d (.inventory id) = d.inventory.get id := rfl

@[simp] lemma row_reservation (d : Db) (id : ℕ) :
    RowStore.row d (.reservation id) = d.reservations.get id := rfl

@[simp] lemma row_order (d : Db) (id : ℕ) :
    RowStore.row d (.order id) = d.orders.get id := rfl

end Db

end InventoryReservation
