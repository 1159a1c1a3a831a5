/-
# Changes of the database

What a committed transaction does to the database, said row by row and all at once: a function
on every inventory row, the reservations before and after, and the new orders.  This is the
abstract side of the model; the operations of the service are shown to commit such changes.
-/
import InventoryReservation.ReservationService
import InventoryReservation.InventoryService
import InventoryReservation.RowTxn.Cell
import InventoryReservation.RowTxn.Solo

namespace InventoryReservation

open RowTxn

/-- The columns of an inventory row that nothing changes. -/
def Inventory.ident (v : Inventory) : ℕ × ℕ := (v.productId, v.providerId)

/-- Two databases with the same products, providers and inventory rows, up to the counters. -/
structure Static (d₀ d : Db) : Prop where
  products : d.products.get = d₀.products.get
  providers : d.providers.get = d₀.providers.get
  stock : ∀ k, (d.inventory.get k).map Inventory.ident = (d₀.inventory.get k).map Inventory.ident

namespace Static

variable {d₀ d d' : Db}

lemma refl (d : Db) : Static d d := ⟨rfl, rfl, fun _ => rfl⟩

lemma trans (h : Static d₀ d) (h' : Static d d') : Static d₀ d' :=
  ⟨h'.products.trans h.products, h'.providers.trans h.providers,
    fun k => (h'.stock k).trans (h.stock k)⟩

lemma symm (h : Static d₀ d) : Static d d₀ :=
  ⟨h.products.symm, h.providers.symm, fun k => (h.stock k).symm⟩

lemma stock_eq_none (h : Static d₀ d) {k : ℕ} (hk : d₀.inventory.get k = none) :
    d.inventory.get k = none := by
  have := h.stock k
  rw [hk] at this
  simpa using this

end Static

/-- A change: of the stock (with the inventory rows that are known before it), of reservations
(before, if there was one, and after), and new orders. -/
structure Change where
  stock : ℕ → Inventory → Inventory
  was : ℕ → Option Inventory
  res : ℕ → Option (Option Reservation × Reservation)
  ord : ℕ → Option Order

namespace Change

/-- Nothing changes. -/
def nothing : Change := ⟨fun _ => id, fun _ => none, fun _ => none, fun _ => none⟩

/-- The change of one inventory row. -/
def setStock (Δ : Change) (k : ℕ) (f : Inventory → Inventory) : Change :=
  { Δ with stock := Function.update Δ.stock k (f ∘ Δ.stock k) }

/-- The change of an inventory row that is known. -/
def know (Δ : Change) (k : ℕ) (u : Inventory) : Change :=
  { Δ with was := Function.update Δ.was k (some u) }

/-- The change of one reservation. -/
def setRes (Δ : Change) (x : ℕ) (b : Option Reservation) (c : Reservation) : Change :=
  { Δ with res := Function.update Δ.res x (some (b, c)) }

/-- A new order. -/
def addOrd (Δ : Change) (x : ℕ) (o : Order) : Change :=
  { Δ with ord := Function.update Δ.ord x (some o) }

/-- A further change of the stock. -/
def onStock (Δ : Change) (F : ℕ → Inventory → Inventory) : Change :=
  { Δ with stock := fun k => F k ∘ Δ.stock k }

@[simp] lemma setStock_res (Δ : Change) (k : ℕ) (f : Inventory → Inventory) :
    (Δ.setStock k f).res = Δ.res := rfl

@[simp] lemma setStock_ord (Δ : Change) (k : ℕ) (f : Inventory → Inventory) :
    (Δ.setStock k f).ord = Δ.ord := rfl

@[simp] lemma setStock_was (Δ : Change) (k : ℕ) (f : Inventory → Inventory) :
    (Δ.setStock k f).was = Δ.was := rfl

@[simp] lemma know_stock (Δ : Change) (k : ℕ) (u : Inventory) : (Δ.know k u).stock = Δ.stock := rfl

@[simp] lemma know_res (Δ : Change) (k : ℕ) (u : Inventory) : (Δ.know k u).res = Δ.res := rfl

@[simp] lemma know_ord (Δ : Change) (k : ℕ) (u : Inventory) : (Δ.know k u).ord = Δ.ord := rfl

@[simp] lemma know_was_self (Δ : Change) (k : ℕ) (u : Inventory) :
    (Δ.know k u).was k = some u := by
  simp [know]

lemma know_was_of_ne (Δ : Change) {k j : ℕ} (u : Inventory) (h : j ≠ k) :
    (Δ.know k u).was j = Δ.was j := by
  simp [know, h]

@[simp] lemma setRes_was (Δ : Change) (x : ℕ) (b : Option Reservation) (c : Reservation) :
    (Δ.setRes x b c).was = Δ.was := rfl

@[simp] lemma setRes_stock (Δ : Change) (x : ℕ) (b : Option Reservation) (c : Reservation) :
    (Δ.setRes x b c).stock = Δ.stock := rfl

@[simp] lemma setRes_ord (Δ : Change) (x : ℕ) (b : Option Reservation) (c : Reservation) :
    (Δ.setRes x b c).ord = Δ.ord := rfl

@[simp] lemma setRes_res_self (Δ : Change) (x : ℕ) (b : Option Reservation) (c : Reservation) :
    (Δ.setRes x b c).res x = some (b, c) := by
  simp [setRes]

lemma setRes_res_of_ne (Δ : Change) {x y : ℕ} (b : Option Reservation) (c : Reservation)
    (h : y ≠ x) : (Δ.setRes x b c).res y = Δ.res y := by
  simp [setRes, h]

@[simp] lemma setRes_setRes (Δ : Change) (x : ℕ) (b b' : Option Reservation)
    (c c' : Reservation) : (Δ.setRes x b c).setRes x b' c' = Δ.setRes x b' c' := by
  simp [setRes]

lemma setRes_self {Δ : Change} {x : ℕ} {b : Option Reservation} {c : Reservation}
    (h : Δ.res x = some (b, c)) : Δ.setRes x b c = Δ := by
  obtain ⟨stock, was, res, ord⟩ := Δ
  simp only at h
  simp [setRes, ← h]

lemma onStock_setRes (Δ : Change) (F : ℕ → Inventory → Inventory) (x : ℕ) (b : Option Reservation)
    (c : Reservation) : (Δ.setRes x b c).onStock F = (Δ.onStock F).setRes x b c := rfl

@[simp] lemma onStock_res (Δ : Change) (F : ℕ → Inventory → Inventory) : (Δ.onStock F).res = Δ.res := rfl

@[simp] lemma onStock_ord (Δ : Change) (F : ℕ → Inventory → Inventory) : (Δ.onStock F).ord = Δ.ord := rfl

@[simp] lemma addOrd_stock (Δ : Change) (x : ℕ) (o : Order) : (Δ.addOrd x o).stock = Δ.stock := rfl

@[simp] lemma addOrd_res (Δ : Change) (x : ℕ) (o : Order) : (Δ.addOrd x o).res = Δ.res := rfl

@[simp] lemma addOrd_ord_self (Δ : Change) (x : ℕ) (o : Order) :
    (Δ.addOrd x o).ord x = some o := by
  simp [addOrd]

lemma addOrd_ord_of_ne (Δ : Change) {x y : ℕ} (o : Order) (h : y ≠ x) :
    (Δ.addOrd x o).ord y = Δ.ord y := by
  simp [addOrd, h]

/-- The change leads from the database `d` to `d'`. -/
structure Applies (Δ : Change) (d d' : Db) : Prop where
  products : d'.products.get = d.products.get
  providers : d'.providers.get = d.providers.get
  stock : ∀ k, d'.inventory.get k = (d.inventory.get k).map (Δ.stock k)
  was : ∀ k u, Δ.was k = some u → d.inventory.get k = some u
  res : ∀ x b c, Δ.res x = some (b, c) →
    d.reservations.get x = b ∧ d'.reservations.get x = some c
  res_out : ∀ x, Δ.res x = none → d'.reservations.get x = d.reservations.get x
  ord : ∀ x o, Δ.ord x = some o → d.orders.get x = none ∧ d'.orders.get x = some o
  ord_out : ∀ x, Δ.ord x = none → d'.orders.get x = d.orders.get x

/-- The change is what a transaction commits that has written the rows `ws`. -/
structure Commits (Δ : Change) (d d' : Db) (ws : List RowKey) : Prop extends Δ.Applies d d' where
  wrote : ∀ x, .reservation x ∈ ws → Δ.res x ≠ none
  same : ws = [] → d' = d

end Change

end InventoryReservation
