/-
# Replies to holds

What the reply of an external provider to `POST /holds` makes of an item, and of the request:
out of stock is fatal, an outage is not.  An exception of the HTTP client that is neither a
timeout nor an error status is fatal too, since nothing maps it.
-/
import InventoryReservation.Availability

namespace InventoryReservation

open RowTxn ReservationService InventoryRepository

variable {cfg : Settings} {env : Env} {d : Db} {userId : String} {items : List CreateItem}
  {plan : List Booking} {i rid : ℕ} {out : HttpOutcome} {outs : ℕ → HttpOutcome}

/-! ### Outcomes of a call -/

/-- The provider is out of stock. -/
def HttpOutcome.IsConflict : HttpOutcome → Prop
  | response r => r.status = 409
  | _ => False

instance : DecidablePred HttpOutcome.IsConflict
  | .response r => inferInstanceAs (Decidable (r.status = 409))
  | .timeout | .error _ => .isFalse id

/-- The reference in the reply, if the hold is granted. -/
def HttpOutcome.granted : HttpOutcome → Option String
  | response r =>
    if r.isSuccess then
      match r.body with
      | .object _ ref _ => ref
      | _ => none
    else none
  | _ => none

/-- A reply of the API: a successful one has a reference. -/
def HttpOutcome.Regular (out : HttpOutcome) : Prop :=
  ∀ r, out = .response r → r.isSuccess → out.granted ≠ none

/-- What the reply makes of the item. -/
structure HttpOutcome.Marks (out : HttpOutcome) (it : CreateItem) (ri : ReservationItem) :
    Prop where
  productId : ri.productId = it.productId
  qty : ri.qtyRequested = it.qty
  held : ∀ ref, out.granted = some ref → ri.providerStatus = .held ∧ ri.providerHoldRef = some ref
  failed : out.granted = none → ri.providerStatus = .providerFailed ∧
    ri.providerErrorMessage ≠ none ∧ ri.providerHoldRef = none

/-- The reply of an external provider to the hold for a booking. -/
lemma Booking.marks_of_talk {b : Booking} {p : InventoryProvider} {product : Product}
    (hp : d.providers.get b.row.providerId = some p) (ht : p.type = .external)
    (hh : p.HoldsStock) (hprod : d.products.get b.row.productId = some product)
    (hout : ∀ r, r.kind = some .hold → env (.http (.item rid i) r) = out) (hreg : out.Regular) :
    (out.IsConflict ∨ out.IsTransportError → ∃ e, (b.talk env d rid i).result = .error e) ∧
    (¬out.IsConflict → ¬out.IsTransportError →
      ∃ ri, (b.talk env d rid i).result = .ok ri ∧ out.Marks b.item ri) := by
  obtain ⟨a, ha, hcap⟩ := hh
  rw [Booking.talk_external hp ht ha hcap hprod, hout _ rfl]
  cases out with
  | timeout =>
    refine ⟨fun h => (by rcases h with h | h <;> cases h), fun _ _ => ⟨_, rfl, rfl, rfl, ?_, ?_⟩⟩
    · intro ref h
      cases h
    · exact fun _ => ⟨rfl, by simp [failedItem], rfl⟩
  | error text => exact ⟨fun _ => ⟨_, rfl⟩, fun _ h => absurd trivial h⟩
  | response r =>
    by_cases h409 : r.status = 409
    · refine ⟨fun _ => ?_, fun h => absurd h409 h⟩
      simp only [ExternalHttpProviderAdapter.holdReply, h409, if_true]
      cases r.body with
      | invalid => exact ⟨_, rfl⟩
      | notObject => exact ⟨_, rfl⟩
      | object _ _ detail => exact ⟨_, rfl⟩
    · refine ⟨fun h => h.elim (absurd · h409) False.elim, fun _ _ => ?_⟩
      simp only [ExternalHttpProviderAdapter.holdReply, h409, if_false,
        ExternalHttpProviderAdapter.raiseForStatus, bind, Except.bind]
      by_cases hs : r.isSuccess
      · -- a successful reply has a body with a reference
        have hne := hreg r rfl hs
        simp only [HttpOutcome.granted, hs, if_true] at hne ⊢
        cases hb : r.body with
        | invalid => simp [hb] at hne
        | notObject => simp [hb] at hne
        | object qty ref detail =>
          refine ⟨_, rfl, rfl, rfl, fun ref' h => ?_, fun h => ?_⟩
          · simp only [HttpOutcome.granted, hs, if_true, hb] at h
            exact ⟨rfl, h⟩
          · simp only [HttpOutcome.granted, hs, if_true, hb] at h
            simp [hb, h] at hne
      · refine ⟨_, by simp only [hs]; rfl, rfl, rfl, fun ref h => ?_, fun _ => ⟨rfl, ?_, rfl⟩⟩
        · simp [HttpOutcome.granted, hs] at h
        · simp [failedItem]

/-! ### The request -/

/-- All rows that are chosen belong to external providers that can be asked for holds, and have
room; `outs i` is the outcome of the call for the `i`-th item. -/
structure OnPartners (env : Env) (d : Db) (items : List CreateItem) (outs : ℕ → HttpOutcome) :
    Prop where
  sufficient : ∀ it ∈ items, Sufficient env d it
  partner : ∀ i it k v, items[i]? = some it → chosen env d i it = some k →
    d.inventory.get k = some v →
    ∃ p, d.providers.get v.providerId = some p ∧ p.type = .external ∧ p.HoldsStock
  reply : ∀ x i r, r.kind = some .hold → env (.http (.item x i) r) = outs i
  regular : ∀ i, (outs i).Regular

/-- A conflict is fatal, and nothing else; what the other outcomes make of the items, and that
every booked row has the quantity reserved once. -/
def FailOpen (cfg : Settings) (env : Env) (d : Db) (userId : String) (items : List CreateItem)
    (outs : ℕ → HttpOutcome) : Prop :=
  ((∃ e, (serve cfg d ⟨.create userId items, env⟩).result = .error e) ↔
    ∃ i, i < items.length ∧ (outs i).IsConflict) ∧
  ∀ a, (serve cfg d ⟨.create userId items, env⟩).result = .ok a →
    ∃ id r, a = .reservation id r ∧ r.items.length = items.length ∧
      ∀ i it ri, items[i]? = some it → r.items[i]? = some ri → (outs i).Marks it ri ∧
        (serve cfg d ⟨.create userId items, env⟩).db.inventory.get ri.inventoryId =
          (d.inventory.get ri.inventoryId).map (addReserved it.qty)

lemma OnPartners.marks (h : OnPartners env d items outs) (hl : Linked d)
    (hitems : plan.map Booking.item = items) (hplan : Fitting env d plan 0) {b : Booking}
    (hb : plan[i]? = some b) (rid : ℕ) :
    ((outs i).IsConflict ∨ (outs i).IsTransportError →
      ∃ e, (b.talk env d rid i).result = .error e) ∧
    (¬(outs i).IsConflict → ¬(outs i).IsTransportError →
      ∃ ri, (b.talk env d rid i).result = .ok ri ∧ (outs i).Marks b.item ri) := by
  subst hitems
  have hfit := hplan.get hb
  rw [Nat.zero_add] at hfit
  obtain ⟨p, hp, ht, hh⟩ := h.partner i b.item b.id b.row (by simp [hb]) hfit.chosen hfit.row
  obtain ⟨product, hprod⟩ := Option.ne_none_iff_exists'.mp (hl.product _ _ hfit.row)
  exact Booking.marks_of_talk hp ht hh hprod (fun r hr => h.reply rid i r hr) (h.regular i)

/-- No row of an internal provider is booked. -/
lemma OnPartners.booked_stock (h : OnPartners env d items outs)
    (hitems : plan.map Booking.item = items) (hplan : Fitting env d plan 0)
    (hnd : (items.map CreateItem.productId).Nodup) {b : Booking} (hb : b ∈ plan)
    {ris : List ReservationItem} (v : Inventory) :
    (bookChange cfg env d userId plan rid ris).stock b.id v = addReserved b.item.qty v := by
  subst hitems
  have hext : plan.filter (Booking.isInternal d) = [] := by
    rw [List.filter_eq_nil_iff]
    intro b' hb'
    obtain ⟨j, hj⟩ := List.getElem?_of_mem hb'
    have hfit := hplan.get hj
    rw [Nat.zero_add] at hfit
    obtain ⟨p, hp, ht, -⟩ := h.partner j b'.item b'.id b'.row (by simp [hj]) hfit.chosen hfit.row
    simp [Booking.isInternal, hp, ht]
  rw [bookChange_stock, hext, bookedQty_of_mem (hplan.nodup hnd) hb]
  simp [bookedQty]

/-- A hold is granted. -/
def holds : HttpOutcome := .response ⟨201, .object none (some "hold") none, ""⟩

lemma holds_regular : holds.Regular := by
  rintro r hr - h
  cases hr
  cases h

lemma shop_on_partners {outs : ℕ → HttpOutcome} (hreg : ∀ i, (outs i).Regular)
    {items : List CreateItem} (hitems : ∀ it ∈ items, it.productId ≠ 1 ∧ Sufficient (replying outs 0)
      shop it) : OnPartners (replying outs 0) shop items outs where
  sufficient it hit := (hitems it hit).2
  partner i it k v hi hc hv := by
    obtain ⟨u, hu, hp, -⟩ := mem_best.mp (mem_of_choose hc)
    obtain rfl : v = u := Option.some.inj (hv.symm.trans hu)
    have hne := (hitems it (List.mem_of_getElem? hi)).1
    match k, hu with
    | 1, rfl => exact absurd hp.symm hne
    | 2, rfl => exact ⟨_, rfl, rfl, _, rfl, rfl⟩
    | 3, rfl => exact ⟨_, rfl, rfl, _, rfl, rfl⟩
  reply _ _ _ _ := rfl
  regular := hreg

end InventoryReservation
