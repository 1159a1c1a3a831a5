/-
# The lifecycle of a reservation

What a change does to one reservation and its order, and the invariant that ties the status of
a reservation to its items and its order.
-/
import InventoryReservation.Ledger

namespace InventoryReservation

open RowTxn ReservationService

variable {d₀ d d' : Db} {clamp : ℤ → ℤ} {Δ : Change}

/-- What a change does to the reservation `x`. -/
inductive Change.At (d₀ : Db) (Δ : Change) (x : ℕ) : Prop
  | frame (hr : Δ.res x = none) (ho : Δ.ord x = none)
  | book {r : Reservation} {plan : List Booking} (hr : Δ.res x = some (none, r))
      (ho : Δ.ord x = none) (hst : r.status = .pending)
      (hris : List.Forall₂ (Booking.Outcome d₀) plan r.items)
      (hwas : ∀ b ∈ plan, Δ.was b.id = some b.row)
  | confirm {r : Reservation} (hr : Δ.res x = some (some r, r.confirmed))
      (ho : Δ.ord x = some ⟨x, r.userId, .created⟩) (hst : r.status = .pending)
  | release {r : Reservation} {status : ReservationStatus}
      (hr : Δ.res x = some (some r, r.released status)) (ho : Δ.ord x = none)
      (hs : status = .cancelled ∨ status = .expired) (hst : r.status = .pending)

lemma bookChange_was {cfg : Settings} {env : Env} {userId : String} {plan : List Booking} {rid : ℕ}
    {ris : List ReservationItem} (hnd : (plan.map Booking.id).Nodup) {b : Booking}
    (hb : b ∈ plan) : (bookChange cfg env d₀ userId plan rid ris).was b.id = some b.row := by
  simpa [bookChange] using lockedChange_was_of_mem .nothing hnd hb

theorem Change.Lawful.at (h : Δ.Lawful d₀ clamp) (x : ℕ) : Δ.At d₀ x := by
  cases h with
  | @book cfg env userId plan rid ris hnd hroom hris =>
    by_cases hx : x = rid
    · subst hx
      exact .book (Change.setRes_res_self _ _ _ _) (bookChange_ord _ _ _ _ _ _ _ _) rfl hris
        fun b hb => bookChange_was hnd hb
    · refine .frame ?_ (bookChange_ord _ _ _ _ _ _ _ _)
      simp [bookChange, Change.setRes_res_of_ne _ _ _ hx, Change.nothing]
  | @confirm y r hst =>
    by_cases hx : x = y
    · subst hx
      exact .confirm (by simp [confirmChange]) (by simp [confirmChange]) hst
    · refine .frame ?_ ?_
      · simp [confirmChange, Change.setRes_res_of_ne _ _ _ hx, Change.nothing]
      · simp [confirmChange, Change.addOrd_ord_of_ne _ _ hx, Change.nothing]
  | @release status rs hs hnd hst =>
    by_cases hx : x ∈ rs.map Prod.fst
    · obtain ⟨⟨y, r⟩, hr, rfl⟩ := List.mem_map.mp hx
      exact .release (releaseChange_res_of_mem hnd hr) (releaseChange_ord _) hs (hst _ hr)
    · exact .frame (releaseChange_res_of_not_mem hx) (releaseChange_ord _)

/-! ### Rows keep their product and provider -/

lemma stockOf_ident (skip : ReservationItem → Bool)
    (step : ReservationItem → Inventory → Inventory) (hstep : ∀ it v, (step it v).ident = v.ident)
    (items : List ReservationItem) (k : ℕ) (v : Inventory) :
    (stockOf skip step items k v).ident = v.ident := by
  induction items generalizing v with
  | nil => rfl
  | cons it items ih =>
    rw [stockOf, ih]
    split
    · exact hstep it v
    · rfl

lemma releasedStock_ident (clamp : ℤ → ℤ) (rs : List (ℕ × Reservation)) (k : ℕ) (v : Inventory) :
    (releasedStock clamp rs k v).ident = v.ident := by
  induction rs generalizing v with
  | nil => rfl
  | cons r rs ih =>
    have hstep : releasedStock clamp (r :: rs) k v =
        releasedStock clamp rs k (stockOf isDone (release clamp) r.2.items k v) := rfl
    rw [hstep, ih]
    exact stockOf_ident _ (release clamp) (fun _ _ => rfl) _ _ _

theorem Change.Lawful.ident (h : Δ.Lawful d₀ clamp) (k : ℕ) (v : Inventory) :
    (Δ.stock k v).ident = v.ident := by
  cases h with
  | book => rw [bookChange_stock]; rfl
  | confirm => exact stockOf_ident _ consume (fun _ _ => rfl) _ _ _
  | release => rw [releaseChange_stock]; exact releasedStock_ident _ _ _ _

theorem Change.Lawful.static (h : Δ.Lawful d₀ clamp) (ha : Δ.Applies d d') : Static d d' where
  products := ha.products
  providers := ha.providers
  stock k := by
    rw [ha.stock k, Option.map_map]
    congr 1
    funext v
    exact h.ident k v

/-! ### The invariant -/

/-- An item is on a row of its provider, and one with a reference on an external provider. -/
structure ReservationItem.Placed (d : Db) (it : ReservationItem) : Prop where
  row : ∃ v, d.inventory.get it.inventoryId = some v ∧ v.providerId = it.providerId
  ref : it.providerHoldRef ≠ none → ∃ p, d.providers.get it.providerId = some p ∧
    p.type = .external ∧ ∃ a, ExternalHttpProviderAdapter.new p = .ok a

lemma ReservationItem.Placed.static {it : ReservationItem} (h : it.Placed d) (hd : Static d d') :
    it.Placed d' where
  row := by
    obtain ⟨v, hv, hp⟩ := h.row
    have := hd.stock it.inventoryId
    rw [hv] at this
    obtain ⟨v', hv', hid⟩ := Option.map_eq_some_iff.mp this
    exact ⟨v', hv', (congrArg Prod.snd hid).trans hp⟩
  ref hne := by
    rw [hd.providers]
    exact h.ref hne

/-- The order and the items that a reservation has with its status. -/
structure Reservation.Coherent (x : ℕ) (o : Option Order) (r : Reservation) : Prop where
  pending : r.status = .pending → o = none ∧
    ∀ it ∈ r.items, it.providerStatus = .held ∨ it.providerStatus = .providerFailed
  confirmed : r.status = .confirmed → o = some ⟨x, r.userId, .created⟩ ∧
    ∀ it ∈ r.items, it.providerStatus = .confirmed
  released : r.status = .cancelled ∨ r.status = .expired → o = none ∧
    ∀ it ∈ r.items, it.providerStatus = .released

/-- The lifecycle invariant. -/
structure Coherent (d : Db) : Prop where
  reservation : ∀ x r, d.reservations.get x = some r → r.Coherent x (d.orders.get x)
  order : ∀ x, d.reservations.get x = none → d.orders.get x = none
  placed : ∀ x r, d.reservations.get x = some r → ∀ it ∈ r.items, it.Placed d

/-- No item of a pending reservation is skipped when it is released. -/
lemma Coherent.not_done (h : Coherent d) {x : ℕ} {r : Reservation}
    (hr : d.reservations.get x = some r) (hst : r.status = .pending) :
    ∀ it ∈ r.items, isDone it = false := by
  intro it hit
  rcases ((h.reservation x r hr).pending hst).2 it hit with hs | hs <;> simp [isDone, hs]

lemma Reservation.Coherent.confirm {x : ℕ} (r : Reservation) :
    r.confirmed.Coherent x (some ⟨x, r.userId, .created⟩) where
  pending h := by cases h
  confirmed _ := by
    refine ⟨rfl, fun it hit => ?_⟩
    obtain ⟨it', -, rfl⟩ := List.mem_map.mp hit
    rfl
  released h := by rcases h with h | h <;> cases h

lemma Reservation.Coherent.release {x : ℕ} {r : Reservation} {status : ReservationStatus}
    {o : Option Order} (h : r.Coherent x o) (hst : r.status = .pending)
    (hs : status = .cancelled ∨ status = .expired) : (r.released status).Coherent x o where
  pending hp := by
    rcases hs with rfl | rfl <;> cases hp
  confirmed hp := by
    rcases hs with rfl | rfl <;> cases hp
  released _ := by
    refine ⟨(h.pending hst).1, fun it hit => ?_⟩
    obtain ⟨it', hit', rfl⟩ := List.mem_map.mp hit
    rcases (h.pending hst).2 it' hit' with hp | hp <;> simp [settled, isDone, hp]

/-- A new status leaves an item where it is. -/
lemma Placed.settle {r : Reservation} {skip : ReservationItem → Bool} {s : ProviderItemStatus}
    {status : ReservationStatus} (h : ∀ it ∈ r.items, it.Placed d) :
    ∀ it ∈ (r.settle skip s status).items, it.Placed d := by
  intro it hit
  obtain ⟨it', hit', rfl⟩ := List.mem_map.mp hit
  have hp := h it' hit'
  unfold settled
  split
  · exact hp
  · exact ⟨hp.row, hp.ref⟩

/-- Lawful changes keep the lifecycle invariant. -/
theorem Coherent.applies (h : Coherent d) (hd : Static d₀ d) (hΔ : Δ.Lawful d₀ clamp)
    (ha : Δ.Applies d d') : Coherent d' := by
  have hst := hΔ.static ha
  have hplaced : ∀ {r : Reservation}, (∀ it ∈ r.items, it.Placed d) → ∀ it ∈ r.items, it.Placed d' :=
    fun hr it hit => (hr it hit).static hst
  -- the reservation with the id `x` after the change
  have main : ∀ x c, d'.reservations.get x = some c →
      c.Coherent x (d'.orders.get x) ∧ ∀ it ∈ c.items, it.Placed d' := by
    intro x c hc
    cases hΔ.at x with
    | frame hr ho =>
      rw [ha.res_out x hr] at hc
      rw [ha.ord_out x ho]
      exact ⟨h.reservation x c hc, hplaced (h.placed x c hc)⟩
    | @book r plan hr ho hst' hris hwas =>
      obtain ⟨hb, hc'⟩ := ha.res x _ _ hr
      obtain rfl : r = c := Option.some.inj (hc'.symm.trans hc)
      rw [ha.ord_out x ho, h.order x hb]
      refine ⟨⟨fun _ => ⟨rfl, fun it hit => ?_⟩, fun hcon => ?_, fun hrel => ?_⟩, fun it hit => ?_⟩
      · obtain ⟨b, -, hout⟩ := outcome_of_mem hris hit
        exact hout.status
      · rw [hst'] at hcon
        cases hcon
      · rw [hst'] at hrel
        rcases hrel with hrel | hrel <;> cases hrel
      · obtain ⟨b, hbp, hout⟩ := outcome_of_mem hris hit
        refine ReservationItem.Placed.static ⟨⟨b.row, ?_, hout.providerId.symm⟩, fun hne => ?_⟩ hst
        · rw [hout.inventoryId]
          exact ha.was _ _ (hwas b hbp)
        · rw [hout.providerId, hd.providers]
          exact hout.ref hne
    | @confirm r hr ho hst' =>
      obtain ⟨hb, hc'⟩ := ha.res x _ _ hr
      obtain rfl : r.confirmed = c := Option.some.inj (hc'.symm.trans hc)
      rw [(ha.ord x _ ho).2]
      exact ⟨.confirm r, hplaced (Placed.settle (h.placed x r hb))⟩
    | @release r status hr ho hs hst' =>
      obtain ⟨hb, hc'⟩ := ha.res x _ _ hr
      obtain rfl : r.released status = c := Option.some.inj (hc'.symm.trans hc)
      rw [ha.ord_out x ho]
      exact ⟨(h.reservation x r hb).release hst' hs, hplaced (Placed.settle (h.placed x r hb))⟩
  refine ⟨fun x c hc => (main x c hc).1, fun x hx => ?_, fun x c hc => (main x c hc).2⟩
  have hnone : Δ.res x = none := by
    rcases hr : Δ.res x with _ | ⟨b, c⟩
    · rfl
    · rw [(ha.res x b c hr).2] at hx
      cases hx
  cases hΔ.at x with
  | frame hr ho =>
    rw [ha.res_out x hr] at hx
    rw [ha.ord_out x ho]
    exact h.order x hx
  | book hr => simp [hr] at hnone
  | confirm hr => simp [hr] at hnone
  | release hr => simp [hr] at hnone

end InventoryReservation
