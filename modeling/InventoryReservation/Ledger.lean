/-
# The stock ledger

Units of stock on an inventory row, counted over the items of the reservations with a status,
and what each kind of change does to them and to the counters of the row.
-/
import InventoryReservation.Operations

namespace InventoryReservation

open RowTxn ReservationService

/-! ### Units on an inventory row -/

/-- The units of some items on an inventory row. -/
def qtyOn (k : ℕ) (items : List ReservationItem) : ℤ :=
  (items.map fun it => if it.inventoryId = k then it.qtyRequested else 0).sum

@[simp] lemma qtyOn_nil (k : ℕ) : qtyOn k [] = 0 := rfl

lemma qtyOn_cons (k : ℕ) (it : ReservationItem) (items : List ReservationItem) :
    qtyOn k (it :: items) = (if it.inventoryId = k then it.qtyRequested else 0) + qtyOn k items := by
  simp [qtyOn]

lemma qtyOn_nonneg {k : ℕ} {items : List ReservationItem}
    (h : ∀ it ∈ items, 0 < it.qtyRequested) : 0 ≤ qtyOn k items := by
  refine List.sum_nonneg fun x hx => ?_
  obtain ⟨it, hit, rfl⟩ := List.mem_map.mp hx
  split
  · exact (h it hit).le
  · exact le_rfl

/-- A new status moves no units. -/
lemma qtyOn_settled (k : ℕ) (skip : ReservationItem → Bool) (status : ProviderItemStatus)
    (items : List ReservationItem) : qtyOn k (items.map (settled skip status)) = qtyOn k items := by
  have h : ∀ it : ReservationItem, (settled skip status it).inventoryId = it.inventoryId ∧
      (settled skip status it).qtyRequested = it.qtyRequested := by
    intro it
    unfold settled
    split <;> exact ⟨rfl, rfl⟩
  induction items with
  | nil => rfl
  | cons it items ih => rw [List.map_cons, qtyOn_cons, qtyOn_cons, (h it).1, (h it).2, ih]

/-- The units of the items of a reservation, if it has the status. -/
def Reservation.unitsIn (status : ReservationStatus) (k : ℕ) (r : Reservation) : ℤ :=
  if r.status = status then qtyOn k r.items else 0

namespace Db

/-- The units on a row that reservations with the status have. -/
def unitsIn (d : Db) (status : ReservationStatus) (k : ℕ) : ℤ :=
  d.reservations.sum (Reservation.unitsIn status k)

/-- The units on a row that reservations have, whatever their status. -/
def units (d : Db) (k : ℕ) : ℤ := d.reservations.sum fun r => qtyOn k r.items

/-- The row belongs to a provider that is the service itself. -/
def isInternal (d : Db) (k : ℕ) : Bool :=
  ((d.inventory.get k).bind fun v => d.providers.get v.providerId).any fun p => p.type = .internal

end Db

/-! ### The counters of a row -/

/-- What `confirm` does to a row. -/
lemma consumed_eq (items : List ReservationItem) (k : ℕ) (v : Inventory) :
    consumed items k v = { v with
      qtyAvailable := v.qtyAvailable - qtyOn k items
      qtyReserved := v.qtyReserved - qtyOn k items } := by
  unfold consumed
  induction items generalizing v with
  | nil => simp [stockOf]
  | cons it items ih =>
    rw [stockOf, ih, qtyOn_cons]
    by_cases hk : it.inventoryId = k
    · simp [hk, consume, sub_sub]
    · simp [hk]

/-- A clamp that keeps what is not negative. -/
def Clamps (clamp : ℤ → ℤ) : Prop := ∀ n, 0 ≤ n → clamp n = n

lemma clamps_max : Clamps (max 0) := fun _ h => max_eq_right h

lemma clamps_id : Clamps id := fun _ _ => rfl

/-- What the release of items does to a row on which they are reserved. -/
lemma stockOf_release {clamp : ℤ → ℤ} (hclamp : Clamps clamp) {items : List ReservationItem}
    (hitems : ∀ it ∈ items, 0 < it.qtyRequested ∧ isDone it = false) {k : ℕ} {v : Inventory}
    (h : qtyOn k items ≤ v.qtyReserved) :
    stockOf isDone (release clamp) items k v =
      { v with qtyReserved := v.qtyReserved - qtyOn k items } := by
  induction items generalizing v with
  | nil => simp [stockOf]
  | cons it items ih =>
    have hpos : 0 ≤ qtyOn k items :=
      qtyOn_nonneg fun it' hit' => (hitems it' (List.mem_cons_of_mem _ hit')).1
    have hit := hitems it (by simp)
    rw [qtyOn_cons] at h
    rw [stockOf, qtyOn_cons]
    by_cases hk : it.inventoryId = k
    · rw [if_pos hk] at h
      have hrel : release clamp it v = { v with qtyReserved := v.qtyReserved - it.qtyRequested } := by
        rw [release, hclamp _ (by omega)]
      simp only [hk, hit.2, Bool.not_false, decide_true, Bool.and_self, if_true, hrel]
      rw [ih (fun it' hit' => hitems it' (List.mem_cons_of_mem _ hit')) (by simp only; omega)]
      simp [sub_sub]
    · rw [if_neg hk, zero_add] at h
      simp only [hk, decide_false, Bool.and_false, Bool.false_eq_true, if_false, zero_add]
      exact ih (fun it' hit' => hitems it' (List.mem_cons_of_mem _ hit')) h

/-- The units of a list of reservations. -/
def unitsOf (k : ℕ) (rs : List (ℕ × Reservation)) : ℤ :=
  (rs.map fun r => qtyOn k r.2.items).sum

/-- What the release of reservations does to a row on which they are reserved. -/
lemma releasedStock_eq {clamp : ℤ → ℤ} (hclamp : Clamps clamp) {rs : List (ℕ × Reservation)}
    (hrs : ∀ r ∈ rs, ∀ it ∈ r.2.items, 0 < it.qtyRequested ∧ isDone it = false) {k : ℕ}
    {v : Inventory} (h : unitsOf k rs ≤ v.qtyReserved) :
    releasedStock clamp rs k v = { v with qtyReserved := v.qtyReserved - unitsOf k rs } := by
  induction rs generalizing v with
  | nil => simp [releasedStock, unitsOf]
  | cons r rs ih =>
    have hrs' := fun r' (hr' : r' ∈ rs) => hrs r' (List.mem_cons_of_mem _ hr')
    have hcons : unitsOf k (r :: rs) = qtyOn k r.2.items + unitsOf k rs := by simp [unitsOf]
    have hpos : 0 ≤ unitsOf k rs := by
      refine List.sum_nonneg fun x hx => ?_
      obtain ⟨r', hr', rfl⟩ := List.mem_map.mp hx
      exact qtyOn_nonneg fun it hit => (hrs' r' hr' it hit).1
    rw [hcons] at h ⊢
    have hr := stockOf_release hclamp (hrs r (by simp))
      (show qtyOn k r.2.items ≤ v.qtyReserved by omega)
    have hstep : releasedStock clamp (r :: rs) k v =
        releasedStock clamp rs k (stockOf isDone (release clamp) r.2.items k v) := rfl
    rw [hstep, hr, ih hrs' (by simp only; omega)]
    simp [sub_sub]

/-! ### What is booked -/

/-- The item of a booking after its provider was called. -/
structure Booking.Outcome (d₀ : Db) (b : Booking) (ri : ReservationItem) : Prop where
  productId : ri.productId = b.item.productId
  inventoryId : ri.inventoryId = b.id
  providerId : ri.providerId = b.row.providerId
  qty : ri.qtyRequested = b.item.qty
  status : ri.providerStatus = .held ∨ ri.providerStatus = .providerFailed
  ref : ri.providerHoldRef ≠ none → ∃ p, d₀.providers.get b.row.providerId = some p ∧
    p.type = .external ∧ ∃ a, ExternalHttpProviderAdapter.new p = .ok a
  room : b.isInternal d₀ → b.item.qty ≤ (addReserved b.item.qty b.row).effective

lemma Booking.outcome_of_adapterTalk {env : Env} {d₀ : Db} {rid i : ℕ} {b : Booking}
    {p : InventoryProvider} {a : ProviderAdapter} {ri : ReservationItem}
    (hp : d₀.providers.get b.row.providerId = some p)
    (ha : ProviderRegistry.resolve p (some b.id) = .ok a)
    (h : (b.adapterTalk env d₀ rid i a).result = .ok ri) : b.Outcome d₀ ri := by
  unfold adapterTalk at h
  rcases hpr : d₀.products.get b.row.productId with _ | product <;> rw [hpr] at h
  · cases h
  rcases resolve_ok hp ha with ⟨rfl, hint⟩ | ⟨⟨e, rfl⟩, hext⟩
  · -- the internal adapter raises, or there is room for a second increment
    simp only [ProviderAdapter.holdTalk] at h
    split at h
    · cases h
    next hge =>
    obtain rfl : b.heldItem none = ri := by simpa [Talk.bind, Talk.handle, Talk.pure] using h
    exact ⟨rfl, rfl, rfl, rfl, Or.inl rfl, fun hne => absurd rfl hne, fun _ => not_lt.mp hge⟩
  · have hadapter : p.type = .external ∧ ∃ a, ExternalHttpProviderAdapter.new p = .ok a := by
      unfold ProviderRegistry.resolve at ha
      rcases ht : p.type with _ | _ <;> simp only [ht] at ha
      · cases ha
      · rcases hn : ExternalHttpProviderAdapter.new p with e' | a <;> rw [hn] at ha <;> cases ha
        exact ⟨rfl, _, rfl⟩
    simp only [Talk.handle_ok, Talk.bind_ok] at h
    rcases h with ⟨ref, -, h⟩ | ⟨err, -, h⟩
    · obtain rfl : b.heldItem ref = ri := by simpa [Talk.pure] using h
      exact ⟨rfl, rfl, rfl, rfl, Or.inl rfl, fun _ => ⟨p, hp, hadapter⟩, fun hi => absurd hi hext⟩
    · obtain ⟨exc, rfl⟩ : ∃ exc, b.failedItem exc = ri := by
        cases err with
        | providerTimeout exc => exact ⟨exc, by simpa [refused, Talk.pure] using h⟩
        | providerUnavailable exc => exact ⟨exc, by simpa [refused, Talk.pure] using h⟩
        | _ => simp [refused, Talk.raise] at h
      exact ⟨rfl, rfl, rfl, rfl, Or.inr rfl, fun hne => absurd rfl hne, fun hi => absurd hi hext⟩

lemma Booking.outcome_of_talk {env : Env} {d₀ : Db} {rid i : ℕ} {b : Booking}
    {ri : ReservationItem} (h : (b.talk env d₀ rid i).result = .ok ri) : b.Outcome d₀ ri := by
  unfold talk at h
  rcases hp : d₀.providers.get b.row.providerId with _ | p <;> rw [hp] at h
  · cases h
  · obtain ⟨a, ha, h⟩ := Talk.bind_ok.mp h
    exact outcome_of_adapterTalk hp ha h

theorem outcomes_of_bookTalks {env : Env} {d₀ : Db} {rid i : ℕ} {plan : List Booking}
    {ris : List ReservationItem} (h : (bookTalks env d₀ rid plan i).result = .ok ris) :
    List.Forall₂ (Booking.Outcome d₀) plan ris := by
  induction plan generalizing i ris with
  | nil =>
    obtain rfl : [] = ris := by simpa [bookTalks, Talk.pure] using h
    exact .nil
  | cons b plan ih =>
    rw [bookTalks] at h
    obtain ⟨ri, hri, h⟩ := Talk.bind_ok.mp h
    obtain ⟨ris', hris, h⟩ := Talk.bind_ok.mp h
    obtain rfl : ri :: ris' = ris := by simpa [Talk.pure] using h
    exact .cons (Booking.outcome_of_talk hri) (ih hris)

lemma qtyOn_of_outcomes {d₀ : Db} {plan : List Booking} {ris : List ReservationItem}
    (h : List.Forall₂ (Booking.Outcome d₀) plan ris) (k : ℕ) : qtyOn k ris = bookedQty plan k := by
  induction h with
  | nil => rfl
  | cons hb _ ih =>
    rw [qtyOn_cons, ih, hb.inventoryId, hb.qty]
    simp [bookedQty]

lemma outcome_of_mem {d₀ : Db} {plan : List Booking} {ris : List ReservationItem}
    (h : List.Forall₂ (Booking.Outcome d₀) plan ris) {ri : ReservationItem} (hri : ri ∈ ris) :
    ∃ b ∈ plan, b.Outcome d₀ ri := by
  induction h with
  | nil => cases hri
  | cons hb _ ih =>
    rcases List.mem_cons.mp hri with rfl | hri
    · exact ⟨_, List.mem_cons_self, hb⟩
    · obtain ⟨b, hb, ho⟩ := ih hri
      exact ⟨b, List.mem_cons_of_mem _ hb, ho⟩

lemma outcome_of_plan {d₀ : Db} {plan : List Booking} {ris : List ReservationItem}
    (h : List.Forall₂ (Booking.Outcome d₀) plan ris) {b : Booking} (hb : b ∈ plan) :
    ∃ ri ∈ ris, b.Outcome d₀ ri := by
  induction h with
  | nil => cases hb
  | cons hb' _ ih =>
    rcases List.mem_cons.mp hb with rfl | hb
    · exact ⟨_, List.mem_cons_self, hb'⟩
    · obtain ⟨ri, hri, ho⟩ := ih hb
      exact ⟨ri, List.mem_cons_of_mem _ hri, ho⟩

/-- What `create` does to a row. -/
lemma bookChange_stock (cfg : Settings) (env : Env) (d₀ : Db) (userId : String)
    (plan : List Booking) (rid : ℕ) (ris : List ReservationItem) (k : ℕ) (v : Inventory) :
    (bookChange cfg env d₀ userId plan rid ris).stock k v = addReserved
      (bookedQty plan k + bookedQty (plan.filter (Booking.isInternal d₀)) k) v := by
  rw [bookChange, Change.setRes_stock, reservedChange_stock, reservedChange_stock,
    lockedChange_stock, addReserved_addReserved]
  rfl

/-! ### The kinds of changes -/

/-- The three kinds of changes that the operations make. -/
inductive Change.Lawful (d₀ : Db) (clamp : ℤ → ℤ) : Change → Prop
  | book {cfg : Settings} {env : Env} {userId : String} {plan : List Booking} {rid : ℕ}
      {ris : List ReservationItem} (hnd : (plan.map Booking.id).Nodup)
      (hroom : ∀ b ∈ plan, b.item.qty ≤ b.row.effective)
      (hris : List.Forall₂ (Booking.Outcome d₀) plan ris) :
      Change.Lawful d₀ clamp (bookChange cfg env d₀ userId plan rid ris)
  | confirm {x : ℕ} {r : Reservation} (hst : r.status = .pending) :
      Change.Lawful d₀ clamp (confirmChange x r)
  | release {status : ReservationStatus} {rs : List (ℕ × Reservation)}
      (hs : status = .cancelled ∨ status = .expired) (hnd : (rs.map Prod.fst).Nodup)
      (hst : ∀ r ∈ rs, r.2.status = .pending) :
      Change.Lawful d₀ clamp (releaseChange clamp status rs)

theorem Op.Returns.lawful {clamp : ℤ → ℤ} {cfg : Settings} {env : Env} {d₀ : Db}
    {R : Rely Db RowKey} (hR : ∀ d, R.seen d → Static d₀ d) {op : Op} (hop : op.Distinct)
    {a : Reply} {tr : Trace} {Δ : Change} (h : op.Returns clamp cfg env d₀ R a tr (some Δ)) :
    Δ.Lawful d₀ clamp := by
  cases h.does with
  | create hop' _ hs =>
    subst hop'
    cases hs with
    | mk hplan _ hok =>
      exact .book (hplan.nodup hR hop) (fun b hb => (hplan.locked b hb).2)
        (outcomes_of_bookTalks hok)
  | confirm _ _ h =>
    cases h with
    | mk _ _ hst => exact .confirm hst
  | cancel _ _ h =>
    cases h with
    | release _ _ hst => exact .release (Or.inl rfl) (by simp) (by simpa using hst)
  | expire _ _ h =>
    cases h with
    | mk _ _ hrs hrow =>
      exact .release (Or.inr rfl) (nodup_of_batch hrs)
        fun r hr => (expired_of_mem hrs hrow (show (r.1, r.2) ∈ _ from hr)).2.1

/-- The items of a new reservation have the quantities of the request. -/
theorem Op.Returns.positive {clamp : ℤ → ℤ} {cfg : Settings} {env : Env} {d₀ : Db}
    {R : Rely Db RowKey} {op : Op} (hop : op.Positive) {a : Reply} {tr : Trace} {Δ : Change}
    (h : op.Returns clamp cfg env d₀ R a tr (some Δ)) {x : ℕ} {c : Reservation}
    (hx : Δ.res x = some (none, c)) : ∀ it ∈ c.items, 0 < it.qtyRequested := by
  cases h.does with
  | create hop' _ hs =>
    subst hop'
    cases hs with
    | mk hplan _ hok =>
      obtain ⟨-, -, rfl⟩ := bookChange_res hx
      intro ri hri
      obtain ⟨b, hb, ho⟩ := outcome_of_mem (outcomes_of_bookTalks hok) hri
      rw [ho.qty]
      exact hop _ (hplan.items ▸ List.mem_map_of_mem hb)
  | confirm _ _ hs =>
    cases hs with
    | mk => exact absurd (confirmChange_res hx).2.1 (by simp)
  | cancel _ _ hs =>
    cases hs with
    | release =>
      obtain ⟨r, -, hn, -⟩ := mem_of_releaseChange_res (by simp) hx
      cases hn
  | expire _ _ hs =>
    cases hs with
    | mk _ _ hrs =>
      obtain ⟨r, -, hn, -⟩ := mem_of_releaseChange_res (nodup_of_batch hrs) hx
      cases hn

/-! ### Sums under a change -/

namespace Change.Applies

variable {Δ : Change} {d d' : Db}

/-- A sum over the reservations changes by what it changes at the reservations of a list. -/
lemma sum_res (h : Δ.Applies d d') (g : Reservation → ℤ) {rs : List (ℕ × Reservation)}
    (f : Reservation → Reservation) (hnd : (rs.map Prod.fst).Nodup)
    (hout : ∀ x, x ∉ rs.map Prod.fst → Δ.res x = none)
    (hrs : ∀ r ∈ rs, Δ.res r.1 = some (some r.2, f r.2)) :
    d'.reservations.sum g = d.reservations.sum g + (rs.map fun r => g (f r.2) - g r.2).sum := by
  have hsum : d'.reservations.sum g - d.reservations.sum g = ∑ x ∈ (rs.map Prod.fst).toFinset,
      ((d'.reservations.get x).elim 0 g - (d.reservations.get x).elim 0 g) :=
    Table.sum_sub_sum fun x hx => by rw [h.res_out x (hout x (by simpa using hx))]
  have hlist : ∑ x ∈ (rs.map Prod.fst).toFinset,
      ((d'.reservations.get x).elim 0 g - (d.reservations.get x).elim 0 g) =
      (rs.map fun r => g (f r.2) - g r.2).sum := by
    rw [List.sum_toFinset _ hnd, List.map_map]
    refine congrArg List.sum (List.map_congr_left fun r hr => ?_)
    obtain ⟨hb, hc⟩ := h.res _ _ _ (hrs r hr)
    simp [hb, hc]
  rw [hlist] at hsum
  omega

/-- A sum over the reservations after a new one. -/
lemma sum_new (h : Δ.Applies d d') (g : Reservation → ℤ) {x : ℕ} {r : Reservation}
    (hx : Δ.res x = some (none, r)) (hout : ∀ y, y ≠ x → Δ.res y = none) :
    d'.reservations.sum g = d.reservations.sum g + g r := by
  obtain ⟨hb, hc⟩ := h.res _ _ _ hx
  rw [Table.sum_of_get_ne x fun y hy => h.res_out y (hout y hy)]
  simp [hb, hc]

end Change.Applies

end InventoryReservation
