/-
# Sweeping a backlog

The reservations past their expiry may be swept in batches of any sizes, in any order and with
any replies of the providers.  The invariant of the sweeps compares the database with the one
before the first of them: the clamped releases add up, since clamping twice is clamping once.
-/
import InventoryReservation.Release

namespace InventoryReservation

open RowTxn ReservationService ReservationRepository

variable {cfg : Settings} {env : Env} {d d₀ d₁ : Db} {now : ℤ} {x k : ℕ} {r : Reservation}
  {items : List ReservationItem} {rs : List (ℕ × Reservation)}

/-! ### What is given back -/

/-- The reservation is pending and past its expiry. -/
def Reservation.Overdue (now : ℤ) (r : Reservation) : Prop :=
  r.status = .pending ∧ r.expiresAt < now

instance (now : ℤ) (r : Reservation) : Decidable (r.Overdue now) :=
  inferInstanceAs (Decidable (r.status = .pending ∧ r.expiresAt < now))

/-- The units that the items give back on an inventory row. -/
def freed (k : ℕ) (items : List ReservationItem) : ℤ := qtyOn k (items.filter fun it => !isDone it)

lemma freed_cons (k : ℕ) (it : ReservationItem) (items : List ReservationItem) :
    freed k (it :: items) =
      (if !isDone it && it.inventoryId = k then it.qtyRequested else 0) + freed k items := by
  by_cases h : isDone it <;> simp [freed, h, qtyOn_cons]

lemma freed_nonneg (h : ∀ it ∈ items, 0 < it.qtyRequested) : 0 ≤ freed k items :=
  qtyOn_nonneg fun it hit => h it (List.mem_of_mem_filter hit)

/-- The units that a list of reservations gives back. -/
def freedBy (k : ℕ) (rs : List (ℕ × Reservation)) : ℤ := (rs.map fun r => freed k r.2.items).sum

lemma freedBy_cons (k : ℕ) (r : ℕ × Reservation) (rs : List (ℕ × Reservation)) :
    freedBy k (r :: rs) = freed k r.2.items + freedBy k rs := rfl

/-- The reserved quantity after `n` units were given back. -/
def giveBack (n : ℤ) (v : Inventory) : Inventory :=
  { v with qtyReserved := max 0 (v.qtyReserved - n) }

lemma giveBack_giveBack {m n : ℤ} (hn : 0 ≤ n) (v : Inventory) :
    giveBack n (giveBack m v) = giveBack (m + n) v := by
  simp only [giveBack, Inventory.mk.injEq, true_and, and_true]
  omega

lemma giveBack_zero {v : Inventory} (h : 0 ≤ v.qtyReserved) : giveBack 0 v = v := by
  simp [giveBack, h]

lemma stockOf_giveBack (hitems : ∀ it ∈ items, 0 < it.qtyRequested) {v : Inventory}
    (hv : 0 ≤ v.qtyReserved) :
    stockOf isDone (release (max 0)) items k v = giveBack (freed k items) v := by
  induction items generalizing v with
  | nil => exact (giveBack_zero hv).symm
  | cons it items ih =>
    have hitems' := fun it' (hit' : it' ∈ items) => hitems it' (List.mem_cons_of_mem _ hit')
    rw [stockOf, freed_cons]
    split
    · rw [ih hitems' (le_max_left _ _)]
      exact giveBack_giveBack (freed_nonneg hitems') v
    · rw [ih hitems' hv, zero_add]

lemma releasedStock_giveBack (hrs : ∀ r ∈ rs, ∀ it ∈ r.2.items, 0 < it.qtyRequested)
    {v : Inventory} (hv : 0 ≤ v.qtyReserved) :
    releasedStock (max 0) rs k v = giveBack (freedBy k rs) v := by
  induction rs generalizing v with
  | nil => exact (giveBack_zero hv).symm
  | cons r rs ih =>
    have hrs' := fun r' (hr' : r' ∈ rs) => hrs r' (List.mem_cons_of_mem _ hr')
    have hnn : 0 ≤ freedBy k rs := by
      refine List.sum_nonneg fun n hn => ?_
      obtain ⟨r', hr', rfl⟩ := List.mem_map.mp hn
      exact freed_nonneg (hrs' r' hr')
    calc releasedStock (max 0) (r :: rs) k v
        = releasedStock (max 0) rs k (giveBack (freed k r.2.items) v) := by
          rw [← stockOf_giveBack (hrs r (by simp)) hv]
          rfl
      _ = giveBack (freedBy k (r :: rs)) v := by
          rw [ih hrs' (le_max_left _ _), giveBack_giveBack hnn, freedBy_cons]

namespace Db

/-- The reservations that are to be expired. -/
def overdue (d : Db) (now : ℤ) : Finset ℕ := (expiredPending d now).toFinset

/-- The units that they give back on an inventory row. -/
def freed (d : Db) (now : ℤ) (k : ℕ) : ℤ :=
  d.reservations.sum fun r => if r.Overdue now then InventoryReservation.freed k r.items else 0

lemma mem_overdue : x ∈ d.overdue now ↔ ∃ r, d.reservations.get x = some r ∧ r.Overdue now := by
  rw [overdue, List.mem_toFinset, mem_expiredPending]
  rfl

end Db

/-- The states in which sweeps are considered. -/
structure Sweepable (d : Db) : Prop where
  positive : Positive d
  reserved : ∀ k v, d.inventory.get k = some v → 0 ≤ v.qtyReserved
  releasable : ∀ x r, d.reservations.get x = some r → ∀ it ∈ r.items, it.Releasable d

/-- Runs from nothing lead to such states. -/
lemma Kept.sweepable (h : Kept d₀ d) : Sweepable d where
  positive := h.positive
  reserved k v hv := by
    have := h.funded.reserved k v hv
    have := h.positive.unitsIn_nonneg .pending k
    have := h.positive.units_nonneg k
    split at * <;> omega
  releasable _ _ hr := h.coherent.releasable hr

/-! ### The invariant -/

/-- The items of a released reservation were released or confirmed. -/
lemma Reservation.released_isDone {r : Reservation} {status : ReservationStatus} :
    ∀ it ∈ (r.released status).items, isDone it := by
  intro it hit
  obtain ⟨it', -, rfl⟩ := List.mem_map.mp hit
  unfold settled
  split
  · assumption
  · rfl

lemma ReservationItem.releasable_of_isDone {it : ReservationItem} (h : isDone it) :
    it.Releasable d := by
  intro hst
  simp [isDone, hst] at h

/-- Sweeps have led from `d₀` to `d`: some of the overdue reservations have expired, and what
they had is no longer reserved. -/
structure Sweeping (now : ℤ) (d₀ d : Db) : Prop where
  products : d.products.get = d₀.products.get
  providers : d.providers.get = d₀.providers.get
  orders : d.orders.get = d₀.orders.get
  stock : ∀ k, d.inventory.get k =
    (d₀.inventory.get k).map (giveBack (d₀.freed now k - d.freed now k))
  res : ∀ x, d.reservations.get x = d₀.reservations.get x ∨
    ∃ r, d₀.reservations.get x = some r ∧ r.Overdue now ∧
      d.reservations.get x = some (r.released .expired)

namespace Sweeping

lemma refl (h : Sweepable d) : Sweeping now d d where
  products := rfl
  providers := rfl
  orders := rfl
  stock k := by
    rcases hv : d.inventory.get k with _ | v
    · rfl
    · simp [giveBack_zero (h.reserved k v hv)]
  res _ := Or.inl rfl

lemma overdue (h : Sweeping now d₀ d) (hr : d.reservations.get x = some r) (ho : r.Overdue now) :
    d₀.reservations.get x = some r := by
  rcases h.res x with hx | ⟨r₀, -, -, hx⟩
  · rw [← hx, hr]
  · rw [hr] at hx
    cases hx
    cases ho.1

lemma sweepable (h : Sweeping now d₀ d) (h₀ : Sweepable d₀) : Sweepable d where
  positive x r hr it hit := by
    rcases h.res x with hx | ⟨r₀, hr₀, -, hx⟩
    · exact h₀.positive x r (hx ▸ hr) it hit
    · rw [hr] at hx
      cases hx
      exact settled_positive isDone .released (h₀.positive x r₀ hr₀) it hit
  reserved k v hv := by
    rw [h.stock, Option.map_eq_some_iff] at hv
    obtain ⟨v₀, -, rfl⟩ := hv
    exact le_max_left _ _
  releasable x r hr it hit := by
    rcases h.res x with hx | ⟨r₀, hr₀, -, hx⟩
    · intro hst href
      rw [h.providers]
      exact h₀.releasable x r (hx ▸ hr) it hit hst href
    · rw [hr] at hx
      cases hx
      exact ReservationItem.releasable_of_isDone (Reservation.released_isDone it hit)

/-- One more sweep. -/
lemma step (h : Sweeping now d₀ d) (h₀ : Sweepable d₀) (hnd : (rs.map Prod.fst).Nodup)
    (hrs : ∀ r ∈ rs, d.reservations.get r.1 = some r.2 ∧ r.2.Overdue now)
    (hc : (releaseChange (max 0) .expired rs).Applies d d₁) : Sweeping now d₀ d₁ where
  products := hc.products.trans h.products
  providers := hc.providers.trans h.providers
  orders := by
    rw [← h.orders]
    funext x
    exact hc.ord_out x (releaseChange_ord x)
  stock k := by
    have hfreed : d₁.freed now k = d.freed now k - freedBy k rs := by
      have hsum := hc.sum_res (fun r => if r.Overdue now then freed k r.items else 0)
        (Reservation.released · .expired) hnd (fun x hx => releaseChange_res_of_not_mem hx)
        fun r hr => releaseChange_res_of_mem hnd hr
      have hrow : ∀ r ∈ rs, ((if (r.2.released .expired).Overdue now then
          freed k (r.2.released .expired).items else 0) -
          if r.2.Overdue now then freed k r.2.items else 0) = -freed k r.2.items := by
        intro r hr
        rw [if_pos (hrs r hr).2, if_neg, zero_sub]
        exact fun ho => by cases ho.1
      have hneg : (rs.map fun r => -freed k r.2.items).sum = -freedBy k rs := by
        rw [freedBy, List.sum_neg, List.map_map]
        rfl
      rw [List.map_congr_left hrow, hneg] at hsum
      exact hsum
    -- the items of the batch one by one are one giving back, because nothing is negative
    have hrel : ∀ v, d.inventory.get k = some v →
        releasedStock (max 0) rs k v = giveBack (freedBy k rs) v := fun v hv =>
      releasedStock_giveBack (fun r hr => (h.sweepable h₀).positive _ _ (hrs r hr).1)
        ((h.sweepable h₀).reserved k v hv)
    have hnn : 0 ≤ freedBy k rs := by
      refine List.sum_nonneg fun n hn => ?_
      obtain ⟨r, hr, rfl⟩ := List.mem_map.mp hn
      exact freed_nonneg ((h.sweepable h₀).positive _ _ (hrs r hr).1)
    have hst := h.stock k
    rw [hc.stock, hfreed]
    rcases hv : d₀.inventory.get k with _ | v
    · rw [hst, hv]
      rfl
    · rw [hv, Option.map_some] at hst
      rw [hst, Option.map_some, Option.map_some, releaseChange_stock, hrel _ hst,
        giveBack_giveBack hnn]
      congr 2
      omega
  res x := by
    by_cases hx : x ∈ rs.map Prod.fst
    · obtain ⟨⟨y, r⟩, hr, rfl⟩ := List.mem_map.mp hx
      have hres := hc.res _ _ _ (releaseChange_res_of_mem hnd hr)
      exact Or.inr ⟨r, h.overdue (hrs _ hr).1 (hrs _ hr).2, (hrs _ hr).2, hres.2⟩
    · rw [hc.res_out x (releaseChange_res_of_not_mem hx)]
      exact h.res x

end Sweeping

/-! ### Batches -/

/-- The reservations of a batch are overdue. -/
lemma Batch.overdue {limit : ℕ} (h : Batch env limit d rs) (hnow : env (.now 0) = now) :
    ∀ r ∈ rs, d.reservations.get r.1 = some r.2 ∧ r.2.Overdue now := by
  intro r hr
  obtain ⟨hrow, hst, hexp⟩ := expired_of_mem h.1 h.2 (show (r.1, r.2) ∈ rs from hr)
  exact ⟨hrow, hst, hnow ▸ hexp⟩

/-- A batch is as large as the limit and the backlog allow. -/
lemma Batch.length {limit : ℕ} (h : Batch env limit d rs) (hnow : env (.now 0) = now) :
    rs.length = min limit (d.overdue now).card := by
  have hmap : rs.length = (expiredBatch env limit (fun _ => true) d).length := by
    rw [← h.1, List.length_map]
  have hrow : ∀ key ∈ (visit (env .scan) (expiredPending d now)).map RowKey.reservation,
      (RowStore.row d key).isSome = true := by
    intro key hkey
    obtain ⟨x, hx, rfl⟩ := List.mem_map.mp hkey
    obtain ⟨r, hr, -⟩ := mem_expiredPending.mp (mem_visit.mp hx)
    simp [hr]
  have hcard : (((visit (env .scan) (expiredPending d now)).map RowKey.reservation).dedup.filter
      fun key => (RowStore.row d key).isSome && true).length = (d.overdue now).card := by
    rw [List.filter_eq_self.mpr fun key hkey => by simpa using hrow key (List.mem_dedup.mp hkey),
      ← List.toFinset_card_of_nodup (List.nodup_dedup _),
      ← Finset.card_image_of_injective (d.overdue now)
        (show RowKey.reservation.Injective from fun _ _ h => RowKey.reservation.inj h)]
    congr 1
    ext key
    simp [Db.overdue]
  rw [hmap, expiredBatch, List.length_take, hnow, hcard]

/-- What is left of the backlog. -/
lemma overdue_after (hnd : (rs.map Prod.fst).Nodup)
    (hrs : ∀ r ∈ rs, d.reservations.get r.1 = some r.2 ∧ r.2.Overdue now)
    (hc : (releaseChange (max 0) .expired rs).Applies d d₁) :
    (d₁.overdue now).card = (d.overdue now).card - rs.length := by
  have hset : d₁.overdue now = d.overdue now \ (rs.map Prod.fst).toFinset := by
    ext x
    rw [Finset.mem_sdiff, List.mem_toFinset, Db.mem_overdue, Db.mem_overdue]
    by_cases hx : x ∈ rs.map Prod.fst
    · obtain ⟨⟨y, r⟩, hr, rfl⟩ := List.mem_map.mp hx
      have hres := (hc.res _ _ _ (releaseChange_res_of_mem hnd hr)).2
      simp only [hres, hx, not_true, and_false, iff_false]
      rintro ⟨r', hr', ho⟩
      cases hr'
      cases ho.1
    · simp [hx, hc.res_out x (releaseChange_res_of_not_mem hx)]
  have hsub : (rs.map Prod.fst).toFinset ⊆ d.overdue now := by
    intro x hx
    obtain ⟨r, hr, rfl⟩ := List.mem_map.mp (List.mem_toFinset.mp hx)
    exact Db.mem_overdue.mpr ⟨r.2, hrs r hr⟩
  rw [hset, Finset.card_sdiff_of_subset hsub, List.toFinset_card_of_nodup hnd, List.length_map]

/-! ### Sweeps one after the other -/

/-- Everything that was overdue has expired, and nothing else has changed. -/
structure Swept (now : ℤ) (d₀ d : Db) : Prop where
  products : d.products.get = d₀.products.get
  providers : d.providers.get = d₀.providers.get
  orders : d.orders.get = d₀.orders.get
  stock : ∀ k, d.inventory.get k = (d₀.inventory.get k).map (giveBack (d₀.freed now k))
  expired : ∀ x r, d₀.reservations.get x = some r → r.Overdue now →
    d.reservations.get x = some (r.released .expired) ∧
      ∀ it ∈ (r.released .expired).items, isDone it
  kept : ∀ x, x ∉ d₀.overdue now → d.reservations.get x = d₀.reservations.get x

lemma Sweeping.swept (h : Sweeping now d₀ d) (hd : (d.overdue now).card = 0) :
    Swept now d₀ d where
  products := h.products
  providers := h.providers
  orders := h.orders
  stock k := by
    have hfreed : d.freed now k = 0 := by
      rw [Db.freed, Table.sum]
      refine Finset.sum_eq_zero fun x _ => ?_
      rcases hr : d.reservations.get x with _ | r
      · rfl
      · have hx : x ∉ d.overdue now := by simp [Finset.card_eq_zero.mp hd]
        exact if_neg fun ho => hx (Db.mem_overdue.mpr ⟨r, hr, ho⟩)
    rw [h.stock, hfreed, sub_zero]
  expired x r hr ho := by
    refine ⟨?_, Reservation.released_isDone⟩
    rcases h.res x with hx | ⟨r', hr', -, hx⟩
    · have hx' : x ∉ d.overdue now := by simp [Finset.card_eq_zero.mp hd]
      exact absurd (Db.mem_overdue.mpr ⟨r, hx.trans hr, ho⟩) hx'
    · obtain rfl : r' = r := Option.some.inj (hr'.symm.trans hr)
      exact hx
  kept x hx := by
    rcases h.res x with hx' | ⟨r, hr, ho, -⟩
    · exact hx'
    · exact absurd (Db.mem_overdue.mpr ⟨r, hr, ho⟩) hx

lemma Swept.row_eq (h : Swept now d₀ d) (h' : Swept now d₀ d₁) (key : RowKey) :
    RowStore.row d key = RowStore.row d₁ key := by
  cases key with
  | product p => exact congrFun (h.products.trans h'.products.symm) p
  | provider p => exact congrFun (h.providers.trans h'.providers.symm) p
  | order x => exact congrFun (h.orders.trans h'.orders.symm) x
  | inventory k => exact (h.stock k).trans (h'.stock k).symm
  | reservation x =>
    by_cases hx : x ∈ d₀.overdue now
    · obtain ⟨r, hr, ho⟩ := Db.mem_overdue.mp hx
      exact (h.expired x r hr ho).1.trans (h'.expired x r hr ho).1.symm
    · exact (h.kept x hx).trans (h'.kept x hx).symm

/-- A sweep: its limit, and the answers of the outside world. -/
structure Sweep where
  limit : ℕ
  env : Env

def Sweep.call (s : Sweep) : ServiceCall := ⟨.expireBatch s.limit, s.env⟩

/-- The sweep starts at the time, and it may take a reservation. -/
structure Sweep.At (now : ℤ) (s : Sweep) : Prop where
  limit : 1 ≤ s.limit
  clock : s.env (.now 0) = now

/-- The database after the first `m` sweeps. -/
def afterSweeps (cfg : Settings) (d : Db) (σ : ℕ → Sweep) (m : ℕ) : Db :=
  run cfg d ((List.range m).map fun j => (σ j).call)

/-- What the sweep after the first `m` returns. -/
def sweepResult (cfg : Settings) (d : Db) (σ : ℕ → Sweep) (m : ℕ) : Except PyErr Reply :=
  (serve cfg (afterSweeps cfg d σ m) (σ m).call).result

lemma afterSweeps_succ (cfg : Settings) (d : Db) (σ : ℕ → Sweep) (m : ℕ) :
    afterSweeps cfg d σ (m + 1) = (serve cfg (afterSweeps cfg d σ m) (σ m).call).db := by
  rw [afterSweeps, List.range_succ, List.map_append, run_append]
  rfl

/-- A sweep takes what its limit and the backlog allow. -/
lemma Sweeping.serve {s : Sweep} (cfg : Settings) (h : Sweeping now d₀ d) (h₀ : Sweepable d₀)
    (hs : s.At now) :
    Sweeping now d₀ (serve cfg d s.call).db ∧
    (InventoryReservation.serve cfg d s.call).result =
      .ok (.count (min s.limit (d.overdue now).card)) ∧
    ((InventoryReservation.serve cfg d s.call).db.overdue now).card =
      (d.overdue now).card - min s.limit (d.overdue now).card := by
  obtain ⟨rs, ws, hb, hres, hc⟩ := serve_expire cfg s.env s.limit (h.sweepable h₀).releasable
  have hlen := hb.length hs.clock
  have hnd := nodup_of_batch hb.1
  refine ⟨h.step h₀ hnd (hb.overdue hs.clock) hc.toApplies, ?_, ?_⟩
  · rw [← hlen]
    exact hres
  · rw [← hlen]
    exact overdue_after hnd (hb.overdue hs.clock) hc.toApplies

section Backlog

variable {σ : ℕ → Sweep}

lemma sweeping_after (cfg : Settings) (hd : Sweepable d) (hσ : ∀ j, (σ j).At now) (m : ℕ) :
    Sweeping now d (afterSweeps cfg d σ m) := by
  induction m with
  | zero => exact .refl hd
  | succ m ih =>
    rw [afterSweeps_succ]
    exact (ih.serve cfg hd (hσ m)).1

/-- The backlog after the first `m` sweeps. -/
def backlog (cfg : Settings) (d : Db) (now : ℤ) (σ : ℕ → Sweep) (m : ℕ) : ℕ :=
  ((afterSweeps cfg d σ m).overdue now).card

lemma backlog_succ (cfg : Settings) (hd : Sweepable d) (hσ : ∀ j, (σ j).At now) (m : ℕ) :
    backlog cfg d now σ (m + 1) =
      backlog cfg d now σ m - min (σ m).limit (backlog cfg d now σ m) := by
  rw [backlog, afterSweeps_succ]
  exact ((sweeping_after cfg hd hσ m).serve cfg hd (hσ m)).2.2

/-- Every sweep makes the backlog smaller until it is empty. -/
lemma backlog_le (cfg : Settings) (hd : Sweepable d) (hσ : ∀ j, (σ j).At now) (m : ℕ) :
    backlog cfg d now σ m ≤ (d.overdue now).card - m := by
  induction m with
  | zero => exact le_rfl
  | succ m ih =>
    rw [backlog_succ cfg hd hσ]
    have := (hσ m).limit
    omega

/-- With one limit for all of them, every sweep takes a full batch until there is none. -/
lemma backlog_const (cfg : Settings) (hd : Sweepable d) (hσ : ∀ j, (σ j).At now) {limit m : ℕ}
    (hlimit : ∀ j < m, (σ j).limit = limit) :
    backlog cfg d now σ m = (d.overdue now).card - m * limit := by
  induction m with
  | zero => simp [backlog, afterSweeps]
  | succ m ih =>
    rw [backlog_succ cfg hd hσ, ih fun j hj => hlimit j (by omega), hlimit m (by omega),
      Nat.succ_mul]
    omega

/-- However a backlog is cut into sweeps at one time, they come to an end, and they leave what one
sweep without a limit leaves. -/
theorem sweeping_independent (cfg : Settings) (hd : Sweepable d) (hσ : ∀ j, (σ j).At now) :
    ∃ m ≤ (d.overdue now).card,
      (∀ j < m, ∃ n, 0 < n ∧ sweepResult cfg d σ j = .ok (.count n)) ∧
      sweepResult cfg d σ m = .ok (.count 0) ∧
      Swept now d (afterSweeps cfg d σ (m + 1)) ∧
      (∀ s : Sweep, s.At now → (d.overdue now).card ≤ s.limit → ∀ key : RowKey,
        RowStore.row (afterSweeps cfg d σ (m + 1)) key =
          RowStore.row (serve cfg d s.call).db key) ∧
      ∀ limit, (∀ j < m, (σ j).limit = limit) → 1 ≤ limit →
        m = ((d.overdue now).card + limit - 1) / limit := by
  have hresult : ∀ j, sweepResult cfg d σ j =
      .ok (.count (min (σ j).limit (backlog cfg d now σ j))) := fun j =>
    ((sweeping_after cfg hd hσ j).serve cfg hd (hσ j)).2.1
  have hend : ∃ m, backlog cfg d now σ m = 0 := ⟨(d.overdue now).card, by
    have := backlog_le cfg hd hσ (d.overdue now).card
    omega⟩
  -- the first sweep that finds nothing
  have hzero := Nat.find_spec hend
  have hpos : ∀ j < Nat.find hend, 0 < backlog cfg d now σ j := fun j hj =>
    Nat.pos_of_ne_zero (Nat.find_min hend hj)
  generalize Nat.find hend = m at hzero hpos
  have hswept : Swept now d (afterSweeps cfg d σ (m + 1)) := by
    refine (sweeping_after cfg hd hσ (m + 1)).swept ?_
    have := backlog_succ cfg hd hσ m
    rw [hzero, Nat.zero_sub] at this
    exact this
  refine ⟨m, ?_, fun j hj => ⟨_, ?_, hresult j⟩, ?_, hswept, fun s hs hlimit => ?_,
    fun limit hlimit hone => ?_⟩
  · rcases m with _ | m
    · exact Nat.zero_le _
    · have := backlog_le cfg hd hσ m
      have := hpos m (by omega)
      omega
  · have := (hσ j).limit
    have := hpos j hj
    omega
  · rw [hresult, hzero, Nat.min_zero]
  · obtain ⟨hs', -, hcard⟩ := (Sweeping.refl hd).serve cfg hd hs
    refine hswept.row_eq (hs'.swept ?_)
    rw [hcard]
    omega
  · have hlast := backlog_const cfg hd hσ hlimit
    rw [hzero] at hlast
    refine (Nat.div_eq_of_lt_le ?_ ?_).symm
    · rcases m with _ | m
      · simp
      · -- the sweep before the last one still had something to take
        have hprev := backlog_const cfg hd hσ fun j (hj : j < m) => hlimit j (by omega)
        have := hpos m (by omega)
        rw [Nat.succ_mul]
        omega
    · rw [Nat.succ_mul]
      omega

end Backlog

/-- Three reservations of lamps. -/
def threeLamps : List ServiceCall := List.replicate 3 ⟨.create "ada" [⟨2, 1⟩], calm 0⟩

/-- Sweeps of two reservations at most. -/
def twoByTwo : ℕ → Sweep := fun _ => ⟨2, calm 1000000000⟩

/-- The third sweep of three reservations, two at a time, finds nothing. -/
theorem sweeping_independent_lamps :
    sweepResult quarter (run quarter shop threeLamps) twoByTwo 2 = .ok (.count 0) := by
  have hsweep : Sweepable (run quarter shop threeLamps) :=
    (kept_of_run (shop_blank.kept shop_unreserved) (by decide)).sweepable
  have hat : ∀ j, (twoByTwo j).At 1000000000 := fun _ => ⟨show 1 ≤ 2 by decide, rfl⟩
  have hcard : ((run quarter shop threeLamps).overdue 1000000000).card = 3 := by
    rfl
  obtain ⟨m, -, -, hzero, -, -, hm⟩ := sweeping_independent quarter hsweep hat
  obtain rfl : m = 2 := by
    have := hm 2 (fun _ _ => rfl) (by decide)
    rw [hcard] at this
    exact this
  exact hzero

end InventoryReservation
