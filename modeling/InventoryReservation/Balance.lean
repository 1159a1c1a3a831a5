/-
# The balance of the counters

The counters of an inventory row are what the ledger says: the initial stock less the units
that were sold, and the units that are promised, with the units of an internal provider a
second time for every reservation there ever was.
-/
import Mathlib.Algebra.BigOperators.Ring.List
import Mathlib.Algebra.Ring.Int.Defs
import InventoryReservation.Lifecycle

namespace InventoryReservation

open RowTxn ReservationService

variable {d₀ d d' : Db} {clamp : ℤ → ℤ} {Δ : Change}

/-- Every item has a positive quantity. -/
def Positive (d : Db) : Prop :=
  ∀ x r, d.reservations.get x = some r → ∀ it ∈ r.items, 0 < it.qtyRequested

/-- Every reservation that a change adds has items with positive quantities. -/
def Change.Positive (Δ : Change) : Prop :=
  ∀ x r, Δ.res x = some (none, r) → ∀ it ∈ r.items, 0 < it.qtyRequested

lemma settled_positive {items : List ReservationItem} (skip : ReservationItem → Bool)
    (status : ProviderItemStatus) (h : ∀ it ∈ items, 0 < it.qtyRequested) :
    ∀ it ∈ items.map (settled skip status), 0 < it.qtyRequested := by
  intro it hit
  obtain ⟨it', hit', rfl⟩ := List.mem_map.mp hit
  have := h it' hit'
  unfold settled
  split <;> exact this

theorem Positive.applies (h : Positive d) (hΔ : Δ.Lawful d₀ clamp) (hpos : Δ.Positive)
    (ha : Δ.Applies d d') : Positive d' := by
  intro x c hc
  cases hΔ.at x with
  | frame hr =>
    rw [ha.res_out x hr] at hc
    exact h x c hc
  | @book r plan hr =>
    obtain rfl : r = c := Option.some.inj ((ha.res x _ _ hr).2.symm.trans hc)
    exact hpos x r hr
  | @confirm r hr =>
    obtain ⟨hb, hc'⟩ := ha.res x _ _ hr
    obtain rfl : r.confirmed = c := Option.some.inj (hc'.symm.trans hc)
    exact settled_positive _ _ (h x r hb)
  | @release r status hr =>
    obtain ⟨hb, hc'⟩ := ha.res x _ _ hr
    obtain rfl : r.released status = c := Option.some.inj (hc'.symm.trans hc)
    exact settled_positive _ _ (h x r hb)

lemma Positive.units_nonneg (h : Positive d) (k : ℕ) : 0 ≤ d.units k :=
  Table.sum_nonneg fun x r hr => qtyOn_nonneg (h x r hr)

lemma Positive.unitsIn_nonneg (h : Positive d) (status : ReservationStatus) (k : ℕ) :
    0 ≤ d.unitsIn status k := by
  refine Table.sum_nonneg fun x r hr => ?_
  unfold Reservation.unitsIn
  split
  · exact qtyOn_nonneg (h x r hr)
  · exact le_rfl

/-! ### Units under a change -/

lemma unitsIn_settle (r : Reservation) (skip : ReservationItem → Bool) (s : ProviderItemStatus)
    (status status' : ReservationStatus) (k : ℕ) :
    (r.settle skip s status').unitsIn status k =
      if status' = status then qtyOn k r.items else 0 := by
  rw [Reservation.unitsIn, Reservation.settle, qtyOn_settled]

section Units

variable (k : ℕ)

/-- The units on a row after a new reservation. -/
lemma units_book {cfg : Settings} {env : Env} {userId : String} {plan : List Booking} {rid : ℕ}
    {ris : List ReservationItem} (hris : List.Forall₂ (Booking.Outcome d₀) plan ris)
    (ha : (bookChange cfg env d₀ userId plan rid ris).Applies d d') :
    d'.unitsIn .pending k = d.unitsIn .pending k + bookedQty plan k ∧
      d'.unitsIn .confirmed k = d.unitsIn .confirmed k ∧
      d'.units k = d.units k + bookedQty plan k := by
  have hsum := fun g => ha.sum_new g (Change.setRes_res_self _ _ _ _) fun y hy => by
    simp [bookChange, Change.setRes_res_of_ne _ _ _ hy, Change.nothing]
  refine ⟨?_, ?_, ?_⟩
  · rw [Db.unitsIn, hsum, Reservation.unitsIn, if_pos rfl, qtyOn_of_outcomes hris]
    rfl
  · rw [Db.unitsIn, hsum, Reservation.unitsIn, if_neg (by simp), add_zero]
    rfl
  · rw [Db.units, hsum, qtyOn_of_outcomes hris]
    rfl

/-- The units on a row after the settlement of pending reservations. -/
lemma units_settle {rs : List (ℕ × Reservation)} {skip : ReservationItem → Bool}
    {s : ProviderItemStatus} {status' : ReservationStatus} (hnd : (rs.map Prod.fst).Nodup)
    (hst : ∀ r ∈ rs, r.2.status = .pending)
    (hres : ∀ r ∈ rs, Δ.res r.1 = some (some r.2, r.2.settle skip s status'))
    (hout : ∀ x, x ∉ rs.map Prod.fst → Δ.res x = none) (ha : Δ.Applies d d') :
    (∀ status, d'.unitsIn status k = d.unitsIn status k +
        ((if status' = status then 1 else 0) - (if .pending = status then 1 else 0)) *
          unitsOf k rs) ∧
      d'.units k = d.units k := by
  have hsum : ∀ g : Reservation → ℤ, d'.reservations.sum g = d.reservations.sum g +
      (rs.map fun r => g (r.2.settle skip s status') - g r.2).sum :=
    fun g => ha.sum_res g (fun r => r.settle skip s status') hnd hout hres
  refine ⟨fun status => ?_, ?_⟩
  · rw [Db.unitsIn, hsum, unitsOf, ← List.sum_map_mul_left]
    refine congrArg (_ + List.sum ·) (List.map_congr_left fun r hr => ?_)
    rw [unitsIn_settle, Reservation.unitsIn, hst r hr, sub_mul, ite_mul, ite_mul, one_mul, zero_mul]
  · have hzero : (rs.map fun r => qtyOn k (r.2.settle skip s status').items -
        qtyOn k r.2.items).sum = 0 := by
      refine List.sum_eq_zero fun y hy => ?_
      obtain ⟨r, -, rfl⟩ := List.mem_map.mp hy
      rw [Reservation.settle, qtyOn_settled, sub_self]
    rw [Db.units, hsum, hzero, add_zero, Db.units]

/-- The units on a row after a confirmation. -/
lemma units_confirm {x : ℕ} {r : Reservation} (hst : r.status = .pending)
    (ha : (confirmChange x r).Applies d d') :
    d'.unitsIn .pending k = d.unitsIn .pending k - qtyOn k r.items ∧
      d'.unitsIn .confirmed k = d.unitsIn .confirmed k + qtyOn k r.items ∧
      d'.units k = d.units k := by
  obtain ⟨hin, hall⟩ := units_settle k (show ([(x, r)].map Prod.fst).Nodup by simp)
    (by simpa using hst)
    (by simp only [List.mem_singleton, forall_eq]; exact Change.setRes_res_self _ _ _ _)
    (fun y hy => by
      simp [confirmChange, Change.setRes_res_of_ne _ _ _ (by simpa using hy), Change.nothing]) ha
  have hof : unitsOf k [(x, r)] = qtyOn k r.items := by simp [unitsOf]
  rw [hof] at hin
  refine ⟨?_, ?_, hall⟩
  · rw [hin, if_neg (by simp), if_pos rfl]
    omega
  · rw [hin, if_pos rfl, if_neg (by simp)]
    omega

/-- The units on a row after a release. -/
lemma units_release {status : ReservationStatus} {rs : List (ℕ × Reservation)}
    (hs : status = .cancelled ∨ status = .expired) (hnd : (rs.map Prod.fst).Nodup)
    (hst : ∀ r ∈ rs, r.2.status = .pending) (ha : (releaseChange clamp status rs).Applies d d') :
    d'.unitsIn .pending k = d.unitsIn .pending k - unitsOf k rs ∧
      d'.unitsIn .confirmed k = d.unitsIn .confirmed k ∧ d'.units k = d.units k := by
  obtain ⟨hin, hall⟩ := units_settle k hnd hst
    (fun r hr => releaseChange_res_of_mem hnd (show (r.1, r.2) ∈ rs from hr))
    (fun y hy => releaseChange_res_of_not_mem hy) ha
  refine ⟨?_, ?_, hall⟩
  · rw [hin, if_neg (by rcases hs with rfl | rfl <;> simp), if_pos rfl]
    omega
  · rw [hin, if_neg (by rcases hs with rfl | rfl <;> simp), if_neg (by simp)]
    omega

end Units

/-! ### The invariant -/

/-- The reserved quantity of every row is what is promised of it. -/
def Backed (d : Db) : Prop :=
  ∀ k v, d.inventory.get k = some v →
    v.qtyReserved = d.unitsIn .pending k + if d.isInternal k then d.units k else 0

/-- The counters of the rows, `d₀` being the database at the beginning. -/
structure Funded (d₀ d : Db) : Prop where
  sold : ∀ k v₀ v, d₀.inventory.get k = some v₀ → d.inventory.get k = some v →
    v.qtyAvailable = v₀.qtyAvailable - d.unitsIn .confirmed k
  reserved : ∀ k v, d.inventory.get k = some v →
    v.qtyReserved = d.unitsIn .pending k + if d.isInternal k then d.units k else 0
  bounded : ∀ k v, d.inventory.get k = some v → v.qtyReserved ≤ v.qtyAvailable

lemma Static.isInternal (h : Static d d') (k : ℕ) : d'.isInternal k = d.isInternal k := by
  have hk := h.stock k
  rcases hv : d.inventory.get k with _ | v <;> rw [hv] at hk
  · simp [Db.isInternal, hv, show d'.inventory.get k = none by simpa using hk]
  · obtain ⟨v', hv', hid⟩ := Option.map_eq_some_iff.mp hk
    have hp : v'.providerId = v.providerId := congrArg Prod.snd hid
    simp [Db.isInternal, hv, hv', hp, h.providers]

/-- A row of an internal provider is booked twice. -/
lemma bookedQty_filter {plan : List Booking} (hprov : d.providers.get = d₀.providers.get)
    (hrow : ∀ b ∈ plan, d.inventory.get b.id = some b.row) (k : ℕ) :
    bookedQty (plan.filter (Booking.isInternal d₀)) k =
      if d.isInternal k then bookedQty plan k else 0 := by
  have hb : ∀ b ∈ plan, b.id = k → b.isInternal d₀ = d.isInternal k := by
    rintro b hb rfl
    simp [Booking.isInternal, Db.isInternal, hrow b hb, hprov]
  induction plan with
  | nil => simp [bookedQty]
  | cons b plan ih =>
    have ih' := ih (fun b' hb' => hrow b' (by simp [hb'])) fun b' hb' => hb b' (by simp [hb'])
    by_cases hk : b.id = k
    · have hi := hb b (by simp) hk
      by_cases hint : d.isInternal k <;> simp_all [bookedQty]
    · have hskip : ∀ l : List Booking, bookedQty (b :: l) k = bookedQty l k := fun l => by
        simp [bookedQty, hk]
      rw [hskip, ← ih', List.filter_cons]
      split
      · exact hskip _
      · rfl

lemma Backed.pending_le (h : Backed d) (hpos : Positive d) {k : ℕ} {v : Inventory}
    (hv : d.inventory.get k = some v) : d.unitsIn .pending k ≤ v.qtyReserved := by
  rw [h k v hv]
  have := hpos.units_nonneg k
  split <;> omega

lemma Funded.pending_le (h : Funded d₀ d) (hpos : Positive d) {k : ℕ} {v : Inventory}
    (hv : d.inventory.get k = some v) : d.unitsIn .pending k ≤ v.qtyReserved :=
  Backed.pending_le h.reserved hpos hv

/-- What a new reservation adds to a row, twice if the provider is internal. -/
lemma bookChange_counters {cfg : Settings} {env : Env} {userId : String} {plan : List Booking}
    {rid : ℕ} {ris : List ReservationItem} (hd : Static d₀ d) (hnd : (plan.map Booking.id).Nodup)
    (ha : (bookChange cfg env d₀ userId plan rid ris).Applies d d') (k : ℕ) (v : Inventory) :
    (bookChange cfg env d₀ userId plan rid ris).stock k v = { v with
      qtyReserved := v.qtyReserved + bookedQty plan k +
        if d.isInternal k then bookedQty plan k else 0 } := by
  have hrow : ∀ b ∈ plan, d.inventory.get b.id = some b.row :=
    fun b hb => ha.was _ _ (bookChange_was hnd hb)
  rw [bookChange_stock, bookedQty_filter hd.providers hrow k]
  simp [addReserved, add_assoc]

/-- A release of pending reservations takes no more from a row than it has reserved. -/
lemma Backed.unitsOf_le {status : ReservationStatus} {rs : List (ℕ × Reservation)}
    (h : Backed d) (hpos : Positive d) (hpos' : Positive d')
    (hs : status = .cancelled ∨ status = .expired) (hnd : (rs.map Prod.fst).Nodup)
    (hst : ∀ r ∈ rs, r.2.status = .pending) (ha : (releaseChange clamp status rs).Applies d d')
    {k : ℕ} {v : Inventory} (hv : d.inventory.get k = some v) : unitsOf k rs ≤ v.qtyReserved := by
  have hle := h.pending_le hpos hv
  have hnn := hpos'.unitsIn_nonneg .pending k
  rw [(units_release k hs hnd hst ha).1] at hnn
  omega

/-- A release of pending reservations takes from a row what it has reserved for them, whatever
the clamp. -/
lemma Backed.release_stock {clamp' : ℤ → ℤ} {status : ReservationStatus}
    {rs : List (ℕ × Reservation)} (h : Backed d) (hcoh : Coherent d) (hpos : Positive d)
    (hpos' : Positive d') (hs : status = .cancelled ∨ status = .expired)
    (hnd : (rs.map Prod.fst).Nodup) (hst : ∀ r ∈ rs, r.2.status = .pending)
    (ha : (releaseChange clamp' status rs).Applies d d') (hclamp : Clamps clamp) {k : ℕ}
    {v : Inventory} (hv : d.inventory.get k = some v) : 0 ≤ unitsOf k rs ∧
      (releaseChange clamp status rs).stock k v =
        { v with qtyReserved := v.qtyReserved - unitsOf k rs } := by
  have hle := h.unitsOf_le hpos hpos' hs hnd hst ha hv
  have hitems : ∀ r ∈ rs, ∀ it ∈ r.2.items, 0 < it.qtyRequested ∧ isDone it = false := by
    intro r hr it hit
    have hget := (ha.res _ _ _ (releaseChange_res_of_mem hnd (show (r.1, r.2) ∈ rs from hr))).1
    exact ⟨hpos _ _ hget it hit, hcoh.not_done hget (hst r hr) it hit⟩
  refine ⟨List.sum_nonneg fun y hy => ?_, ?_⟩
  · obtain ⟨r, hr, rfl⟩ := List.mem_map.mp hy
    exact qtyOn_nonneg fun it hit => (hitems r hr it hit).1
  · rw [releaseChange_stock, releasedStock_eq hclamp hitems hle]

/-- Lawful changes keep what is promised of the rows. -/
theorem Backed.applies (h : Backed d) (hd : Static d₀ d) (hcoh : Coherent d) (hpos : Positive d)
    (hclamp : Clamps clamp) (hΔ : Δ.Lawful d₀ clamp) (hΔpos : Δ.Positive) (ha : Δ.Applies d d') :
    Backed d' := by
  intro k v' hv'
  have hpos' := hpos.applies hΔ hΔpos ha
  rw [ha.stock k] at hv'
  obtain ⟨v, hv, rfl⟩ := Option.map_eq_some_iff.mp hv'
  have hres := h k v hv
  rw [(hΔ.static ha).isInternal]
  cases hΔ with
  | @book cfg env userId plan rid ris hnd hroom hris =>
    obtain ⟨hp, -, hu⟩ := units_book k hris ha
    rw [bookChange_counters hd hnd ha, hp, hu]
    simp only [hres]
    split <;> omega
  | @confirm x r hpend =>
    obtain ⟨hp, -, hu⟩ := units_confirm k hpend ha
    have hstock : (confirmChange x r).stock k v = consumed r.items k v := rfl
    rw [hstock, consumed_eq, hp, hu]
    simp only [hres]
    omega
  | @release status rs hs hnd hpend =>
    obtain ⟨hp, -, hu⟩ := units_release k hs hnd hpend ha
    rw [(h.release_stock hcoh hpos hpos' hs hnd hpend ha hclamp hv).2, hp, hu]
    simp only [hres]
    omega

/-- Lawful changes keep the balance. -/
theorem Funded.applies {c : Db} (h : Funded c d) (hd : Static d₀ d) (hcoh : Coherent d)
    (hpos : Positive d) (hclamp : Clamps clamp) (hΔ : Δ.Lawful d₀ clamp) (hΔpos : Δ.Positive)
    (ha : Δ.Applies d d') : Funded c d' := by
  have hback : Backed d := h.reserved
  have hpos' := hpos.applies hΔ hΔpos ha
  have main : ∀ k v', d'.inventory.get k = some v' →
      (∀ v₀, c.inventory.get k = some v₀ →
        v'.qtyAvailable = v₀.qtyAvailable - d'.unitsIn .confirmed k) ∧
      v'.qtyReserved ≤ v'.qtyAvailable := by
    intro k v' hv'
    rw [ha.stock k] at hv'
    obtain ⟨v, hv, rfl⟩ := Option.map_eq_some_iff.mp hv'
    have hsold := fun v₀ hv₀ => h.sold k v₀ v hv₀ hv
    have hbound := h.bounded k v hv
    cases hΔ with
    | @book cfg env userId plan rid ris hnd hroom hris =>
      obtain ⟨-, hc, -⟩ := units_book k hris ha
      rw [bookChange_counters hd hnd ha, hc]
      refine ⟨hsold, ?_⟩
      -- a booked row was locked with room for all that is booked on it
      simp only
      by_cases hk : k ∈ plan.map Booking.id
      · obtain ⟨b, hb, rfl⟩ := List.mem_map.mp hk
        have hrow : d.inventory.get b.id = some b.row := ha.was _ _ (bookChange_was hnd hb)
        obtain rfl : v = b.row := Option.some.inj (hv.symm.trans hrow)
        obtain ⟨ri, -, hout⟩ := outcome_of_plan hris hb
        have hroom₁ := hroom b hb
        rw [bookedQty_of_mem hnd hb]
        simp only [Inventory.effective] at hroom₁
        split
        · next hint =>
          have hroom₂ := hout.room (by
            simpa [Booking.isInternal, Db.isInternal, hv, hd.providers] using hint)
          simp only [Inventory.effective, addReserved] at hroom₂
          omega
        · omega
      · rw [bookedQty_of_not_mem hk]
        split <;> omega
    | @confirm x r hpend =>
      obtain ⟨-, hc, -⟩ := units_confirm k hpend ha
      have hstock : (confirmChange x r).stock k v = consumed r.items k v := rfl
      rw [hstock, consumed_eq, hc]
      refine ⟨fun v₀ hv₀ => ?_, ?_⟩
      · have := hsold v₀ hv₀
        simp only
        omega
      · simp only
        omega
    | @release status rs hs hnd hpend =>
      obtain ⟨-, hc, -⟩ := units_release k hs hnd hpend ha
      obtain ⟨hnn, hstock⟩ := hback.release_stock hcoh hpos hpos' hs hnd hpend ha hclamp hv
      rw [hstock, hc]
      refine ⟨hsold, ?_⟩
      simp only
      omega
  exact ⟨fun k v₀ v' hv₀ hv' => (main k v' hv').1 v₀ hv₀,
    hback.applies hd hcoh hpos hclamp hΔ hΔpos ha, fun k v' hv' => (main k v' hv').2⟩

end InventoryReservation
