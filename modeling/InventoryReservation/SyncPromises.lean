/-
# Syncs and promises

Serial runs that mix calls of the service with syncs.  A sync takes over what the provider
reports, so the counters keep the balance of the reserved units, and there is stock for what is
promised as long as the providers report no less than that.
-/
import InventoryReservation.SyncFailures

namespace InventoryReservation

open RowTxn InventoryService

variable {cfg : Settings} {env : Env} {c d d' d₀ : Db} {pid k : ℕ} {p : InventoryProvider}
  {f : ℕ → Option (ℤ × ℤ)}

/-! ### What a sync keeps -/

lemma reservations_of_sync (ha : (syncChange f).Applies d d') (x : ℕ) :
    d'.reservations.get x = d.reservations.get x := ha.res_out x rfl

lemma sum_of_sync (ha : (syncChange f).Applies d d') (g : Reservation → ℤ) :
    d'.reservations.sum g = d.reservations.sum g :=
  Table.sum_congr fun x => by rw [reservations_of_sync ha]

lemma static_of_sync (ha : (syncChange f).Applies d d') : Static d d' where
  products := ha.products
  providers := ha.providers
  stock k := by
    rw [ha.stock k, Option.map_map]
    congr 1
    funext v
    exact v.sync_ident (f k)

lemma Coherent.sync (h : Coherent d) (ha : (syncChange f).Applies d d') : Coherent d' where
  reservation x r hr := by
    rw [reservations_of_sync ha] at hr
    rw [ha.ord_out x rfl]
    exact h.reservation x r hr
  order x hx := by
    rw [reservations_of_sync ha] at hx
    rw [ha.ord_out x rfl]
    exact h.order x hx
  placed x r hr it hit := by
    rw [reservations_of_sync ha] at hr
    exact (h.placed x r hr it hit).static (static_of_sync ha)

lemma Positive.sync (h : Positive d) (ha : (syncChange f).Applies d d') : Positive d' := by
  intro x r hr
  rw [reservations_of_sync ha] at hr
  exact h x r hr

lemma Backed.sync (h : Backed d) (ha : (syncChange f).Applies d d') : Backed d' := by
  intro k v' hv'
  rw [ha.stock k] at hv'
  obtain ⟨v, hv, rfl⟩ := Option.map_eq_some_iff.mp hv'
  rw [(static_of_sync ha).isInternal, Db.units, Db.unitsIn, sum_of_sync ha, sum_of_sync ha]
  have hres : ((syncChange f).stock k v).qtyReserved = v.qtyReserved := by
    show (v.sync (f k)).qtyReserved = _
    cases f k <;> rfl
  rw [hres]
  exact h k v hv

/-- The balance without the units that were sold, which a sync makes forget: no stock is known
from the beginning. -/
def Unsold (c : Db) : Prop := ∀ k, c.inventory.get k = none

/-- The balance is kept if a row gets no less than it has reserved. -/
lemma Funded.sync (h : Funded c d) (hc : Unsold c) (ha : (syncChange f).Applies d d')
    (hf : ∀ k v qty now, d.inventory.get k = some v → f k = some (qty, now) →
      v.qtyReserved ≤ qty) : Funded c d' where
  sold k v₀ v hv₀ := by
    rw [hc k] at hv₀
    cases hv₀
  reserved := Backed.sync h.reserved ha
  bounded k v' hv' := by
    rw [ha.stock k] at hv'
    obtain ⟨v, hv, rfl⟩ := Option.map_eq_some_iff.mp hv'
    show (v.sync (f k)).qtyReserved ≤ (v.sync (f k)).qtyAvailable
    rcases hk : f k with _ | ⟨qty, now⟩
    · exact h.bounded k v hv
    · exact hf k v qty now hv hk

/-! ### Mixed runs -/

/-- A step of a mixed run: a call of the service, or a sync with the answers of the outside
world. -/
inductive Step
  | call (q : ServiceCall)
  | sync (providerId : ℕ) (env : Env)

/-- The database after a step. -/
def Step.serve (cfg : Settings) (d : Db) : Step → Db
  | .call q => (InventoryReservation.serve cfg d q).db
  | .sync pid env => (transact env d (syncTransaction pid)).db

/-- The database after a mixed run. -/
def runSteps (cfg : Settings) (d : Db) (steps : List Step) : Db :=
  steps.foldl (Step.serve cfg) d

/-- What the request schema enforces. -/
def Step.Valid : Step → Prop
  | .call q => q.op.Valid
  | .sync _ _ => True

/-- What mixed runs keep, whatever the syncs report. -/
structure Consistent (d : Db) : Prop where
  coherent : Coherent d
  positive : Positive d
  backed : Backed d

lemma Blank.consistent (h : Blank d) (hu : Unreserved d) : Consistent d :=
  ⟨h.coherent, h.positive, (h.funded hu).reserved⟩

namespace Consistent

lemma applies {Δ : Change} (h : Consistent d) (hd : Static d₀ d) (hΔ : Δ.Lawful d₀ (max 0))
    (hpos : Δ.Positive) (ha : Δ.Applies d d') : Consistent d' where
  coherent := h.coherent.applies hd hΔ ha
  positive := h.positive.applies hΔ hpos ha
  backed := h.backed.applies hd h.coherent h.positive clamps_max hΔ hpos ha

lemma sync (h : Consistent d) (ha : (syncChange f).Applies d d') : Consistent d' where
  coherent := h.coherent.sync ha
  positive := h.positive.sync ha
  backed := h.backed.sync ha

lemma call (h : Consistent d) {q : ServiceCall} (hq : q.op.Valid) :
    Consistent (serve cfg d q).db := by
  refine serve_induction hq.distinct h fun _ _ _ _ hret hΔ hc => ?_
  exact h.applies (.refl d) hΔ (fun x r hx => hret.positive hq.positive hx) hc.toApplies

lemma step (h : Consistent d) {s : Step} (hs : s.Valid) : Consistent (s.serve cfg d) := by
  cases s with
  | call q => exact h.call hs
  | sync pid env =>
    show Consistent (transact env d (syncTransaction pid)).db
    rcases sync_transact env (.refl d) pid with ⟨report, f, ws, -, -, hc⟩ | ⟨e, -, -, hdb⟩
    · exact h.sync hc.toApplies
    · rwa [hdb]

end Consistent

lemma Coherent.step (h : Coherent d) {s : Step} (hs : s.Valid) : Coherent (s.serve cfg d) := by
  cases s with
  | call q =>
    have hq : q.op.Valid := hs
    show Coherent (InventoryReservation.serve cfg d q).db
    exact serve_induction hq.distinct h fun _ _ _ _ _ hΔ hc =>
      h.applies (.refl d) hΔ hc.toApplies
  | sync pid env =>
    show Coherent (transact env d (syncTransaction pid)).db
    rcases sync_transact env (.refl d) pid with ⟨report, f, ws, -, -, hc⟩ | ⟨e, -, -, hdb⟩
    · exact h.sync hc.toApplies
    · rwa [hdb]

/-- A run keeps the database coherent, whatever is reserved at its start. -/
theorem coherent_of_steps {steps : List Step} (h : Coherent d) (hs : ∀ s ∈ steps, s.Valid) :
    Coherent (runSteps cfg d steps) := by
  induction steps generalizing d with
  | nil => exact h
  | cons s steps ih => exact ih (h.step (hs s (by simp))) fun s' hs' => hs s' (by simp [hs'])

theorem consistent_of_steps {steps : List Step} (h : Consistent d) (hs : ∀ s ∈ steps, s.Valid) :
    Consistent (runSteps cfg d steps) := by
  induction steps generalizing d with
  | nil => exact h
  | cons s steps ih => exact ih (h.step (hs s (by simp))) fun s' hs' => hs s' (by simp [hs'])

/-! ### Promises -/

/-- A sync of an active external provider is told no less for a row than the units that are pending
on it. -/
def Step.Covers (d : Db) : Step → Prop
  | .call _ => True
  | .sync pid env => ∀ p k sku qty, d.providers.get pid = some p → p.isActive →
      p.type = .external → (k, sku) ∈ skuRows d pid → reading env p k sku = .ok qty →
      d.unitsIn .pending k ≤ qty

/-- Every sync of a run covers what is pending in the state in which it begins. -/
def Covering (cfg : Settings) : Db → List Step → Prop
  | _, [] => True
  | d, s :: steps => s.Covers d ∧ Covering cfg (s.serve cfg d) steps

/-- A step of a mixed run keeps the balance. -/
lemma Kept.step (h : Kept c d) (hc : Unsold c) {s : Step} (hv : s.Valid) (hs : s.Covers d) :
    Kept c (s.serve cfg d) := by
  cases s with
  | call q => exact h.serve hv
  | sync pid env =>
    show Kept c (transact env d (syncTransaction pid)).db
    rcases sync_transact env (.refl d) pid with ⟨report, f, ws, hsync, -, hcom⟩ | ⟨e, -, -, hdb⟩
    · refine ⟨h.coherent.sync hcom.toApplies, h.positive.sync hcom.toApplies,
        h.funded.sync hc hcom.toApplies fun k v qty now hrow hk => ?_⟩
      cases hsync with
      | internal => cases hk
      | @rows p d₁ _ hd hp hactive htype hrep =>
        cases hd
        -- the row is one of the external provider, where nothing is counted twice
        rw [syncedTo] at hk
        split at hk
        · next hmem =>
          obtain ⟨sku, hsku, hread⟩ := Option.bind_eq_some_iff.mp hk
          obtain ⟨q, hq, heq⟩ := Option.map_eq_some_iff.mp hread
          cases heq
          have hok : reading env p k sku = .ok qty := by
            rcases hr : reading env p k sku with e | q' <;> rw [hr] at hq <;> cases hq
            rfl
          have hcov := hs p k sku qty hp hactive htype (mem_withSku.mpr ⟨hmem, hsku⟩) hok
          obtain ⟨w, hw, hprov⟩ := mem_rowsOf.mp hmem
          obtain rfl : w = v := Option.some.inj (hw.symm.trans hrow)
          have hint : d.isInternal k = false := by
            simp [Db.isInternal, hw, hprov, hp, htype]
          rw [h.funded.reserved k w hw, hint]
          simpa using hcov
        · cases hk
    · rw [hdb]
      exact h

lemma kept_of_steps {steps : List Step} (h : Kept c d) (hc : Unsold c)
    (hv : ∀ s ∈ steps, s.Valid) (hcov : Covering cfg d steps) : Kept c (runSteps cfg d steps) := by
  induction steps generalizing d with
  | nil => exact h
  | cons s steps ih =>
    exact ih (h.step hc (hv s (by simp)) hcov.1) (fun s' hs' => hv s' (by simp [hs'])) hcov.2

/-- In a run whose syncs report no less than what is pending, there is stock for what is pending
after every step. -/
theorem promises_kept {steps : List Step} (h0 : Blank d) (hu : Unreserved d)
    (hv : ∀ s ∈ steps, s.Valid) (hcov : Covering cfg d steps) (k : ℕ) {v : Inventory}
    (hk : (runSteps cfg d steps).inventory.get k = some v) :
    0 ≤ (runSteps cfg d steps).unitsIn .pending k ∧
      (runSteps cfg d steps).unitsIn .pending k ≤ v.qtyAvailable := by
  have hstart : Kept { d with inventory := .empty } d :=
    ⟨h0.coherent, h0.positive, { h0.funded hu with sold := fun k v₀ v hv₀ => by cases hv₀ }⟩
  have h := kept_of_steps hstart (fun _ => rfl) hv hcov
  have hle := h.funded.pending_le h.positive hk
  have hbound := h.funded.bounded k v hk
  exact ⟨h.positive.unitsIn_nonneg .pending k, by omega⟩

/-- The partner replies with a quantity. -/
def inStock (qty : ℤ) : ℕ → HttpOutcome :=
  fun _ => .response ⟨200, .object (some (some qty)) none none, ""⟩

/-- Three lamps are reserved, then the stock of the partner is taken over. -/
def lampsAndSync (qty : ℤ) : List Step :=
  [.call ⟨.create "ada" [⟨2, 3⟩], calm 0⟩, .sync 2 (replying (inStock qty) 5)]

/-- The partner still has four lamps. -/
theorem promises_kept_lamps : (runSteps quarter shop (lampsAndSync 4)).unitsIn .pending 2 ≤ 4 := by
  have hv : ∀ s ∈ lampsAndSync 4, s.Valid := by
    intro s hs
    rcases List.mem_cons.mp hs with rfl | hs
    · exact ⟨by decide, by decide⟩
    · rw [List.mem_singleton.mp hs]
      trivial
  have hcov : Covering quarter shop (lampsAndSync 4) := by
    refine ⟨trivial, fun p k sku qty hp _ _ hk hr => ?_, trivial⟩
    have hrows : skuRows (run quarter shop lamps) 2 = [(2, "lamp"), (3, "rug")] := by
      rfl
    have hunits : (run quarter shop lamps).unitsIn .pending 2 = 3 ∧
        (run quarter shop lamps).unitsIn .pending 3 = 0 := ⟨rfl, rfl⟩
    obtain rfl : _ = p := Option.some.inj hp
    obtain rfl : 4 = qty := Except.ok.inj hr
    have hk' : (k, sku) ∈ skuRows (run quarter shop lamps) 2 := hk
    show (run quarter shop lamps).unitsIn .pending k ≤ 4
    rw [hrows] at hk'
    simp only [List.mem_cons, Prod.mk.injEq, List.not_mem_nil, or_false] at hk'
    rcases hk' with ⟨rfl, -⟩ | ⟨rfl, -⟩ <;> omega
  exact (promises_kept shop_blank shop_unreserved hv hcov 2 (v := ⟨2, 2, 4, 3, some 5⟩) rfl).2

/-- The quantities that are reported are not negative. -/
def Step.Reports : Step → Prop
  | .call _ => True
  | .sync _ env => ∀ c r qty, (env (.http c r)).qty = some qty → 0 ≤ qty

/-- The partner has sold the lamps that are reserved. -/
theorem promises_broken : ¬∀ cfg d (steps : List Step), Blank d → Unreserved d →
    (∀ s ∈ steps, s.Valid ∧ s.Reports) → ∀ k v,
    (runSteps cfg d steps).inventory.get k = some v →
    (runSteps cfg d steps).unitsIn .pending k ≤ v.qtyAvailable := by
  intro h
  have hv : ∀ s ∈ lampsAndSync 0, s.Valid ∧ s.Reports := by
    intro s hs
    rcases List.mem_cons.mp hs with rfl | hs
    · exact ⟨⟨by decide, by decide⟩, trivial⟩
    · rw [List.mem_singleton.mp hs]
      refine ⟨trivial, fun c r qty hq => ?_⟩
      obtain rfl : qty = 0 := by
        cases c <;> exact (Option.some.inj hq).symm
      exact le_rfl
  have hrow : (runSteps quarter shop (lampsAndSync 0)).inventory.get 2 =
      some ⟨2, 2, 0, 3, some 5⟩ := by
    rfl
  have hunits : (runSteps quarter shop (lampsAndSync 0)).unitsIn .pending 2 = 3 := by
    rfl
  have := h quarter shop _ shop_blank shop_unreserved hv 2 _ hrow
  rw [hunits] at this
  exact absurd this (by decide)

end InventoryReservation
