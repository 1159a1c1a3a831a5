/-
# Serial runs

Calls that are served one after the other, each in a transaction that is committed when the
call returns and rolled back when it raises.  One step commits a lawful change or changes
nothing, so the invariants of changes are invariants of runs.
-/
import InventoryReservation.Balance
import InventoryReservation.ProviderCalls

namespace InventoryReservation

open RowTxn ReservationService

/-- A call of the service, with the answers of the outside world to its questions. -/
structure ServiceCall where
  op : Op
  env : Env

/-- One call is served. -/
def serve (cfg : Settings) (d : Db) (q : ServiceCall) : Outcome Db Query Answer PyErr Reply :=
  transact q.env d (q.op.transaction cfg)

/-- The database after a run. -/
def run (cfg : Settings) (d : Db) (qs : List ServiceCall) : Db :=
  qs.foldl (fun d q => (serve cfg d q).db) d

/-- The questions of a run, with their answers. -/
def runTrace (cfg : Settings) : Db → List ServiceCall → Trace
  | _, [] => []
  | d, q :: qs => (serve cfg d q).trace ++ runTrace cfg (serve cfg d q).db qs

variable {cfg : Settings} {d d₀ : Db} {q : ServiceCall} {qs qs' : List ServiceCall}

@[simp] lemma run_nil (cfg : Settings) (d : Db) : run cfg d [] = d := rfl

@[simp] lemma run_cons (cfg : Settings) (d : Db) (q : ServiceCall) (qs : List ServiceCall) :
    run cfg d (q :: qs) = run cfg (serve cfg d q).db qs := rfl

lemma run_append (cfg : Settings) (d : Db) (qs qs' : List ServiceCall) :
    run cfg d (qs ++ qs') = run cfg (run cfg d qs) qs' := List.foldl_append

/-- What every step keeps, a run keeps. -/
@[elab_as_elim]
theorem run_induction {motive : Db → Prop} (h0 : motive d)
    (hstep : ∀ d, ∀ q ∈ qs, motive d → motive (serve cfg d q).db) : motive (run cfg d qs) := by
  induction qs generalizing d with
  | nil => exact h0
  | cons q qs ih =>
    exact ih (hstep d q (by simp) h0) fun d' q' hq' => hstep d' q' (by simp [hq'])

/-- Every call of a run meets a condition in the state in which it is served. -/
def EachStep (cfg : Settings) (P : Db → ServiceCall → Prop) : Db → List ServiceCall → Prop
  | _, [] => True
  | d, q :: qs => P d q ∧ EachStep cfg P (serve cfg d q).db qs

/-! ### One step -/

/-- A call raises or returns without a change, or it commits a lawful change. -/
inductive Served (cfg : Settings) (d : Db) (q : ServiceCall)
    (out : Outcome Db Query Answer PyErr Reply) : Prop
  | raises {e : PyErr} (h : q.op.Raises cfg q.env d (Rely.solo d) e out.trace)
      (hres : out.result = .error e) (hdb : out.db = d)
  | same {a : Reply} (h : q.op.Returns (max 0) cfg q.env d (Rely.solo d) a out.trace none)
      (hres : out.result = .ok a) (hdb : out.db = d)
  | commits {a : Reply} {Δ : Change} {ws : List RowKey}
      (h : q.op.Returns (max 0) cfg q.env d (Rely.solo d) a out.trace (some Δ))
      (hres : out.result = .ok a) (hΔ : Δ.Lawful d (max 0)) (hc : Δ.Commits d out.db ws)

lemma seen_solo {d' : Db} (h : (Rely.solo d : Rely Db RowKey).seen d') : d' = d := h

lemma Coherent.not_expireRaises {env : Env} (h : Coherent d) {limit : ℕ} {e : PyErr} {tr : Trace}
    (h' : ExpireRaises env d (Rely.solo d) limit e tr) : False := by
  refine InventoryReservation.not_expireRaises (fun d' hd x r hr => ?_) h'
  rw [seen_solo hd] at hr
  exact h.releasable hr

theorem served (hop : q.op.Distinct) (cfg : Settings) (d : Db) :
    Served cfg d q (serve cfg d q) := by
  rcases Op.transact hop (max 0) cfg q.env (.refl d) with ⟨a, Δ, ws, h, hres, heff⟩ | ⟨e, h, hres, hdb⟩
  · rcases Δ with _ | Δ
    · exact .same h hres heff
    · refine .commits h hres (h.lawful (fun d' hd' => ?_) hop) heff
      rw [seen_solo hd']
      exact .refl d
  · exact .raises h hres hdb

/-- What lawful changes keep, a step keeps. -/
@[elab_as_elim]
theorem serve_induction {motive : Db → Prop} (hop : q.op.Distinct) (h0 : motive d)
    (hstep : ∀ a tr Δ ws, q.op.Returns (max 0) cfg q.env d (Rely.solo d) a tr (some Δ) →
      Δ.Lawful d (max 0) → Δ.Commits d (serve cfg d q).db ws → motive (serve cfg d q).db) :
    motive (serve cfg d q).db := by
  cases served hop cfg d with
  | raises _ _ hdb => rwa [hdb]
  | same _ _ hdb => rwa [hdb]
  | commits h _ hΔ hc => exact hstep _ _ _ _ h hΔ hc

/-! ### The invariants along a run -/

/-- No reservation was made yet; an order refers to a reservation, so there is none either. -/
structure Blank (d : Db) : Prop where
  reservations : ∀ x, d.reservations.get x = none
  orders : ∀ x, d.orders.get x = none

/-- Nothing is reserved. -/
def Unreserved (d : Db) : Prop :=
  ∀ k v, d.inventory.get k = some v → v.qtyReserved = 0 ∧ 0 ≤ v.qtyAvailable

lemma Blank.coherent (h : Blank d) : Coherent d where
  reservation x r hr := by simp [h.reservations] at hr
  order x _ := h.orders x
  placed x r hr := by simp [h.reservations] at hr

lemma Blank.positive (h : Blank d) : Positive d := by
  intro x r hr
  simp [h.reservations] at hr

lemma Blank.sum (h : Blank d) (g : Reservation → ℤ) : d.reservations.sum g = 0 := by
  refine Finset.sum_eq_zero fun x _ => ?_
  simp [h.reservations]

lemma Blank.funded (h : Blank d) (hu : Unreserved d) : Funded d d where
  sold k v₀ v hv₀ hv := by
    rw [hv₀] at hv
    cases hv
    simp [Db.unitsIn, h.sum]
  reserved k v hv := by simp [Db.unitsIn, Db.units, h.sum, (hu k v hv).1]
  bounded k v hv := by
    obtain ⟨hr, ha⟩ := hu k v hv
    rwa [hr]

theorem static_of_run (hqs : ∀ q ∈ qs, q.op.Distinct) : Static d (run cfg d qs) := by
  refine run_induction (.refl d) fun d' q hq hd => ?_
  exact serve_induction (hqs q hq) hd fun _ _ _ _ _ hΔ hc => hd.trans (hΔ.static hc.toApplies)

theorem coherent_of_run (h : Coherent d) (hqs : ∀ q ∈ qs, q.op.Distinct) :
    Coherent (run cfg d qs) := by
  refine run_induction h fun d' q hq hd => ?_
  exact serve_induction (hqs q hq) hd fun _ _ _ _ _ hΔ hc =>
    hd.applies (.refl d') hΔ hc.toApplies

/-- The state that runs of valid calls keep. -/
structure Kept (d₀ d : Db) : Prop where
  coherent : Coherent d
  positive : Positive d
  funded : Funded d₀ d

lemma Kept.serve (h : Kept d₀ d) (hop : q.op.Valid) : Kept d₀ (serve cfg d q).db := by
  refine serve_induction hop.distinct h fun _ _ _ _ hret hΔ hc => ?_
  have hpos : Change.Positive _ := fun x r hx => hret.positive hop.positive hx
  exact ⟨h.coherent.applies (.refl d) hΔ hc.toApplies, h.positive.applies hΔ hpos hc.toApplies,
    h.funded.applies (.refl d) h.coherent h.positive clamps_max hΔ hpos hc.toApplies⟩

theorem kept_of_run (h : Kept d₀ d) (hqs : ∀ q ∈ qs, q.op.Valid) : Kept d₀ (run cfg d qs) :=
  run_induction h fun _ q hq hd => hd.serve (hqs q hq)

lemma Blank.kept (h : Blank d) (hu : Unreserved d) : Kept d d :=
  ⟨h.coherent, h.positive, h.funded hu⟩

/-! ### A small shop -/

/-- Chairs from the shop's own stock, lamps and rugs from a partner. -/
def shop : Db where
  products := .ofList [⟨"chair"⟩, ⟨"lamp"⟩, ⟨"rug"⟩]
  providers := .ofList [
    ⟨"own", .internal, [], none, none, 10, true⟩,
    ⟨"partner", .external, [("hold_stock", true), ("release_hold", true), ("confirm_hold", true)],
      none, some "https://partner", 10, true⟩]
  inventory := .ofList [⟨1, 1, 10, 0, none⟩, ⟨2, 2, 10, 0, none⟩, ⟨3, 2, 10, 0, none⟩]
  reservations := .empty
  orders := .empty

/-- A quarter of an hour to pay; stored times are read back with their time zone. -/
def quarter : Settings := ⟨15, .aware⟩

/-- The clock stands still and every provider call succeeds. -/
def calm (now : ℤ) : Env
  | .now _ => now
  | .tie _ _ => 0
  | .scan => []
  | .http _ _ => .response ⟨200, .object none (some "hold") none, ""⟩

/-- The clock stands still, and the provider call for the `i`-th item ends with `outs i`. -/
def replying (outs : ℕ → HttpOutcome) (now : ℤ) : Env
  | .now _ => now
  | .tie _ _ => 0
  | .scan => []
  | .http (.item _ i) _ => outs i
  | .http (.row i) _ => outs i

/-- Three lamps are reserved. -/
def lamps : List ServiceCall := [⟨.create "ada" [⟨2, 3⟩], calm 0⟩]

lemma lamps_pending : (run quarter shop lamps).reservations.get 1 =
    some ⟨"ada", .pending, 900000000, [⟨2, 2, 2, 3, some "hold", .held, none⟩]⟩ := by
  rfl

/-- Two chairs and three lamps are reserved, then paid for. -/
def sale : List ServiceCall :=
  [⟨.create "ada" [⟨1, 2⟩, ⟨2, 3⟩], calm 0⟩, ⟨.confirm 1, calm 5⟩]

lemma shop_blank : Blank shop := ⟨fun _ => rfl, fun _ => rfl⟩

lemma shop_unreserved : Unreserved shop
  | 1, _, rfl | 2, _, rfl | 3, _, rfl => ⟨rfl, by decide⟩

/-! ### Exceptions that a run never raises -/

/-- In a coherent database no call finds an order where there should be none, and no adapter is
asked for without the row that it needs. -/
theorem Op.Raises.expected {op : Op} {env : Env} {e : PyErr} {tr : Trace} (hd : Coherent d)
    (h : op.Raises cfg env d (Rely.solo d) e tr) :
    (∀ t, e ≠ .duplicateOrderError t) ∧ ∀ t, e ≠ .valueError t := by
  have hconfirm : ∀ {x : ℕ} {e : PyErr} {tr : Trace},
      ConfirmRaises cfg env d (Rely.solo d : Rely Db RowKey).seen x e tr →
      (∀ t, e ≠ .duplicateOrderError t) ∧ ∀ t, e ≠ .valueError t := by
    intro x e tr h
    cases h with
    | duplicate hd₁ hr hst hexp hd₂ ho =>
      rw [seen_solo hd₁] at hr
      rw [seen_solo hd₂] at ho
      exact absurd ((hd.reservation x _ hr).pending hst).1 ho
    | provider hd₁ hr hst hexp he =>
      rw [seen_solo hd₁] at hr
      rcases confirmTalk_error (hd.placed x _ hr) he with ⟨t, rfl⟩ | ⟨t, rfl⟩ <;> simp
    | _ => simp
  have hcancel : ∀ {x : ℕ} {e : PyErr} {tr : Trace},
      CancelRaises env d (Rely.solo d : Rely Db RowKey).seen x e tr →
      (∀ t, e ≠ .duplicateOrderError t) ∧ ∀ t, e ≠ .valueError t := by
    intro x e tr h
    cases h with
    | provider hd₁ hr hst he =>
      rw [seen_solo hd₁] at hr
      rw [releaseTalk_ok (hd.releasable hr)] at he
      cases he
    | _ => simp
  cases op with
  | create userId items =>
    cases h with
    | preflight h =>
      obtain ⟨t, rfl⟩ := h.error
      simp
    | lock _ _ h =>
      cases h
      simp
    | provider _ _ he => cases bookTalks_error he <;> simp
    | integrity => simp
  | confirm x => exact hconfirm h
  | cancel x => exact hcancel h
  | expireBatch limit => exact (hd.not_expireRaises h).elim
  | paymentOutcome x outcome =>
    cases outcome with
    | success => exact hconfirm h
    | failed => exact hcancel h

end InventoryReservation
