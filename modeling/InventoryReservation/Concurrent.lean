/-
# Calls that run at the same time

Calls of the service as transactions that interleave.  If every row lock is granted while the
row is as the session has loaded it, each call commits a lawful change, and the balance of the
counters is kept as in serial runs.  A session that loads a row before its lock may hold an
older version of it; then two requests can reserve the same units.
-/
import InventoryReservation.Serial
import InventoryReservation.RowTxn.LockedLoads

namespace InventoryReservation

open RowTxn ReservationService

instance : ∀ k : RowKey, DecidableEq (RowOf k)
  | .product _ => inferInstanceAs (DecidableEq Product)
  | .provider _ => inferInstanceAs (DecidableEq InventoryProvider)
  | .inventory _ => inferInstanceAs (DecidableEq Inventory)
  | .reservation _ => inferInstanceAs (DecidableEq Reservation)
  | .order _ => inferInstanceAs (DecidableEq Order)

variable {T : Type}

/-- Configurations of calls of the service. -/
abbrev System (T : Type) : Type := Conf T Db RowKey RowOf Query Answer PyErr Reply

/-- No call has started. -/
def opening (cfg : Settings) (d : Db) (n : ℕ) (ops : T → Op) : System T :=
  .init d n fun t => (ops t).transaction cfg

/-- A lawful change that a call commits keeps the state that serial runs keep. -/
lemma Kept.commits {d d₀ d₁ d' : Db} {Δ : Change} {ws : List RowKey} (h : Kept d₀ d) (hd : Static d₁ d)
    (hΔ : Δ.Lawful d₁ (max 0)) (hpos : Δ.Positive) (hc : Δ.Commits d d' ws) : Kept d₀ d' where
  coherent := h.coherent.applies hd hΔ hc.toApplies
  positive := h.positive.applies hΔ hpos hc.toApplies
  funded := h.funded.applies hd h.coherent h.positive clamps_max hΔ hpos hc.toApplies

variable [DecidableEq T] {iso : Isolation} {cfg : Settings} {env : T → Env} {d d₀ : Db} {n : ℕ}
  {ops : T → Op} {c : System T}

/-- The configurations that are reached if every lock is granted up to date. -/
abbrev UpToDateRun (iso : Isolation) (cfg : Settings) (env : T → Env) (d : Db) (n : ℕ)
    (ops : T → Op) : System T → Prop :=
  Run iso env (fun _ => True) (opening cfg d n ops)

/-- What the calls keep in up-to-date runs. -/
structure Steadily (d₀ : Db) (_ : List (Commit T RowKey Reply)) (d : Db) : Prop where
  static : Static d₀ d
  kept : Kept d₀ d

omit [DecidableEq T] in
lemma Op.steadily {op : Op} (hop : op.Valid) (env : Env) (t : T) :
    Verified (Steadily d₀) (fun _ => True) env t (op.transaction cfg) := by
  have hseen : ∀ d, (relyOn (Steadily d₀) (fun _ => True) t).seen d → Static d₀ d := by
    rintro d ⟨h, hd, -⟩
    exact hd.static
  refine Op.verified hop.distinct hseen fun h d d' a tr Δ ws hd _ hret heff => ?_
  rcases Δ with _ | Δ
  · rw [show d' = d from heff]
    exact ⟨hd.static, hd.kept⟩
  · have hc : Δ.Commits d d' ws := heff
    have hΔ := hret.lawful hseen hop.distinct
    exact ⟨hd.static.trans (hΔ.static hc.toApplies),
      hd.kept.commits hd.static hΔ (fun x r hx => hret.positive hop.positive hx) hc⟩

/-- Up-to-date runs keep what serial runs keep. -/
theorem kept_of_upToDate (hd : Kept d d) (hops : ∀ t, (ops t).Valid)
    (h : UpToDateRun iso cfg env d n ops c) : Static d c.db ∧ Kept d c.db := by
  have := invariant_of_run ⟨.refl d, hd⟩ (fun t => (ops t).steadily (hops t) (env t) t) h
  exact ⟨this.static, this.kept⟩

/-! ### Overselling -/

/-- A reservation request. -/
structure CreateRequest where
  userId : String
  items : List CreateItem

def CreateRequest.op (q : CreateRequest) : Op := .create q.userId q.items

/-- If every lock is granted up to date, concurrent requests sell nothing twice. -/
theorem never_oversold (iso : Isolation) (cfg : Settings) (env : T → Env) (n : ℕ)
    (q : T → CreateRequest) (hq : ∀ t, (q t).op.Valid) (hd : Blank d) (hu : Unreserved d)
    (h : UpToDateRun iso cfg env d n (fun t => (q t).op) c) :
    ∀ k v, c.db.inventory.get k = some v →
      c.db.unitsIn .pending k ≤ v.qtyReserved ∧ v.qtyReserved ≤ v.qtyAvailable := by
  intro k v hv
  obtain ⟨-, hk⟩ := kept_of_upToDate (hd.kept hu) hq h
  exact ⟨hk.funded.pending_le hk.positive hv, hk.funded.bounded k v hv⟩

/-- One request for lamps, one for rugs. -/
def lampAndRug (t : Bool) : CreateRequest := if t then ⟨"ada", [⟨2, 6⟩]⟩ else ⟨"bob", [⟨3, 6⟩]⟩

/-- Two requests for six of ten lamps. -/
def sixLampsEach (t : Bool) : CreateRequest := ⟨if t then "ada" else "bob", [⟨2, 6⟩]⟩

def noon : Bool → Env := fun _ => calm 0

/-- Both requests have passed the check without locks before one of them locks its row. -/
def bothChecked : List (Act Bool) :=
  List.replicate 4 (.step true) ++ List.replicate 4 (.step false) ++
    List.replicate 20 (.step true) ++ List.replicate 20 (.step false)

/-- Both requests have committed, and six lamps and six rugs are reserved. -/
theorem never_oversold_lampAndRug : ∃ c : System Bool, c.order = [true, false] ∧
    c.db.unitsIn .pending 2 = 6 ∧ c.db.unitsIn .pending 3 = 6 ∧
    ∀ k v, c.db.inventory.get k = some v →
      c.db.unitsIn .pending k ≤ v.qtyReserved ∧ v.qtyReserved ≤ v.qtyAvailable := by
  have hrun : (replay (fun _ => true) .repeatableRead noon
      (opening quarter shop 1 fun t => (lampAndRug t).op) bothChecked).map
        (fun c => (c.order, c.db.unitsIn .pending 2, c.db.unitsIn .pending 3)) =
      some ([true, false], 6, 6) := by
    rfl
  obtain ⟨c, hc, hrun⟩ := Option.map_eq_some_iff.mp hrun
  simp only [Prod.mk.injEq] at hrun
  have h := (run_of_replay .init hc).mono fun _ (_ : True) => rfl
  exact ⟨c, hrun.1, hrun.2.1, hrun.2.2, never_oversold .repeatableRead quarter noon 1 lampAndRug
    (by decide) shop_blank shop_unreserved h⟩

/-- Twelve lamps are promised and six are reserved: the second request checks and increments the
counter that it has read before the lock. -/
theorem oversold : Blank shop ∧ Unreserved shop ∧ (∀ t, (sixLampsEach t).op.Valid) ∧
    ∃ c : System Bool,
      Reachable .repeatableRead noon (opening quarter shop 1 fun t => (sixLampsEach t).op) c ∧
      ∃ v, c.db.inventory.get 2 = some v ∧ v.qtyReserved = 6 ∧ c.db.unitsIn .pending 2 = 12 ∧
        ¬c.db.unitsIn .pending 2 ≤ v.qtyReserved := by
  have hrun : (exec .repeatableRead noon (opening quarter shop 1 fun t => (sixLampsEach t).op)
      bothChecked).map (fun c =>
        ((c.db.inventory.get 2).map Inventory.qtyReserved, c.db.unitsIn .pending 2)) =
      some (some 6, 12) := by
    rfl
  obtain ⟨c, hc, hrun⟩ := Option.map_eq_some_iff.mp hrun
  simp only [Prod.mk.injEq] at hrun
  obtain ⟨v, hv, hres⟩ := Option.map_eq_some_iff.mp hrun.1
  refine ⟨shop_blank, shop_unreserved, by decide, c, reachable_of_exec .init hc, v, hv, hres,
    hrun.2, ?_⟩
  rw [hrun.2, hres]
  decide

end InventoryReservation
