/-
# Releases that are served alone

A cancellation and a sweep return whatever the providers do, as long as every item that is held
with a reference is on an external provider whose adapter can be built.  What they leave in the
database does not depend on the providers.
-/
import InventoryReservation.Conservation

namespace InventoryReservation

open RowTxn ReservationService

variable {env env' : Env} {d d₀ : Db} {x limit : ℕ} {r : Reservation} {qs : List ServiceCall}

/-- A cancellation of a pending reservation releases it. -/
lemma serve_cancel (cfg : Settings) (env : Env) (hr : d.reservations.get x = some r)
    (hst : r.status = .pending) (hrel : ∀ it ∈ r.items, it.Releasable d) :
    ∃ ws, (serve cfg d ⟨.cancel x, env⟩).result = .ok .done ∧
      (releaseChange (max 0) .cancelled [(x, r)]).Commits d
        (serve cfg d ⟨.cancel x, env⟩).db ws := by
  cases served (q := ⟨.cancel x, env⟩) trivial cfg d with
  | raises h =>
    exfalso
    have h' : CancelRaises env d (Rely.solo d : Rely Db RowKey).seen x _ _ := h
    generalize (serve cfg d ⟨.cancel x, env⟩).trace = tr at h'
    cases h' with
    | notFound hd hr' =>
      rw [seen_solo hd, hr] at hr'
      cases hr'
    | status hd hr' hst' =>
      rw [seen_solo hd, hr] at hr'
      cases hr'
      rw [hst] at hst'
      cases hst'
    | provider hd hr' _ he =>
      rw [seen_solo hd, hr] at hr'
      cases hr'
      rw [releaseTalk_ok hrel] at he
      cases he
  | same h =>
    exfalso
    generalize (serve cfg d ⟨.cancel x, env⟩).trace = tr at h
    obtain ⟨-, hs⟩ := h.cancel
    cases hs with
    | noop hd hr' hst' =>
      rw [seen_solo hd, hr] at hr'
      cases hr'
      rw [hst] at hst'
      rcases hst' with hst' | hst' <;> cases hst'
  | commits h hres _ hc =>
    generalize (serve cfg d ⟨.cancel x, env⟩).trace = tr at h
    obtain ⟨ha, hs⟩ := h.cancel
    cases hs with
    | release hd hr' =>
      rw [seen_solo hd, hr] at hr'
      cases hr'
      exact ⟨_, hres.trans (congrArg Except.ok ha), hc⟩

/-- The reservations that a sweep releases when nothing is locked. -/
def Batch (env : Env) (limit : ℕ) (d : Db) (rs : List (ℕ × Reservation)) : Prop :=
  rs.map (fun r => RowKey.reservation r.1) = expiredBatch env limit (fun _ => true) d ∧
    ∀ r ∈ rs, d.reservations.get r.1 = some r.2

/-- A sweep releases a batch and counts it. -/
lemma serve_expire (cfg : Settings) (env : Env) (limit : ℕ)
    (hrel : ∀ x r, d.reservations.get x = some r → ∀ it ∈ r.items, it.Releasable d) :
    ∃ rs ws, Batch env limit d rs ∧
      (serve cfg d ⟨.expireBatch limit, env⟩).result = .ok (.count rs.length) ∧
      (releaseChange (max 0) .expired rs).Commits d
        (serve cfg d ⟨.expireBatch limit, env⟩).db ws := by
  cases served (q := ⟨.expireBatch limit, env⟩) trivial cfg d with
  | raises h =>
    have h' : ExpireRaises env d (Rely.solo d) limit _ _ := h
    refine (not_expireRaises (fun d' hd x r hr => ?_) h').elim
    rw [seen_solo hd] at hr
    exact hrel x r hr
  | same h =>
    exfalso
    generalize (serve cfg d ⟨.expireBatch limit, env⟩).trace = tr at h
    obtain ⟨n, -, hs⟩ := h.expire
    cases hs
  | commits h hres _ hc =>
    generalize (serve cfg d ⟨.expireBatch limit, env⟩).trace = tr at h
    obtain ⟨n, ha, hs⟩ := h.expire
    cases hs with
    | mk hd hfree hrs hrow =>
      rw [seen_solo hd, show _ = _ from hfree] at hrs
      rw [seen_solo hd] at hrow
      exact ⟨_, _, ⟨hrs, hrow⟩, hres.trans (congrArg Except.ok ha), hc⟩

/-- Two outside worlds that differ in the replies of the providers only. -/
def DifferInReplies (env env' : Env) : Prop :=
  ∀ q : Query, (∀ c r, q ≠ .http c r) → env q = env' q

/-- Two calls return the same and leave the same database. -/
structure SameRelease (out out' : Outcome Db Query Answer PyErr Reply) : Prop where
  returns : ∃ a, out.result = .ok a ∧ out'.result = .ok a
  rows : ∀ k : RowKey, RowStore.row out.db k = RowStore.row out'.db k

/-- A cancellation of a pending reservation and a sweep return whatever the providers do, and do
the same. -/
theorem release_unblocked (cfg : Settings) (h0 : Blank d₀) (hqs : ∀ q ∈ qs, q.op.Distinct)
    (henv : DifferInReplies env env') :
    (∀ x r, (run cfg d₀ qs).reservations.get x = some r → r.status = .pending →
      SameRelease (serve cfg (run cfg d₀ qs) ⟨.cancel x, env⟩)
        (serve cfg (run cfg d₀ qs) ⟨.cancel x, env'⟩)) ∧
    ∀ limit, SameRelease (serve cfg (run cfg d₀ qs) ⟨.expireBatch limit, env⟩)
      (serve cfg (run cfg d₀ qs) ⟨.expireBatch limit, env'⟩) := by
  have hcoh : Coherent (run cfg d₀ qs) := coherent_of_run h0.coherent hqs
  generalize run cfg d₀ qs = d at hcoh ⊢
  have hsame : ∀ {Δ : Change} {d₁ d₂ : Db} {ws ws' : List RowKey}, Δ.Commits d d₁ ws →
      Δ.Commits d d₂ ws' → ∀ k : RowKey, RowStore.row d₁ k = RowStore.row d₂ k := fun hc hc' =>
    Change.Agree.row_eq ⟨fun _ _ _ => rfl, rfl, rfl⟩ hc.toApplies hc'.toApplies
  refine ⟨fun x r hr hst => ?_, fun limit => ?_⟩
  · obtain ⟨ws, hres, hc⟩ := serve_cancel cfg env hr hst (hcoh.releasable hr)
    obtain ⟨ws', hres', hc'⟩ := serve_cancel cfg env' hr hst (hcoh.releasable hr)
    exact ⟨⟨_, hres, hres'⟩, hsame hc hc'⟩
  · obtain ⟨rs, ws, hb, hres, hc⟩ := serve_expire cfg env limit fun _ _ hr => hcoh.releasable hr
    obtain ⟨rs', ws', hb', hres', hc'⟩ :=
      serve_expire cfg env' limit fun _ _ hr => hcoh.releasable hr
    -- clock and scan are the same, so the batch is
    have hbatch : expiredBatch env limit (fun _ => true) d =
        expiredBatch env' limit (fun _ => true) d := by
      have hnow : env (.now 0) = env' (.now 0) := henv _ fun _ _ h => by cases h
      have hscan : env .scan = env' .scan := henv _ fun _ _ h => by cases h
      rw [expiredBatch, hnow, hscan]
      rfl
    obtain rfl := batch_unique (hb.1.trans (hbatch.trans hb'.1.symm)) hb.2 hb'.2
    exact ⟨⟨_, hres, hres'⟩, hsame hc hc'⟩

/-- A sweep after the lamps have expired, with a partner that answers and one that cannot be
reached. -/
theorem release_unblocked_lamps : SameRelease
    (serve quarter (run quarter shop lamps) ⟨.expireBatch 10, calm 1000000000⟩)
    (serve quarter (run quarter shop lamps)
      ⟨.expireBatch 10, replying (fun _ => .error "refused") 1000000000⟩) := by
  have henv : DifferInReplies (calm 1000000000) (replying (fun _ => .error "refused") 1000000000)
    | .now _, _ | .tie _ _, _ | .scan, _ => rfl
    | .http c r, h => absurd rfl (h c r)
  exact (release_unblocked quarter shop_blank (show ∀ q ∈ lamps, q.op.Distinct by decide) henv).2 10

end InventoryReservation
