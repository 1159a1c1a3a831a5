/-
# The expiry worker

A scheduler runs a job again and again that sweeps a batch of a fixed size.  A sweep has no order,
so an overdue reservation may be left over as long as others fill the batch; but every reservation
fills a batch once only.  The invariant counts the pending reservations against the sizes of the
batches.
-/
import InventoryReservation.StockBook
import InventoryReservation.Sweeps

namespace InventoryReservation

open RowTxn ReservationService

variable {cfg : Settings} {env : Env} {d d' d₀ : Db} {Δ : Change} {now : ℤ} {x : ℕ}
  {r : Reservation} {rs : List (ℕ × Reservation)} {s : Step} {steps : List Step}

/-! ### The job -/

/-- `_run_expiry_sweep`: one batch is committed.  What it raises is followed by a rollback, and goes
no further. -/
def runExpirySweep (env : Env) : Step := .call ⟨.expireBatch 100, env⟩

/-- The reservations that a step may add. -/
def Step.opens : Step → ℤ
  | .call ⟨.create _ _, _⟩ => 1
  | _ => 0

/-- The size of the batch, if the step is a sweep at the time or later. -/
def Step.sweeps (now : ℤ) : Step → ℤ
  | .call ⟨.expireBatch limit, env⟩ => if now ≤ env (.now 0) then limit else 0
  | _ => 0

/-- One for a pending reservation. -/
def Reservation.waits (r : Reservation) : ℤ := if r.status = .pending then 1 else 0

/-- The number of pending reservations. -/
def Db.pending (d : Db) : ℤ := d.reservations.sum Reservation.waits

lemma waits_of_pending (h : r.status = .pending) : r.waits = 1 := if_pos h

lemma waits_of_ne (h : r.status ≠ .pending) : r.waits = 0 := if_neg h

lemma waits_nonneg (r : Reservation) : 0 ≤ r.waits := by
  by_cases h : r.status = .pending
  · simp [waits_of_pending h]
  · simp [waits_of_ne h]

lemma Db.pending_pos (hr : d.reservations.get x = some r) (hst : r.status = .pending) :
    0 < d.pending := by
  have hx : x ∈ Finset.range d.reservations.fresh := by
    simpa using Table.lt_fresh_of_get hr
  have hrest : 0 ≤ ∑ y ∈ (Finset.range d.reservations.fresh).erase x,
      (d.reservations.get y).elim 0 Reservation.waits := by
    refine Finset.sum_nonneg fun y _ => ?_
    rcases d.reservations.get y with _ | r'
    · exact le_rfl
    · exact waits_nonneg r'
  rw [Db.pending, Table.sum, ← Finset.add_sum_erase _ _ hx, hr, Option.elim_some,
    waits_of_pending hst]
  omega

/-! ### Pending reservations under a change -/

/-- A reservation that is settled waits no more. -/
lemma pending_settle {skip : ReservationItem → Bool} {itemStatus : ProviderItemStatus}
    {status : ReservationStatus} (hs : status ≠ .pending) (hnd : (rs.map Prod.fst).Nodup)
    (hst : ∀ r ∈ rs, r.2.status = .pending)
    (hres : ∀ r ∈ rs, Δ.res r.1 = some (some r.2, r.2.settle skip itemStatus status))
    (hout : ∀ x, x ∉ rs.map Prod.fst → Δ.res x = none) (ha : Δ.Applies d d') :
    d'.pending = d.pending - rs.length := by
  have hsum := ha.sum_res Reservation.waits (fun r => r.settle skip itemStatus status) hnd hout hres
  have hone : ∀ r ∈ rs, (r.2.settle skip itemStatus status).waits - r.2.waits = -1 := by
    intro r hr
    rw [waits_of_pending (hst r hr), waits_of_ne hs]
    rfl
  rw [Db.pending, hsum, List.map_congr_left hone, List.map_const', List.sum_replicate, Db.pending,
    nsmul_eq_mul, mul_neg_one, sub_eq_add_neg]

lemma pending_release {status : ReservationStatus} (hs : status = .cancelled ∨ status = .expired)
    (hnd : (rs.map Prod.fst).Nodup) (hst : ∀ r ∈ rs, r.2.status = .pending)
    (ha : (releaseChange (max 0) status rs).Applies d d') :
    d'.pending = d.pending - rs.length := by
  refine pending_settle ?_ hnd hst (fun r hr => releaseChange_res_of_mem hnd hr)
    (fun x hx => releaseChange_res_of_not_mem hx) ha
  rcases hs with rfl | rfl <;> decide

lemma pending_confirm (hst : r.status = .pending) (ha : (confirmChange x r).Applies d d') :
    d'.pending = d.pending - 1 := by
  have hres : ∀ r' ∈ [(x, r)], (confirmChange x r).res r'.1 =
      some (some r'.2, r'.2.settle (fun _ => false) .confirmed .confirmed) := by
    intro r' hr'
    obtain rfl := List.mem_singleton.mp hr'
    simp [confirmChange, Reservation.confirmed]
  have hout : ∀ y, y ∉ [(x, r)].map Prod.fst → (confirmChange x r).res y = none := by
    intro y hy
    have hne : y ≠ x := by simpa using hy
    simp [confirmChange, Change.setRes_res_of_ne _ _ _ hne, Change.nothing]
  exact pending_settle (by decide) (by simp) (by simpa using hst) hres hout ha

lemma pending_book {userId : String} {plan : List Booking} {rid : ℕ} {ris : List ReservationItem}
    (ha : (bookChange cfg env d₀ userId plan rid ris).Applies d d') :
    d'.pending = d.pending + 1 := by
  obtain ⟨hnone, hsome⟩ := ha.res rid none _ (Change.setRes_res_self _ _ _ _)
  have hout : ∀ y, y ≠ rid → d'.reservations.get y = d.reservations.get y := fun y hy =>
    ha.res_out y (by simp [bookChange, Change.setRes_res_of_ne _ _ _ hy, Change.nothing])
  rw [Db.pending, Table.sum_of_get_ne rid hout, hnone, hsome, Option.elim_some,
    waits_of_pending rfl, Option.elim_none, sub_zero, Db.pending]

/-! ### A step -/

/-- A call adds one pending reservation at most, and only if it creates one. -/
lemma serve_pending {q : ServiceCall} (hq : q.op.Valid) :
    (serve cfg d q).db.pending ≤ d.pending + (Step.call q).opens := by
  have hopens : 0 ≤ (Step.call q).opens := by
    unfold Step.opens
    split <;> decide
  refine serve_induction hq.distinct (le_add_of_nonneg_right hopens)
    fun a tr Δ ws hret hΔ hc => ?_
  obtain ⟨op, env⟩ := q
  cases hret.does with
  | create hop _ h =>
    obtain rfl : op = _ := hop
    cases h
    exact (pending_book hc.toApplies).le
  | confirm hop _ h =>
    cases h with
    | mk _ _ hst =>
      have := pending_confirm hst hc.toApplies
      omega
  | cancel hop _ h =>
    cases h with
    | release _ _ hst =>
      have := pending_release (Or.inl rfl) (by simp) (by simpa using hst) hc.toApplies
      omega
  | expire hop _ h =>
    cases h with
    | mk _ _ hrs hrow =>
      have := pending_release (Or.inr rfl) (nodup_of_batch hrs)
        (fun r hr => (expired_of_mem hrs hrow hr).2.1) hc.toApplies
      omega

/-- A sweep that leaves an overdue reservation over has taken a full batch of others. -/
lemma Consistent.full_batch (h : Consistent d) {limit : ℕ} (hnow : now ≤ env (.now 0))
    (hx : d.reservations.get x = some r) (ho : r.Overdue now)
    (hleft : (serve cfg d ⟨.expireBatch limit, env⟩).db.reservations.get x = some r) :
    (serve cfg d ⟨.expireBatch limit, env⟩).db.pending = d.pending - limit := by
  obtain ⟨rs, ws, hb, -, hc⟩ := serve_expire cfg env limit fun x r hr => h.coherent.releasable hr
  have hnd := nodup_of_batch hb.1
  have hrs := hb.overdue rfl
  have hover : x ∈ d.overdue (env (.now 0)) := Db.mem_overdue.mpr ⟨r, hx, ho.1, ho.2.trans_le hnow⟩
  have hmem : x ∉ rs.map Prod.fst := by
    intro hx'
    obtain ⟨⟨y, r'⟩, hr', rfl⟩ := List.mem_map.mp hx'
    rw [(hc.res _ _ _ (releaseChange_res_of_mem hnd hr')).2] at hleft
    cases hleft
    cases ho.1
  -- a batch that is not full has all that are overdue
  have hlen : rs.length = limit := by
    by_contra hne
    have hsub : (rs.map Prod.fst).toFinset ⊆ d.overdue (env (.now 0)) := by
      intro y hy
      obtain ⟨r', hr', rfl⟩ := List.mem_map.mp (List.mem_toFinset.mp hy)
      exact Db.mem_overdue.mpr ⟨r'.2, hrs r' hr'⟩
    have hcard : (d.overdue (env (.now 0))).card ≤ (rs.map Prod.fst).toFinset.card := by
      have hbatch := hb.length rfl
      rw [List.toFinset_card_of_nodup hnd, List.length_map]
      omega
    rw [← Finset.eq_of_subset_of_card_le hsub hcard, List.mem_toFinset] at hover
    exact hmem hover
  rw [pending_release (Or.inr rfl) hnd (fun r' hr' => (hrs r' hr').2.1) hc.toApplies, hlen]

/-- As long as an overdue reservation is left over, the sweeps take others. -/
lemma Consistent.pending_step (h : Consistent d) (hs : s.Valid)
    (hx : d.reservations.get x = some r) (ho : r.Overdue now)
    (hleft : (s.serve cfg d).reservations.get x = some r) :
    (s.serve cfg d).pending + s.sweeps now ≤ d.pending + s.opens := by
  cases s with
  | sync pid env =>
    rcases sync_transact env (.refl d) pid with ⟨report, f, ws, -, -, hc⟩ | ⟨e, -, -, hdb⟩
    · rw [Step.serve, Db.pending, sum_of_sync hc.toApplies]
      rfl
    · rw [Step.serve, hdb]
      rfl
  | call q =>
    have hle : (serve cfg d q).db.pending ≤ d.pending + (Step.call q).opens := serve_pending hs
    obtain ⟨op, env⟩ := q
    cases op with
    | expireBatch limit =>
      by_cases hnow : now ≤ env (.now 0)
      · have hfull := h.full_batch hnow hx ho hleft
        rw [Step.serve, hfull]
        simp [Step.sweeps, Step.opens, hnow]
      · have hzero : (Step.call ⟨.expireBatch limit, env⟩).sweeps now = 0 := if_neg hnow
        rw [hzero, add_zero]
        exact hle
    | _ => exact (add_zero _).trans_le hle

/-- A reservation is left as it is, or it is settled. -/
lemma settled_or_left (hs : s.Valid)
    (hx : d.reservations.get x = some r) :
    (s.serve cfg d).reservations.get x = some r ∨
      ∃ r', (s.serve cfg d).reservations.get x = some r' ∧ r'.status ≠ .pending := by
  cases s with
  | sync pid env =>
    left
    rcases sync_transact env (.refl d) pid with ⟨report, f, ws, -, -, hc⟩ | ⟨e, -, -, hdb⟩
    · exact (reservations_of_sync hc.toApplies x).trans hx
    · rw [Step.serve, hdb, hx]
  | call q =>
    show (serve cfg d q).db.reservations.get x = some r ∨
      ∃ r', (serve cfg d q).db.reservations.get x = some r' ∧ r'.status ≠ .pending
    refine serve_induction hs.distinct (Or.inl hx) fun a tr Δ ws hret hΔ hc => ?_
    cases hΔ.at x with
    | frame hres => exact Or.inl ((hc.res_out x hres).trans hx)
    | book hres =>
      rw [(hc.res x _ _ hres).1] at hx
      cases hx
    | @confirm r₀ hres =>
      have hst : r₀.confirmed.status = .confirmed := rfl
      exact Or.inr ⟨_, (hc.res x _ _ hres).2, by simp [hst]⟩
    | @release r₀ status hres _ hst =>
      have hne : status ≠ .pending := by rcases hst with rfl | rfl <;> decide
      exact Or.inr ⟨_, (hc.res x _ _ hres).2, hne⟩

/-! ### Runs -/

lemma Reservation.Coherent.isDone {o : Option Order} (h : r.Coherent x o)
    (hst : r.status ≠ .pending) : ∀ it ∈ r.items, isDone it := by
  intro it hit
  cases hs : r.status with
  | pending => exact absurd hs hst
  | confirmed => simp [ReservationService.isDone, (h.confirmed hs).2 it hit]
  | cancelled => simp [ReservationService.isDone, (h.released (Or.inl hs)).2 it hit]
  | expired => simp [ReservationService.isDone, (h.released (Or.inr hs)).2 it hit]

/-- A reservation that is settled stays so. -/
lemma Consistent.settled_of_steps (h : Consistent d) (hs : ∀ s ∈ steps, s.Valid)
    (hx : d.reservations.get x = some r) (hst : r.status ≠ .pending) :
    ∃ r', (runSteps cfg d steps).reservations.get x = some r' ∧ r'.status ≠ .pending := by
  have hstage : r.status.stage ≠ .held := by
    rcases hr : r.status <;> simp_all [ReservationStatus.stage]
  obtain ⟨c, hc, -, hsame⟩ := (openRun_of_steps h hs :
    ClaimBook.OpenRun d.book (runSteps cfg d steps).book).keeps (Db.book_claim_of_some hx)
  obtain ⟨r', hr', hclaim⟩ := Option.map_eq_some_iff.mp hc
  refine ⟨r', hr', fun hp => hstage ?_⟩
  have := congrArg ClaimBook.Claim.stage (hclaim.trans (hsame hstage))
  rw [hp] at this
  exact this.symm

/-- Along a run, an overdue reservation is settled, or the sweeps have taken others. -/
lemma Consistent.settled_or_waits (h : Consistent d) (hs : ∀ s ∈ steps, s.Valid)
    (hx : d.reservations.get x = some r) (ho : r.Overdue now) :
    (∃ r', (runSteps cfg d steps).reservations.get x = some r' ∧ r'.status ≠ .pending) ∨
      (runSteps cfg d steps).reservations.get x = some r ∧
        (runSteps cfg d steps).pending + (steps.map (Step.sweeps now)).sum ≤
          d.pending + (steps.map Step.opens).sum := by
  induction steps generalizing d with
  | nil => exact Or.inr ⟨hx, by simp [runSteps]⟩
  | cons s steps ih =>
    have hs' : ∀ s' ∈ steps, s'.Valid := fun s' hs'' => hs s' (by simp [hs''])
    have hnext : Consistent (s.serve cfg d) := h.step (hs s (by simp))
    have hleft : _ ∨ ∃ r', (s.serve cfg d).reservations.get x = some r' ∧ _ :=
      settled_or_left (hs s (by simp)) hx
    rcases hleft with hleft | ⟨r', hr', hst⟩
    · refine (ih hnext hs' hleft).imp_right fun ⟨hr, hle⟩ => ⟨hr, ?_⟩
      have hstep := h.pending_step (hs s (by simp)) hx ho hleft
      simp only [List.map_cons, List.sum_cons]
      have hrun : runSteps cfg d (s :: steps) = runSteps cfg (s.serve cfg d) steps := rfl
      rw [hrun]
      omega
    · exact Or.inl (hnext.settled_of_steps hs' hr' hst)

/-- Whatever else goes on, a reservation that is overdue is settled, and all its items with it, as
soon as the batches that the worker has swept are as large as what was pending and what was created
in the meantime. -/
theorem worker_drains {first later : List Step} (cfg : Settings) (now : ℤ) (h0 : Blank d)
    (hu : Unreserved d) (hs : ∀ s ∈ first ++ later, s.Valid)
    (hroom : (runSteps cfg d first).pending + (later.map Step.opens).sum ≤
      (later.map (Step.sweeps now)).sum)
    (hx : (runSteps cfg d first).reservations.get x = some r) (ho : r.Overdue now) :
    ∃ r', (runSteps cfg d (first ++ later)).reservations.get x = some r' ∧
      r'.status ≠ .pending ∧ ∀ it ∈ r'.items, isDone it := by
  have hcons : ∀ {steps}, (∀ s ∈ steps, s.Valid) → Consistent (runSteps cfg d steps) :=
    fun h => consistent_of_steps (h0.consistent hu) h
  have hfirst : Consistent (runSteps cfg d first) := hcons fun s h => hs s (by simp [h])
  have hrun : runSteps cfg d (first ++ later) = runSteps cfg (runSteps cfg d first) later :=
    List.foldl_append
  rw [hrun]
  have hlater : ∀ s ∈ later, s.Valid := fun s h => hs s (by simp [h])
  rcases hfirst.settled_or_waits hlater hx ho with ⟨r', hr', hst⟩ | ⟨hleft, hle⟩
  · exact ⟨r', hr', hst, ((hcons hs).coherent.reservation x r' (hrun ▸ hr')).isDone hst⟩
  · have := Db.pending_pos hleft ho.1
    omega

/-- Rugs are reserved, then the worker comes. -/
def rugsAndSweep : List Step :=
  [.call ⟨.create "bob" [⟨3, 1⟩], calm 950000000⟩, runExpirySweep (calm 950000000)]

/-- The lamps are not paid for in time. -/
theorem worker_drains_lamps : ∃ r', (runSteps quarter shop
    (lamps.map .call ++ rugsAndSweep)).reservations.get 1 = some r' ∧
      r'.status ≠ .pending ∧ ∀ it ∈ r'.items, isDone it := by
  have hs : ∀ s ∈ lamps.map .call ++ rugsAndSweep, s.Valid := by
    intro s hs
    simp only [lamps, rugsAndSweep, runExpirySweep, List.map_cons, List.map_nil,
      List.singleton_append, List.mem_cons, List.not_mem_nil, or_false] at hs
    rcases hs with rfl | rfl | rfl
    · exact ⟨by decide, by decide⟩
    · exact ⟨by decide, by decide⟩
    · exact ⟨trivial, trivial⟩
  exact worker_drains quarter 950000000 shop_blank shop_unreserved hs (by decide)
    lamps_pending ⟨rfl, by decide⟩

end InventoryReservation
