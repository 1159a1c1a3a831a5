/-
# One reservation, settled by several calls at the same time

A payment, a cancellation and sweeps meet at one pending reservation.  If every row lock is
granted up to date, one of them settles it and the others find it settled.  `get_with_items`
takes no lock, so a call may also go on with the pending reservation after another has settled it.
-/
import InventoryReservation.Concurrent

namespace InventoryReservation

open RowTxn ReservationService

variable {T : Type} {cfg : Settings} {d d₀ d₁ d' : Db} {x k : ℕ} {r : Reservation}

/-- A call that may settle the reservation. -/
def Op.Settles (x : ℕ) (op : Op) : Prop :=
  op = .confirm x ∨ op = .cancel x ∨ ∃ limit, op = .expireBatch limit

lemma Op.Settles.valid {op : Op} (h : op.Settles x) : op.Valid := by
  rcases h with rfl | rfl | ⟨limit, rfl⟩ <;> exact ⟨trivial, trivial⟩

/-- What has become of a reservation that was pending. -/
inductive Reservation.SettledAs (r : Reservation) : Reservation → Prop
  | confirmed : r.SettledAs r.confirmed
  | released {status : ReservationStatus} (h : status = .cancelled ∨ status = .expired) :
    r.SettledAs (r.released status)

lemma Reservation.SettledAs.status {r' : Reservation} (h : r.SettledAs r') :
    r'.status ≠ .pending := by
  cases h with
  | confirmed => exact fun h => by cases h
  | released hs => rcases hs with rfl | rfl <;> exact fun h => by cases h

/-- A settled reservation asks for the same quantities. -/
lemma qtyOn_of_settled {r' : Reservation} (h : r' = r ∨ r.SettledAs r') (k : ℕ) :
    qtyOn k r'.items = qtyOn k r.items := by
  rcases h with rfl | h
  · rfl
  · cases h <;> exact qtyOn_settled _ _ _ _

@[simp] lemma released_status (r : Reservation) (status : ReservationStatus) :
    (r.released status).status = status := rfl

/-- The reservation `x` is as it was in `d₁`, or the one commit that has written it has settled
it.  The other reservations are as they were or were expired. -/
structure OnceSettled (d₀ d₁ : Db) (x : ℕ) (r : Reservation)
    (log : List (Commit T RowKey Reply)) (d : Db) : Prop where
  static : Static d₁ d
  kept : Kept d₀ d
  target : (d.reservations.get x = some r ∧ ∀ cm ∈ log, .reservation x ∉ cm.wrote) ∨
    ∃ r', d.reservations.get x = some r' ∧ r.SettledAs r'
  once : ∀ cm ∈ log, ∀ cm' ∈ log, .reservation x ∈ cm.wrote → .reservation x ∈ cm'.wrote →
    cm.tid = cm'.tid
  others : ∀ y, y ≠ x → d.reservations.get y = d₁.reservations.get y ∨
    ∃ ry, d₁.reservations.get y = some ry ∧ ry.status = .pending ∧
      d.reservations.get y = some (ry.released .expired)

/-- What a call that may settle `x` does to the reservations. -/
lemma Op.Settles.changes {op : Op} (h : op.Settles x) {clamp : ℤ → ℤ} {env : Env}
    {R : Rely Db RowKey} {a : Reply} {tr : Trace} {Δ : Change}
    (hret : op.Returns clamp cfg env d₀ R a tr (some Δ)) {y : ℕ} {b : Option Reservation}
    {c : Reservation} (hy : Δ.res y = some (b, c)) : ∃ ry, b = some ry ∧ ry.status = .pending ∧
      ry.SettledAs c ∧ (y ≠ x → c = ry.released .expired) := by
  cases hret.does with
  | create hop => rcases h with rfl | rfl | ⟨limit, rfl⟩ <;> cases hop
  | confirm hop _ hs =>
    cases hs with
    | mk _ _ hst =>
      obtain ⟨rfl, rfl, rfl⟩ := confirmChange_res hy
      refine ⟨_, rfl, hst, .confirmed, fun hne => absurd ?_ hne⟩
      rcases h with rfl | rfl | ⟨limit, rfl⟩ <;> rcases hop with hop | hop <;> cases hop
      rfl
  | cancel hop _ hs =>
    cases hs with
    | release _ _ hst =>
      obtain ⟨ry, hry, rfl, rfl⟩ := mem_of_releaseChange_res (by simp) hy
      obtain ⟨rfl, rfl⟩ := Prod.mk.inj (List.mem_singleton.mp hry)
      refine ⟨_, rfl, hst, .released (Or.inl rfl), fun hne => absurd ?_ hne⟩
      rcases h with rfl | rfl | ⟨limit, rfl⟩ <;> rcases hop with hop | hop <;> cases hop
      rfl
  | expire _ _ hs =>
    cases hs with
    | mk _ _ hrs hrow =>
      obtain ⟨ry, hry, rfl, rfl⟩ := mem_of_releaseChange_res (nodup_of_batch hrs) hy
      exact ⟨ry, rfl, (expired_of_mem hrs hrow hry).2.1, .released (Or.inr rfl), fun _ => rfl⟩

namespace OnceSettled

variable {log : List (Commit T RowKey Reply)} {ws : List RowKey} {t : T} {a : Reply}

/-- A commit that does not write the reservation. -/
lemma not_written (h : OnceSettled d₀ d₁ x r log d) (hs : Static d₁ d') (hk : Kept d₀ d')
    (hw : .reservation x ∉ ws) (hrow : d'.reservations.get x = d.reservations.get x)
    (hothers : ∀ y, y ≠ x → d'.reservations.get y = d₁.reservations.get y ∨
      ∃ ry, d₁.reservations.get y = some ry ∧ ry.status = .pending ∧
        d'.reservations.get y = some (ry.released .expired)) :
    OnceSettled d₀ d₁ x r (log ++ [⟨t, a, ws⟩]) d' where
  static := hs
  kept := hk
  target := by
    rw [hrow]
    refine h.target.imp_left fun ht => ⟨ht.1, fun cm hcm => ?_⟩
    rcases List.mem_append.mp hcm with hcm | hcm
    · exact ht.2 cm hcm
    · rwa [List.mem_singleton.mp hcm]
  once cm hcm cm' hcm' hwr hwr' := by
    have hold : ∀ cm ∈ log ++ [⟨t, a, ws⟩], .reservation x ∈ cm.wrote → cm ∈ log := by
      intro cm hcm hwr
      refine (List.mem_append.mp hcm).resolve_right fun hcm => hw ?_
      rwa [List.mem_singleton.mp hcm] at hwr
    exact h.once cm (hold cm hcm hwr) cm' (hold cm' hcm' hwr') hwr hwr'
  others := hothers

lemma commit {Δ : Change} (h : OnceSettled d₀ d₁ x r log d) (hst : r.status = .pending)
    (hΔ : ∀ y b c, Δ.res y = some (b, c) → ∃ ry, b = some ry ∧ ry.status = .pending ∧
      ry.SettledAs c ∧ (y ≠ x → c = ry.released .expired))
    (hc : Δ.Commits d d' ws) (hs : Static d₁ d') (hk : Kept d₀ d') :
    OnceSettled d₀ d₁ x r (log ++ [⟨t, a, ws⟩]) d' := by
  have hothers : ∀ y, y ≠ x → d'.reservations.get y = d₁.reservations.get y ∨
      ∃ ry, d₁.reservations.get y = some ry ∧ ry.status = .pending ∧
        d'.reservations.get y = some (ry.released .expired) := by
    intro y hy
    rcases hres : Δ.res y with _ | ⟨b, c⟩
    · rw [hc.res_out y hres]
      exact h.others y hy
    · obtain ⟨ry, rfl, hry, -, hexp⟩ := hΔ y b c hres
      obtain ⟨hb, hd'⟩ := hc.res y _ _ hres
      -- a reservation that was expired already is not pending
      rcases h.others y hy with hsame | ⟨ry', -, -, hd⟩
      · exact Or.inr ⟨ry, hsame ▸ hb, hry, by rw [hd', hexp hy]⟩
      · rw [hb] at hd
        rw [Option.some.inj hd] at hry
        cases hry
  rcases hres : Δ.res x with _ | ⟨b, c⟩
  · exact h.not_written hs hk (fun hw => hc.wrote x hw hres) (hc.res_out x hres) hothers
  · obtain ⟨ry, rfl, hry, hset, -⟩ := hΔ x b c hres
    obtain ⟨hb, hd'⟩ := hc.res x _ _ hres
    -- the reservation is pending, so no commit has written it yet
    obtain ⟨hr, hnone⟩ := h.target.resolve_right (by
      rintro ⟨r', hr', hset'⟩
      rw [hb] at hr'
      obtain rfl := Option.some.inj hr'
      exact hset'.status hry)
    obtain rfl : ry = r := Option.some.inj (hb.symm.trans hr)
    refine ⟨hs, hk, Or.inr ⟨c, hd', hset⟩, fun cm hcm cm' hcm' hwr hwr' => ?_, hothers⟩
    have hnew : ∀ cm ∈ log ++ [⟨t, a, ws⟩], .reservation x ∈ cm.wrote → cm.tid = t := by
      intro cm hcm hwr
      rcases List.mem_append.mp hcm with hcm | hcm
      · exact absurd hwr (hnone cm hcm)
      · rw [List.mem_singleton.mp hcm]
    rw [hnew cm hcm hwr, hnew cm' hcm' hwr']

end OnceSettled

/-- The units on row `k` of the reservations other than `x` that have expired between `d` and
`d'`. -/
def expiredElse (x k : ℕ) (d d' : Db) : ℤ :=
  ∑ y ∈ (Finset.range d.reservations.fresh).erase x,
    if (d'.reservations.get y).map Reservation.status = some .expired then
      (d.reservations.get y).elim 0 (Reservation.unitsIn .pending k)
    else 0

lemma unitsIn_of_ne {status : ReservationStatus} (k : ℕ) (h : r.status ≠ status) :
    r.unitsIn status k = 0 := if_neg h

lemma unitsIn_of_eq {status : ReservationStatus} (k : ℕ) (h : r.status = status) :
    r.unitsIn status k = qtyOn k r.items := if_pos h

namespace OnceSettled

variable {log : List (Commit T RowKey Reply)} {r' : Reservation}

/-- A sum over the reservations, with the part of `x` apart. -/
lemma sum_eq (h : OnceSettled d₀ d₁ x r log d) (hr : d₁.reservations.get x = some r)
    (hr' : d.reservations.get x = some r') (g : Reservation → ℤ) :
    d.reservations.sum g - d₁.reservations.sum g = g r' - g r +
      ∑ y ∈ (Finset.range d₁.reservations.fresh).erase x,
        ((d.reservations.get y).elim 0 g - (d₁.reservations.get y).elim 0 g) := by
  have hx : x ∈ Finset.range d₁.reservations.fresh := by
    simpa using Table.lt_fresh_of_get hr
  have hsum : d.reservations.sum g - d₁.reservations.sum g =
      ∑ y ∈ Finset.range d₁.reservations.fresh,
        ((d.reservations.get y).elim 0 g - (d₁.reservations.get y).elim 0 g) := by
    refine Table.sum_sub_sum fun y hy => ?_
    have hnone := d₁.reservations.get_of_fresh_le y (by simpa using hy)
    have hne : y ≠ x := by
      rintro rfl
      exact hy hx
    rcases h.others y hne with hsame | ⟨ry, hry, -⟩
    · rw [hsame]
    · rw [hnone] at hry
      cases hry
  rw [hsum, ← Finset.add_sum_erase _ _ hx, hr, hr']
  rfl

lemma units_confirmed (h : OnceSettled d₀ d₁ x r log d) (hr : d₁.reservations.get x = some r)
    (hst : r.status = .pending) (hset : r' = r ∨ r.SettledAs r')
    (hr' : d.reservations.get x = some r') (k : ℕ) :
    d.unitsIn .confirmed k = d₁.unitsIn .confirmed k +
      if r'.status = .confirmed then qtyOn k r.items else 0 := by
  have hsum := h.sum_eq hr hr' (Reservation.unitsIn .confirmed k)
  have hothers : ∑ y ∈ (Finset.range d₁.reservations.fresh).erase x,
      ((d.reservations.get y).elim 0 (Reservation.unitsIn .confirmed k) -
        (d₁.reservations.get y).elim 0 (Reservation.unitsIn .confirmed k)) = 0 := by
    refine Finset.sum_eq_zero fun y hy => ?_
    rcases h.others y (Finset.ne_of_mem_erase hy) with hsame | ⟨ry, hry, hp, hd⟩
    · rw [hsame, sub_self]
    · simp only [hry, hd, Option.elim]
      rw [unitsIn_of_ne k (by simp), unitsIn_of_ne k (by simp [hp]), sub_zero]
  rw [hothers, unitsIn_of_ne k (show r.status ≠ .confirmed by simp [hst]), Reservation.unitsIn,
    qtyOn_of_settled hset]
    at hsum
  unfold Db.unitsIn
  omega

lemma units_pending (h : OnceSettled d₀ d₁ x r log d) (hr : d₁.reservations.get x = some r)
    (hst : r.status = .pending) (hset : r' = r ∨ r.SettledAs r')
    (hr' : d.reservations.get x = some r') (k : ℕ) :
    d.unitsIn .pending k = d₁.unitsIn .pending k - expiredElse x k d₁ d -
      if r'.status = .pending then 0 else qtyOn k r.items := by
  have hsum := h.sum_eq hr hr' (Reservation.unitsIn .pending k)
  have hothers : ∑ y ∈ (Finset.range d₁.reservations.fresh).erase x,
      ((d.reservations.get y).elim 0 (Reservation.unitsIn .pending k) -
        (d₁.reservations.get y).elim 0 (Reservation.unitsIn .pending k)) =
      -expiredElse x k d₁ d := by
    rw [expiredElse, ← Finset.sum_neg_distrib]
    refine Finset.sum_congr rfl fun y hy => ?_
    rcases h.others y (Finset.ne_of_mem_erase hy) with hsame | ⟨ry, hry, hp, hd⟩
    · rw [hsame, sub_self]
      split
      · next hexp =>
        obtain ⟨ry, hry, hexp⟩ := Option.map_eq_some_iff.mp hexp
        simp only [hry, Option.elim]
        rw [unitsIn_of_ne k (by simp [hexp]), neg_zero]
      · rw [neg_zero]
    · simp only [hry, hd, Option.elim, Option.map_some]
      rw [released_status, if_pos rfl, unitsIn_of_ne k (by simp), zero_sub]
  rw [hothers, unitsIn_of_eq k hst, Reservation.unitsIn,
    qtyOn_of_settled hset] at hsum
  unfold Db.unitsIn
  by_cases hp : r'.status = .pending
  · rw [if_pos hp] at hsum ⊢
    omega
  · rw [if_neg hp] at hsum ⊢
    omega

lemma units_eq (h : OnceSettled d₀ d₁ x r log d) (hr : d₁.reservations.get x = some r)
    (hset : r' = r ∨ r.SettledAs r') (hr' : d.reservations.get x = some r') (k : ℕ) :
    d.units k = d₁.units k := by
  have hsum := h.sum_eq hr hr' fun r => qtyOn k r.items
  have hothers : ∑ y ∈ (Finset.range d₁.reservations.fresh).erase x,
      ((d.reservations.get y).elim 0 (fun r => qtyOn k r.items) -
        (d₁.reservations.get y).elim 0 fun r => qtyOn k r.items) = 0 := by
    refine Finset.sum_eq_zero fun y hy => ?_
    rcases h.others y (Finset.ne_of_mem_erase hy) with hsame | ⟨ry, hry, -, hd⟩
    · rw [hsame, sub_self]
    · simp only [hry, hd, Option.elim]
      rw [show qtyOn k (ry.released .expired).items = qtyOn k ry.items from qtyOn_settled _ _ _ _,
        sub_self]
  rw [hothers, qtyOn_of_settled hset] at hsum
  unfold Db.units
  omega

end OnceSettled

/-- Every call that may settle `x` keeps this against the others. -/
lemma Op.Settles.verified {op : Op} (h : op.Settles x) (hr : r.status = .pending) (env : Env) (t : T) :
    Verified (OnceSettled d₀ d₁ x r) (fun _ => True) env t (op.transaction cfg) := by
  have hseen : ∀ d, (relyOn (OnceSettled d₀ d₁ x r) (fun _ => True) t).seen d → Static d₁ d := by
    rintro d ⟨log, hd, -⟩
    exact hd.static
  refine Op.verified_wrote h.valid.distinct hseen fun log d d' a tr Δ ws hd _ hret heff hnone => ?_
  rcases Δ with _ | Δ
  · obtain rfl := hnone rfl
    rw [show d' = d from heff]
    exact hd.not_written hd.static hd.kept List.not_mem_nil rfl hd.others
  · have hc : Δ.Commits d d' ws := heff
    have hΔ := hret.lawful hseen h.valid.distinct
    exact hd.commit hr (fun y b c => h.changes hret) hc (hd.static.trans (hΔ.static hc.toApplies))
      (hd.kept.commits hd.static hΔ (fun x r hx => hret.positive h.valid.positive hx) hc)

/-- If every lock is granted up to date, a reservation that is pending in a state of a serial run
is settled by one of the calls at most: one commit at most writes it, it has an order if and only
if it is confirmed, and the counters of the rows show its settlement once, next to what the
sweeps release for other reservations. -/
theorem settled_once {T : Type} [DecidableEq T] (iso : Isolation) (cfg : Settings)
    {qs : List ServiceCall} (hqs : ∀ q ∈ qs, q.op.Valid) (hd : Blank d) (hu : Unreserved d)
    (hr : (run cfg d qs).reservations.get x = some r) (hst : r.status = .pending) (env : T → Env)
    (n : ℕ) (ops : T → Op) (hops : ∀ t, (ops t).Settles x) {c : System T}
    (h : UpToDateRun iso cfg env (run cfg d qs) n ops c) :
    (∀ cm ∈ c.log, ∀ cm' ∈ c.log, .reservation x ∈ cm.wrote → .reservation x ∈ cm'.wrote →
      cm.tid = cm'.tid) ∧
    ∃ r', c.db.reservations.get x = some r' ∧
      (c.db.orders.get x ≠ none ↔ r'.status = .confirmed) ∧
      ∀ k v₀ v, (run cfg d qs).inventory.get k = some v₀ → c.db.inventory.get k = some v →
        v.qtyAvailable = v₀.qtyAvailable -
            (if r'.status = .confirmed then qtyOn k r.items else 0) ∧
          v.qtyReserved = v₀.qtyReserved -
            (if r'.status = .pending then 0 else qtyOn k r.items) -
            expiredElse x k (run cfg d qs) c.db := by
  have hkept : Kept d (run cfg d qs) := kept_of_run (hd.kept hu) hqs
  have h0 : OnceSettled d (run cfg d qs) x r ([] : List (Commit T RowKey Reply)) (run cfg d qs) :=
    ⟨.refl _, hkept, Or.inl ⟨hr, by simp⟩, by simp, fun _ _ => Or.inl rfl⟩
  have hc := invariant_of_run h0 (fun t => (hops t).verified hst (env t) t) h
  obtain ⟨r', hr', hset⟩ : ∃ r', c.db.reservations.get x = some r' ∧ (r' = r ∨ r.SettledAs r') := by
    rcases hc.target with ⟨hr', -⟩ | ⟨r', hr', hset⟩
    · exact ⟨r, hr', Or.inl rfl⟩
    · exact ⟨r', hr', Or.inr hset⟩
  refine ⟨hc.once, r', hr', ?_, fun k v₀ v hv₀ hv => ?_⟩
  · have hcoh := hc.kept.coherent.reservation x r' hr'
    constructor
    · intro ho
      rcases hs : r'.status
      · exact absurd (hcoh.pending hs).1 ho
      · rfl
      · exact absurd (hcoh.released (Or.inl hs)).1 ho
      · exact absurd (hcoh.released (Or.inr hs)).1 ho
    · intro hs
      rw [(hcoh.confirmed hs).1]
      simp
  · -- the ledgers of the two states
    obtain ⟨w, hw⟩ : ∃ w, d.inventory.get k = some w := by
      have hstatic : Static d (run cfg d qs) := static_of_run fun q hq => (hqs q hq).distinct
      have := hstatic.stock k
      rw [hv₀] at this
      obtain ⟨w, hw, -⟩ := Option.map_eq_some_iff.mp this.symm
      exact ⟨w, hw⟩
    have hsold₀ := hkept.funded.sold k w v₀ hw hv₀
    have hsold := hc.kept.funded.sold k w v hw hv
    have hres₀ := hkept.funded.reserved k v₀ hv₀
    have hres := hc.kept.funded.reserved k v hv
    rw [hc.static.isInternal, hc.units_eq hr hset hr'] at hres
    rw [hc.units_confirmed hr hst hset hr'] at hsold
    rw [hc.units_pending hr hst hset hr'] at hres
    constructor <;> omega

/-- A payment, a cancellation and a sweep. -/
def payCancelSweep : Fin 3 → Op
  | 0 => .confirm 1
  | 1 => .cancel 1
  | 2 => .expireBatch 3

lemma payCancelSweep_settles : ∀ t, (payCancelSweep t).Settles 1
  | 0 => Or.inl rfl
  | 1 => Or.inr (Or.inl rfl)
  | 2 => Or.inr (Or.inr ⟨3, rfl⟩)

/-- The sweep looks first, then the payment goes through, and the cancellation comes too late. -/
def paidFirst : List (Act (Fin 3)) :=
  List.replicate 3 (.step 2) ++ List.replicate 19 (.step 0) ++ List.replicate 4 (.step 1) ++
    List.replicate 3 (.step 2)

theorem settled_once_lamps : ∃ c : System (Fin 3), c.order = [0, 2] ∧
    ∃ r', c.db.reservations.get 1 = some r' ∧
      (c.db.orders.get 1 ≠ none ↔ r'.status = .confirmed) ∧
      ∀ k v₀ v, (run quarter shop lamps).inventory.get k = some v₀ →
        c.db.inventory.get k = some v →
        v.qtyAvailable = v₀.qtyAvailable -
            (if r'.status = .confirmed then
              qtyOn k [⟨2, 2, 2, 3, some "hold", .held, none⟩] else 0) ∧
          v.qtyReserved = v₀.qtyReserved -
            (if r'.status = .pending then 0 else
              qtyOn k [⟨2, 2, 2, 3, some "hold", .held, none⟩]) -
            expiredElse 1 k (run quarter shop lamps) c.db := by
  have hrun : (replay (fun _ => true) .repeatableRead (fun _ => calm 5)
      (opening quarter (run quarter shop lamps) 2 payCancelSweep) paidFirst).map Conf.order =
      some [0, 2] := by
    rfl
  obtain ⟨c, hc, horder⟩ := Option.map_eq_some_iff.mp hrun
  have h := (run_of_replay .init hc).mono fun _ (_ : True) => rfl
  exact ⟨c, horder, (settled_once .repeatableRead quarter (by decide) shop_blank shop_unreserved
    lamps_pending rfl (fun _ => calm 5) 2 payCancelSweep payCancelSweep_settles h).2⟩

/-- A payment and a cancellation. -/
def payAndCancel (t : Bool) : Op := if t then .confirm 1 else .cancel 1

/-- Both have read the reservation before the payment goes through. -/
def bothPending : List (Act Bool) :=
  List.replicate 3 (.step false) ++ List.replicate 19 (.step true) ++
    List.replicate 10 (.step false)

/-- The payment and the cancellation both commit: the cancelled reservation has an order, and its
lamps are sold. -/
theorem settled_twice : (∀ t, (payAndCancel t).Settles 1) ∧ ∃ c : System Bool,
    Reachable .repeatableRead (fun _ => calm 5)
      (opening quarter (run quarter shop lamps) 2 payAndCancel) c ∧
    c.order = [true, false] ∧
    (∃ r', c.db.reservations.get 1 = some r' ∧ r'.status = .cancelled ∧
      ¬(c.db.orders.get 1 ≠ none ↔ r'.status = .confirmed)) ∧
    ∃ v₀ v, (run quarter shop lamps).inventory.get 2 = some v₀ ∧ c.db.inventory.get 2 = some v ∧
      v₀.qtyAvailable = 10 ∧ v.qtyAvailable = 7 := by
  have hsettles : ∀ t, (payAndCancel t).Settles 1
    | true => Or.inl rfl
    | false => Or.inr (Or.inl rfl)
  have hrun : (exec .repeatableRead (fun _ => calm 5)
      (opening quarter (run quarter shop lamps) 2 payAndCancel) bothPending).map (fun c =>
        (c.order, (c.db.reservations.get 1).map Reservation.status, c.db.orders.get 1,
          (c.db.inventory.get 2).map Inventory.qtyAvailable)) =
      some ([true, false], some .cancelled, some ⟨1, "ada", .created⟩, some 7) := by
    rfl
  obtain ⟨c, hc, hrun⟩ := Option.map_eq_some_iff.mp hrun
  simp only [Prod.mk.injEq] at hrun
  obtain ⟨horder, hst, ho, hv⟩ := hrun
  obtain ⟨r', hr', hst⟩ := Option.map_eq_some_iff.mp hst
  obtain ⟨v, hv, hqty⟩ := Option.map_eq_some_iff.mp hv
  refine ⟨hsettles, c, reachable_of_exec .init hc, horder, ⟨r', hr', hst, ?_⟩,
    ⟨2, 2, 10, 3, none⟩, v, rfl, hv, rfl, hqty⟩
  rw [ho, hst]
  simp

end InventoryReservation
