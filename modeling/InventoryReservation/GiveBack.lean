/-
# Holds that are given back

A release is asked of a provider while the reservation is settled, and the settlement is final.
The number of requests that a trace has for an item is therefore a function of the database: what
a call adds to the one it adds to the other.
-/
import InventoryReservation.HoldTrail

namespace InventoryReservation

open RowTxn ReservationService

variable {cfg : Settings} {env : Env} {d d' d₀ : Db} {x y i j : ℕ} {r : Reservation}
  {it : ReservationItem} {items : List ReservationItem} {rs : List (ℕ × Reservation)} {tr : Trace}
  {q : ServiceCall} {qs : List ServiceCall} {a : ExternalHttpProviderAdapter} {ref : String}

instance (kind : CallKind) (x i : ℕ) : DecidablePred (Query.Calls kind x i)
  | .now _ | .tie _ _ | .scan | .http (.row _) _ => .isFalse (by rintro ⟨_, h, -⟩; cases h)
  | .http (.item y j) r => decidable_of_iff (y = x ∧ j = i ∧ r.kind = some kind) <| by
    constructor
    · rintro ⟨rfl, rfl, h⟩
      exact ⟨r, rfl, h⟩
    · rintro ⟨r', h, hk⟩
      cases h
      exact ⟨rfl, rfl, hk⟩

/-- The number of requests to release the hold of an item. -/
def releases (qs : List Query) (x i : ℕ) : ℕ := qs.countP fun q => q.Calls .release x i

/-- The item has a hold, and its provider can release it. -/
def ReservationItem.returns (d : Db) (it : ReservationItem) : Bool :=
  it.providerHoldRef.isSome && (d.providers.get it.providerId).any fun p =>
    (p.capabilities.lookup "release_hold").getD false

/-- The reservation was cancelled or has expired. -/
def Reservation.isReleased (r : Reservation) : Bool := r.status = .cancelled || r.status = .expired

/-- The number of holds that are given back for an item. -/
def Db.givenBack (d : Db) (x i : ℕ) : ℕ :=
  if (d.reservations.get x).any fun r => r.isReleased && (r.items[i]?).any (·.returns d) then 1 else 0

/-! ### Requests for the items of a reservation -/

lemma releases_append (qs qs' : List Query) (x i : ℕ) :
    releases (qs ++ qs') x i = releases qs x i + releases qs' x i := List.countP_append

lemma releases_eq_zero {qs : List Query} (h : ∀ q ∈ qs, ¬q.Calls .release x i) :
    releases qs x i = 0 := by
  refine List.countP_eq_zero.mpr fun q hq => ?_
  simpa using h q hq

lemma capabilities_of_new {p : InventoryProvider} (h : ExternalHttpProviderAdapter.new p = .ok a) :
    a.capabilities = p.capabilities := by
  unfold ExternalHttpProviderAdapter.new at h
  rcases hb : ExternalHttpProviderAdapter.buildAuthHeaders (p.authConfig.getD []) with e | hs
  · simp [hb, bind, Except.bind] at h
  · simp only [hb, bind, Except.bind, pure, Except.pure, Except.ok.injEq] at h
    rw [← h]

/-- A call whose result and exceptions are of no interest asks what it asks. -/
lemma asks_of_ignored {α : Type} (o : ProviderTalk α) :
    ((o.bind fun _ => .pure ()).handle fun _ => .pure () : ProviderTalk Unit).asks = o.asks := by
  obtain ⟨asks, e | b⟩ := o
  · simp [Talk.bind, Talk.handle]
  · simp [Talk.bind, Talk.handle]

/-- The questions that release an item which is held. -/
lemma releaseItemTalk_asks (h : it.HeldAt d a ref) : (releaseItemTalk env d x i it).asks =
    if (a.capabilities.lookup "release_hold").getD false then
      [.http (.item x i) (a.releaseRequest ref)] else [] := by
  obtain ⟨p, hp, ht, ha⟩ := h.provider
  have hres : ProviderRegistry.resolve p none = .ok (.external a) := by
    simp [ProviderRegistry.resolve, ht, ha]
  have htalk : (releaseItemTalk env d x i it).asks = (a.talkWith env "release_hold" (.item x i)
      (a.releaseRequest ref) ExternalHttpProviderAdapter.releaseReply).asks := by
    unfold releaseItemTalk holdTalk
    simp only [h.status, h.ref, hp, hres, Talk.ofExcept, if_true]
    exact asks_of_ignored _
  rw [htalk, ExternalHttpProviderAdapter.talkWith, ExternalHttpProviderAdapter.requireCapability]
  split <;> rfl

/-- The requests for one item that is not settled. -/
lemma releases_item (hplaced : it.Placed d)
    (hst : it.providerStatus = .held ∨ it.providerStatus = .providerFailed)
    (hfail : it.providerStatus = .providerFailed → it.providerHoldRef = none) :
    releases (releaseItemTalk env d x i it).asks x i = if it.returns d then 1 else 0 := by
  rcases href : it.providerHoldRef with _ | ref
  · have hnone : (releaseItemTalk env d x i it).asks = [] := by
      unfold releaseItemTalk holdTalk
      simp [href]
    simp [hnone, releases, ReservationItem.returns, href]
  · have hheld : it.providerStatus = .held := hst.resolve_right fun hf => by simp [hfail hf] at href
    obtain ⟨p, hp, ht, a, ha⟩ := hplaced.ref (by simp [href])
    rw [releaseItemTalk_asks ⟨hheld, href, p, hp, ht, ha⟩, capabilities_of_new ha]
    have hcall : (Query.http (.item x i) (a.releaseRequest ref)).Calls .release x i := ⟨_, rfl, rfl⟩
    by_cases hcap : (p.capabilities.lookup "release_hold").getD false = true
    · simp [releases, ReservationItem.returns, href, hp, hcap, hcall]
    · simp [releases, ReservationItem.returns, href, hp, hcap]

/-- What a reservation is as long as it is pending. -/
def Unsettled (d : Db) (it : ReservationItem) : Prop :=
  it.Placed d ∧ (it.providerStatus = .held ∨ it.providerStatus = .providerFailed) ∧
    (it.providerStatus = .providerFailed → it.providerHoldRef = none)

/-- The requests of the loop over the items: those for the items before it are none. -/
lemma releases_settle (h : ∀ it ∈ items, Unsettled d it) :
    releases (settleTalk isDone (releaseItemTalk env d x) items i).asks x (i + j) =
      if (items[j]?).any (·.returns d) then 1 else 0 := by
  induction items generalizing i j with
  | nil => simp [settleTalk, releases]
  | cons it items ih =>
    obtain ⟨hplaced, hst, hfail⟩ := h it (by simp)
    have hdone : isDone it = false := by
      rcases hst with hst | hst <;> simp [isDone, hst]
    have hasks : (settleTalk isDone (releaseItemTalk env d x) (it :: items) i).asks =
        (releaseItemTalk env d x i it).asks ++
          (settleTalk isDone (releaseItemTalk env d x) items (i + 1)).asks := by
      rw [settleTalk, hdone, if_neg (by decide), Talk.bind, releaseItemTalk_ok hplaced.releasable]
    rw [hasks, releases_append]
    rcases j with _ | j
    · have hlater : releases (settleTalk isDone (releaseItemTalk env d x) items (i + 1)).asks x
          (i + 0) = 0 := by
        refine releases_eq_zero fun q hq hc => ?_
        obtain ⟨j, it', -, hq⟩ := settleTalk_asks hq
        have := (hc.unique (calls_of_releaseItemTalk hq)).2.2
        omega
      rw [hlater, Nat.add_zero, Nat.add_zero, releases_item hplaced hst hfail]
      rfl
    · have hfirst : releases (releaseItemTalk env d x i it).asks x (i + (j + 1)) = 0 := by
        refine releases_eq_zero fun q hq hc => ?_
        have := (hc.unique (calls_of_releaseItemTalk hq)).2.2
        omega
      rw [hfirst, Nat.zero_add, show i + (j + 1) = i + 1 + j by omega,
        ih fun it' hit' => h it' (by simp [hit'])]
      rfl

lemma releases_reservation (h : ∀ it ∈ r.items, Unsettled d it) :
    releases (releaseTalk env d x r).asks x i = if (r.items[i]?).any (·.returns d) then 1 else 0 := by
  have hasks : releases (releaseTalk env d x r).asks x (0 + i) = _ := releases_settle h
  rwa [Nat.zero_add] at hasks

lemma releases_other (hxy : x ≠ y) : releases (releaseTalk env d y r).asks x i = 0 := by
  refine releases_eq_zero fun q hq hc => ?_
  obtain ⟨j, hj⟩ := calls_of_release hq
  exact hxy (hc.unique hj).2.1

/-- The requests of a sweep. -/
lemma releases_expire (hnd : (rs.map Prod.fst).Nodup)
    (h : ∀ r ∈ rs, ∀ it ∈ r.2.items, Unsettled d it) (hr : (x, r) ∈ rs) :
    releases (expireTalk env d rs).asks x i =
      if (r.items[i]?).any (·.returns d) then 1 else 0 := by
  induction rs with
  | nil => cases hr
  | cons s rs ih =>
    obtain ⟨y, s⟩ := s
    obtain ⟨hy, hnd⟩ := List.nodup_cons.mp hnd
    have hasks : (expireTalk env d ((y, s) :: rs)).asks =
        (releaseTalk env d y s).asks ++ (expireTalk env d rs).asks := by
      have hok : (releaseTalk env d y s).result = .ok () :=
        releaseTalk_ok fun it hit => (h (y, s) (by simp) it hit).1.releasable
      rw [expireTalk, Talk.bind, hok]
    rw [hasks, releases_append]
    rcases List.mem_cons.mp hr with hr | hr
    · obtain ⟨rfl, rfl⟩ := Prod.mk.inj hr
      have hlater : releases (expireTalk env d rs).asks x i = 0 := by
        refine releases_eq_zero fun q hq hc => ?_
        obtain ⟨r', hr', j, hj⟩ := calls_of_expire hq
        obtain ⟨-, rfl, -⟩ := hc.unique hj
        exact hy (List.mem_map.mpr ⟨r', hr', rfl⟩)
      rw [hlater, Nat.add_zero, releases_reservation (h _ List.mem_cons_self)]
    · have hxy : x ≠ y := fun hxy => hy (List.mem_map.mpr ⟨_, hr, hxy⟩)
      rw [releases_other hxy, Nat.zero_add, ih hnd (fun r' hr' => h r' (by simp [hr'])) hr]

/-! ### A call -/

/-- The trail of a coherent database tells that the items of a pending reservation are unsettled. -/
lemma Trailed.unsettled (h : Trailed d tr) (hcoh : Coherent d) (hr : d.reservations.get x = some r)
    (hst : r.status = .pending) : ∀ it ∈ r.items, Unsettled d it := by
  intro it hit
  obtain ⟨i, hi⟩ := List.getElem?_of_mem hit
  exact ⟨hcoh.placed x r hr it hit, ((hcoh.reservation x r hr).pending hst).2 it hit,
    (h x r hr i it hi).failed⟩

/-- Whether an item returns its hold depends on its provider. -/
lemma returns_congr (hp : d'.providers.get = d.providers.get) : it.returns d' = it.returns d := by
  rw [ReservationItem.returns, hp, ReservationItem.returns]

lemma givenBack_congr (hp : d'.providers.get = d.providers.get)
    (hr : d'.reservations.get x = d.reservations.get x) : d'.givenBack x i = d.givenBack x i := by
  simp only [Db.givenBack, hr, returns_congr hp]

lemma givenBack_eq_zero (h : ∀ r, d.reservations.get x = some r → r.isReleased = false) :
    d.givenBack x i = 0 := by
  rcases hr : d.reservations.get x with _ | r
  · simp [Db.givenBack, hr]
  · simp [Db.givenBack, hr, h r hr]

/-- A released item has given back what it had. -/
lemma givenBack_released {status : ReservationStatus} (hp : d'.providers.get = d.providers.get)
    (hs : status = .cancelled ∨ status = .expired)
    (hr : d'.reservations.get x = some (r.released status)) :
    d'.givenBack x i = if (r.items[i]?).any (·.returns d) then 1 else 0 := by
  have hrel : (r.released status).isReleased = true := by
    rcases hs with rfl | rfl <;> rfl
  have hany : ((r.released status).items[i]?).any (·.returns d') =
      (r.items[i]?).any (·.returns d) := by
    rw [Reservation.released, Reservation.settle, List.getElem?_map]
    rcases r.items[i]? with _ | it
    · rfl
    · have htag : ReservationItem.tag _ = it.tag := tag_settled isDone .released
      simp only [ReservationItem.tag, Prod.mk.injEq] at htag
      simp [ReservationItem.returns, htag, hp]
  simp [Db.givenBack, hr, hrel, hany]

lemma map_answers (env : Env) (qs : List Query) : (answers env qs).map Sigma.fst = qs := by
  rw [answers, List.map_map]
  exact List.map_id qs

/-- The requests of a call that releases the reservation. -/
lemma releases_of_returns (h : Trailed d tr) (hcoh : Coherent d) {op : Op} {b : Reply} {t : Trace}
    {Δ : Change} (hret : op.Returns (max 0) cfg env d (Rely.solo d) b t (some Δ))
    (hr : d.reservations.get x = some r) (hst : r.status = .pending) {status : ReservationStatus}
    (hs : status = .cancelled ∨ status = .expired)
    (hres : Δ.res x = some (some r, r.released status)) :
    releases (t.map Sigma.fst) x i = if (r.items[i]?).any (·.returns d) then 1 else 0 := by
  cases hret.does with
  | create _ _ hc =>
    cases hc with
    | mk => exact nomatch (bookChange_res hres).2.1
  | confirm _ _ hc =>
    cases hc with
    | @mk d' r' =>
      have hstatus : status = .confirmed := congrArg Reservation.status (confirmChange_res hres).2.2
      rcases hs with rfl | rfl <;> cases hstatus
  | @cancel y _ _ hc =>
    cases hc with
    | @release d' r' hd hr' =>
      obtain ⟨r₁, hmem, hsome, -⟩ := mem_of_releaseChange_res (by simp) hres
      obtain ⟨rfl, rfl⟩ := Prod.mk.inj (List.mem_singleton.mp hmem)
      obtain rfl := Option.some.inj hsome
      rw [map_answers]
      exact releases_reservation (h.unsettled hcoh hr hst)
  | @expire limit n _ _ hc =>
    cases hc with
    | @mk d' free rs hd hfree hrs hrow =>
      have hnd := nodup_of_batch hrs
      obtain ⟨r₁, hmem, hsome, -⟩ := mem_of_releaseChange_res hnd hres
      obtain rfl := Option.some.inj hsome
      rw [seen_solo hd] at hrow
      have hunsettled : ∀ r ∈ rs, ∀ it ∈ r.2.items, Unsettled d it := fun r' hr' =>
        h.unsettled hcoh (hrow r' hr') (expired_of_mem hrs (seen_solo hd ▸ hrow) hr').2.1
      rw [map_answers]
      exact releases_expire hnd hunsettled hmem

/-- What a call asks for an item, and what has been given back for it before and after. -/
lemma serve_releases (h : Trailed d tr) (hcoh : Coherent d) (hop : q.op.Distinct) (x i : ℕ) :
    d.givenBack x i + releases ((serve cfg d q).trace.map Sigma.fst) x i =
      (serve cfg d q).db.givenBack x i := by
  -- without a release the item has the same reservation
  have hnone : (∀ w ∈ (serve cfg d q).trace, ¬w.1.Calls .release x i) →
      releases ((serve cfg d q).trace.map Sigma.fst) x i = 0 := fun hno => by
    refine releases_eq_zero fun q' hq' => ?_
    obtain ⟨w, hw, rfl⟩ := List.mem_map.mp hq'
    exact hno w hw
  cases served hop cfg d with
  | raises hraise _ hdb =>
    rw [hdb, hnone fun w hw hc => ?_, Nat.add_zero]
    rcases hraise.calls hcoh hw hc with ⟨hk, -⟩ | ⟨hk, -⟩ <;> cases hk
  | same hret _ hdb =>
    rw [hdb, hnone fun w hw hc => ?_, Nat.add_zero]
    cases hret.calls hw hc with
    | release _ _ hΔ => cases hΔ
  | @commits a Δ ws hret _ hΔ hc =>
    have hp := (hΔ.static hc.toApplies).providers
    have hmade : ∀ w ∈ (serve cfg d q).trace, w.1.Calls .release x i →
        ∃ r status, (status = .cancelled ∨ status = .expired) ∧
          Δ.res x = some (some r, r.released status) := by
      intro w hw hcall
      cases hret.calls hw hcall with
      | release _ _ hδ hs hres =>
        cases hδ
        exact ⟨_, _, hs, hres⟩
    cases hΔ.at x with
    | frame hres =>
      rw [givenBack_congr hp (hc.res_out x hres), hnone fun w hw hcall => ?_, Nat.add_zero]
      obtain ⟨r, status, -, hres'⟩ := hmade w hw hcall
      rw [hres] at hres'
      cases hres'
    | book hres _ hst =>
      obtain ⟨hb, ha⟩ := hc.res x _ _ hres
      rw [hnone fun w hw hcall => ?_, givenBack_eq_zero (by simp [hb]), givenBack_eq_zero]
      · intro r hr
        obtain rfl := Option.some.inj (hr.symm.trans ha)
        simp [Reservation.isReleased, hst]
      · obtain ⟨r, status, -, hres'⟩ := hmade w hw hcall
        rw [hres] at hres'
        cases hres'
    | @confirm r₀ hres _ hst =>
      obtain ⟨hb, ha⟩ := hc.res x _ _ hres
      rw [hnone fun w hw hcall => ?_, givenBack_eq_zero, givenBack_eq_zero]
      · intro r hr
        obtain rfl := Option.some.inj (hr.symm.trans ha)
        rfl
      · intro r hr
        obtain rfl := Option.some.inj (hr.symm.trans hb)
        simp [Reservation.isReleased, hst]
      · obtain ⟨r, status, hs, hres'⟩ := hmade w hw hcall
        have heq : r₀.confirmed = r.released status :=
          (Prod.mk.inj (Option.some.inj (hres.symm.trans hres'))).2
        have hcon : ReservationStatus.confirmed = status := congrArg Reservation.status heq
        rcases hs with rfl | rfl <;> cases hcon
    | @release r₀ status hres _ hs hst =>
      obtain ⟨hb, ha⟩ := hc.res x _ _ hres
      rw [givenBack_released hp hs ha, givenBack_eq_zero, Nat.zero_add]
      · exact releases_of_returns h hcoh hret hb hst hs hres
      · intro r hr
        obtain rfl := Option.some.inj (hr.symm.trans hb)
        simp [Reservation.isReleased, hst]

/-! ### Runs -/

lemma releases_of_run (h : Trailed d tr) (hcoh : Coherent d) (hqs : ∀ q ∈ qs, q.op.Distinct)
    (x i : ℕ) : d.givenBack x i + releases ((runTrace cfg d qs).map Sigma.fst) x i =
      (run cfg d qs).givenBack x i := by
  induction qs generalizing d tr with
  | nil => simp [runTrace, releases]
  | cons q qs ih =>
    have hq := hqs q (by simp)
    have hcoh' : Coherent (run cfg d [q]) := coherent_of_run hcoh (by simpa using hq)
    rw [runTrace, List.map_append, releases_append, ← Nat.add_assoc,
      serve_releases h hcoh hq, run_cons]
    exact ih (h.serve hq) hcoh' fun q' hq' => hqs q' (by simp [hq'])

/-- In every run the hold of an item whose reservation was cancelled or has expired is given back
once, if the provider can release it at all; for all other items no release is asked for. -/
theorem holds_given_back_once (cfg : Settings) (h0 : Blank d₀) (hqs : ∀ q ∈ qs, q.op.Distinct)
    (x i : ℕ) : releases ((runTrace cfg d₀ qs).map Sigma.fst) x i =
      (run cfg d₀ qs).givenBack x i := by
  rw [← releases_of_run h0.trailed h0.coherent hqs, givenBack_eq_zero (by simp [h0.reservations]),
    Nat.zero_add]

/-- The sale that fails half-way is cancelled; the rugs are released once. -/
theorem holds_given_back_once_rugs :
    releases ((runTrace quarter shop failedSale).map Sigma.fst) 1 1 = 1 :=
  holds_given_back_once quarter shop_blank (by decide) 1 1

end InventoryReservation
