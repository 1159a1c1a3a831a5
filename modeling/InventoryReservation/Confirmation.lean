/-
# Confirmations that are served alone

What `confirm` does with a pending reservation when no other transaction runs: the times cannot
be compared, or it has expired, or a provider call fails, or it is paid for.  Of the exceptions
of a provider call only an outage is caught.
-/
import InventoryReservation.Conservation
import InventoryReservation.Finality

namespace InventoryReservation

open RowTxn ReservationService

variable {cfg : Settings} {env env' : Env} {d d₀ : Db} {x i : ℕ} {r : Reservation}
  {it : ReservationItem} {items : List ReservationItem} {ref : String}
  {a : ExternalHttpProviderAdapter} {qs : List ServiceCall}

/-- How the confirmation of a pending reservation ends. -/
inductive Confirmed (cfg : Settings) (env : Env) (d : Db) (x : ℕ) (r : Reservation)
    (out : Outcome Db Query Answer PyErr Reply) : Prop
  | incomparable (hexp : expiryCheck cfg env r = none)
      (hres : out.result =
        .error (.typeError "can't compare offset-naive and offset-aware datetimes"))
      (hdb : out.db = d)
  | expired {e : PyErr} (hexp : expiryCheck cfg env r = some true) (hres : out.result = .error e)
      (hdb : out.db = d)
  | failed {e : PyErr} (hexp : expiryCheck cfg env r = some false)
      (he : (confirmTalk env d x r).result = .error e)
      (htr : out.trace = answers env (.now 0 :: (confirmTalk env d x r).asks))
      (hres : out.result = .error e) (hdb : out.db = d)
  | paid {ws : List RowKey} (hexp : expiryCheck cfg env r = some false)
      (hok : (confirmTalk env d x r).result = .ok ())
      (htr : out.trace = answers env (.now 0 :: (confirmTalk env d x r).asks))
      (hres : out.result = .ok (.order ⟨x, r.userId, .created⟩))
      (hc : (confirmChange x r).Commits d out.db ws)

theorem confirmed (cfg : Settings) (env : Env) (ho : d.orders.get x = none)
    (hr : d.reservations.get x = some r) (hst : r.status = .pending) :
    Confirmed cfg env d x r (serve cfg d ⟨.confirm x, env⟩) := by
  cases served (q := ⟨.confirm x, env⟩) trivial cfg d with
  | raises h hres hdb =>
    have h' : ConfirmRaises cfg env d (Rely.solo d : Rely Db RowKey).seen x _ _ := h
    generalize htr : (serve cfg d ⟨.confirm x, env⟩).trace = tr at h'
    cases h' with
    | notFound hd hr' =>
      rw [seen_solo hd, hr] at hr'
      cases hr'
    | status hd hr' hst' =>
      rw [seen_solo hd, hr] at hr'
      cases hr'
      exact absurd hst hst'
    | compare hd hr' _ hexp =>
      rw [seen_solo hd, hr] at hr'
      cases hr'
      exact .incomparable hexp hres hdb
    | expired hd hr' _ hexp =>
      rw [seen_solo hd, hr] at hr'
      cases hr'
      exact .expired hexp hres hdb
    | duplicate _ _ _ _ hd ho' =>
      rw [seen_solo hd] at ho'
      exact absurd ho ho'
    | provider hd hr' _ hexp he =>
      rw [seen_solo hd, hr] at hr'
      cases hr'
      exact .failed hexp he htr hres hdb
    | integrity _ _ _ _ hd ho' =>
      rw [seen_solo hd] at ho'
      exact absurd ho ho'
  | same h =>
    generalize (serve cfg d ⟨.confirm x, env⟩).trace = tr at h
    obtain ⟨o, -, hs⟩ := h.confirm
    cases hs
  | commits h hres _ hc =>
    generalize htr : (serve cfg d ⟨.confirm x, env⟩).trace = tr at h
    obtain ⟨o, ha, hs⟩ := h.confirm
    cases hs with
    | mk hd hr' _ hexp hok =>
      rw [seen_solo hd, hr] at hr'
      cases hr'
      exact .paid hexp hok htr (hres.trans (congrArg Except.ok ha)) hc

/-! ### The calls of a confirmation, item by item -/

lemma settleTalk_ok {talk : ℕ → ReservationItem → ProviderTalk Unit} :
    (settleTalk (fun _ => false) talk items i).result = .ok () ↔
      ∀ (j : ℕ) (it : ReservationItem), items[j]? = some it → (talk (i + j) it).result = .ok () := by
  induction items generalizing i with
  | nil => simp [settleTalk, Talk.pure]
  | cons it items ih =>
    simp only [settleTalk, Bool.false_eq_true, if_false, Talk.bind_ok]
    rw [ih]
    constructor
    · rintro ⟨⟨⟩, h0, h⟩ (_ | j) it' hj
      · obtain rfl : it = it' := by simpa using hj
        exact h0
      · rw [show i + (j + 1) = i + 1 + j by omega]
        exact h j it' (by simpa using hj)
    · intro h
      refine ⟨(), h 0 it rfl, fun j it' hj => ?_⟩
      rw [show i + 1 + j = i + (j + 1) by omega]
      exact h (j + 1) it' (by simpa using hj)

/-- An item is called about if the calls before it return. -/
lemma mem_settleTalk_all {talk : ℕ → ReservationItem → ProviderTalk Unit} {q : Query} :
    q ∈ (settleTalk (fun _ => false) talk items i).asks ↔
      ∃ (j : ℕ) (it : ReservationItem), items[j]? = some it ∧ q ∈ (talk (i + j) it).asks ∧
        ∀ (k : ℕ) (it' : ReservationItem), k < j → items[k]? = some it' →
          (talk (i + k) it').result = .ok () := by
  induction items generalizing i with
  | nil => simp [settleTalk, Talk.pure]
  | cons it items ih =>
    simp only [settleTalk, Bool.false_eq_true, if_false, Talk.mem_bind_asks]
    constructor
    · rintro (h | ⟨⟨⟩, h0, h⟩)
      · exact ⟨0, it, rfl, h, fun k _ hk => absurd hk (Nat.not_lt_zero k)⟩
      · obtain ⟨j, it', hj, hq, hall⟩ := ih.mp h
        refine ⟨j + 1, it', by simpa using hj, by rwa [show i + (j + 1) = i + 1 + j by omega], ?_⟩
        rintro (_ | k) it'' hk hit
        · obtain rfl : it = it'' := by simpa using hit
          exact h0
        · rw [show i + (k + 1) = i + 1 + k by omega]
          exact hall k it'' (by omega) (by simpa using hit)
    · rintro ⟨_ | j, it', hj, hq, hall⟩
      · obtain rfl : it = it' := by simpa using hj
        exact Or.inl hq
      · refine Or.inr ⟨(), hall 0 it (by omega) rfl, ih.mpr ⟨j, it', by simpa using hj, ?_, ?_⟩⟩
        · rwa [show i + 1 + j = i + (j + 1) by omega]
        · intro k it'' hk hit
          rw [show i + 1 + k = i + (k + 1) by omega]
          exact hall (k + 1) it'' (by omega) (by simpa using hit)

/-- The item is held with a reference at the adapter of its external provider. -/
structure ReservationItem.HeldAt (d : Db) (it : ReservationItem) (a : ExternalHttpProviderAdapter)
    (ref : String) : Prop where
  status : it.providerStatus = .held
  ref : it.providerHoldRef = some ref
  provider : ∃ p, d.providers.get it.providerId = some p ∧ p.type = .external ∧
    ExternalHttpProviderAdapter.new p = .ok a

/-- The confirmation of the hold ends in an exception that `confirm` does not catch: the provider
does not declare `confirm_hold`, or the HTTP client fails otherwise than by a timeout. -/
def ReservationItem.Escapes (env : Env) (d : Db) (x i : ℕ) (it : ReservationItem) : Prop :=
  ∃ a ref, it.HeldAt d a ref ∧ (a.requireCapability "confirm_hold" ≠ .ok () ∨
    ∃ text, env (.http (.item x i) (a.confirmRequest ref)) = .error text)

/-- The provider confirms the hold. -/
def ReservationItem.Consumed (env : Env) (d : Db) (x i : ℕ) (it : ReservationItem) : Prop :=
  ∃ a ref, it.HeldAt d a ref ∧ a.requireCapability "confirm_hold" = .ok () ∧
    ∃ s : Response, env (.http (.item x i) (a.confirmRequest ref)) = .response s ∧ s.isSuccess

lemma ReservationItem.HeldAt.unique {a' : ExternalHttpProviderAdapter} {ref' : String}
    (h : it.HeldAt d a ref) (h' : it.HeldAt d a' ref') : a = a' ∧ ref = ref' := by
  obtain ⟨p, hp, -, ha⟩ := h.provider
  obtain ⟨p', hp', -, ha'⟩ := h'.provider
  obtain rfl : p = p' := Option.some.inj (hp.symm.trans hp')
  exact ⟨Except.ok.inj (ha.symm.trans ha'), Option.some.inj (h.ref.symm.trans h'.ref)⟩

/-- What is done about an item that is held. -/
lemma confirmItemTalk_held (h : it.HeldAt d a ref) : confirmItemTalk env d x i it =
    ((a.talkWith env "confirm_hold" (.item x i) (a.confirmRequest ref)
      (ExternalHttpProviderAdapter.confirmReply ref)).bind fun _ => .pure ()).handle fun e =>
        if isOutage e then .pure () else .raise e := by
  obtain ⟨p, hp, ht, ha⟩ := h.provider
  have hres : ProviderRegistry.resolve p none = .ok (.external a) := by
    simp [ProviderRegistry.resolve, ht, ha]
  unfold confirmItemTalk holdTalk
  simp only [h.status, h.ref, hp, hres, Talk.bind, Talk.ofExcept, List.nil_append]
  rfl

/-- Nothing is done about other items. -/
lemma confirmItemTalk_other (hp : it.Placed d) (h : ∀ a ref, ¬it.HeldAt d a ref) :
    confirmItemTalk env d x i it = .pure () := by
  unfold confirmItemTalk holdTalk
  split
  · next ref hst href =>
    obtain ⟨p, hp, ht, a, ha⟩ := hp.ref (by simp [href])
    exact absurd ⟨hst, href, p, hp, ht, ha⟩ (h a ref)
  · rfl

lemma confirmItemTalk_ok (hp : it.Placed d) :
    (confirmItemTalk env d x i it).result = .ok () ↔ ¬it.Escapes env d x i := by
  by_cases h : ∃ a ref, it.HeldAt d a ref
  · obtain ⟨a, ref, h⟩ := h
    have hesc : it.Escapes env d x i ↔ (a.requireCapability "confirm_hold" ≠ .ok () ∨
        ∃ text, env (.http (.item x i) (a.confirmRequest ref)) = .error text) := by
      constructor
      · rintro ⟨a', ref', h', hor⟩
        obtain ⟨rfl, rfl⟩ := h.unique h'
        exact hor
      · exact fun hor => ⟨a, ref, h, hor⟩
    rw [hesc, confirmItemTalk_held h, ExternalHttpProviderAdapter.talkWith, Talk.handle_result,
      Talk.bind_result, Talk.bind_result]
    rcases hcap : a.requireCapability "confirm_hold" with e | ⟨⟩
    · have he : isOutage e = false := by
        unfold ExternalHttpProviderAdapter.requireCapability at hcap
        split at hcap <;> cases hcap
        rfl
      simp [Talk.ofExcept, Except.bind, Except.tryCatch, he, Talk.raise]
    · rcases hout : env (.http (.item x i) (a.confirmRequest ref)) with s | _ | text
      · by_cases hs : s.isSuccess <;>
          simp [Talk.ofExcept, Talk.ask, Except.bind, Except.tryCatch, Talk.pure, isOutage, hs,
            ExternalHttpProviderAdapter.confirmReply, ExternalHttpProviderAdapter.raiseForStatus,
            bind, pure, Except.pure, hout]
      · simp [Talk.ofExcept, Talk.ask, Except.bind, Except.tryCatch, Talk.pure, isOutage,
          ExternalHttpProviderAdapter.confirmReply, hout]
      · simp [Talk.ofExcept, Talk.ask, Except.bind, Except.tryCatch, Talk.raise, isOutage,
          ExternalHttpProviderAdapter.confirmReply, hout]
  · have hesc : ¬it.Escapes env d x i := by
      rintro ⟨a, ref, ha, -⟩
      exact h ⟨a, ref, ha⟩
    rw [confirmItemTalk_other hp fun a ref ha => h ⟨a, ref, ha⟩]
    simp [Talk.pure, hesc]

/-- The calls of a confirmation return if no item escapes. -/
theorem confirmTalk_ok (hp : ∀ it ∈ r.items, it.Placed d) :
    (confirmTalk env d x r).result = .ok () ↔
      ∀ (i : ℕ) (it : ReservationItem), r.items[i]? = some it → ¬it.Escapes env d x i := by
  unfold confirmTalk
  rw [settleTalk_ok]
  refine forall_congr' fun j => forall_congr' fun it => forall_congr' fun hj => ?_
  rw [Nat.zero_add, confirmItemTalk_ok (hp it (List.mem_of_getElem? hj))]

/-! ### Two behaviours of the providers -/

lemma expiryCheck_aware (hdrv : cfg.driver = .aware) (hnow : env (.now 0) ≤ r.expiresAt) :
    expiryCheck cfg env r = some false := by
  simp [expiryCheck, hdrv, Driver.load, Datetime.lt?, hnow]

/-- Two calls of `confirm` return an order and leave the same database. -/
structure SameConfirmation (out out' : Outcome Db Query Answer PyErr Reply) : Prop where
  left : ∃ o, out.result = .ok (.order o)
  right : ∃ o, out'.result = .ok (.order o)
  rows : ∀ k : RowKey, RowStore.row out.db k = RowStore.row out'.db k

/-- A confirmation returns an order exactly if no item escapes. -/
lemma Coherent.confirm_returns (h : Coherent d) (hr : d.reservations.get x = some r)
    (hst : r.status = .pending) (hexp : expiryCheck cfg env r = some false) :
    (∃ o, (serve cfg d ⟨.confirm x, env⟩).result = .ok (.order o)) ↔
      ∀ (i : ℕ) (it : ReservationItem), r.items[i]? = some it → ¬it.Escapes env d x i := by
  rw [← confirmTalk_ok (h.placed x r hr)]
  cases confirmed cfg env ((h.reservation x r hr).pending hst).1 hr hst with
  | incomparable hexp' => simp [hexp] at hexp'
  | expired hexp' => simp [hexp] at hexp'
  | failed _ he _ hres => simp [hres, he]
  | paid _ hok _ hres => simp [hres, hok]

/-- Whether and how a reservation is confirmed does not depend on the providers exactly if nothing
escapes under either behaviour of theirs. -/
theorem confirmation_independent_iff (hdrv : cfg.driver = .aware) (h0 : Blank d₀)
    (hqs : ∀ q ∈ qs, q.op.Distinct) (hr : (run cfg d₀ qs).reservations.get x = some r)
    (hst : r.status = .pending) (hnow : env (.now 0) ≤ r.expiresAt)
    (hnow' : env' (.now 0) ≤ r.expiresAt) :
    SameConfirmation (serve cfg (run cfg d₀ qs) ⟨.confirm x, env⟩)
        (serve cfg (run cfg d₀ qs) ⟨.confirm x, env'⟩) ↔
      ∀ (i : ℕ) (it : ReservationItem), r.items[i]? = some it →
        ¬it.Escapes env (run cfg d₀ qs) x i ∧ ¬it.Escapes env' (run cfg d₀ qs) x i := by
  have hcoh : Coherent (run cfg d₀ qs) := coherent_of_run h0.coherent hqs
  generalize run cfg d₀ qs = d at hr hcoh ⊢
  have hexp := expiryCheck_aware hdrv hnow
  have hexp' := expiryCheck_aware hdrv hnow'
  have hret := hcoh.confirm_returns hr hst hexp
  have hret' := hcoh.confirm_returns hr hst hexp'
  constructor
  · intro h i it hi
    exact ⟨hret.mp h.left i it hi, hret'.mp h.right i it hi⟩
  · intro h
    refine ⟨hret.mpr fun i it hi => (h i it hi).1, hret'.mpr fun i it hi => (h i it hi).2, ?_⟩
    have hord := ((hcoh.reservation x r hr).pending hst).1
    have hok := (confirmTalk_ok (hcoh.placed x r hr)).mpr fun i it hi => (h i it hi).1
    have hok' := (confirmTalk_ok (hcoh.placed x r hr)).mpr fun i it hi => (h i it hi).2
    intro k
    cases confirmed cfg env hord hr hst with
    | incomparable he => simp [hexp] at he
    | expired he => simp [hexp] at he
    | failed _ he => simp [hok] at he
    | paid _ _ _ _ hc =>
      cases confirmed cfg env' hord hr hst with
      | incomparable he => simp [hexp'] at he
      | expired he => simp [hexp'] at he
      | failed _ he => simp [hok'] at he
      | paid _ _ _ _ hc' =>
        exact Change.Agree.row_eq ⟨fun _ _ _ => rfl, rfl, rfl⟩ hc.toApplies hc'.toApplies k

/-! ### Stored times without a time zone -/

/-- The reservation is paid for. -/
def PaidFor (x : ℕ) (out : Outcome Db Query Answer PyErr Reply) : Prop :=
  (∃ o, out.result = .ok (.order o)) ∧
    (out.db.reservations.get x).map Reservation.status = some .confirmed

/-- Where the driver reads times back without their time zone, no reservation is ever paid for:
not right after it was made, nor in any other state. -/
theorem never_paid_for (hdrv : cfg.driver = .naive) (d : Db) (x : ℕ) (env : Env) :
    ¬PaidFor x (serve cfg d ⟨.confirm x, env⟩) := by
  rintro ⟨⟨o, ho⟩, -⟩
  have hno : ∀ {tr : Trace} {a : Reply} {Δ : Option Change},
      (Op.confirm x).Returns (max 0) cfg env d (Rely.solo d) a tr Δ → False := by
    intro tr a Δ h
    obtain ⟨o, -, hs⟩ := h.confirm
    cases hs with
    | mk _ _ _ hexp => simp [expiryCheck, hdrv, Driver.load, Datetime.lt?] at hexp
  cases served (q := ⟨.confirm x, env⟩) trivial cfg d with
  | raises _ hres =>
    rw [ho] at hres
    cases hres
  | same h => exact hno h
  | commits h => exact hno h

/-- Settings under which times are read back as they are stored. -/
def naiveQuarter : Settings := ⟨15, .naive⟩

/-- A lamp that was just reserved. -/
theorem never_paid_for_lamp : ¬PaidFor 1 (serve naiveQuarter
    (serve naiveQuarter shop ⟨.create "ada" [⟨2, 1⟩], calm 0⟩).db ⟨.confirm 1, calm 5⟩) :=
  never_paid_for rfl _ 1 (calm 5)

/-- Every provider call succeeds. -/
def AllSucceed (env : Env) : Prop :=
  ∀ c r, ∃ s : Response, env (.http c r) = .response s ∧ s.isSuccess

/-- A lamp is reserved, and five microseconds later it cannot be paid for. -/
theorem not_payable : ¬∀ cfg d userId its env x r env', cfg.driver = .naive →
    (Op.create userId its).Valid →
    (serve cfg d ⟨.create userId its, env⟩).result = .ok (.reservation x r) → AllSucceed env' →
    env' (.now 0) < r.expiresAt →
    PaidFor x (serve cfg (serve cfg d ⟨.create userId its, env⟩).db ⟨.confirm x, env'⟩) := by
  intro h
  have hres : (serve naiveQuarter shop ⟨.create "ada" [⟨2, 1⟩], calm 0⟩).result =
      .ok (.reservation 1 ⟨"ada", .pending, 900000000, [⟨2, 2, 2, 1, some "hold", .held, none⟩]⟩) := by
    rfl
  obtain ⟨⟨o, ho⟩, -⟩ := h naiveQuarter shop "ada" [⟨2, 1⟩] (calm 0) 1 _ (calm 5) rfl (by decide)
    hres (fun _ _ => ⟨_, rfl, rfl⟩) (by decide)
  have hfail : (serve naiveQuarter (serve naiveQuarter shop
      ⟨.create "ada" [⟨2, 1⟩], calm 0⟩).db ⟨.confirm 1, calm 5⟩).result.toOption = none := by
    decide +kernel
  rw [ho] at hfail
  cases hfail

/-! ### The shop with a partner that is down -/

/-- The partner is asked to confirm the lamps and answers, or does not answer in time. -/
theorem confirmation_independent_iff_timeout :
    SameConfirmation (serve quarter (run quarter shop lamps) ⟨.confirm 1, calm 5⟩)
      (serve quarter (run quarter shop lamps) ⟨.confirm 1, replying (fun _ => .timeout) 6⟩) := by
  refine (confirmation_independent_iff rfl shop_blank (by decide) lamps_pending rfl (by decide)
    (by decide)).mpr fun i it hi => ?_
  obtain rfl : it = ⟨2, 2, 2, 3, some "hold", .held, none⟩ := by
    rcases i with _ | i
    · simpa using hi.symm
    · simp at hi
  have hcap : ∀ a ref, (ReservationItem.mk 2 2 2 3 (some "hold") .held none).HeldAt
      (run quarter shop lamps) a ref → a.requireCapability "confirm_hold" = .ok () := by
    rintro a ref ⟨-, -, p, hp, -, ha⟩
    have hp' : (run quarter shop lamps).providers.get 2 = some p := hp
    obtain rfl := Option.some.inj (hp'.symm.trans (by rfl))
    cases ha
    rfl
  constructor
  · rintro ⟨a, ref, ha, hn | ⟨t, ht⟩⟩
    · exact hn (hcap a ref ha)
    · cases ht
  · rintro ⟨a, ref, ha, hn | ⟨t, ht⟩⟩
    · exact hn (hcap a ref ha)
    · rcases i with _ | i <;> cases ht

/-- The connection to the partner is refused, and the lamps are not paid for. -/
theorem confirmation_depends : ¬∀ cfg d₀ qs env env' x r, cfg.driver = .aware → Blank d₀ →
    (∀ q ∈ qs, q.op.Distinct) → (run cfg d₀ qs).reservations.get x = some r →
    r.status = .pending → env (.now 0) ≤ r.expiresAt → env' (.now 0) ≤ r.expiresAt →
    SameConfirmation (serve cfg (run cfg d₀ qs) ⟨.confirm x, env⟩)
      (serve cfg (run cfg d₀ qs) ⟨.confirm x, env'⟩) := by
  intro h
  obtain ⟨o, ho⟩ := (h quarter shop lamps (calm 5) (replying (fun _ => .error "refused") 5) 1 _ rfl
    shop_blank (by decide) lamps_pending rfl (by decide) (by decide)).right
  have hfail : (serve quarter (run quarter shop lamps)
      ⟨.confirm 1, replying (fun _ => .error "refused") 5⟩).result.toOption = none := by
    decide +kernel
  rw [ho] at hfail
  cases hfail

end InventoryReservation
