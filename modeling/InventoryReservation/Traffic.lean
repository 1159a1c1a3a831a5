/-
# Traffic

Requests of any clients, one after the other, with the jobs of the worker in between, in a state
that the service has reached.  What the clients are told and what the database holds are the same:
the invariant moves a count over the responses and a function of the database by the same step.
-/
import InventoryReservation.Answers
import InventoryReservation.Worker

namespace InventoryReservation

open RowTxn ReservationService

variable {cfg : Settings} {env : Env} {d d' : Db} {x : ℕ} {r : Reservation} {e : Event}
  {Δ : Change}

/-- A request comes in, or the job of the worker is due. -/
inductive Event
  | request (req : HttpRequest) (env : Env)
  | sweep (env : Env)

/-- The response to an event, if it is a request, and the database after it. -/
def Event.serve (cfg : Settings) (d : Db) : Event → List HttpResponse × Db
  | .request req env => ([(handle cfg env d req).1], (handle cfg env d req).2)
  | .sweep env => ([], (runExpirySweep env).serve cfg d)

/-- The responses to some events, and the database after them. -/
def traffic (cfg : Settings) : Db → List Event → List HttpResponse × Db
  | d, [] => ([], d)
  | d, e :: es => ((e.serve cfg d).1 ++ (traffic cfg (e.serve cfg d).2 es).1,
    (traffic cfg (e.serve cfg d).2 es).2)

variable {es es' : List Event} {out : HttpResponse × Db}

/-! ### The book -/

lemma positive_confirmChange (x : ℕ) (r : Reservation) : (confirmChange x r).Positive := by
  intro y c hy
  cases (confirmChange_res hy).2.1

lemma positive_releaseChange {rs : List (ℕ × Reservation)} (status : ReservationStatus)
    (hnd : (rs.map Prod.fst).Nodup) : (releaseChange (max 0) status rs).Positive := by
  intro y c hy
  obtain ⟨r', -, hb, -⟩ := mem_of_releaseChange_res hnd hy
  cases hb

/-- An event leaves the database as it is, or it commits a lawful change, or it syncs. -/
inductive Moved (d d' : Db) : Prop
  | unchanged (hdb : d' = d)
  | lawful {Δ : Change} (hΔ : Δ.Lawful d (max 0)) (hpos : Δ.Positive) (ha : Δ.Applies d d')
  | synced {f : ℕ → Option (ℤ × ℤ)} (ha : (syncChange f).Applies d d')

lemma Answered.moved (h : Answered d out) : Moved d out.2 := by
  cases h with
  | unchanged _ hdb => exact .unchanged hdb
  | @paid x r hst _ hdb => exact .lawful (.confirm hst) (positive_confirmChange x r) hdb
  | @released x r hst _ _ hdb =>
    exact .lawful (.release (Or.inl rfl) (by simp) (by simpa using hst))
      (positive_releaseChange _ (by simp)) hdb
  | synced _ _ hdb => exact .synced hdb

/-- The job of the worker releases a batch. -/
lemma Coherent.sweep (h : Coherent d) (cfg : Settings) (env : Env) :
    ∃ rs, (rs.map Prod.fst).Nodup ∧ (∀ r ∈ rs, r.2.status = .pending) ∧
      (releaseChange (max 0) .expired rs).Applies d ((runExpirySweep env).serve cfg d) := by
  obtain ⟨rs, ws, hb, -, hc⟩ := serve_expire cfg env 100 fun x r hr => h.releasable hr
  exact ⟨rs, nodup_of_batch hb.1, fun r hr => (expired_of_mem hb.1 hb.2 hr).2.1, hc.toApplies⟩

theorem Coherent.moved (h : Coherent d) (cfg : Settings) (e : Event) :
    Moved d (e.serve cfg d).2 := by
  cases e with
  | request req env => exact (h.answered cfg env req).moved
  | sweep env =>
    obtain ⟨rs, hnd, hst, ha⟩ := h.sweep cfg env
    exact .lawful (.release (Or.inr rfl) hnd hst) (positive_releaseChange _ hnd) ha

lemma Moved.static (hm : Moved d d') : Static d d' := by
  cases hm with
  | unchanged hdb =>
    rw [hdb]
    exact .refl d
  | lawful hΔ _ ha => exact hΔ.static ha
  | synced ha => exact static_of_sync ha

lemma Moved.coherent (hm : Moved d d') (h : Coherent d) : Coherent d' := by
  cases hm with
  | unchanged hdb => rwa [hdb]
  | lawful hΔ _ ha => exact h.applies (.refl d) hΔ ha
  | synced ha => exact h.sync ha

lemma Moved.consistent (hm : Moved d d') (h : Consistent d) : Consistent d' := by
  cases hm with
  | unchanged hdb => rwa [hdb]
  | lawful hΔ hpos ha => exact h.applies (.refl d) hΔ hpos ha
  | synced ha => exact h.sync ha

/-- What every event keeps, traffic keeps. -/
theorem traffic_keeps {P : Db → Prop} (cfg : Settings) (h : Coherent d) (h0 : P d)
    (hstep : ∀ d e, Coherent d → P d → P (Event.serve cfg d e).2) (es : List Event) :
    Coherent (traffic cfg d es).2 ∧ P (traffic cfg d es).2 := by
  induction es generalizing d with
  | nil => exact ⟨h, h0⟩
  | cons e es ih => exact ih ((h.moved cfg e).coherent h) (hstep d e h h0)

lemma coherent_of_traffic (h : Coherent d) (cfg : Settings) (es : List Event) :
    Coherent (traffic cfg d es).2 :=
  (traffic_keeps (P := fun _ => True) cfg h trivial (fun _ _ _ _ => trivial) es).1

lemma static_of_traffic (h : Coherent d) (cfg : Settings) (es : List Event) :
    Static d (traffic cfg d es).2 :=
  (traffic_keeps cfg h (.refl d) (fun _ e hd hs => hs.trans (hd.moved cfg e).static) es).2

lemma consistent_of_traffic (h : Consistent d) (cfg : Settings) (es : List Event) :
    Consistent (traffic cfg d es).2 :=
  (traffic_keeps cfg h.coherent h (fun _ e hd hs => (hd.moved cfg e).consistent hs) es).2

lemma Moved.book (hm : Moved d d') (h : Consistent d) :
    d' = d ∨ ClaimBook.Step d.book d'.book ∨ ClaimBook.Restock d.book d'.book := by
  cases hm with
  | unchanged hdb => exact Or.inl hdb
  | lawful hΔ hpos ha => exact Or.inr (Or.inl (bookStep_of_lawful hΔ h.coherent h.backed hpos ha))
  | synced ha =>
    refine Or.inr (Or.inr ?_)
    funext x
    exact book_claim_of_out (static_of_sync ha) ha rfl

/-- What a response tells of the book before and after the request: none of a new claim, and none
is opened. -/
structure Told (d : Db) (out : HttpResponse × Db) : Prop where
  failed : 400 ≤ out.1.status → out.2 = d
  created : out.1.created? = none
  opened : ∀ x, out.2.book.claim x = none ↔ d.book.claim x = none
  used : ∀ o, out.1.order? = some o → ∃ u, d.book.claim o.reservationId = some ⟨.held, u⟩ ∧
    out.2.book.claim o.reservationId = some ⟨.used, u⟩
  moves : out.2 = d ∨ ClaimBook.Step d.book out.2.book ∨ ClaimBook.Restock d.book out.2.book

lemma HttpResponse.Plain.not_order {response : HttpResponse} (h : response.Plain)
    {o : OrderResponse} (ho : response.order? = some o) : False := by
  rw [h.order] at ho
  cases ho

/-- A change that opens no reservation opens no claim. -/
lemma book_claim_eq_none (ha : Δ.Applies d d') (h : ∀ x c, Δ.res x ≠ some (none, c)) (x : ℕ) :
    d'.book.claim x = none ↔ d.book.claim x = none := by
  simp only [Db.book, Option.map_eq_none_iff]
  rcases hx : Δ.res x with _ | ⟨_ | b, c⟩
  · rw [ha.res_out x hx]
  · exact absurd hx (h x c)
  · obtain ⟨hb, hc⟩ := ha.res x _ _ hx
    simp [hb, hc]

lemma confirmChange_res_ne (x : ℕ) (r : Reservation) (y : ℕ) (c : Reservation) :
    (confirmChange x r).res y ≠ some (none, c) := by
  intro hy
  cases (confirmChange_res hy).2.1

lemma releaseChange_res_ne {rs : List (ℕ × Reservation)} (status : ReservationStatus)
    (hnd : (rs.map Prod.fst).Nodup) (y : ℕ) (c : Reservation) :
    (releaseChange (max 0) status rs).res y ≠ some (none, c) := by
  intro hy
  obtain ⟨r', -, hb, -⟩ := mem_of_releaseChange_res hnd hy
  cases hb

lemma Answered.created (h : Answered d out) : out.1.created? = none := by
  cases h with
  | unchanged hplain => exact hplain.created
  | paid _ hout => rw [hout]; rfl
  | released _ hplain => exact hplain.created
  | synced hplain => exact hplain.created

lemma Answered.told (ha : Answered d out) (h : Consistent d) : Told d out := by
  have hmoves := ha.moved.book h
  have hcreated := ha.created
  cases ha with
  | unchanged hplain hdb =>
    exact ⟨fun _ => hdb, hcreated, fun _ => by rw [hdb],
      fun _ ho => (hplain.not_order ho).elim, hmoves⟩
  | @paid x r hst hout hdb =>
    refine ⟨fun hs => ?_, hcreated, book_claim_eq_none hdb (confirmChange_res_ne x r),
      fun o ho => ?_, hmoves⟩
    · rw [hout] at hs
      exact absurd hs (show ¬400 ≤ 200 by omega)
    · rw [hout] at ho
      obtain rfl := Option.some.inj ho
      have hres : (confirmChange x r).res x = some (some r, r.confirmed) := by simp [confirmChange]
      have hΔ : (confirmChange x r).Lawful d (max 0) := .confirm hst
      have hstatic : Static d out.2 := hΔ.static hdb
      have hheld : d.book.claim x =
          some ⟨.held, fun k => if d.isInternal k then 0 else qtyOn k r.items⟩ := by
        rw [Db.book_claim_of_some (hdb.res _ _ _ hres).1, hst]
        rfl
      have hunits : ∀ k, qtyOn k r.confirmed.items = qtyOn k r.items := fun k =>
        qtyOn_settled k _ _ r.items
      have hused : out.2.book.claim x =
          some ⟨.used, fun k => if d.isInternal k then 0 else qtyOn k r.items⟩ := by
        rw [book_claim_of_res hstatic hdb hres]
        simp only [hunits]
        rfl
      exact ⟨_, hheld, hused⟩
  | @released x r hst hplain hok hdb =>
    exact ⟨fun hs => absurd hs (not_le.mpr hok), hcreated,
      book_claim_eq_none hdb (releaseChange_res_ne .cancelled (by simp)),
      fun _ ho => (hplain.not_order ho).elim, hmoves⟩
  | synced hplain hok hdb =>
    exact ⟨fun hs => absurd hs (not_le.mpr hok), hcreated,
      book_claim_eq_none hdb fun _ _ h => (by cases h), fun _ ho => (hplain.not_order ho).elim,
      hmoves⟩

/-- Three lamps are reserved by a call of the service. -/
def lampsHeld : List Step := [.call ⟨.create "ada" [⟨2, 3⟩], calm 0⟩]

lemma lampsHeld_valid : ∀ s ∈ lampsHeld, s.Valid := by
  intro s hs
  rw [List.mem_singleton.mp hs]
  exact ⟨by decide, by decide⟩

/-- The body of a request for two rugs. -/
def rugsBody : CreateBody := ⟨"bob", [⟨3, 2⟩]⟩

/-- Rugs are asked for and the lamps are paid for; the worker comes, and the payment is sent
again. -/
def lampsTraffic : List Event := [
  .request (.createReservation rugsBody) (calm 0),
  .request (.confirmReservation 1) (calm 5),
  .sweep (calm 950000000),
  .request (.paymentOutcome ⟨1, "success"⟩) (calm 950000001)]

/-- How often responses tell of the order of the reservation `x`. -/
def payments (responses : List HttpResponse) (x : ℕ) : ℕ :=
  responses.countP fun response => response.order?.any (·.reservationId = x)

lemma payments_append (rs rs' : List HttpResponse) (x : ℕ) :
    payments (rs ++ rs') x = payments rs x + payments rs' x := List.countP_append

lemma HttpResponse.Plain.payments {response : HttpResponse} (h : response.Plain) (x : ℕ) :
    payments [response] x = 0 := by
  simp [InventoryReservation.payments, h.order]

/-- What an event does to the reservation `x` and to its order, and what its response tells. -/
inductive EventAt (d : Db) (x : ℕ) (out : List HttpResponse × Db) : Prop
  | frame (hres : out.2.reservations.get x = d.reservations.get x)
      (hord : out.2.orders.get x = d.orders.get x) (hp : payments out.1 x = 0)
  | pay {r : Reservation} (hr : d.reservations.get x = some r) (hst : r.status = .pending)
      (hr' : out.2.reservations.get x = some r.confirmed) (hnone : d.orders.get x = none)
      (hord : out.2.orders.get x = some ⟨x, r.userId, .created⟩)
      (hout : out.1 = [.ok (.order (.modelValidate ⟨x, r.userId, .created⟩))])
  | release {r : Reservation} {status : ReservationStatus} (hr : d.reservations.get x = some r)
      (hst : r.status = .pending) (hs : status = .cancelled ∨ status = .expired)
      (hr' : out.2.reservations.get x = some (r.released status))
      (hord : out.2.orders.get x = d.orders.get x) (hp : payments out.1 x = 0)

/-- A release of some reservations, of which no response tells. -/
lemma eventAt_release {rs : List (ℕ × Reservation)} {status : ReservationStatus}
    {out : List HttpResponse × Db} (hs : status = .cancelled ∨ status = .expired)
    (hnd : (rs.map Prod.fst).Nodup) (hst : ∀ r ∈ rs, r.2.status = .pending)
    (ha : (releaseChange (max 0) status rs).Applies d out.2) (hp : payments out.1 x = 0) :
    EventAt d x out := by
  have hord := ha.ord_out x (releaseChange_ord x)
  by_cases hx : x ∈ rs.map Prod.fst
  · obtain ⟨⟨y, r⟩, hr, rfl⟩ := List.mem_map.mp hx
    obtain ⟨hr₀, hr'⟩ := ha.res y _ _ (releaseChange_res_of_mem hnd hr)
    exact .release hr₀ (hst _ hr) hs hr' hord hp
  · exact .frame (ha.res_out x (releaseChange_res_of_not_mem hx)) hord hp

lemma Answered.eventAt {out : HttpResponse × Db} (h : Answered d out) (x : ℕ) :
    EventAt d x ([out.1], out.2) := by
  cases h with
  | unchanged hplain hdb => exact .frame (by rw [hdb]) (by rw [hdb]) (hplain.payments x)
  | @paid y r hst hout hdb =>
    by_cases hx : x = y
    · subst hx
      obtain ⟨hr, hr'⟩ := hdb.res x (some r) r.confirmed (by simp [confirmChange])
      obtain ⟨hnone, ho⟩ := hdb.ord x ⟨x, r.userId, .created⟩ (by simp [confirmChange])
      exact .pay hr hst hr' hnone ho (by rw [hout])
    · refine .frame (hdb.res_out x ?_) (hdb.ord_out x ?_) ?_
      · simp [confirmChange, Change.setRes_res_of_ne _ _ _ hx, Change.nothing]
      · simp [confirmChange, Change.addOrd_ord_of_ne _ _ hx, Change.nothing]
      · have hne : ¬y = x := fun h => hx h.symm
        rw [hout]
        simp [payments, HttpResponse.order?, HttpResponse.ok, OrderResponse.modelValidate, hne]
  | @released y r hst hplain _ hdb =>
    exact eventAt_release (Or.inl rfl) (by simp) (by simpa using hst) hdb (hplain.payments x)
  | synced hplain _ hdb =>
    exact .frame (reservations_of_sync hdb x) (hdb.ord_out x rfl) (hplain.payments x)

/-- An event does to a reservation what its response tells. -/
theorem Coherent.eventAt (h : Coherent d) (cfg : Settings) (e : Event) (x : ℕ) :
    EventAt d x (e.serve cfg d) := by
  cases e with
  | request req env => exact (h.answered cfg env req).eventAt x
  | sweep env =>
    obtain ⟨rs, hnd, hst, ha⟩ := h.sweep cfg env
    exact eventAt_release (Or.inr rfl) hnd hst ha rfl

/-! ### Exactly once -/

/-- The number of orders of the reservation. -/
def Db.ordered (d : Db) (x : ℕ) : ℕ := if (d.orders.get x).isSome then 1 else 0

lemma EventAt.counts {out : List HttpResponse × Db} (h : EventAt d x out) :
    d.ordered x + payments out.1 x = out.2.ordered x := by
  unfold Db.ordered
  cases h with
  | frame hres hord hp => simp [hord, hp]
  | pay hr _ hr' hnone hord hout =>
    simp [hnone, hord, hout, payments, HttpResponse.ok, HttpResponse.order?,
      OrderResponse.modelValidate]
  | release hr _ _ hr' hord hp => simp [hord, hp]

/-- No reservation comes, and none goes. -/
lemma EventAt.opened {out : List HttpResponse × Db} (h : EventAt d x out) :
    (out.2.reservations.get x).isSome = (d.reservations.get x).isSome := by
  cases h with
  | frame hres => rw [hres]
  | pay hr _ hr' => simp [hr, hr']
  | release hr _ _ hr' => simp [hr, hr']

lemma Coherent.counts (h : Coherent d) (cfg : Settings) (es : List Event) (x : ℕ) :
    d.ordered x + payments (traffic cfg d es).1 x = (traffic cfg d es).2.ordered x := by
  induction es generalizing d with
  | nil => simp [traffic, payments]
  | cons e es ih =>
    have hp := (h.eventAt cfg e x).counts
    have ihp := ih ((h.moved cfg e).coherent h)
    rw [traffic, payments_append, ← Nat.add_assoc, hp]
    exact ihp

lemma Coherent.opens_none (h : Coherent d) (cfg : Settings) (es : List Event) (x : ℕ) :
    ((traffic cfg d es).2.reservations.get x).isSome = (d.reservations.get x).isSome :=
  (traffic_keeps (P := fun d' => (d'.reservations.get x).isSome = (d.reservations.get x).isSome) cfg h
    rfl (fun _ e hd hx => (hd.eventAt cfg e x).opened.trans hx) es).2

/-- An order stays as it is. -/
lemma EventAt.order {out : List HttpResponse × Db} (h : EventAt d x out) {o : Order}
    (ho : d.orders.get x = some o) : out.2.orders.get x = some o := by
  cases h with
  | frame _ hord => rw [hord, ho]
  | pay _ _ _ hnone => simp [hnone] at ho
  | release _ _ _ _ hord => rw [hord, ho]

lemma Coherent.keeps_order (h : Coherent d) (cfg : Settings) (es : List Event) {o : Order}
    (ho : d.orders.get x = some o) : (traffic cfg d es).2.orders.get x = some o :=
  (traffic_keeps cfg h ho (fun _ e hd ho => (hd.eventAt cfg e x).order ho) es).2

/-- What is told of an order is what is stored. -/
lemma EventAt.order_told {out : List HttpResponse × Db} (h : EventAt d x out)
    {response : HttpResponse} (hresp : response ∈ out.1) {o : OrderResponse}
    (ho : response.order? = some o) (hx : o.reservationId = x) :
    ∃ order, out.2.orders.get x = some order ∧ o = .modelValidate order := by
  have hcount : payments out.1 x = 0 → False := by
    intro hzero
    have := List.countP_eq_zero.mp hzero response hresp
    simp [ho, hx] at this
  cases h with
  | frame _ _ hp => exact (hcount hp).elim
  | pay _ _ _ _ hord hout =>
    rw [hout, List.mem_singleton] at hresp
    rw [hresp] at ho
    exact ⟨_, hord, (Option.some.inj ho).symm⟩
  | release _ _ _ _ _ hp => exact (hcount hp).elim

/-- What responses tell: of no reservation that is new, and of orders as they are stored. -/
lemma Coherent.responses (h : Coherent d) (cfg : Settings) (es : List Event)
    {response : HttpResponse} (hresp : response ∈ (traffic cfg d es).1) :
    response.created? = none ∧ ∀ o, response.order? = some o → ∃ order,
      (traffic cfg d es).2.orders.get o.reservationId = some order ∧ o = .modelValidate order := by
  induction es generalizing d with
  | nil => cases hresp
  | cons e es ih =>
    have h' := (h.moved cfg e).coherent h
    rcases List.mem_append.mp hresp with hresp | hresp
    · refine ⟨?_, fun o ho => ?_⟩
      · cases e with
        | request req env =>
          rw [List.mem_singleton.mp hresp]
          exact (h.answered cfg env req).created
        | sweep env => cases hresp
      · obtain ⟨order, hord, hval⟩ := (h.eventAt cfg e _).order_told hresp ho rfl
        exact ⟨order, h'.keeps_order cfg es hord, hval⟩
    · exact ih h' hresp

/-- In every state that traffic reaches, a request to settle a reservation is answered by what the
reservation is like: a cancellation never fails, whatever the providers do, and a confirmation fails
only on times that cannot be compared and on a hold that escapes. -/
theorem settlements_answered {steps : List Step} (cfg : Settings) (h0 : Blank d)
    (hs : ∀ s ∈ steps, s.Valid) (es : List Event) (env : Env) :
    (∀ x, ConfirmAnswered cfg env (traffic cfg (runSteps cfg d steps) es).2 x
      (handle cfg env (traffic cfg (runSteps cfg d steps) es).2 (.confirmReservation x))) ∧
    (∀ x, CancelAnswered (traffic cfg (runSteps cfg d steps) es).2 x .noContent
      (handle cfg env (traffic cfg (runSteps cfg d steps) es).2 (.cancelReservation x))) ∧
    ∀ body, PaymentAnswered cfg env (traffic cfg (runSteps cfg d steps) es).2 body
      (handle cfg env (traffic cfg (runSteps cfg d steps) es).2 (.paymentOutcome body)) := by
  have h : Coherent (traffic cfg (runSteps cfg d steps) es).2 :=
    coherent_of_traffic (coherent_of_steps h0.coherent hs) cfg es
  exact ⟨fun x => h.confirm_answered cfg env x, fun x => h.cancel_answered cfg env x _,
    fun body => h.payment_answered cfg env body⟩

/-- The lamps are paid for, so that a cancellation is answered as one of them. -/
theorem settlements_answered_lamps :
    CancelAnswered (traffic quarter (runSteps quarter shop lampsHeld) lampsTraffic).2 1 .noContent
      (handle quarter (calm 7) (traffic quarter (runSteps quarter shop lampsHeld) lampsTraffic).2
        (.cancelReservation 1)) :=
  (settlements_answered quarter shop_blank lampsHeld_valid lampsTraffic (calm 7)).2.1 1

end InventoryReservation
