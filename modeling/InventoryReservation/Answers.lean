/-
# What a request is answered with

A request is a call of the service, a sync, or a look at the database.  The routers only wrap what
the service returns, so what was proved of a call serves for its request.
-/
import InventoryReservation.Http
import InventoryReservation.Admission
import InventoryReservation.Availability
import InventoryReservation.Confirmation
import InventoryReservation.Release
import InventoryReservation.Selections

namespace InventoryReservation

open RowTxn ReservationService

variable {cfg : Settings} {env : Env} {d d' : Db} {x : ℕ} {r : Reservation} {req : HttpRequest}
  {α : Type}

/-! ### Routes -/

section Route

variable {p : Svc α} {f : Db → α → Except PyErr HttpResponse} {a : α} {e : PyErr}

lemma route_ok (h : (transact env d (p.commit .integrityError)).result = .ok a)
    {response : HttpResponse}
    (hf : f (transact env d (p.commit .integrityError)).db a = .ok response) :
    route env d p f = (response, (transact env d (p.commit .integrityError)).db) := by
  simp only [route, h, Except.bind, hf]

lemma route_undone (h : (transact env d (p.commit .integrityError)).result = .ok a)
    (hf : f (transact env d (p.commit .integrityError)).db a = .error e) :
    route env d p f = (e.response, d) := by
  simp only [route, h, Except.bind, hf]

lemma route_error (h : (transact env d (p.commit .integrityError)).result = .error e) :
    route env d p f = (e.response, d) := by
  simp only [route, h, Except.bind]

end Route

/-- A route ends as the call of the service does whose result is `g` of what the route gets, unless
the response cannot be made. -/
inductive Routed (cfg : Settings) (d : Db) (q : ServiceCall) (g : α → Reply)
    (f : Db → α → Except PyErr HttpResponse) (out : HttpResponse × Db) : Prop
  | returns {a : α} {response : HttpResponse} (hres : (serve cfg d q).result = .ok (g a))
      (hf : f (serve cfg d q).db a = .ok response) (hout : out = (response, (serve cfg d q).db))
  | undone {a : α} {e : PyErr} (hres : (serve cfg d q).result = .ok (g a))
      (hf : f (serve cfg d q).db a = .error e) (hout : out = (e.response, d))
  | raises {e : PyErr} (hres : (serve cfg d q).result = .error e) (hout : out = (e.response, d))

lemma routed {op : Op} {p : Svc α} {g : α → Reply} (h : op.programBy (max 0) cfg = p.wrap g)
    (env : Env) (d : Db) (f : Db → α → Except PyErr HttpResponse) :
    Routed cfg d ⟨op, env⟩ g f (route env d p f) := by
  have hserve : serve cfg d ⟨op, env⟩ = (transact env d (p.commit .integrityError)).wrap g := by
    rw [← transact_wrap, ← h]
    rfl
  rcases hres : (transact env d (p.commit .integrityError)).result with e | a
  · exact .raises (by rw [hserve, Outcome.wrap, hres]; rfl) (route_error hres)
  · have hok : (serve cfg d ⟨op, env⟩).result = .ok (g a) := by
      rw [hserve, Outcome.wrap, hres]
      rfl
    rcases hf : f (transact env d (p.commit .integrityError)).db a with e | response
    · exact .undone hok (by rw [hserve]; exact hf) (route_undone hres hf)
    · refine .returns hok (by rw [hserve]; exact hf) ?_
      rw [hserve, route_ok hres hf]
      rfl

section Routed

variable {q : ServiceCall} {g : α → Reply} {f : Db → α → Except PyErr HttpResponse}
  {out : HttpResponse × Db}

lemma Routed.error (h : Routed cfg d q g f out) {e : PyErr}
    (hres : (serve cfg d q).result = .error e) : out = (e.response, d) := by
  cases h with
  | returns hres' => simp [hres] at hres'
  | undone hres' => simp [hres] at hres'
  | raises hres' hout =>
    obtain rfl := Except.error.inj (hres'.symm.trans hres)
    exact hout

lemma Routed.ok (h : Routed cfg d q g f out) (hg : Function.Injective g) {a : α}
    (hres : (serve cfg d q).result = .ok (g a)) {response : HttpResponse}
    (hf : f (serve cfg d q).db a = .ok response) : out = (response, (serve cfg d q).db) := by
  cases h with
  | returns hres' hf' hout =>
    obtain rfl := hg (Except.ok.inj (hres'.symm.trans hres))
    obtain rfl := Except.ok.inj (hf.symm.trans hf')
    exact hout
  | undone hres' hf' =>
    obtain rfl := hg (Except.ok.inj (hres'.symm.trans hres))
    rw [hf] at hf'
    cases hf'
  | raises hres' => simp [hres] at hres'

lemma Routed.fails (h : Routed cfg d q g f out) (hg : Function.Injective g) {a : α}
    (hres : (serve cfg d q).result = .ok (g a)) {e : PyErr}
    (hf : f (serve cfg d q).db a = .error e) : out = (e.response, d) := by
  cases h with
  | returns hres' hf' =>
    obtain rfl := hg (Except.ok.inj (hres'.symm.trans hres))
    rw [hf] at hf'
    cases hf'
  | undone hres' hf' hout =>
    obtain rfl := hg (Except.ok.inj (hres'.symm.trans hres))
    obtain rfl := Except.error.inj (hf.symm.trans hf')
    exact hout
  | raises hres' => simp [hres] at hres'

end Routed

lemma create_program (cfg : Settings) (userId : String) (items : List CreateItem) :
    (Op.create userId items).programBy (max 0) cfg =
      (create cfg userId items).wrap fun r => .reservation r.1 r.2 := rfl

lemma confirm_program (cfg : Settings) (x : ℕ) :
    (Op.confirm x).programBy (max 0) cfg = (confirm cfg x).wrap .order := rfl

lemma cancel_program (cfg : Settings) (x : ℕ) :
    (Op.cancel x).programBy (max 0) cfg = (cancel x).wrap fun _ => .done := rfl

/-! ### Looks at the database -/

/-- A service that only reads is answered from the database. -/
lemma route_reads {p : Svc α} (hp : p.OnlyReads) (f : Db → α → Except PyErr HttpResponse) :
    (∀ a response, (transact env d p).result = .ok a → f d a = .ok response →
      route env d p f = (response, d)) ∧
    ∀ e, (transact env d p).result = .error e → route env d p f = (e.response, d) := by
  have hcommit : transact env d (p.commit .integrityError) = transact env d p :=
    hp.transact_commit _
  have hdb : (transact env d p).db = d := hp.transact_db
  constructor
  · intro a response ha hf
    have hf' : f (transact env d (p.commit .integrityError)).db a = .ok response := by
      rwa [hcommit, hdb]
    rw [route_ok (hcommit ▸ ha) hf', hcommit, hdb]
  · exact fun e he => route_error (hcommit ▸ he)

lemma onlyReads_getWithItems (x : ℕ) : (ReservationService.getWithItems x).OnlyReads := by
  refine (within_getWithItems x).bind fun r _ => ?_
  cases r <;> trivial

lemma onlyReads_sources (ids : List ℕ) : (InventoryService.sources ids).OnlyReads := by
  induction ids with
  | nil => trivial
  | cons id ids ih =>
    refine Prog.Within.bind (P := fun _ => True) ?_ fun s _ => ?_
    · exact (Prog.Within.of_quiet (quiet_obj _)).bind fun row _ => fun provider => trivial
    · exact Prog.Within.bind ih fun ss _ => trivial

lemma onlyReads_getAvailability (p : ℕ) : (InventoryService.getAvailability p).OnlyReads :=
  fun _ => onlyReads_sources _

/-- The result of `get_with_items`. -/
lemma getWithItems_result (env : Env) (d : Db) (x : ℕ) :
    (∃ r, d.reservations.get x = some r ∧
      (transact env d (ReservationService.getWithItems x)).result = .ok r) ∨
    ∃ e, (d.reservations.get x = none ∧ e = .reservationNotFound s!"Reservation {x} not found") ∧
      (transact env d (ReservationService.getWithItems x)).result = .error e := by
  refine transact_result_of_wp ?_
  refine wp_getWithItems (steady_solo (.refl d)) (fun d' hd hr => ?_)
    fun d' r s L hd hr _ _ _ _ _ => ?_
  · exact ⟨seen_solo hd ▸ hr, rfl⟩
  · exact seen_solo hd ▸ hr

/-- An item with the name of its provider. -/
def ReservationItemResponse.shown (d : Db) (item : ReservationItem) : ReservationItemResponse where
  productId := item.productId
  providerId := item.providerId
  providerName := ((d.providers.get item.providerId).map InventoryProvider.name).getD ""
  qtyRequested := item.qtyRequested
  providerStatus := item.providerStatus
  providerHoldRef := item.providerHoldRef
  providerErrorMessage := item.providerErrorMessage

/-- A reservation as it is shown. -/
def ReservationResponse.shown (cfg : Settings) (d : Db) (id : ℕ) (reservation : Reservation) :
    ReservationResponse where
  id := id
  userId := reservation.userId
  status := reservation.status
  expiresAt := cfg.driver.load reservation.expiresAt
  items := reservation.items.map (ReservationItemResponse.shown d)

/-- A reservation whose items have their providers can be shown. -/
lemma fromReservation_loaded (cfg : Settings) (d : Db) (id : ℕ) (r : Reservation) :
    ReservationResponse.fromReservation cfg id r (fun i => .loaded (d.providers.get i.providerId)) =
      .ok (.shown cfg d id r) := by
  have hitems : ∀ items : List ReservationItem, (items.mapM fun i =>
      ReservationItemResponse.fromItem (.loaded (d.providers.get i.providerId)) i) =
        .ok (items.map (ReservationItemResponse.shown d)) := by
    intro items
    induction items with
    | nil => rfl
    | cons i items ih =>
      rw [List.mapM_cons, ih]
      rfl
  rw [ReservationResponse.fromReservation, hitems]
  rfl

/-- One with an item whose provider is not loaded cannot. -/
lemma fromReservation_lazy (cfg : Settings) (id : ℕ) {r : Reservation} (hr : r.items ≠ []) :
    ReservationResponse.fromReservation cfg id r (fun _ => .lazy) = .error .missingGreenlet := by
  obtain ⟨i, items, hi⟩ := List.exists_cons_of_ne_nil hr
  rw [ReservationResponse.fromReservation, hi, List.mapM_cons]
  rfl

/-- The reservation is shown as it is stored. -/
theorem getReservation_of_some (cfg : Settings) (env : Env) (hr : d.reservations.get x = some r) :
    handle cfg env d (.getReservation x) = (.ok (.reservation (.shown cfg d x r)), d) := by
  rcases getWithItems_result env d x with ⟨r', hr', hres⟩ | ⟨e, ⟨hr', -⟩, -⟩
  · obtain rfl : r = r' := Option.some.inj (hr.symm.trans hr')
    rw [handle, getReservation]
    refine (route_reads (onlyReads_getWithItems x) _).1 r _ hres ?_
    simp only [fromReservation_loaded]
    rfl
  · rw [hr] at hr'
    cases hr'

/-- `Reservation … not found`. -/
def notFound (x : ℕ) : HttpResponse :=
  appErrorHandler .reservationNotFound s!"Reservation {x} not found"

theorem getReservation_of_none (cfg : Settings) (env : Env) (hr : d.reservations.get x = none) :
    handle cfg env d (.getReservation x) = (notFound x, d) := by
  rcases getWithItems_result env d x with ⟨r, hr', -⟩ | ⟨e, ⟨-, rfl⟩, hres⟩
  · rw [hr] at hr'
    cases hr'
  · rw [handle, getReservation]
    exact (route_reads (onlyReads_getWithItems x) _).2 _ hres

/-- The rows of a product are shown as they are stored. -/
theorem getAvailability_answer (cfg : Settings) (env : Env) (d : Db) (p : ℕ) :
    handle cfg env d (.getAvailability p) = (.ok (.availability p (published d p)), d) := by
  rw [handle, getAvailability]
  exact (route_reads (onlyReads_getAvailability p) _).1 _ _ (getAvailability_reports env d p) rfl

/-! ### Confirmations and cancellations -/

lemma PyErr.Unmapped.response {e : PyErr} (h : e.Unmapped) :
    e.response = unhandledExceptionHandler := by
  rcases h with ⟨t, rfl⟩ | ⟨t, rfl⟩ <;> rfl

/-- How a request to confirm a reservation is answered. -/
inductive ConfirmAnswered (cfg : Settings) (env : Env) (d : Db) (x : ℕ) (out : HttpResponse × Db) :
    Prop
  | missing (hr : d.reservations.get x = none) (hout : out = (notFound x, d))
  | settled {r : Reservation} (hr : d.reservations.get x = some r) (hst : r.status ≠ .pending)
      (hout : out = (appErrorHandler .reservationStateError
        s!"Cannot confirm reservation {x}: status is '{r.status.value}'", d))
  | expired {r : Reservation} (hr : d.reservations.get x = some r) (hst : r.status = .pending)
      (hexp : expiryCheck cfg env r = some true)
      (hout : out = (appErrorHandler .reservationStateError
        s!"Cannot confirm reservation {x}: already expired", d))
  | incomparable {r : Reservation} (hr : d.reservations.get x = some r) (hst : r.status = .pending)
      (hexp : expiryCheck cfg env r = none) (hout : out = (unhandledExceptionHandler, d))
  | escaped {r : Reservation} {i : ℕ} {it : ReservationItem} (hr : d.reservations.get x = some r)
      (hst : r.status = .pending) (hexp : expiryCheck cfg env r = some false)
      (hi : r.items[i]? = some it) (hesc : it.Escapes env d x i)
      (hout : out = (unhandledExceptionHandler, d))
  | paid {r : Reservation} (hr : d.reservations.get x = some r) (hst : r.status = .pending)
      (hexp : expiryCheck cfg env r = some false)
      (hall : ∀ (i : ℕ) (it : ReservationItem), r.items[i]? = some it → ¬it.Escapes env d x i)
      (hout : out.1 = .ok (.order (.modelValidate ⟨x, r.userId, .created⟩)))
      (hdb : ∃ ws, (confirmChange x r).Commits d out.2 ws)

lemma Coherent.confirm_answered (h : Coherent d) (cfg : Settings) (env : Env) (x : ℕ) :
    ConfirmAnswered cfg env d x (route env d (confirm cfg x) fun _ order =>
      return .ok (.order (.modelValidate order))) := by
  have hroute := routed (confirm_program cfg x) env d fun _ order =>
    return .ok (.order (OrderResponse.modelValidate order))
  generalize route env d (confirm cfg x) _ = out at hroute ⊢
  cases served (q := ⟨.confirm x, env⟩) trivial cfg d with
  | raises hraises hres hdb =>
    have hout := hroute.error hres
    have h' : ConfirmRaises cfg env d (Rely.solo d : Rely Db RowKey).seen x _ _ := hraises
    generalize (serve cfg d ⟨.confirm x, env⟩).trace = tr at h'
    cases h' with
    | notFound hd hr => exact .missing (seen_solo hd ▸ hr) hout
    | status hd hr hst => exact .settled (seen_solo hd ▸ hr) hst hout
    | compare hd hr hst hexp => exact .incomparable (seen_solo hd ▸ hr) hst hexp hout
    | expired hd hr hst hexp => exact .expired (seen_solo hd ▸ hr) hst hexp hout
    | duplicate hd hr hst _ hd' ho =>
      rw [seen_solo hd] at hr
      rw [seen_solo hd'] at ho
      exact absurd ((h.reservation x _ hr).pending hst).1 ho
    | provider hd hr hst hexp he =>
      rw [seen_solo hd] at hr
      -- the calls raise only if one of the items escapes
      obtain ⟨i, it, hi, hesc⟩ : ∃ (i : ℕ) (it : ReservationItem), _ ∧ it.Escapes env d x i := by
        by_contra hno
        have := (confirmTalk_ok (h.placed x _ hr)).mpr fun i it hi hesc => hno ⟨i, it, hi, hesc⟩
        simp [this] at he
      refine .escaped hr hst hexp hi hesc ?_
      rw [hout, (confirmTalk_error (h.placed x _ hr) he).response]
    | integrity hd hr hst _ hd' ho =>
      rw [seen_solo hd] at hr
      rw [seen_solo hd'] at ho
      exact absurd ((h.reservation x _ hr).pending hst).1 ho
  | same hret =>
    generalize (serve cfg d ⟨.confirm x, env⟩).trace = tr at hret
    obtain ⟨o, -, hs⟩ := hret.confirm
    cases hs
  | @commits a Δ ws hret hres _ hc =>
    generalize (serve cfg d ⟨.confirm x, env⟩).trace = tr at hret
    obtain ⟨o, rfl, hs⟩ := hret.confirm
    cases hs with
    | mk hd hr hst hexp hok =>
      rw [seen_solo hd] at hr
      have hout := hroute.ok (fun _ _ => Reply.order.inj) hres rfl
      have hall := (confirmTalk_ok (h.placed x _ hr)).mp hok
      refine .paid hr hst hexp hall (congrArg Prod.fst hout) ⟨ws, ?_⟩
      rw [hout]
      exact hc

/-- How a request to cancel a reservation is answered, `done` being the answer if it is done. -/
inductive CancelAnswered (d : Db) (x : ℕ) (done : HttpResponse) (out : HttpResponse × Db) : Prop
  | missing (hr : d.reservations.get x = none) (hout : out = (notFound x, d))
  | confirmed {r : Reservation} (hr : d.reservations.get x = some r) (hst : r.status = .confirmed)
      (hout : out = (appErrorHandler .reservationStateError
        s!"Cannot cancel reservation {x}: status is '{r.status.value}'", d))
  | again {r : Reservation} (hr : d.reservations.get x = some r)
      (hst : r.status = .cancelled ∨ r.status = .expired) (hout : out = (done, d))
  | released {r : Reservation} (hr : d.reservations.get x = some r) (hst : r.status = .pending)
      (hout : out.1 = done)
      (hdb : ∃ ws, (releaseChange (max 0) .cancelled [(x, r)]).Commits d out.2 ws)

lemma Coherent.cancel_answered (h : Coherent d) (cfg : Settings) (env : Env) (x : ℕ) (done : HttpResponse) :
    CancelAnswered d x done (route env d (cancel x) fun _ _ => return done) := by
  have hroute := routed (cancel_program cfg x) env d fun _ _ => return done
  generalize route env d (cancel x) _ = out at hroute ⊢
  have hinj : Function.Injective fun _ : Unit => Reply.done := fun _ _ _ => rfl
  cases served (q := ⟨.cancel x, env⟩) trivial cfg d with
  | raises hraises hres hdb =>
    have hout := hroute.error hres
    have h' : CancelRaises env d (Rely.solo d : Rely Db RowKey).seen x _ _ := hraises
    generalize (serve cfg d ⟨.cancel x, env⟩).trace = tr at h'
    cases h' with
    | notFound hd hr => exact .missing (seen_solo hd ▸ hr) hout
    | status hd hr hst => exact .confirmed (seen_solo hd ▸ hr) hst hout
    | provider hd hr hst he =>
      rw [seen_solo hd] at hr
      rw [releaseTalk_ok (h.releasable hr)] at he
      cases he
  | same hret hres hdb =>
    generalize (serve cfg d ⟨.cancel x, env⟩).trace = tr at hret
    obtain ⟨rfl, hs⟩ := hret.cancel
    cases hs with
    | noop hd hr hst =>
      have hout := hroute.ok hinj (a := ()) hres rfl
      rw [hdb] at hout
      exact .again (seen_solo hd ▸ hr) hst hout
  | @commits a Δ ws hret hres _ hc =>
    generalize (serve cfg d ⟨.cancel x, env⟩).trace = tr at hret
    obtain ⟨rfl, hs⟩ := hret.cancel
    cases hs with
    | release hd hr hst =>
      have hout := hroute.ok hinj (a := ()) hres rfl
      refine .released (seen_solo hd ▸ hr) hst (congrArg Prod.fst hout) ⟨ws, ?_⟩
      rw [hout]
      exact hc

/-! ### Creations -/

lemma PreflightRaises.insufficient {seen : Db → Prop} {items : List CreateItem} {i : ℕ} {e : PyErr}
    {qs : List Query} (h : PreflightRaises env seen items i e qs) :
    ∃ detail, e = .insufficientStockError detail := by
  induction h with
  | missing => exact ⟨_, rfl⟩
  | short => exact ⟨_, rfl⟩
  | later _ _ ih => exact ih

/-- How a request to create a reservation is answered: if the service makes the reservation, the
response fails at the first item, and the reservation is undone. -/
inductive CreateAnswered (cfg : Settings) (env : Env) (d : Db) (body : CreateBody)
    (out : HttpResponse × Db) : Prop
  | invalid (hno : ¬body.Satisfies) (hout : out = (validationExceptionHandler body.errors, d))
  | refused {detail : String} (hbody : body.Satisfies)
      (hout : out = (appErrorHandler .insufficientStockError detail, d))
  | failed (hbody : body.Satisfies) (hout : out = (unhandledExceptionHandler, d))
  | undone {request : ReservationCreateRequest} {id : ℕ} {r : Reservation} {tr : Trace} {Δ : Change}
      (hbody : body.validate = .ok request)
      (hr : Creates cfg env d (Rely.solo d) request.userId request.items (id, r) tr (some Δ))
      (hout : out = (unhandledExceptionHandler, d))

lemma PyErr.OfHold.response {e : PyErr} (h : e.OfHold) :
    (∃ detail, e.response = appErrorHandler .insufficientStockError detail) ∨
      e.response = unhandledExceptionHandler := by
  cases h with
  | stock detail => exact Or.inl ⟨detail, rfl⟩
  | _ => exact Or.inr rfl

/-- A new reservation has the items of the request. -/
lemma Creates.items_ne_nil {R : Rely Db RowKey} {userId : String} {items : List CreateItem} {id : ℕ}
    {r : Reservation} {tr : Trace} {Δ : Change}
    (h : Creates cfg env d R userId items (id, r) tr (some Δ)) (hitems : items ≠ []) :
    r.items ≠ [] := by
  cases h with
  | mk hplan _ hok =>
    obtain ⟨hlen, -⟩ := bookTalks_ok.mp hok
    rintro rfl
    rw [List.length_nil] at hlen
    rw [← hplan.items, List.eq_nil_of_length_eq_zero hlen.symm] at hitems
    exact hitems rfl

/-- If the service makes a reservation, there is no response to tell of it. -/
lemma route_create {request : ReservationCreateRequest} {id : ℕ} {tr : Trace} {Δ : Change}
    (hres : (serve cfg d ⟨.create request.userId request.items, env⟩).result =
      .ok (.reservation id r))
    (hs : Creates cfg env d (Rely.solo d) request.userId request.items (id, r) tr (some Δ)) :
    (route env d (create cfg request.userId request.items) fun _ r => do
      let response ← ReservationResponse.fromReservation cfg r.1 r.2 fun _ => .lazy
      return .created (.reservation response)) = (unhandledExceptionHandler, d) := by
  have hne : r.items ≠ [] :=
    hs.items_ne_nil (List.ne_nil_of_length_pos request.items_length.1)
  refine (routed (create_program cfg request.userId request.items) env d _).fails (a := (id, r))
    (fun r r' h => ?_) hres (e := .missingGreenlet) ?_
  · obtain ⟨hid, hr⟩ := Reply.reservation.inj h
    exact Prod.ext hid hr
  · simp only [fromReservation_lazy cfg id hne]
    rfl

lemma create_answered (cfg : Settings) (env : Env) (d : Db) (body : CreateBody) :
    CreateAnswered cfg env d body (createReservation cfg env d body) := by
  unfold createReservation
  rcases hval : body.validate with errors | request
  · obtain ⟨hne, rfl⟩ := CreateBody.validate_error hval
    exact .invalid (fun hs => hne (CreateBody.errors_eq_nil.mpr hs)) rfl
  have hbody := CreateBody.satisfies_of_validate hval
  simp only
  have hop : (ServiceCall.mk (.create request.userId request.items) env).op.Distinct :=
    request.noDuplicateProducts
  cases served hop cfg d with
  | raises hraises hres hdb =>
    have hout := (routed (create_program cfg request.userId request.items) env d fun _ r => do
      let response ← ReservationResponse.fromReservation cfg r.1 r.2 fun _ => .lazy
      return .created (.reservation response)).error hres
    generalize (serve cfg d ⟨.create request.userId request.items, env⟩).trace = tr at hraises
    cases hraises with
    | preflight h =>
      obtain ⟨detail, rfl⟩ := h.insufficient
      exact .refused hbody hout
    | lock _ ho h => exact (ho.not_lock h).elim
    | provider _ _ he =>
      rcases (bookTalks_error he).response with ⟨detail, he⟩ | he
      · exact .refused hbody (he ▸ hout)
      · exact .failed hbody (he ▸ hout)
    | integrity hid hd hr => exact .failed hbody hout
  | same hret =>
    generalize (serve cfg d ⟨.create request.userId request.items, env⟩).trace = tr at hret
    obtain ⟨id, r, -, hs⟩ := hret.create
    cases hs
  | @commits a Δ ws hret hres _ hc =>
    generalize (serve cfg d ⟨.create request.userId request.items, env⟩).trace = tr at hret
    obtain ⟨id, r, rfl, hs⟩ := hret.create
    exact .undone hval hs (route_create hres hs)

/-- A request whose reservation the service would make is answered 500, and nothing is made. -/
theorem createReservation_of_ok {body : CreateBody} {request : ReservationCreateRequest} {a : Reply}
    (hval : body.validate = .ok request)
    (hres : (serve cfg d ⟨.create request.userId request.items, env⟩).result = .ok a) :
    createReservation cfg env d body = (unhandledExceptionHandler, d) := by
  have hop : (ServiceCall.mk (.create request.userId request.items) env).op.Distinct :=
    request.noDuplicateProducts
  rw [createReservation, hval]
  cases served hop cfg d with
  | raises _ hres' => simp [hres] at hres'
  | same hret =>
    generalize (serve cfg d ⟨.create request.userId request.items, env⟩).trace = tr at hret
    obtain ⟨id, r, -, hs⟩ := hret.create
    cases hs
  | @commits a Δ ws hret hres' _ hc =>
    generalize (serve cfg d ⟨.create request.userId request.items, env⟩).trace = tr at hret
    obtain ⟨id, r, rfl, hs⟩ := hret.create
    exact route_create hres' hs

/-! ### Syncs -/

/-- How a request to sync is answered. -/
inductive SyncAnswered (env : Env) (d : Db) (pid : ℕ) (out : HttpResponse × Db) : Prop
  | failed {e : PyErr} (he : SyncRaises env d (· = d) pid e) (hout : out = (e.response, d))
  | synced {report : SyncReport} {f : ℕ → Option (ℤ × ℤ)} (hs : Syncs env d (· = d) pid report f)
      (hout : out.1 = .ok (.sync (.ofReport report)))
      (hdb : ∃ ws, (syncChange f).Commits d out.2 ws)

lemma sync_answered (env : Env) (d : Db) (pid : ℕ) :
    SyncAnswered env d pid (syncProvider env d pid) := by
  rcases sync_transact env (.refl d) pid with ⟨report, f, ws, hs, hres, hc⟩ | ⟨e, he, hres, hdb⟩
  · have hout : syncProvider env d pid =
        (.ok (.sync (.ofReport report)), (transact env d (syncTransaction pid)).db) :=
      route_ok hres rfl
    refine .synced hs (congrArg Prod.fst hout) ⟨ws, ?_⟩
    rw [hout]
    exact hc
  · exact .failed he (route_error hres)

/-! ### All requests -/

namespace HttpResponse

/-- The reservation that a response tells to be new. -/
def created? : HttpResponse → Option ReservationResponse
  | ⟨201, .success _ _ (.reservation r)⟩ => some r
  | _ => none

/-- The order that a response tells of. -/
def order? : HttpResponse → Option OrderResponse
  | ⟨_, .success _ _ (.order o)⟩ => some o
  | _ => none

/-- A response that tells of no new reservation and of no order. -/
structure Plain (response : HttpResponse) : Prop where
  created : response.created? = none
  order : response.order? = none

end HttpResponse

/-- What a request does, and what its response tells. -/
inductive Answered (d : Db) (out : HttpResponse × Db) : Prop
  | unchanged (hplain : out.1.Plain) (hdb : out.2 = d)
  | paid {x : ℕ} {r : Reservation} (hst : r.status = .pending)
      (hout : out.1 = .ok (.order (.modelValidate ⟨x, r.userId, .created⟩)))
      (hdb : (confirmChange x r).Applies d out.2)
  | released {x : ℕ} {r : Reservation} (hst : r.status = .pending) (hplain : out.1.Plain)
      (hok : out.1.status < 400) (hdb : (releaseChange (max 0) .cancelled [(x, r)]).Applies d out.2)
  | synced {f : ℕ → Option (ℤ × ℤ)} (hplain : out.1.Plain) (hok : out.1.status < 400)
      (hdb : (syncChange f).Applies d out.2)

section Plain

variable {out : HttpResponse × Db}

lemma plain_unhandled : unhandledExceptionHandler.Plain := ⟨rfl, rfl⟩

lemma plain_app (type : AppError) (detail : String) : (appErrorHandler type detail).Plain := by
  constructor
  · unfold appErrorHandler HttpResponse.created?
    simp
  · rfl

lemma plain_response (e : PyErr) : e.response.Plain := by
  unfold PyErr.response
  split
  · exact plain_app _ _
  · exact plain_unhandled

lemma plain_validation (errors : List ErrorDetail) : (validationExceptionHandler errors).Plain :=
  ⟨rfl, rfl⟩

lemma ConfirmAnswered.answered {x : ℕ} (h : ConfirmAnswered cfg env d x out) :
    Answered d out := by
  cases h with
  | paid _ hst _ _ hout hdb =>
    obtain ⟨ws, hc⟩ := hdb
    exact .paid hst hout hc.toApplies
  | missing _ hout => exact .unchanged (hout ▸ plain_app _ _) (hout ▸ rfl)
  | settled _ _ hout => exact .unchanged (hout ▸ plain_app _ _) (hout ▸ rfl)
  | expired _ _ _ hout => exact .unchanged (hout ▸ plain_app _ _) (hout ▸ rfl)
  | incomparable _ _ _ hout => exact .unchanged (hout ▸ plain_unhandled) (hout ▸ rfl)
  | escaped _ _ _ _ _ hout => exact .unchanged (hout ▸ plain_unhandled) (hout ▸ rfl)

lemma CancelAnswered.answered {x : ℕ} {done : HttpResponse} (h : CancelAnswered d x done out)
    (hplain : done.Plain) (hok : done.status < 400) : Answered d out := by
  cases h with
  | missing _ hout => exact .unchanged (hout ▸ plain_app _ _) (hout ▸ rfl)
  | confirmed _ _ hout => exact .unchanged (hout ▸ plain_app _ _) (hout ▸ rfl)
  | again _ _ hout => exact .unchanged (hout ▸ hplain) (hout ▸ rfl)
  | released _ hst hout hdb =>
    obtain ⟨ws, hc⟩ := hdb
    exact .released hst (hout ▸ hplain) (hout ▸ hok) hc.toApplies

/-- A request to create a reservation changes nothing. -/
lemma CreateAnswered.unchanged {body : CreateBody} (h : CreateAnswered cfg env d body out) :
    out.1.Plain ∧ out.2 = d := by
  cases h with
  | invalid _ hout => exact ⟨hout ▸ plain_validation _, hout ▸ rfl⟩
  | refused _ hout => exact ⟨hout ▸ plain_app _ _, hout ▸ rfl⟩
  | failed _ hout => exact ⟨hout ▸ plain_unhandled, hout ▸ rfl⟩
  | undone _ _ hout => exact ⟨hout ▸ plain_unhandled, hout ▸ rfl⟩

lemma CreateAnswered.answered {body : CreateBody} (h : CreateAnswered cfg env d body out) :
    Answered d out :=
  .unchanged h.unchanged.1 h.unchanged.2

lemma SyncAnswered.answered {pid : ℕ} (h : SyncAnswered env d pid out) :
    Answered d out := by
  cases h with
  | failed _ hout => exact .unchanged (hout ▸ plain_response _) (hout ▸ rfl)
  | synced _ hout hdb =>
    obtain ⟨ws, hc⟩ := hdb
    exact .synced (hout ▸ ⟨rfl, rfl⟩) (hout ▸ show 200 < 400 by omega) hc.toApplies

end Plain

/-- How a payment event is answered. -/
inductive PaymentAnswered (cfg : Settings) (env : Env) (d : Db) (body : PaymentBody)
    (out : HttpResponse × Db) : Prop
  | invalid {errors : List ErrorDetail} (hbody : body.validate = .error errors)
      (hout : out = (validationExceptionHandler errors, d))
  | success {request : PaymentOutcomeRequest} (hbody : body.validate = .ok request)
      (hs : request.outcome = .success) (h : ConfirmAnswered cfg env d request.reservationId out)
  | failed {request : PaymentOutcomeRequest} (hbody : body.validate = .ok request)
      (hs : request.outcome = .failed)
      (h : CancelAnswered d request.reservationId (.ok (.cancelled request.reservationId)) out)

lemma Coherent.payment_answered (h : Coherent d) (cfg : Settings) (env : Env)
    (body : PaymentBody) : PaymentAnswered cfg env d body (postPaymentOutcome cfg env d body) := by
  unfold postPaymentOutcome
  rcases hval : body.validate with errors | request
  · exact .invalid hval rfl
  rcases hs : request.outcome with _ | _
  · simp only [hs]
    exact .success hval hs (h.confirm_answered cfg env _)
  · simp only [hs]
    exact .failed hval hs (h.cancel_answered cfg env _ _)

/-- Every request changes the database in one of the ways of the service or not at all, and its
response tells of it. -/
theorem Coherent.answered (h : Coherent d) (cfg : Settings) (env : Env) (req : HttpRequest) :
    Answered d (handle cfg env d req) := by
  cases req with
  | createReservation body => exact (create_answered cfg env d body).answered
  | getReservation x =>
    rcases hr : d.reservations.get x with _ | r
    · rw [getReservation_of_none cfg env hr]
      exact .unchanged (plain_app _ _) rfl
    · rw [getReservation_of_some cfg env hr]
      exact .unchanged ⟨rfl, rfl⟩ rfl
  | confirmReservation x => exact (h.confirm_answered cfg env x).answered
  | cancelReservation x =>
    exact (h.cancel_answered cfg env x .noContent).answered ⟨rfl, rfl⟩ (by decide)
  | paymentOutcome body =>
    cases h.payment_answered cfg env body with
    | invalid _ hout =>
      rw [handle, hout]
      exact .unchanged (plain_validation _) rfl
    | success _ _ h => exact h.answered
    | failed _ _ h => exact h.answered ⟨rfl, rfl⟩ (show 200 < 400 by omega)
  | getAvailability p =>
    rw [getAvailability_answer]
    exact .unchanged ⟨rfl, rfl⟩ rfl
  | syncProvider pid => exact (sync_answered env d pid).answered

end InventoryReservation
