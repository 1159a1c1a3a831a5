/-
# Specifications of `confirm`, `cancel` and `expire_batch`

Each operation has a relation between its result, the questions it asked and the change it
commits, and one between an exception and the questions asked before it.  Both are proved of
the operation whatever the other transactions do, as long as locks are granted up to date.
-/
import InventoryReservation.Settle

namespace InventoryReservation

open RowTxn ReservationService

variable {env : Env} {R : Rely Db RowKey} {d₀ : Db} {L : List RowKey} {Δ : Change} {s : Sess}
  {H : Held RowOf}

/-- A reservation that was settled: it and its items that are not skipped have a new status. -/
def Reservation.settle (r : Reservation) (skip : ReservationItem → Bool)
    (itemStatus : ProviderItemStatus) (status : ReservationStatus) : Reservation :=
  { r with status := status, items := r.items.map (settled skip itemStatus) }

def Reservation.confirmed (r : Reservation) : Reservation :=
  r.settle (fun _ => false) .confirmed .confirmed

/-- A reservation that was cancelled or has expired. -/
def Reservation.released (r : Reservation) (status : ReservationStatus) : Reservation :=
  r.settle isDone .released status

/-! ### confirm -/

def consumed : List ReservationItem → ℕ → Inventory → Inventory :=
  stockOf (fun _ => false) consume

/-- What `confirm` changes. -/
def confirmChange (x : ℕ) (r : Reservation) : Change :=
  ((Change.nothing.onStock (consumed r.items)).setRes x (some r) r.confirmed).addOrd x
    ⟨x, r.userId, .created⟩

/-- The provider call of `confirm` for an item. -/
def confirmItemTalk (env : Env) (d₀ : Db) (x i : ℕ) (it : ReservationItem) : ProviderTalk Unit :=
  holdTalk (ProviderAdapter.confirmTalk env) isOutage (d₀.providers.get it.providerId) x i it

/-- The provider calls of `confirm`. -/
def confirmTalk (env : Env) (d₀ : Db) (x : ℕ) (r : Reservation) : ProviderTalk Unit :=
  settleTalk (fun _ => false) (confirmItemTalk env d₀ x) r.items 0

/-- The reservation has not expired, as far as times can be compared. -/
def expiryCheck (cfg : Settings) (env : Env) (r : Reservation) : Option Bool :=
  (cfg.driver.load r.expiresAt).lt? (.aware (env (.now 0)))

/-- `confirm` returns an order for a pending reservation that has not expired. -/
inductive Confirms (cfg : Settings) (env : Env) (d₀ : Db) (seen : Db → Prop) (x : ℕ) :
    Order → Trace → Option Change → Prop
  | mk {d : Db} {r : Reservation} (hd : seen d) (hr : d.reservations.get x = some r)
      (hst : r.status = .pending) (hexp : expiryCheck cfg env r = some false)
      (hok : (confirmTalk env d₀ x r).result = .ok ()) :
      Confirms cfg env d₀ seen x ⟨x, r.userId, .created⟩
        (answers env (.now 0 :: (confirmTalk env d₀ x r).asks)) (some (confirmChange x r))

/-- The exceptions of `confirm`. -/
inductive ConfirmRaises (cfg : Settings) (env : Env) (d₀ : Db) (seen : Db → Prop) (x : ℕ) :
    PyErr → Trace → Prop
  | notFound {d : Db} (hd : seen d) (hr : d.reservations.get x = none) :
      ConfirmRaises cfg env d₀ seen x (.reservationNotFound s!"Reservation {x} not found") []
  | status {d : Db} {r : Reservation} (hd : seen d) (hr : d.reservations.get x = some r)
      (hst : r.status ≠ .pending) :
      ConfirmRaises cfg env d₀ seen x (.reservationStateError
        s!"Cannot confirm reservation {x}: status is '{r.status.value}'") []
  | compare {d : Db} {r : Reservation} (hd : seen d) (hr : d.reservations.get x = some r)
      (hst : r.status = .pending) (hexp : expiryCheck cfg env r = none) :
      ConfirmRaises cfg env d₀ seen x
        (.typeError "can't compare offset-naive and offset-aware datetimes")
        (answers env [.now 0])
  | expired {d : Db} {r : Reservation} (hd : seen d) (hr : d.reservations.get x = some r)
      (hst : r.status = .pending) (hexp : expiryCheck cfg env r = some true) :
      ConfirmRaises cfg env d₀ seen x (.reservationStateError
        s!"Cannot confirm reservation {x}: already expired") (answers env [.now 0])
  | duplicate {d d' : Db} {r : Reservation} (hd : seen d) (hr : d.reservations.get x = some r)
      (hst : r.status = .pending) (hexp : expiryCheck cfg env r = some false) (hd' : seen d')
      (ho : d'.orders.get x ≠ none) :
      ConfirmRaises cfg env d₀ seen x
        (.duplicateOrderError s!"Reservation {x} already has an order") (answers env [.now 0])
  | provider {d : Db} {r : Reservation} {e : PyErr} (hd : seen d)
      (hr : d.reservations.get x = some r) (hst : r.status = .pending)
      (hexp : expiryCheck cfg env r = some false)
      (he : (confirmTalk env d₀ x r).result = .error e) :
      ConfirmRaises cfg env d₀ seen x e
        (answers env (.now 0 :: (confirmTalk env d₀ x r).asks))
  | integrity {d d' : Db} {r : Reservation} (hd : seen d) (hr : d.reservations.get x = some r)
      (hst : r.status = .pending) (hexp : expiryCheck cfg env r = some false) (hd' : seen d')
      (ho : d'.orders.get x ≠ none) (hok : (confirmTalk env d₀ x r).result = .ok ()) :
      ConfirmRaises cfg env d₀ seen x .integrityError
        (answers env (.now 0 :: (confirmTalk env d₀ x r).asks))

/-- The loop over all items of a reservation. -/
lemma wp_settleAll {skip : ReservationItem → Bool}
    {step : ReservationItem → Inventory → Inventory}
    {method : Call → String → ProviderAdapter → Svc Bool}
    {talk : Call → String → ProviderAdapter → ProviderTalk Bool} {nonFatal : PyErr → Bool}
    {status : ProviderItemStatus} {x : ℕ} {b : Option Reservation} {c : Reservation}
    (hR : Steady d₀ R)
    (hm : ∀ call holdRef a, (method call holdRef a).Talks env (talk call holdRef a))
    (hw : Work d₀ L Δ s H) (hx : Δ.res x = some (b, c))
    (hL : ∀ it ∈ c.items, .provider it.providerId ∈ L) {P : Unit → Sess → Held RowOf → Prop}
    {E : PyErr → Sess → Held RowOf → Prop}
    (h : Concludes env (settleTalk skip (fun i it =>
        holdTalk talk nonFatal (d₀.providers.get it.providerId) x i it) c.items 0)
      (Work d₀ L ((Δ.onStock (stockOf skip step c.items)).setRes x b
        { c with items := c.items.map (settled skip status) })) s P E) :
    wp R env (settleItems skip step (callHold method nonFatal) status x c.items 0) P E s H :=
  wp_settleItems hR (fun _ _ _ _ _ _ hp ho => callHold_talks hm hp ho) [] hw hx rfl hL h

theorem confirm_meets (hR : Steady d₀ R) (cfg : Settings) (x : ℕ) :
    Meets d₀ R env (confirm cfg x) (Confirms cfg env d₀ R.seen x)
      (ConfirmRaises cfg env d₀ R.seen x) := by
  unfold Meets confirm
  simp only [Prog.bind_eq]
  refine wp_getWithItems hR (fun d hd hr => ?_) fun d r s L hd hr hw hL htr hws hds => ?_
  · exact .notFound hd hr
  simp only
  split
  · next hst =>
    rw [wp, htr]
    exact .status hd hr hst
  next hst =>
  rw [not_not] at hst
  have hw₁ := hw.log (.now 0) (env (.now 0))
  have htr₁ : (s.log (.now 0) (env (.now 0))).trace = answers env [.now 0] := by
    simp [Session.log, htr, answers]
  have hws₁ : (s.log (.now 0) (env (.now 0))).writes = [] := hws
  rw [wp]
  generalize s.log (.now 0) (env (.now 0)) = s₁ at hw₁ htr₁ hws₁
  split
  · next hexp =>
    rw [wp, htr₁]
    exact .compare hd hr hst hexp
  · next hexp =>
    rw [wp, htr₁]
    exact .expired hd hr hst hexp
  next hexp =>
  -- the order is looked for by a plain read of its own, maybe of another database
  simp only [OrderRepository.getByReservationId, Prog.bind]
  intro d' hd'
  rw [Session.own_of_nil hws₁]
  rcases ho : d'.orders.get x with _ | o <;> simp only [ho, Prog.pure_eq, Prog.pure_bind]
  rotate_left
  · show ConfirmRaises cfg env d₀ R.seen x _ s₁.trace
    rw [htr₁]
    exact .duplicate hd hr hst hexp hd' (by simp [ho])
  rw [wp_bind]
  refine wp_settleAll hR (ProviderAdapter.confirmHold_talks env) hw₁ (Change.setRes_res_self _ _ _ _)
    hL ?_
  rw [Concludes]
  have htrace : ∀ s' : Sess, s'.trace = s₁.trace ++ answers env (confirmTalk env d₀ x r).asks →
      s'.trace = answers env (.now 0 :: (confirmTalk env d₀ x r).asks) := by
    intro s' hs'
    rw [hs', htr₁]
    rfl
  split
  rotate_left
  · next e he =>
    intro s' H' hs'
    rw [htrace s' hs']
    exact .provider hd hr hst hexp he
  next hok =>
  intro s' H' hw' hs'
  have hw₂ := (hw'.modifyRes (Change.setRes_res_self _ _ _ _) fun r =>
    { r with status := .confirmed }).insertOrd x rfl ⟨x, r.userId, .created⟩
  rw [Change.onStock_setRes, Change.setRes_setRes, Change.setRes_setRes] at hw₂
  change Work d₀ L (confirmChange x r) _ H' at hw₂
  refine ⟨hw'.ord_free rfl, ?_⟩
  rw [wp_bind]
  -- the flush fails if the order has been made since the read
  refine hw₂.flush hR (fun s'' H'' hw'' htr'' => ?_) fun s'' H'' htr'' hc => ?_
  · refine wp_obj (hw''.ord_val (Change.addOrd_ord_self _ _ _)) ?_
    refine ⟨some (confirmChange x r), ?_, L, hw''⟩
    rw [htrace s'' (by rw [htr'', Session.insert_trace, Session.modify_trace]; exact hs')]
    exact .mk hd hr hst hexp hok
  · rw [htrace s'' (by rw [htr'', Session.insert_trace, Session.modify_trace]; exact hs')]
    rcases hw₂.clash hR hc with ⟨y, c, d₁, hy, -⟩ | ⟨y, o, d₁, hy, hd₁, hy'⟩
    · exfalso
      by_cases hyx : y = x
      · subst hyx
        simp [confirmChange] at hy
      · simp [confirmChange, Change.setRes_res_of_ne _ _ _ hyx, Change.nothing] at hy
    · obtain rfl : y = x := by
        by_contra hyx
        simp [confirmChange, Change.addOrd_ord_of_ne _ _ hyx, Change.nothing] at hy
      exact .integrity hd hr hst hexp hd₁ hy' hok

/-! ### cancel and expire_batch -/

/-- The provider call of `_release_items` for an item. -/
def releaseItemTalk (env : Env) (d₀ : Db) (x i : ℕ) (it : ReservationItem) : ProviderTalk Unit :=
  holdTalk (ProviderAdapter.releaseTalk env) (fun _ => true) (d₀.providers.get it.providerId) x i it

/-- The provider calls for a reservation that is released. -/
def releaseTalk (env : Env) (d₀ : Db) (x : ℕ) (r : Reservation) : ProviderTalk Unit :=
  settleTalk isDone (releaseItemTalk env d₀ x) r.items 0

/-- The reservations of a list are loaded. -/
def loadedChange (rs : List (ℕ × Reservation)) : Change :=
  rs.foldr (fun r Δ => Δ.setRes r.1 (some r.2) r.2) .nothing

/-- One reservation is released. -/
def releaseStep (clamp : ℤ → ℤ) (status : ReservationStatus) (Δ : Change) (r : ℕ × Reservation) :
    Change :=
  (Δ.onStock (stockOf isDone (release clamp) r.2.items)).setRes r.1 (some r.2) (r.2.released status)

/-- What releasing a list of reservations changes. -/
def releaseChange (clamp : ℤ → ℤ) (status : ReservationStatus) (rs : List (ℕ × Reservation)) :
    Change :=
  rs.foldl (releaseStep clamp status) (loadedChange rs)

/-- `cancel` does nothing to a cancelled or expired reservation and releases a pending one. -/
inductive Cancels (env : Env) (d₀ : Db) (seen : Db → Prop) (clamp : ℤ → ℤ) (x : ℕ) :
    Unit → Trace → Option Change → Prop
  | noop {d : Db} {r : Reservation} (hd : seen d) (hr : d.reservations.get x = some r)
      (hst : r.status = .cancelled ∨ r.status = .expired) :
      Cancels env d₀ seen clamp x () [] none
  | release {d : Db} {r : Reservation} (hd : seen d) (hr : d.reservations.get x = some r)
      (hst : r.status = .pending) (hok : (releaseTalk env d₀ x r).result = .ok ()) :
      Cancels env d₀ seen clamp x () (answers env (releaseTalk env d₀ x r).asks)
        (some (releaseChange clamp .cancelled [(x, r)]))

/-- The exceptions of `cancel`. -/
inductive CancelRaises (env : Env) (d₀ : Db) (seen : Db → Prop) (x : ℕ) : PyErr → Trace → Prop
  | notFound {d : Db} (hd : seen d) (hr : d.reservations.get x = none) :
      CancelRaises env d₀ seen x (.reservationNotFound s!"Reservation {x} not found") []
  | status {d : Db} {r : Reservation} (hd : seen d) (hr : d.reservations.get x = some r)
      (hst : r.status = .confirmed) :
      CancelRaises env d₀ seen x (.reservationStateError
        s!"Cannot cancel reservation {x}: status is '{r.status.value}'") []
  | provider {d : Db} {r : Reservation} {e : PyErr} (hd : seen d)
      (hr : d.reservations.get x = some r) (hst : r.status = .pending)
      (he : (releaseTalk env d₀ x r).result = .error e) :
      CancelRaises env d₀ seen x e (answers env (releaseTalk env d₀ x r).asks)

theorem cancel_meets (hR : Steady d₀ R) (clamp : ℤ → ℤ) (x : ℕ) :
    Meets d₀ R env (cancelBy clamp x) (Cancels env d₀ R.seen clamp x)
      (CancelRaises env d₀ R.seen x) := by
  unfold Meets cancelBy
  simp only [Prog.bind_eq]
  refine wp_getWithItems hR (fun d hd hr => ?_) fun d r s L hd hr hw hL htr _ hds => ?_
  · exact .notFound hd hr
  simp only
  split
  · next hst =>
    -- the reservation is released already, and nothing is changed
    refine ⟨none, ?_, hds, fun _ => rfl⟩
    rw [htr]
    exact .noop hd hr hst
  next hst =>
  split
  · next hst' =>
    rw [wp, htr]
    refine .status hd hr ?_
    rcases hs : r.status <;> simp_all
  next hst' =>
  rw [not_not] at hst'
  rw [wp_bind]
  refine wp_settleAll hR (ProviderAdapter.releaseHold_talks env) hw (Change.setRes_res_self _ _ _ _)
    hL ?_
  rw [Concludes]
  split
  · next hok =>
    intro s' H' hw' hs'
    have hw₂ := hw'.modifyRes (Change.setRes_res_self _ _ _ _) fun r =>
      { r with status := .cancelled }
    rw [Change.setRes_setRes] at hw₂
    refine ⟨some (releaseChange clamp .cancelled [(x, r)]), ?_, L, hw₂⟩
    rw [Session.modify_trace, hs', htr]
    exact .release hd hr hst' hok
  · next e he =>
    intro s' H' hs'
    rw [hs', htr]
    exact .provider hd hr hst' he

/-- The provider calls of `expire_batch`. -/
def expireTalk (env : Env) (d₀ : Db) : List (ℕ × Reservation) → ProviderTalk Unit
  | [] => .pure ()
  | (x, r) :: rs => (releaseTalk env d₀ x r).bind fun _ => expireTalk env d₀ rs

/-- The reservations that `get_expired_pending` returns, if the rows in `free` are not locked. -/
def expiredBatch (env : Env) (limit : ℕ) (free : RowKey → Bool) (d : Db) : List RowKey :=
  (((visit (env .scan) (ReservationRepository.expiredPending d (env (.now 0)))).map
    RowKey.reservation).dedup.filter fun k => (RowStore.row d k).isSome && free k).take limit

/-- `expire_batch` releases the reservations of a batch and counts them. -/
inductive Expires (env : Env) (d₀ : Db) (R : Rely Db RowKey) (clamp : ℤ → ℤ) (limit : ℕ) :
    ℕ → Trace → Option Change → Prop
  | mk {d : Db} {free : RowKey → Bool} {rs : List (ℕ × Reservation)} (hd : R.seen d)
      (hfree : R.free free)
      (hrs : rs.map (fun r => RowKey.reservation r.1) = expiredBatch env limit free d)
      (hrow : ∀ r ∈ rs, d.reservations.get r.1 = some r.2)
      (hok : (expireTalk env d₀ rs).result = .ok ()) :
      Expires env d₀ R clamp limit rs.length
        (answers env (.now 0 :: .scan :: (expireTalk env d₀ rs).asks))
        (some (releaseChange clamp .expired rs))

/-- The exceptions of `expire_batch`. -/
inductive ExpireRaises (env : Env) (d₀ : Db) (R : Rely Db RowKey) (limit : ℕ) :
    PyErr → Trace → Prop
  | provider {d : Db} {free : RowKey → Bool} {rs : List (ℕ × Reservation)} {e : PyErr}
      (hd : R.seen d) (hfree : R.free free)
      (hrs : rs.map (fun r => RowKey.reservation r.1) = expiredBatch env limit free d)
      (hrow : ∀ r ∈ rs, d.reservations.get r.1 = some r.2)
      (he : (expireTalk env d₀ rs).result = .error e) :
      ExpireRaises env d₀ R limit e
        (answers env (.now 0 :: .scan :: (expireTalk env d₀ rs).asks))

lemma wp_expireAll (hR : Steady d₀ R) {clamp : ℤ → ℤ} {rs : List (ℕ × Reservation)}
    (hw : Work d₀ L Δ s H) (hx : ∀ r ∈ rs, Δ.res r.1 = some (some r.2, r.2))
    (hnd : (rs.map Prod.fst).Nodup)
    (hL : ∀ r ∈ rs, ∀ it ∈ r.2.items, .provider it.providerId ∈ L)
    {P : Unit → Sess → Held RowOf → Prop} {E : PyErr → Sess → Held RowOf → Prop}
    (h : Concludes env (expireTalk env d₀ rs)
      (Work d₀ L (rs.foldl (releaseStep clamp .expired) Δ)) s P E) :
    wp R env (expireAllBy clamp rs) P E s H := by
  induction rs generalizing Δ s H with
  | nil => exact h s H hw (by simp [expireTalk, Talk.pure])
  | cons r rs ih =>
    obtain ⟨x, r⟩ := r
    rw [List.map_cons, List.nodup_cons] at hnd
    rw [expireAllBy, Prog.bind_eq, wp_bind]
    rw [expireTalk] at h
    refine wp_settleAll hR (ProviderAdapter.releaseHold_talks env) hw (hx (x, r) (by simp))
      (hL (x, r) (by simp)) ?_
    rw [Concludes]
    split
    · next hok =>
      intro s' H' hw' hs'
      have hw₂ := hw'.modifyRes (Change.setRes_res_self _ _ _ _) fun r =>
        { r with status := .expired }
      rw [Change.setRes_setRes] at hw₂
      refine ih hw₂ (fun r' hr' => ?_) hnd.2 (fun r' hr' => hL r' (by simp [hr'])) ?_
      · rw [Change.setRes_res_of_ne]
        · exact hx r' (by simp [hr'])
        · intro hne
          exact hnd.1 (List.mem_map.mpr ⟨r', hr', hne⟩)
      · exact h.of_ok hok (by rw [Session.modify_trace]; exact hs')
    · next e he =>
      intro s' H' hs'
      exact h.of_error he H' hs'

/-- The rows of a list of keys, if they are reservations that exist. -/
lemma exists_rows {d : Db} {ks : List RowKey}
    (h : ∀ k ∈ ks, ∃ x r, k = .reservation x ∧ d.reservations.get x = some r) :
    ∃ rs : List (ℕ × Reservation), rs.map (fun r => RowKey.reservation r.1) = ks ∧
      ∀ r ∈ rs, d.reservations.get r.1 = some r.2 := by
  induction ks with
  | nil => exact ⟨[], rfl, by simp⟩
  | cons k ks ih =>
    obtain ⟨rs, hrs, hrow⟩ := ih fun k' hk' => h k' (List.mem_cons_of_mem _ hk')
    obtain ⟨x, r, rfl, hr⟩ := h k (by simp)
    exact ⟨(x, r) :: rs, by simp [hrs], by simpa [hr] using hrow⟩

lemma wp_objects {rs : List (ℕ × Reservation)}
    (h : ∀ r ∈ rs, s.val (.reservation r.1) = some r.2)
    {P : List (ℕ × Reservation) → Sess → Held RowOf → Prop}
    {E : PyErr → Sess → Held RowOf → Prop} (hP : P rs s H) :
    wp R env (ReservationRepository.objects (rs.map fun r => RowKey.reservation r.1)) P E s H := by
  induction rs generalizing P with
  | nil => exact hP
  | cons r rs ih =>
    rw [List.map_cons, ReservationRepository.objects, Prog.bind_eq, wp_bind]
    refine wp_obj (h r (by simp)) ?_
    rw [Prog.bind_eq, wp_bind]
    exact ih (fun r' hr' => h r' (by simp [hr'])) hP

section Released

variable {clamp : ℤ → ℤ} {status : ReservationStatus} {rs : List (ℕ × Reservation)} {x : ℕ}
  {r : Reservation}

@[simp] lemma loadedChange_stock (rs : List (ℕ × Reservation)) (k : ℕ) :
    (loadedChange rs).stock k = id := by
  induction rs with
  | nil => rfl
  | cons r rs ih => exact ih

@[simp] lemma loadedChange_was (rs : List (ℕ × Reservation)) (k : ℕ) :
    (loadedChange rs).was k = none := by
  induction rs with
  | nil => rfl
  | cons r rs ih => exact ih

@[simp] lemma loadedChange_ord (rs : List (ℕ × Reservation)) (x : ℕ) :
    (loadedChange rs).ord x = none := by
  induction rs with
  | nil => rfl
  | cons r rs ih => exact ih

lemma loadedChange_res_of_mem (hnd : (rs.map Prod.fst).Nodup) (h : (x, r) ∈ rs) :
    (loadedChange rs).res x = some (some r, r) := by
  induction rs with
  | nil => cases h
  | cons r' rs ih =>
    rw [List.map_cons, List.nodup_cons] at hnd
    rw [loadedChange, List.foldr_cons]
    rcases List.mem_cons.mp h with rfl | h
    · exact Change.setRes_res_self _ _ _ _
    · rw [Change.setRes_res_of_ne]
      · exact ih hnd.2 h
      · intro hx
        exact hnd.1 (List.mem_map.mpr ⟨(x, r), h, hx⟩)

lemma loadedChange_res_of_not_mem (h : x ∉ rs.map Prod.fst) : (loadedChange rs).res x = none := by
  induction rs with
  | nil => rfl
  | cons r' rs ih =>
    rw [List.map_cons, List.mem_cons, not_or] at h
    rw [loadedChange, List.foldr_cons, Change.setRes_res_of_ne _ _ _ h.1]
    exact ih h.2

/-- What the release of the reservations does to an inventory row. -/
def releasedStock (clamp : ℤ → ℤ) (rs : List (ℕ × Reservation)) (k : ℕ) (v : Inventory) :
    Inventory :=
  rs.foldl (fun v r => stockOf isDone (release clamp) r.2.items k v) v

lemma foldl_releaseStep_stock (Δ : Change) (k : ℕ) (v : Inventory) :
    (rs.foldl (releaseStep clamp status) Δ).stock k v = releasedStock clamp rs k (Δ.stock k v) := by
  induction rs generalizing Δ with
  | nil => rfl
  | cons r rs ih => exact ih _

lemma foldl_releaseStep_ord (Δ : Change) :
    (rs.foldl (releaseStep clamp status) Δ).ord = Δ.ord := by
  induction rs generalizing Δ with
  | nil => rfl
  | cons r rs ih => exact ih _

lemma foldl_releaseStep_res_of_not_mem (Δ : Change) (h : x ∉ rs.map Prod.fst) :
    (rs.foldl (releaseStep clamp status) Δ).res x = Δ.res x := by
  induction rs generalizing Δ with
  | nil => rfl
  | cons r rs ih =>
    rw [List.map_cons, List.mem_cons, not_or] at h
    rw [List.foldl_cons, ih _ h.2]
    exact Change.setRes_res_of_ne _ _ _ h.1

lemma foldl_releaseStep_res_of_mem (Δ : Change) (hnd : (rs.map Prod.fst).Nodup)
    (h : (x, r) ∈ rs) :
    (rs.foldl (releaseStep clamp status) Δ).res x = some (some r, r.released status) := by
  induction rs generalizing Δ with
  | nil => cases h
  | cons r' rs ih =>
    rw [List.map_cons, List.nodup_cons] at hnd
    rw [List.foldl_cons]
    rcases List.mem_cons.mp h with rfl | h
    · rw [foldl_releaseStep_res_of_not_mem _ hnd.1]
      exact Change.setRes_res_self _ _ _ _
    · exact ih _ hnd.2 h

lemma releaseChange_stock (k : ℕ) (v : Inventory) :
    (releaseChange clamp status rs).stock k v = releasedStock clamp rs k v := by
  rw [releaseChange, foldl_releaseStep_stock, loadedChange_stock]
  rfl

@[simp] lemma releaseChange_ord (x : ℕ) : (releaseChange clamp status rs).ord x = none := by
  rw [releaseChange, foldl_releaseStep_ord, loadedChange_ord]

lemma releaseChange_res_of_mem (hnd : (rs.map Prod.fst).Nodup) (h : (x, r) ∈ rs) :
    (releaseChange clamp status rs).res x = some (some r, r.released status) :=
  foldl_releaseStep_res_of_mem _ hnd h

lemma releaseChange_res_of_not_mem (h : x ∉ rs.map Prod.fst) :
    (releaseChange clamp status rs).res x = none := by
  rw [releaseChange, foldl_releaseStep_res_of_not_mem _ h, loadedChange_res_of_not_mem h]

/-- The reservations that a release changes. -/
lemma mem_of_releaseChange_res {b : Option Reservation} {c : Reservation}
    (hnd : (rs.map Prod.fst).Nodup) (h : (releaseChange clamp status rs).res x = some (b, c)) :
    ∃ r, (x, r) ∈ rs ∧ b = some r ∧ c = r.released status := by
  by_cases hx : x ∈ rs.map Prod.fst
  · obtain ⟨⟨y, r⟩, hr, rfl⟩ := List.mem_map.mp hx
    rw [releaseChange_res_of_mem hnd hr] at h
    cases h
    exact ⟨r, hr, rfl, rfl⟩
  · rw [releaseChange_res_of_not_mem hx] at h
    cases h

end Released

/-- The rows that `get_expired_pending` locks are loaded as they are. -/
lemma prepares_holdAll {d : Db} {rs : List (ℕ × Reservation)} (hnd : (rs.map Prod.fst).Nodup)
    (hrow : ∀ r ∈ rs, d.reservations.get r.1 = some r.2) (ho : s.objs = fun _ => none) {x : ℕ}
    (h : (s.cell (fun _ => none) (.reservation x)).Prepares none) :
    ((s.load (rs.map fun r => .reservation r.1) d).cell
      (Held.holdAll (fun _ => none) (rs.map fun r => .reservation r.1) d) (.reservation x)).Prepares
      ((loadedChange rs).res x) := by
  by_cases hx : x ∈ rs.map Prod.fst
  · obtain ⟨⟨y, r⟩, hr, rfl⟩ := List.mem_map.mp hx
    rw [loadedChange_res_of_mem hnd hr]
    have hy : d.reservations.get y = some r := hrow _ hr
    exact Session.cell_holdAll_of_mem (List.mem_map.mpr ⟨_, hr, rfl⟩) hy (by rw [ho])
  · have hx' : RowKey.reservation x ∉ rs.map fun r => .reservation r.1 := by
      simpa using hx
    rw [Session.cell_holdAll_of_not_mem d hx', loadedChange_res_of_not_mem hx]
    exact h

lemma Work.holdAll (h : Work d₀ [] .nothing s fun _ => none) {d : Db}
    {rs : List (ℕ × Reservation)} (hnd : (rs.map Prod.fst).Nodup)
    (hrow : ∀ r ∈ rs, d.reservations.get r.1 = some r.2) (ho : s.objs = fun _ => none) :
    Work d₀ [] (loadedChange rs) (s.load (rs.map fun r => .reservation r.1) d)
      (Held.holdAll (fun _ => none) (rs.map fun r => .reservation r.1) d) where
  prov p := by
    rw [Session.cell_holdAll_of_not_mem d (by simp)]
    exact h.prov p
  prod p := by
    rw [Session.cell_holdAll_of_not_mem d (by simp)]
    exact h.prod p
  stock k := by
    rw [Session.cell_holdAll_of_not_mem d (by simp), loadedChange_stock, loadedChange_was]
    exact h.stock k
  res x := prepares_holdAll hnd hrow ho (h.res x)
  ord x := by
    rw [Session.cell_holdAll_of_not_mem d (by simp), loadedChange_ord]
    exact h.ord x

lemma expiredBatch_nodup (env : Env) (limit : ℕ) (free : RowKey → Bool) (d : Db) :
    (expiredBatch env limit free d).Nodup :=
  ((List.nodup_dedup _).filter _).sublist (List.take_sublist _ _)

lemma of_mem_expiredBatch {limit : ℕ} {free : RowKey → Bool} {d : Db} {k : RowKey}
    (h : k ∈ expiredBatch env limit free d) : ∃ x r, k = .reservation x ∧
      d.reservations.get x = some r ∧ r.status = .pending ∧ r.expiresAt < env (.now 0) := by
  have := List.mem_of_mem_take h
  simp only [List.mem_filter, List.mem_dedup, List.mem_map, mem_visit,
    ReservationRepository.mem_expiredPending] at this
  obtain ⟨⟨x, ⟨r, hr, hst, hexp⟩, rfl⟩, -⟩ := this
  exact ⟨x, r, rfl, hr, hst, hexp⟩

/-- The reservations of a batch are pending and have expired. -/
lemma expired_of_mem {limit : ℕ} {free : RowKey → Bool} {d : Db} {rs : List (ℕ × Reservation)}
    (hrs : rs.map (fun r => RowKey.reservation r.1) = expiredBatch env limit free d)
    (hrow : ∀ r ∈ rs, d.reservations.get r.1 = some r.2) {x : ℕ} {r : Reservation}
    (h : (x, r) ∈ rs) : d.reservations.get x = some r ∧ r.status = .pending ∧
      r.expiresAt < env (.now 0) := by
  have hk : RowKey.reservation x ∈ expiredBatch env limit free d := by
    rw [← hrs]
    exact List.mem_map.mpr ⟨_, h, rfl⟩
  obtain ⟨y, r', hy, hr', hst, hexp⟩ := of_mem_expiredBatch hk
  cases hy
  have hr : d.reservations.get x = some r := hrow _ h
  obtain rfl : r' = r := Option.some.inj (hr'.symm.trans hr)
  exact ⟨hr, hst, hexp⟩

lemma nodup_of_batch {limit : ℕ} {free : RowKey → Bool} {d : Db} {rs : List (ℕ × Reservation)}
    (hrs : rs.map (fun r => RowKey.reservation r.1) = expiredBatch env limit free d) :
    (rs.map Prod.fst).Nodup := by
  have := expiredBatch_nodup env limit free d
  rw [← hrs, show (fun r : ℕ × Reservation => RowKey.reservation r.1) =
    RowKey.reservation ∘ Prod.fst from rfl, ← List.map_map] at this
  exact this.of_map

theorem expire_meets (hR : Steady d₀ R) (clamp : ℤ → ℤ) (limit : ℕ) :
    Meets d₀ R env (expireBatchBy clamp limit) (Expires env d₀ R clamp limit)
      (ExpireRaises env d₀ R limit) := by
  unfold Meets expireBatchBy ReservationRepository.getExpiredPending
  simp only [Prog.bind_eq, Prog.bind]
  have hw₀ := ((Work.init d₀).log (.now 0) (env (.now 0))).log .scan (env .scan)
  have htr₀ : (((Session.init : Sess).log (.now 0) (env (.now 0))).log .scan (env .scan)).trace =
      answers env [.now 0, .scan] := rfl
  rw [wp, wp]
  generalize hs₀ : ((Session.init : Sess).log (.now 0) (env (.now 0))).log .scan (env .scan) = s₀
    at hw₀ htr₀ ⊢
  have hown : ∀ d : Db, s₀.own d = d := by
    intro d
    rw [← hs₀]
    rfl
  intro d hd
  -- the rows that are free are picked and locked
  refine ⟨fun k _ _ => by rw [← hs₀]; exact List.not_mem_nil, fun free hfree _ => ?_⟩
  rw [hown]
  have hpick : s₀.pick (fun d => (visit (env .scan) (ReservationRepository.expiredPending d
      (env (.now 0)))).map RowKey.reservation) limit d free = expiredBatch env limit free d := by
    rw [Session.pick, hown]
    rfl
  rw [hpick]
  obtain ⟨rs, hrs, hrow⟩ := exists_rows fun k (hk : k ∈ expiredBatch env limit free d) => by
    obtain ⟨x, r, hx, hr, -⟩ := of_mem_expiredBatch hk
    exact ⟨x, r, hx, hr⟩
  have hnd := nodup_of_batch hrs
  have hw := hw₀.holdAll hnd hrow (by rw [← hs₀]; rfl)
  rw [← hrs, wp_bind, wp_bind]
  -- their items and the rows of these are loaded by plain reads
  refine wp_objects (fun r hr => hw.res_val (loadedChange_res_of_mem hnd hr)) ?_
  intro d' hd'
  have hown' : ((s₀.load (rs.map fun r => .reservation r.1) d).own d' : Db) = d' := by
    rw [Session.own_of_writes (Session.load_writes _ _ _), hown]
  rw [hown']
  refine wp_bind.mpr ?_
  refine wp_expireAll hR (hw.load (hR.static d' hd'))
    (fun r hr => loadedChange_res_of_mem hnd hr) hnd (fun r hr it hit => ?_) ?_
  · refine List.mem_append_right _ (List.mem_flatMap.mpr ⟨r, hr, ?_⟩)
    exact provider_mem_itemKeys d' hit
  rw [Concludes]
  have htrace : ∀ s' : Sess, s'.trace = s₀.trace ++ answers env (expireTalk env d₀ rs).asks →
      s'.trace = answers env (.now 0 :: .scan :: (expireTalk env d₀ rs).asks) := by
    intro s' hs'
    rw [hs', htr₀]
    rfl
  simp only [Session.load_trace]
  split
  · next hok =>
    intro s' H' hw' hs'
    refine ⟨some (releaseChange clamp .expired rs), ?_, _, hw'⟩
    rw [htrace s' hs']
    exact .mk hd.1 hfree hrs hrow hok
  · next e he =>
    intro s' H' hs'
    rw [htrace s' hs']
    exact .provider hd.1 hfree hrs hrow he

/-! ### A return excludes an exception -/

section NotRaises

variable {x : ℕ} {seen seen' : Db → Prop} {e : PyErr} {tr tr' : Trace} {Δ : Option Change}

/-- A call that confirms a reservation and one that raises have not seen the same reservation. -/
lemma Confirms.not_raises {cfg : Settings} {o : Order} (h : Confirms cfg env d₀ seen x o tr Δ)
    (h' : ConfirmRaises cfg env d₀ seen' x e tr')
    (hsame : ∀ d d', seen d → seen' d' → d'.reservations.get x = d.reservations.get x)
    (hord : ∀ d r, seen' d → d.reservations.get x = some r → r.status = .pending →
      d.orders.get x = none) : False := by
  cases h with
  | mk hd hr hst hexp hok =>
    have hres := fun d' hd' => (hsame _ d' hd hd').trans hr
    cases h' with
    | notFound hd' hr' =>
      rw [hres _ hd'] at hr'
      cases hr'
    | status hd' hr' hst' =>
      rw [hres _ hd'] at hr'
      cases hr'
      exact hst' hst
    | compare hd' hr' _ hexp' =>
      rw [hres _ hd'] at hr'
      cases hr'
      rw [hexp] at hexp'
      cases hexp'
    | expired hd' hr' _ hexp' =>
      rw [hres _ hd'] at hr'
      cases hr'
      rw [hexp] at hexp'
      cases hexp'
    | duplicate _ _ _ _ hd' ho => exact ho (hord _ _ hd' (hres _ hd') hst)
    | provider hd' hr' _ _ he =>
      rw [hres _ hd'] at hr'
      cases hr'
      rw [hok] at he
      cases he
    | integrity _ _ _ _ hd' ho => exact ho (hord _ _ hd' (hres _ hd') hst)

/-- A call that cancels a reservation and one that raises have not seen the same reservation. -/
lemma Cancels.not_raises {clamp : ℤ → ℤ} (h : Cancels env d₀ seen clamp x () tr Δ)
    (h' : CancelRaises env d₀ seen' x e tr')
    (hsame : ∀ d d', seen d → seen' d' → d'.reservations.get x = d.reservations.get x) : False := by
  cases h with
  | noop hd hr hst =>
    cases h' with
    | notFound hd' hr' =>
      rw [hsame _ _ hd hd', hr] at hr'
      cases hr'
    | status hd' hr' hst' =>
      rw [hsame _ _ hd hd', hr] at hr'
      cases hr'
      rw [hst'] at hst
      rcases hst with hst | hst <;> cases hst
    | provider hd' hr' hst' =>
      rw [hsame _ _ hd hd', hr] at hr'
      cases hr'
      rw [hst'] at hst
      rcases hst with hst | hst <;> cases hst
  | release hd hr hst hok =>
    cases h' with
    | notFound hd' hr' =>
      rw [hsame _ _ hd hd', hr] at hr'
      cases hr'
    | status hd' hr' hst' =>
      rw [hsame _ _ hd hd', hr] at hr'
      cases hr'
      rw [hst] at hst'
      cases hst'
    | provider hd' hr' hst' he =>
      rw [hsame _ _ hd hd', hr] at hr'
      cases hr'
      rw [hok] at he
      cases he

end NotRaises

end InventoryReservation
