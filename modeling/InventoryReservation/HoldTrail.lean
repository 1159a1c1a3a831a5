/-
# The trail of a hold

A hold is named by the reference in the provider's reply.  The service stores the reference with
the item and names it in later requests.  The invariant keeps the trace of all requests so far
beside the database: every stored reference has its reply in the trace.
-/
import InventoryReservation.HoldUse

namespace InventoryReservation

open RowTxn ReservationService

variable {cfg : Settings} {env : Env} {d d' d₀ : Db} {x i : ℕ} {r : Reservation}
  {it : ReservationItem} {items : List ReservationItem} {tr tr' : Trace} {w : Σ q, Answer q}
  {q : ServiceCall} {qs : List ServiceCall} {ref : String} {a : ExternalHttpProviderAdapter}

/-! ### What was granted -/

/-- The item is on an external provider with the adapter. -/
def ReservationItem.On (d : Db) (it : ReservationItem) (a : ExternalHttpProviderAdapter) : Prop :=
  ∃ p, d.providers.get it.providerId = some p ∧ p.type = .external ∧
    ExternalHttpProviderAdapter.new p = .ok a

/-- The provider was asked to hold the units of the item, and has replied with the reference. -/
def ReservationItem.Granted (d : Db) (tr : Trace) (x i : ℕ) (it : ReservationItem)
    (a : ExternalHttpProviderAdapter) (ref : String) : Prop :=
  ∃ product out, d.products.get it.productId = some product ∧
    ⟨.http (.item x i) (a.holdRequest product.sku it.qtyRequested x), out⟩ ∈ tr ∧
    HttpOutcome.granted out = some ref

/-- What the trace tells of an item. -/
structure ReservationItem.Trailed (d : Db) (tr : Trace) (x i : ℕ) (it : ReservationItem) :
    Prop where
  failed : it.providerStatus = .providerFailed → it.providerHoldRef = none
  granted : ∀ a ref, it.providerHoldRef = some ref → it.On d a → it.Granted d tr x i a ref

/-- Every stored reference has its reply in the trace. -/
def Trailed (d : Db) (tr : Trace) : Prop :=
  ∀ x r, d.reservations.get x = some r → ∀ (i : ℕ) it, r.items[i]? = some it →
    it.Trailed d tr x i

lemma ReservationItem.Trailed.mono (h : it.Trailed d tr x i) (hs : tr ⊆ tr') :
    it.Trailed d tr' x i where
  failed := h.failed
  granted a ref href ha := by
    obtain ⟨product, out, hp, hmem, hout⟩ := h.granted a ref href ha
    exact ⟨product, out, hp, hs hmem, hout⟩

lemma ReservationItem.Trailed.static (h : it.Trailed d tr x i) (hd : Static d d') :
    it.Trailed d' tr x i where
  failed := h.failed
  granted a ref href := by
    rintro ⟨p, hp, ha⟩
    obtain ⟨product, out, hprod, hout⟩ := h.granted a ref href ⟨p, hd.providers ▸ hp, ha⟩
    exact ⟨product, out, hd.products ▸ hprod, hout⟩

/-- A new status leaves the reference where it is. -/
lemma ReservationItem.Trailed.settle {skip : ReservationItem → Bool} {status : ProviderItemStatus}
    (h : it.Trailed d tr x i) (hs : status ≠ .providerFailed) :
    (settled skip status it).Trailed d tr x i := by
  unfold settled
  split
  · exact h
  · exact ⟨fun hst => absurd hst hs, h.granted⟩

lemma granted_of_holdReply {sku : String} {out : HttpOutcome}
    (h : ExternalHttpProviderAdapter.holdReply sku out = .ok (some ref)) :
    out.granted = some ref := by
  cases out with
  | timeout => cases h
  | error => cases h
  | response r =>
    simp only [ExternalHttpProviderAdapter.holdReply,
      ExternalHttpProviderAdapter.raiseForStatus] at h
    split at h
    · split at h <;> cases h
    · by_cases hs : r.isSuccess
      · simp only [hs, if_true, bind, Except.bind] at h
        split at h <;> cases h
        next hb => simp [HttpOutcome.granted, hs, hb]
      · simp [hs, bind, Except.bind] at h

lemma Booking.trailed_of_adapterTalk {b : Booking} {p : InventoryProvider} {e : ProviderAdapter}
    {ri : ReservationItem} (hprod : b.row.productId = b.item.productId)
    (hp : d.providers.get b.row.providerId = some p)
    (he : ProviderRegistry.resolve p (some b.id) = .ok e)
    (h : (b.adapterTalk env d x i e).result = .ok ri) :
    ri.Trailed d (answers env (b.adapterTalk env d x i e).asks) x i := by
  unfold adapterTalk at h ⊢
  rcases hpr : d.products.get b.row.productId with _ | product <;> simp only [hpr] at h ⊢
  · cases h
  rw [Talk.handle_ok] at h
  rcases h with h | ⟨err, -, h⟩
  · obtain ⟨ref, hhold, h⟩ := Talk.bind_ok.mp h
    obtain rfl : b.heldItem ref = ri := by simpa using h
    refine ⟨fun hst => (by cases hst), fun a ref' href hat => ?_⟩
    obtain ⟨p', hp', ht, ha⟩ := hat
    obtain rfl : ref = some ref' := href
    obtain rfl : p = p' := Option.some.inj (hp.symm.trans hp')
    have hres : ProviderRegistry.resolve p (some b.id) = .ok (.external a) := by
      simp [ProviderRegistry.resolve, ht, ha]
    obtain rfl : e = .external a := Except.ok.inj (he.symm.trans hres)
    refine ⟨product, env (.http (.item x i) (a.holdRequest product.sku b.item.qty x)), ?_,
      mem_answers.mpr ⟨?_, rfl⟩, ?_⟩
    · rw [← hpr, hprod]
      rfl
    · refine Talk.mem_handle_asks.mpr (Or.inl (Talk.mem_bind_asks.mpr (Or.inl ?_)))
      obtain ⟨⟨⟩, hcap, -⟩ := Talk.bind_ok.mp hhold
      exact Talk.mem_bind_asks.mpr (Or.inr ⟨(), hcap, List.mem_singleton.mpr rfl⟩)
    · obtain ⟨⟨⟩, -, hreply⟩ := Talk.bind_ok.mp hhold
      exact granted_of_holdReply hreply
  · obtain ⟨exc, rfl⟩ : ∃ exc, b.failedItem exc = ri := by
      cases err with
      | providerTimeout exc => exact ⟨exc, by simpa [refused] using h⟩
      | providerUnavailable exc => exact ⟨exc, by simpa [refused] using h⟩
      | _ => simp [refused] at h
    exact ⟨fun _ => rfl, fun a ref' href => (by cases href)⟩

/-- An item that was booked. -/
lemma Booking.trailed_of_talk {b : Booking} {ri : ReservationItem}
    (hprod : b.row.productId = b.item.productId) (h : (b.talk env d x i).result = .ok ri) :
    ri.Trailed d (answers env (b.talk env d x i).asks) x i := by
  unfold talk at h ⊢
  rcases hp : d.providers.get b.row.providerId with _ | p <;> simp only [hp] at h ⊢
  · cases h
  · obtain ⟨e, he, h⟩ := Talk.bind_ok.mp h
    refine (trailed_of_adapterTalk hprod hp he h).mono fun w hw => ?_
    obtain ⟨q, hq, rfl⟩ := List.mem_map.mp hw
    exact mem_answers.mpr ⟨Talk.mem_bind_asks.mpr (Or.inr ⟨e, he, hq⟩), rfl⟩

lemma trailed_of_bookTalks {plan : List Booking} {ris : List ReservationItem}
    (hprod : ∀ b ∈ plan, b.row.productId = b.item.productId)
    (h : (bookTalks env d x plan i).result = .ok ris) :
    ∀ (j : ℕ) ri, ris[j]? = some ri →
      ri.Trailed d (answers env (bookTalks env d x plan i).asks) x (i + j) := by
  induction plan generalizing i ris with
  | nil =>
    obtain rfl : [] = ris := by simpa [bookTalks] using h
    simp
  | cons b plan ih =>
    rw [bookTalks] at h ⊢
    obtain ⟨ri, hri, h⟩ := Talk.bind_ok.mp h
    obtain ⟨ris', hris, h⟩ := Talk.bind_ok.mp h
    obtain rfl : ri :: ris' = ris := by simpa using h
    rintro (_ | j) ri' hj
    · obtain rfl : ri = ri' := by simpa using hj
      refine (Booking.trailed_of_talk (hprod b (by simp)) hri).mono fun w hw => ?_
      obtain ⟨q, hq, rfl⟩ := List.mem_map.mp hw
      exact mem_answers.mpr ⟨Talk.mem_bind_asks.mpr (Or.inl hq), rfl⟩
    · have hlater := ih (fun b' hb' => hprod b' (by simp [hb'])) hris j ri' (by simpa using hj)
      rw [show i + (j + 1) = i + 1 + j by omega]
      refine hlater.mono fun w hw => ?_
      obtain ⟨q, hq, rfl⟩ := List.mem_map.mp hw
      exact mem_answers.mpr ⟨Talk.mem_bind_asks.mpr (Or.inr ⟨ri, hri, Talk.mem_bind_asks.mpr
        (Or.inl hq)⟩), rfl⟩

/-! ### What is asked about a hold -/

/-- The request names the reference of the item. -/
lemma holdTalk_asks {method : Call → String → ProviderAdapter → ProviderTalk Bool}
    {nonFatal : PyErr → Bool} (hplaced : it.Placed d) {q : Query}
    (h : q ∈ (holdTalk method nonFatal (d.providers.get it.providerId) x i it).asks) :
    ∃ a ref, it.HeldAt d a ref ∧ q ∈ (method (.item x i) ref (.external a)).asks := by
  unfold holdTalk at h
  split at h
  · next ref hst href =>
    obtain ⟨p, hp, ht, a, ha⟩ := hplaced.ref (by simp [href])
    have hres : ProviderRegistry.resolve p none = .ok (.external a) := by
      simp [ProviderRegistry.resolve, ht, ha]
    simp only [hp, hres, Talk.ofExcept] at h
    simp only [Talk.bind, List.nil_append] at h
    refine ⟨a, ref, ⟨hst, href, p, hp, ht, ha⟩, ?_⟩
    rcases Talk.mem_handle_asks.mp h with h | ⟨e, -, h⟩
    · rcases Talk.mem_bind_asks.mp h with h | ⟨_, -, h⟩
      · exact h
      · simp at h
    · split at h <;> simp at h
  · simp at h

lemma settleTalk_asks {skip : ReservationItem → Bool}
    {talk : ℕ → ReservationItem → ProviderTalk Unit} {q : Query}
    (h : q ∈ (settleTalk skip talk items i).asks) :
    ∃ (j : ℕ) (it : ReservationItem), items[j]? = some it ∧ q ∈ (talk (i + j) it).asks := by
  induction items generalizing i with
  | nil => simp [settleTalk] at h
  | cons it items ih =>
    have hlater : q ∈ (settleTalk skip talk items (i + 1)).asks →
        ∃ (j : ℕ) (it' : ReservationItem), (it :: items)[j]? = some it' ∧
          q ∈ (talk (i + j) it').asks := by
      intro h
      obtain ⟨j, it', hj, h⟩ := ih h
      exact ⟨j + 1, it', by simpa using hj, by rwa [show i + (j + 1) = i + 1 + j by omega]⟩
    rw [settleTalk] at h
    split at h
    · exact hlater h
    · rcases Talk.mem_bind_asks.mp h with h | ⟨_, -, h⟩
      · exact ⟨0, it, rfl, h⟩
      · exact hlater h

/-- The request names the hold of an item: it asks to consume or to release it. -/
def Query.Names (d : Db) (x i : ℕ) (it : ReservationItem) (q : Query) : Prop :=
  ∃ a ref, it.HeldAt d a ref ∧
    (q = .http (.item x i) (a.confirmRequest ref) ∨ q = .http (.item x i) (a.releaseRequest ref))

lemma names_of_confirmTalk (hplaced : ∀ it ∈ r.items, it.Placed d) {q : Query}
    (h : q ∈ (confirmTalk env d x r).asks) :
    ∃ (i : ℕ) (it : ReservationItem), r.items[i]? = some it ∧ q.Names d x i it := by
  obtain ⟨i, it, hi, h⟩ := settleTalk_asks h
  obtain ⟨a, ref, hat, h⟩ := holdTalk_asks (hplaced it (List.mem_of_getElem? hi)) h
  refine ⟨i, it, hi, a, ref, hat, Or.inl ?_⟩
  rw [← Nat.zero_add i]
  exact mem_talkWith_asks h

lemma names_of_releaseTalk (hplaced : ∀ it ∈ r.items, it.Placed d) {q : Query}
    (h : q ∈ (releaseTalk env d x r).asks) :
    ∃ (i : ℕ) (it : ReservationItem), r.items[i]? = some it ∧ q.Names d x i it := by
  obtain ⟨i, it, hi, h⟩ := settleTalk_asks h
  obtain ⟨a, ref, hat, h⟩ := holdTalk_asks (hplaced it (List.mem_of_getElem? hi)) h
  refine ⟨i, it, hi, a, ref, hat, Or.inr ?_⟩
  rw [← Nat.zero_add i]
  exact mem_talkWith_asks h

lemma expireTalk_asks {rs : List (ℕ × Reservation)} {q : Query}
    (h : q ∈ (expireTalk env d rs).asks) : ∃ r ∈ rs, q ∈ (releaseTalk env d r.1 r.2).asks := by
  induction rs with
  | nil => simp [expireTalk] at h
  | cons r rs ih =>
    rcases Talk.mem_bind_asks.mp h with h | ⟨_, -, h⟩
    · exact ⟨r, List.mem_cons_self, h⟩
    · obtain ⟨r', hr', h⟩ := ih h
      exact ⟨r', List.mem_cons_of_mem _ hr', h⟩

/-- What a call says of a hold is about an item of a pending reservation. -/
lemma serve_names (hcoh : Coherent d) (hop : q.op.Distinct) (hw : w ∈ (serve cfg d q).trace)
    (hc : w.1.Calls .confirm x i ∨ w.1.Calls .release x i) :
    ∃ r it, d.reservations.get x = some r ∧ r.items[i]? = some it ∧ w.1.Names d x i it := by
  -- the item of the request is the item of the call
  have hitem : ∀ {y r}, d.reservations.get y = some r →
      (∃ (j : ℕ) (it : ReservationItem), r.items[j]? = some it ∧ w.1.Names d y j it) →
      ∃ r it, d.reservations.get x = some r ∧ r.items[i]? = some it ∧ w.1.Names d x i it := by
    rintro y r hr ⟨j, it, hj, a, ref, hat, hor⟩
    have hcall : ∃ kind, w.1.Calls kind y j := by
      rcases hor with hor | hor
      · exact ⟨.confirm, _, hor, rfl⟩
      · exact ⟨.release, _, hor, rfl⟩
    obtain ⟨kind, hcall⟩ := hcall
    obtain ⟨rfl, rfl⟩ : x = y ∧ i = j := by
      rcases hc with hc | hc
      · exact (hc.unique hcall).2
      · exact (hc.unique hcall).2
    exact ⟨r, it, hr, hj, a, ref, hat, hor⟩
  have hplain : w.1.Plain → False := fun hp => by
    rcases hc with hc | hc <;> exact hp _ _ _ hc
  have hret : ∀ {a Δ}, q.op.Returns (max 0) cfg q.env d (Rely.solo d) a (serve cfg d q).trace Δ →
      ∃ r it, d.reservations.get x = some r ∧ r.items[i]? = some it ∧ w.1.Names d x i it := by
    intro a Δ h
    generalize (serve cfg d q).trace = tr at h hw
    cases h.does with
    | create _ _ hs =>
      cases hs with
      | mk =>
        exfalso
        rcases hc with hc | hc <;> exact nomatch (calls_of_hold hw hc).1
    | @confirm y o _ _ hs =>
      cases hs with
      | @mk d' r hd hr =>
        rw [seen_solo hd] at hr
        have hq : w.1 ∈ (confirmTalk q.env d y r).asks := by
          rcases hc with hc | hc <;> exact calls_of_now_cons hw hc
        exact hitem hr (names_of_confirmTalk (hcoh.placed _ _ hr) hq)
    | cancel _ _ hs =>
      cases hs with
      | noop => cases hw
      | release hd hr =>
        rw [seen_solo hd] at hr
        obtain ⟨q', hq', rfl⟩ := List.mem_map.mp hw
        exact hitem hr (names_of_releaseTalk (hcoh.placed _ _ hr) hq')
    | expire _ _ hs =>
      cases hs with
      | @mk d' free rs hd hfree hrs hrow =>
        rw [seen_solo hd] at hrow
        have hq : w.1 ∈ Query.scan :: (expireTalk q.env d rs).asks := by
          rcases hc with hc | hc <;> exact calls_of_now_cons hw hc
        rcases List.mem_cons.mp hq with hq | hq
        · exact (hplain (hq ▸ Query.plain_scan)).elim
        obtain ⟨r, hr, hq⟩ := expireTalk_asks hq
        exact hitem (hrow r hr) (names_of_releaseTalk (hcoh.placed _ _ (hrow r hr)) hq)
  cases served hop cfg d with
  | same h => exact hret h
  | commits h => exact hret h
  | raises h =>
    rcases hc with hc' | hc'
    · rcases h.calls hcoh hw hc' with ⟨hk, -⟩ | ⟨-, -, r, hr, -, -, htr, -⟩
      · cases hk
      · have hq : w.1 ∈ (confirmTalk q.env d x r).asks := calls_of_now_cons (htr ▸ hw) hc'
        exact hitem hr (names_of_confirmTalk (hcoh.placed _ _ hr) hq)
    · rcases h.calls hcoh hw hc' with ⟨hk, -⟩ | ⟨hk, -⟩ <;> cases hk

/-! ### The trail of a run -/

/-- A call keeps the trail. -/
lemma Trailed.serve (h : Trailed d tr) (hop : q.op.Distinct) :
    Trailed (serve cfg d q).db (tr ++ (serve cfg d q).trace) := by
  have hsub : tr ⊆ tr ++ (InventoryReservation.serve cfg d q).trace :=
    List.subset_append_left _ _
  have hsame : (InventoryReservation.serve cfg d q).db = d →
      Trailed (InventoryReservation.serve cfg d q).db
        (tr ++ (InventoryReservation.serve cfg d q).trace) := by
    intro hdb
    rw [hdb]
    exact fun x r hr i it hit => (h x r hr i it hit).mono hsub
  cases served hop cfg d with
  | raises _ _ hdb => exact hsame hdb
  | same _ _ hdb => exact hsame hdb
  | @commits a Δ ws hret _ hΔ hc =>
    have hst := hΔ.static hc.toApplies
    intro x r hr i it hit
    have hsettle : ∀ {skip s status r₀}, d.reservations.get x = some r₀ →
        r = r₀.settle skip s status → s ≠ .providerFailed →
        it.Trailed (InventoryReservation.serve cfg d q).db
          (tr ++ (InventoryReservation.serve cfg d q).trace) x i := by
      rintro skip s status r₀ hr₀ rfl hs
      rw [Reservation.settle, List.getElem?_map] at hit
      obtain ⟨it₀, hit₀, rfl⟩ := Option.map_eq_some_iff.mp hit
      exact (((h x r₀ hr₀ i it₀ hit₀).settle hs).mono hsub).static hst
    cases hΔ.at x with
    | frame hres =>
      rw [hc.res_out x hres] at hr
      exact ((h x r hr i it hit).mono hsub).static hst
    | @confirm r₀ hres =>
      obtain ⟨hr₀, hr'⟩ := hc.res x _ _ hres
      exact hsettle hr₀ (Option.some.inj (hr.symm.trans hr')) (by decide)
    | @release r₀ status hres =>
      obtain ⟨hr₀, hr'⟩ := hc.res x _ _ hres
      exact hsettle hr₀ (Option.some.inj (hr.symm.trans hr')) (by decide)
    | @book r₀ plan hres =>
      -- the items of a new reservation are those of the provider calls
      obtain ⟨hnone, hr'⟩ := hc.res x _ _ hres
      obtain rfl : r = r₀ := Option.some.inj (hr.symm.trans hr')
      refine ReservationItem.Trailed.static ?_ hst
      generalize (InventoryReservation.serve cfg d q).trace = t at hret hsub ⊢
      cases hret.does with
      | create _ _ hs =>
        cases hs with
        | @mk plan' rid ris hplan hid hok =>
          obtain ⟨rfl, -, hitems⟩ := bookChange_res hres
          have hseen : ∀ d', (Rely.solo d : Rely Db RowKey).seen d' → Static d d' := fun d' hd' => by
            rw [seen_solo hd']
            exact .refl d
          have hprod : ∀ b ∈ plan', b.row.productId = b.item.productId := fun b hb => by
            obtain ⟨v, -, hident, hv⟩ := hplan.row hseen hb
            exact (congrArg Prod.fst hident).symm.trans hv
          have := trailed_of_bookTalks hprod hok i it (by rw [hitems] at hit; exact hit)
          rw [Nat.zero_add] at this
          refine this.mono fun w hw => List.mem_append_right _ ?_
          obtain ⟨q', hq', rfl⟩ := List.mem_map.mp hw
          exact mem_answers.mpr ⟨by simp [hq'], rfl⟩
      | confirm _ _ hs =>
        cases hs with
        | mk => cases (confirmChange_res hres).2.1
      | cancel _ _ hs =>
        cases hs with
        | release =>
          obtain ⟨_, _, hb, -⟩ := mem_of_releaseChange_res (by simp) hres
          cases hb
      | expire _ _ hs =>
        cases hs with
        | mk _ _ hrs =>
          obtain ⟨_, _, hb, -⟩ := mem_of_releaseChange_res (nodup_of_batch hrs) hres
          cases hb

/-- What an item keeps. -/
def ReservationItem.tag (it : ReservationItem) : ℕ × ℕ × ℤ × Option String :=
  (it.productId, it.providerId, it.qtyRequested, it.providerHoldRef)

lemma tag_settled (skip : ReservationItem → Bool) (status : ProviderItemStatus) :
    (settled skip status it).tag = it.tag := by
  unfold settled
  split <;> rfl

/-- The item is stored, up to its status. -/
def Db.Stores (d : Db) (x i : ℕ) (it : ReservationItem) : Prop :=
  ∃ r it', d.reservations.get x = some r ∧ r.items[i]? = some it' ∧ it'.tag = it.tag

lemma Db.Stores.serve (h : d.Stores x i it) (hop : q.op.Distinct) :
    (serve cfg d q).db.Stores x i it := by
  refine serve_induction hop h fun _ _ Δ _ _ hΔ hc => ?_
  obtain ⟨r, it', hr, hit, htag⟩ := h
  have hsettle : ∀ {skip s status}, (InventoryReservation.serve cfg d q).db.reservations.get x =
      some (r.settle skip s status) → (InventoryReservation.serve cfg d q).db.Stores x i it := by
    intro skip s status hr'
    refine ⟨_, settled skip s it', hr', ?_, (tag_settled skip s).trans htag⟩
    rw [Reservation.settle, List.getElem?_map, hit, Option.map_some]
  cases hΔ.at x with
  | frame hres => exact ⟨r, it', (hc.res_out x hres).trans hr, hit, htag⟩
  | book hres =>
    rw [(hc.res x _ _ hres).1] at hr
    cases hr
  | confirm hres =>
    obtain ⟨hb, hr'⟩ := hc.res x _ _ hres
    obtain rfl := Option.some.inj (hb.symm.trans hr)
    exact hsettle hr'
  | release hres =>
    obtain ⟨hb, hr'⟩ := hc.res x _ _ hres
    obtain rfl := Option.some.inj (hb.symm.trans hr)
    exact hsettle hr'

lemma Db.Stores.run (h : d.Stores x i it) (hqs : ∀ q ∈ qs, q.op.Distinct) :
    (run cfg d qs).Stores x i it :=
  run_induction h fun _ q hq hd => hd.serve (hqs q hq)

/-- The request names a reference that is stored with its item, and that the same provider gave out
for the units of the item before. -/
def Query.Grounded (d : Db) (tr : Trace) (x i : ℕ) (q : Query) : Prop :=
  ∃ it a ref, d.Stores x i it ∧ it.On d a ∧ it.providerHoldRef = some ref ∧
    it.Granted d tr x i a ref ∧
    (q = .http (.item x i) (a.confirmRequest ref) ∨ q = .http (.item x i) (a.releaseRequest ref))

lemma grounded_of_run (hcoh : Coherent d) (htr : Trailed d tr) (hqs : ∀ q ∈ qs, q.op.Distinct)
    {pre post : Trace} (h : runTrace cfg d qs = pre ++ w :: post)
    (hc : w.1.Calls .confirm x i ∨ w.1.Calls .release x i) :
    w.1.Grounded (run cfg d qs) (tr ++ pre) x i := by
  induction qs generalizing d tr pre with
  | nil => simp [runTrace] at h
  | cons q qs ih =>
    have hq := hqs q (by simp)
    have hqs' : ∀ q' ∈ qs, q'.op.Distinct := fun q' hq' => hqs q' (by simp [hq'])
    rw [runTrace] at h
    obtain ⟨pre', rfl, hpost⟩ | hw : (∃ pre', pre = (serve cfg d q).trace ++ pre' ∧
        runTrace cfg (serve cfg d q).db qs = pre' ++ w :: post) ∨ w ∈ (serve cfg d q).trace := by
      rcases List.append_eq_append_iff.mp h with h | ⟨t, htrace, hpost⟩
      · exact Or.inl h
      · rcases t with _ | ⟨w', t⟩
        · exact Or.inl ⟨[], by simpa using htrace.symm, hpost.symm⟩
        · obtain ⟨rfl, -⟩ := List.cons.inj hpost
          exact Or.inr (by simp [htrace])
    · have hcoh' : Coherent (run cfg d [q]) := coherent_of_run hcoh (by simpa using hq)
      have := ih hcoh' (htr.serve hq) hqs' hpost
      rwa [List.append_assoc] at this
    · -- what the first call names was stored before
      obtain ⟨r, it, hr, hit, a, ref, hat, hor⟩ := serve_names hcoh hq hw hc
      have hstatic : Static d (run cfg d (q :: qs)) := static_of_run hqs
      have hstore : d.Stores x i it := ⟨r, it, hr, hit, rfl⟩
      have hgrant := (((htr x r hr i it hit).mono (List.subset_append_left tr pre)).static
        hstatic).granted a ref hat.ref
      have hon : it.On (run cfg d (q :: qs)) a := by
        obtain ⟨p, hp, ha⟩ := hat.provider
        exact ⟨p, hstatic.providers ▸ hp, ha⟩
      exact ⟨it, a, ref, hstore.run hqs, hon, hat.ref, hgrant hon, hor⟩

lemma Blank.trailed (h : Blank d) : Trailed d [] := by
  intro x r hr
  simp [h.reservations] at hr

/-- No provider is ever asked to consume or to release a hold that it has not granted before, for
the units of the very item in which the reference is stored. -/
theorem hold_requests_grounded (cfg : Settings) (h0 : Blank d₀) (hqs : ∀ q ∈ qs, q.op.Distinct)
    {pre post : Trace} (h : runTrace cfg d₀ qs = pre ++ w :: post)
    (hc : w.1.Calls .confirm x i ∨ w.1.Calls .release x i) :
    w.1.Grounded (run cfg d₀ qs) pre x i :=
  grounded_of_run h0.coherent h0.trailed hqs h hc

/-- The request to release the lamps. -/
def lampsReleased : Query :=
  .http (.item 1 0) ⟨.delete, "https://partner/holds/hold", [], 10, none⟩

/-- The lamps are cancelled. -/
theorem hold_requests_grounded_lamps :
    lampsReleased.Grounded (run quarter shop (lamps ++ [⟨.cancel 1, calm 5⟩]))
      (runTrace quarter shop lamps) 1 0 := by
  have htr : runTrace quarter shop (lamps ++ [⟨.cancel 1, calm 5⟩]) =
      runTrace quarter shop lamps ++ ⟨lampsReleased, calm 5 lampsReleased⟩ :: [] := by
    rfl
  exact hold_requests_grounded quarter shop_blank (by decide) htr (Or.inr ⟨_, rfl, rfl⟩)

end InventoryReservation
