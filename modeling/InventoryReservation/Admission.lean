/-
# Requests that are served alone

What `create` does when no other transaction runs: the row chosen for every item is known from
the database, the check under the lock sees what the check without locks has seen, and the
request is refused, or it fails at a provider, or it is booked.
-/
import InventoryReservation.Serial

namespace InventoryReservation

open RowTxn ReservationService InventoryRepository

variable {cfg : Settings} {env : Env} {d : Db} {userId : String} {items : List CreateItem}
  {plan plan' : List Booking} {i rid : ℕ} {ris : List ReservationItem}

/-- The row that `get_best_available` chooses for the `i`-th item of a request. -/
def chosen (env : Env) (d : Db) (i : ℕ) (it : CreateItem) : Option ℕ :=
  choose (best d it.productId) (env (.tie i it.productId))

/-- The row chosen for the `i`-th item of a request has room for it. -/
structure Booking.Fits (env : Env) (d : Db) (i : ℕ) (b : Booking) : Prop where
  chosen : chosen env d i b.item = some b.id
  row : d.inventory.get b.id = some b.row
  room : b.item.qty ≤ b.row.effective

/-- All bookings of a plan fit; its first item is the `i`-th of the request. -/
def Fitting (env : Env) (d : Db) : List Booking → ℕ → Prop
  | [], _ => True
  | b :: plan, i => b.Fits env d i ∧ Fitting env d plan (i + 1)

lemma Fitting.of_mem (h : Fitting env d plan i) {b : Booking} (hb : b ∈ plan) :
    ∃ j, b.Fits env d j := by
  induction plan generalizing i with
  | nil => cases hb
  | cons b' plan ih =>
    rcases List.mem_cons.mp hb with rfl | hb
    · exact ⟨i, h.1⟩
    · exact ih h.2 hb

lemma Fitting.get (h : Fitting env d plan i) {j : ℕ} {b : Booking} (hj : plan[j]? = some b) :
    b.Fits env d (i + j) := by
  induction plan generalizing i j with
  | nil => simp at hj
  | cons b' plan ih =>
    rcases j with _ | j
    · obtain rfl : b' = b := by simpa using hj
      exact h.1
    · have := ih h.2 (show plan[j]? = some b by simpa using hj)
      rwa [show i + (j + 1) = i + 1 + j by omega]

lemma Booking.Fits.unique {b b' : Booking} (h : b.Fits env d i) (h' : b'.Fits env d i)
    (hitem : b.item = b'.item) : b = b' := by
  obtain ⟨it, id, v⟩ := b
  obtain ⟨it', id', v'⟩ := b'
  obtain rfl : it = it' := hitem
  obtain rfl : id = id' := Option.some.inj (h.chosen.symm.trans h'.chosen)
  obtain rfl : v = v' := Option.some.inj (h.row.symm.trans h'.row)
  rfl

/-- A request has one plan at most. -/
lemma Fitting.unique (h : Fitting env d plan i) (h' : Fitting env d plan' i)
    (hitems : plan.map Booking.item = plan'.map Booking.item) : plan = plan' := by
  induction plan generalizing plan' i with
  | nil =>
    cases plan' with
    | nil => rfl
    | cons => cases hitems
  | cons b plan ih =>
    cases plan' with
    | nil => cases hitems
    | cons b' plan' =>
      simp only [List.map_cons, List.cons.injEq] at hitems
      rw [h.1.unique h'.1 hitems.1, ih h.2 h'.2 hitems.2]

lemma Booking.Fits.product {b : Booking} (h : b.Fits env d i) :
    b.row.productId = b.item.productId := by
  obtain ⟨v, hv, hp, -⟩ := mem_best.mp (mem_of_choose h.chosen)
  rw [h.row] at hv
  cases hv
  exact hp

/-- Different products have different rows. -/
lemma Fitting.nodup (h : Fitting env d plan i)
    (hnd : ((plan.map Booking.item).map CreateItem.productId).Nodup) :
    (plan.map Booking.id).Nodup := by
  have hmap : (plan.map Booking.id).map (fun k => (d.inventory.get k).map Inventory.productId) =
      ((plan.map Booking.item).map CreateItem.productId).map some := by
    rw [List.map_map, List.map_map, List.map_map]
    refine List.map_congr_left fun b hb => ?_
    obtain ⟨j, hfit⟩ := h.of_mem hb
    simp [hfit.row, hfit.product]
  exact List.Nodup.of_map _ (hmap ▸ hnd.map (Option.some_injective ℕ))

lemma fitting_of_offered {seen : Db → Prop} (hseen : ∀ d', seen d' → d' = d)
    (hlock : ∀ b ∈ plan, b.Locked seen)
    (hoff : Offered env seen (plan.map fun b => (b.item, b.id)) i) : Fitting env d plan i := by
  induction plan generalizing i with
  | nil => trivial
  | cons b plan ih =>
    obtain ⟨⟨d', v, hd', hc, -⟩, hoff⟩ := hoff
    obtain ⟨⟨d'', hd'', hrow⟩, hroom⟩ := hlock b (by simp)
    rw [hseen d' hd'] at hc
    rw [hseen d'' hd''] at hrow
    exact ⟨⟨hc, hrow, hroom⟩, ih (fun b' hb' => hlock b' (by simp [hb'])) hoff⟩

/-- If no other transaction runs, the items that pass the checks have a plan that fits. -/
lemma Admitted.fitting (h : Admitted env (Rely.solo d : Rely Db RowKey).seen items plan) :
    Fitting env d plan 0 :=
  fitting_of_offered (fun _ => seen_solo) h.locked h.offered

/-- A request with a plan passes the check without locks. -/
lemma Fitting.not_preflight (h : Fitting env d plan i) {e : PyErr} {qs : List Query}
    (h' : PreflightRaises env (Rely.solo d : Rely Db RowKey).seen (plan.map Booking.item) i e qs) :
    False := by
  induction plan generalizing i qs with
  | nil => cases h'
  | cons b plan ih =>
    cases h' with
    | missing hd hn =>
      have := h.1.chosen
      rw [chosen, ← seen_solo hd, hn] at this
      cases this
    | short hd hc hv hlt =>
      have hch := h.1.chosen
      rw [chosen, ← seen_solo hd, hc] at hch
      obtain rfl := Option.some.inj hch
      have hrow := h.1.row
      rw [← seen_solo hd, hv] at hrow
      obtain rfl := Option.some.inj hrow
      exact absurd h.1.room (not_le.mpr hlt)
    | later _ h' => exact ih h.2 h'

/-- The check under the lock never fails alone. -/
lemma Offered.not_lock {cs : List (CreateItem × ℕ)}
    (h : Offered env (Rely.solo d : Rely Db RowKey).seen cs i) {e : PyErr}
    (h' : LockRaises (Rely.solo d : Rely Db RowKey).seen cs e) : False := by
  obtain ⟨hc, hd, hu, hlt⟩ := h'
  induction cs generalizing i with
  | nil => cases hc
  | cons c cs ih =>
    obtain ⟨⟨d', v, hd', -, hv, hge⟩, h⟩ := h
    rcases List.mem_cons.mp hc with rfl | hc
    · rw [seen_solo hd', ← seen_solo hd, hu] at hv
      obtain rfl := Option.some.inj hv
      exact absurd hge (not_le.mpr hlt)
    · exact ih h hc

/-! ### The id of the reservation -/

lemma takesNoId_obj (k : RowKey) : (obj k).TakesNoId := by
  intro n v
  cases v <;> trivial

lemma takesNoId_flush : flush.TakesNoId := by
  intro n ok
  cases ok <;> trivial

lemma takesNoId_preflight (items : List CreateItem) (i : ℕ) (m : InventoryMap) :
    (preflight items i m).TakesNoId := by
  induction items generalizing i m with
  | nil => exact fun _ => trivial
  | cons it items ih =>
    refine Prog.TakesNoId.bind (fun n t d => ?_) fun found => ?_
    · dsimp only
      split
      · trivial
      · exact ((takesNoId_obj _).bind fun _ => Prog.takesNoId_pure _) n
    · rcases found with _ | ⟨id, inv⟩
      · exact fun _ => trivial
      · intro n
        dsimp only
        split
        · trivial
        · exact ih _ _ n

lemma takesNoId_lockRows (items : List CreateItem) (pre m : InventoryMap) :
    (lockRows items pre m).TakesNoId := by
  induction items generalizing m with
  | nil => exact fun _ => trivial
  | cons it items ih =>
    refine (Prog.takesNoId_ofExcept _).bind fun id => Prog.TakesNoId.bind (fun n v => trivial)
      fun locked n => ?_
    rcases locked with _ | locked
    · trivial
    · dsimp only
      split
      · trivial
      · exact ih _ n

lemma takesNoId_reserve (items : List CreateItem) (m : InventoryMap) :
    (reserve items m).TakesNoId := by
  induction items with
  | nil => exact fun _ => trivial
  | cons it items ih => exact (Prog.takesNoId_ofExcept _).bind fun id n => ih n

lemma takesNoId_holdStock (call : Call) (sku : String) (qty : ℤ) (reservationId : ℕ)
    (adapter : ProviderAdapter) : (adapter.holdStock call sku qty reservationId).TakesNoId := by
  cases adapter with
  | internal row =>
    refine (takesNoId_obj _).bind fun r n => ?_
    split <;> trivial
  | external a =>
    exact (Prog.takesNoId_ofExcept _).bind fun _ n out => Prog.takesNoId_ofExcept _ n

lemma takesNoId_holdItems (reservationId : ℕ) (items : List CreateItem) (i : ℕ)
    (m : InventoryMap) : (holdItems reservationId items i m).TakesNoId := by
  induction items generalizing i with
  | nil => exact fun _ => trivial
  | cons it items ih =>
    refine (Prog.takesNoId_ofExcept _).bind fun id => (takesNoId_obj _).bind fun inv =>
      Prog.TakesNoId.bind (fun n => trivial) fun _ => takesNoId_flush.bind fun _ =>
        (takesNoId_obj _).bind fun provider => (Prog.takesNoId_ofExcept _).bind fun adapter =>
          Prog.TakesNoId.bind ?_ fun _ => ih (i + 1)
    refine Prog.TakesNoId.tryCatch ?_ fun e n => by cases e <;> trivial
    refine (takesNoId_obj _).bind fun product => (takesNoId_holdStock _ _ _ _ _).bind ?_
    exact fun _ _ => trivial

/-- `create` takes one id, that of the reservation. -/
lemma takesIds_create (cfg : Settings) (userId : String) (items : List CreateItem) (n : ℕ) :
    (create cfg userId items).TakesIds (· = n) n := by
  intro now
  refine (takesNoId_preflight _ _ _).bind_ids fun m => (takesNoId_lockRows _ _ _).bind_ids
    fun m' => (takesNoId_reserve _ _).bind_ids fun _ => ⟨rfl, ?_⟩
  exact (takesNoId_flush.bind fun _ => (takesNoId_holdItems _ _ _ _).bind fun _ =>
    takesNoId_flush.bind fun _ => (takesNoId_obj _).bind fun _ => Prog.takesNoId_pure _).takesIds

/-- How a request ends. -/
inductive Created (cfg : Settings) (env : Env) (d : Db) (userId : String)
    (items : List CreateItem) (out : Outcome Db Query Answer PyErr Reply) : Prop
  /-- No row has room for some item. -/
  | refused {e : PyErr} {qs : List Query}
      (hno : ∀ plan, plan.map Booking.item = items → ¬Fitting env d plan 0)
      (hqs : ∀ q ∈ qs, q.Plain) (htr : out.trace = answers env (.now 0 :: qs))
      (hres : out.result = .error e) (hdb : out.db = d)
  /-- A provider call fails. -/
  | failed {plan : List Booking} {rid : ℕ} {e : PyErr} (hitems : plan.map Booking.item = items)
      (hplan : Fitting env d plan 0) (hid : rid = d.reservations.fresh)
      (he : (bookTalks env d rid plan 0).result = .error e)
      (htr : out.trace =
        answers env (.now 0 :: ties items 0 ++ (bookTalks env d rid plan 0).asks))
      (hres : out.result = .error e) (hdb : out.db = d)
  | booked {plan : List Booking} {rid : ℕ} {ris : List ReservationItem} {ws : List RowKey}
      (hitems : plan.map Booking.item = items) (hplan : Fitting env d plan 0)
      (hid : rid = d.reservations.fresh) (hok : (bookTalks env d rid plan 0).result = .ok ris)
      (htr : out.trace =
        answers env (.now 0 :: ties items 0 ++ (bookTalks env d rid plan 0).asks))
      (hres : out.result = .ok (.reservation rid
        ⟨userId, .pending, env (.now 0) + minutes cfg.reservationTtlMinutes, ris⟩))
      (hc : (bookChange cfg env d userId plan rid ris).Commits d out.db ws)

theorem created (cfg : Settings) (env : Env) (d : Db) (userId : String)
    (hnd : (items.map CreateItem.productId).Nodup) :
    Created cfg env d userId items (serve cfg d ⟨.create userId items, env⟩) := by
  have hop : (Op.create userId items).Distinct := hnd
  have hids : ((Op.create userId items).programBy (max 0) cfg).TakesIds
      (· = d.reservations.fresh) d.reservations.fresh :=
    (takesIds_create cfg userId items _).bind fun _ _ => trivial
  rcases Meets.transact_ids (.refl d) hids ((Op.create userId items).meets
      (steady_soloIds (.refl d) _) (max 0) cfg hop) (fun _ _ _ h => h.proper)
      (fun _ _ _ h hc => h.collides hc) with ⟨a, Δ, ws, h, hres, hc⟩ | ⟨e, h, hres, hdb⟩
  · generalize htr : (RowTxn.transact env d (((Op.create userId items).programBy (max 0) cfg).commit
      .integrityError)).trace = tr at h
    obtain ⟨id, r, ha, hs⟩ := h.create
    rw [ha] at hres
    cases hs with
    | mk hplan hid hok => exact .booked hplan.items hplan.fitting hid hok htr hres hc
  · generalize htr : (RowTxn.transact env d (((Op.create userId items).programBy (max 0) cfg).commit
      .integrityError)).trace = tr at h
    cases h with
    | preflight h =>
      refine .refused (fun plan hitems hplan => ?_) h.plain htr hres hdb
      subst hitems
      exact hplan.not_preflight h
    | lock _ ho h => exact (ho.not_lock h).elim
    | provider hplan hid he => exact .failed hplan.items hplan.fitting hid he htr hres hdb
    | integrity hid hd hr =>
      rw [seen_solo hd] at hr
      obtain rfl : _ = d.reservations.fresh := hid
      exact absurd (d.reservations.get_fresh) hr

/-! ### The provider calls, item by item -/

/-- The provider calls return if each of them does. -/
lemma bookTalks_ok : (bookTalks env d rid plan i).result = .ok ris ↔
    ris.length = plan.length ∧ ∀ (j : ℕ) (b : Booking) (ri : ReservationItem),
      plan[j]? = some b → ris[j]? = some ri → (b.talk env d rid (i + j)).result = .ok ri := by
  induction plan generalizing i ris with
  | nil =>
    constructor
    · intro h
      obtain rfl : [] = ris := by simpa [bookTalks] using h
      simp
    · rintro ⟨hlen, -⟩
      rw [List.eq_nil_of_length_eq_zero hlen]
      rfl
  | cons b plan ih =>
    rw [bookTalks, Talk.bind_ok]
    constructor
    · rintro ⟨ri, hri, h⟩
      obtain ⟨ris', hris', h⟩ := Talk.bind_ok.mp h
      obtain rfl : ri :: ris' = ris := by simpa using h
      obtain ⟨hlen, hall⟩ := ih.mp hris'
      refine ⟨by simp [hlen], fun j b' ri' hb' hri' => ?_⟩
      rcases j with _ | j
      · obtain rfl : b = b' := by simpa using hb'
        obtain rfl : ri = ri' := by simpa using hri'
        exact hri
      · rw [show i + (j + 1) = i + 1 + j by omega]
        exact hall j b' ri' (by simpa using hb') (by simpa using hri')
    · rintro ⟨hlen, hall⟩
      rcases ris with _ | ⟨ri, ris⟩
      · cases hlen
      refine ⟨ri, hall 0 b ri rfl rfl, Talk.bind_ok.mpr ⟨ris, ih.mpr ⟨by simpa using hlen, ?_⟩, rfl⟩⟩
      intro j b' ri' hb' hri'
      rw [show i + 1 + j = i + (j + 1) by omega]
      exact hall (j + 1) b' ri' (by simpa using hb') (by simpa using hri')

/-- They raise if one of them does. -/
lemma bookTalks_raises : (∃ e, (bookTalks env d rid plan i).result = .error e) ↔
    ∃ (j : ℕ) (b : Booking) (e : PyErr),
      plan[j]? = some b ∧ (b.talk env d rid (i + j)).result = .error e := by
  induction plan generalizing i with
  | nil => simp [bookTalks]
  | cons b plan ih =>
    constructor
    · rintro ⟨e, he⟩
      rw [bookTalks, Talk.bind_error] at he
      rcases he with he | ⟨ri, -, he⟩
      · exact ⟨0, b, e, rfl, he⟩
      · have hrest : ∃ e, (bookTalks env d rid plan (i + 1)).result = .error e := by
          rcases Talk.bind_error.mp he with h | ⟨_, -, h⟩
          · exact ⟨e, h⟩
          · cases h
        obtain ⟨j, b', e', hb', he'⟩ := ih.mp hrest
        exact ⟨j + 1, b', e', by simpa using hb', by rwa [show i + (j + 1) = i + 1 + j by omega]⟩
    · rintro ⟨j, b', e', hb', he'⟩
      rcases hb : (b.talk env d rid i).result with e | ri
      · exact ⟨e, by rw [bookTalks, Talk.bind_error]; exact Or.inl hb⟩
      rcases j with _ | j
      · obtain rfl : b = b' := by simpa using hb'
        rw [Nat.add_zero, hb] at he'
        cases he'
      obtain ⟨e, he⟩ := ih.mpr ⟨j, b', e', by simpa using hb',
        by rwa [show i + 1 + j = i + (j + 1) by omega]⟩
      exact ⟨e, by
        rw [bookTalks, Talk.bind_error]
        exact Or.inr ⟨ri, hb, Talk.bind_error.mpr (Or.inl he)⟩⟩

/-- The call for an item is made if the calls before it return. -/
lemma mem_bookTalks_asks {q : Query} : q ∈ (bookTalks env d rid plan i).asks ↔
    ∃ (j : ℕ) (b : Booking), plan[j]? = some b ∧ q ∈ (b.talk env d rid (i + j)).asks ∧
      ∀ (k : ℕ) (b' : Booking), k < j → plan[k]? = some b' →
        ∃ ri, (b'.talk env d rid (i + k)).result = .ok ri := by
  induction plan generalizing i with
  | nil => simp [bookTalks, Talk.pure]
  | cons b plan ih =>
    have htail : ∀ ri, q ∈ ((bookTalks env d rid plan (i + 1)).bind fun ris =>
        .pure (ri :: ris)).asks ↔ q ∈ (bookTalks env d rid plan (i + 1)).asks := by
      intro ri
      simp [Talk.mem_bind_asks, Talk.pure]
    rw [bookTalks, Talk.mem_bind_asks]
    simp only [htail]
    constructor
    · rintro (h | ⟨ri, hri, h⟩)
      · exact ⟨0, b, rfl, h, fun k _ hk => absurd hk (Nat.not_lt_zero k)⟩
      · obtain ⟨j, b', hb', hq, hall⟩ := ih.mp h
        refine ⟨j + 1, b', by simpa using hb', by rwa [show i + (j + 1) = i + 1 + j by omega], ?_⟩
        intro k b'' hk hb''
        rcases k with _ | k
        · obtain rfl : b = b'' := by simpa using hb''
          exact ⟨ri, hri⟩
        · rw [show i + (k + 1) = i + 1 + k by omega]
          exact hall k b'' (by omega) (by simpa using hb'')
    · rintro ⟨j, b', hb', hq, hall⟩
      rcases j with _ | j
      · obtain rfl : b = b' := by simpa using hb'
        exact Or.inl hq
      · obtain ⟨ri, hri⟩ := hall 0 b (by omega) rfl
        refine Or.inr ⟨ri, hri, ih.mpr ⟨j, b', by simpa using hb', ?_, fun k b'' hk hb'' => ?_⟩⟩
        · rwa [show i + 1 + j = i + (j + 1) by omega]
        · rw [show i + 1 + k = i + (k + 1) by omega]
          exact hall (k + 1) b'' (by omega) (by simpa using hb'')

section Item

variable {b : Booking} {p : InventoryProvider} {product : Product}

/-- An internal provider takes the stock a second time, if there is room. -/
lemma Booking.talk_internal (env : Env) (rid i : ℕ)
    (hp : d.providers.get b.row.providerId = some p)
    (ht : p.type = .internal) (hprod : d.products.get b.row.productId = some product) :
    (b.talk env d rid i).asks = [] ∧
      (2 * b.item.qty ≤ b.row.effective → (b.talk env d rid i).result = .ok (b.heldItem none)) ∧
      (b.row.effective < 2 * b.item.qty → ∃ e, (b.talk env d rid i).result = .error e) := by
  have heff : (addReserved b.item.qty b.row).effective = b.row.effective - b.item.qty := by
    simp only [Inventory.effective, addReserved]
    omega
  have hres : ProviderRegistry.resolve p (some b.id) = .ok (.internal b.id) := by
    simp [ProviderRegistry.resolve, ht]
  unfold Booking.talk
  simp only [hp, hres]
  by_cases hlt : b.row.effective - b.item.qty < b.item.qty
  · have h : b.adapterTalk env d rid i (.internal b.id) = .raise (.insufficientStockError
        (s!"Product {b.item.productId}: provider rejected reservation: " ++
          s!"Internal: requested {b.item.qty}, available {b.row.effective - b.item.qty}")) := by
      simp [adapterTalk, hprod, ProviderAdapter.holdTalk, heff, hlt, Talk.bind, Talk.handle,
        Talk.raise, refused]
      rfl
    refine ⟨by simp [Talk.bind, Talk.ofExcept, h], fun hle => by omega, fun _ => ?_⟩
    simp [Talk.bind, Talk.ofExcept, h]
  · have h : b.adapterTalk env d rid i (.internal b.id) = .pure (b.heldItem none) := by
      simp [adapterTalk, hprod, ProviderAdapter.holdTalk, heff, hlt, Talk.bind, Talk.handle,
        Talk.pure]
    refine ⟨by simp [Talk.bind, Talk.ofExcept, h], fun _ => ?_, fun hlt' => by omega⟩
    simp [Talk.bind, Talk.ofExcept, h]

variable {a : ExternalHttpProviderAdapter}

/-- An external provider that can hold stock is asked, and its reply decides. -/
lemma Booking.talk_external (hp : d.providers.get b.row.providerId = some p)
    (ht : p.type = .external) (ha : ExternalHttpProviderAdapter.new p = .ok a)
    (hcap : a.requireCapability "hold_stock" = .ok ())
    (hprod : d.products.get b.row.productId = some product) :
    (b.talk env d rid i).result =
      match ExternalHttpProviderAdapter.holdReply product.sku
        (env (.http (.item rid i) (a.holdRequest product.sku b.item.qty rid))) with
      | .ok ref => .ok (b.heldItem ref)
      | .error e => (b.refused e).result := by
  have hres : ProviderRegistry.resolve p (some b.id) = .ok (.external a) := by
    simp [ProviderRegistry.resolve, ht, ha]
  unfold Booking.talk
  simp only [hp, hres, Talk.bind, Talk.ofExcept, adapterTalk, hprod, ProviderAdapter.holdTalk,
    ExternalHttpProviderAdapter.talkWith, hcap, Talk.ask, Talk.handle]
  rcases ExternalHttpProviderAdapter.holdReply product.sku
    (env (.http (.item rid i) (a.holdRequest product.sku b.item.qty rid))) with e | ref
  · rfl
  · rfl

end Item

end InventoryReservation
