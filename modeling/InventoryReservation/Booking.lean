/-
# Specification of `create`

A request is admitted with a plan: for every item the inventory row that was chosen for it, as
it was when its lock was granted.  The rest of the operation is a function of the plan and of
the provider replies: the rows of the plan are booked, and a reservation with the items is new.
-/
import InventoryReservation.Settle

namespace InventoryReservation

open RowTxn ReservationService InventoryRepository

/-- An item of a request, the row that was chosen for it, and the row as it was locked. -/
structure Booking where
  item : CreateItem
  id : ℕ
  row : Inventory

variable {env : Env} {R : Rely Db RowKey} {d₀ : Db} {L : List RowKey} {Δ : Change} {s : Sess}
  {H : Held RowOf} {seen : Db → Prop}

/-! ### Admission -/

/-- The check without locks lets the `i`-th item pass, with a row for it. -/
def Offers (env : Env) (seen : Db → Prop) (i : ℕ) (it : CreateItem) (id : ℕ) : Prop :=
  ∃ d v, seen d ∧ choose (best d it.productId) (env (.tie i it.productId)) = some id ∧
    d.inventory.get id = some v ∧ it.qty ≤ v.effective

def Offered (env : Env) (seen : Db → Prop) : List (CreateItem × ℕ) → ℕ → Prop
  | [], _ => True
  | (it, id) :: cs, i => Offers env seen i it id ∧ Offered env seen cs (i + 1)

/-- The check under the lock lets an item pass. -/
def Booking.Locked (seen : Db → Prop) (b : Booking) : Prop :=
  (∃ d, seen d ∧ d.inventory.get b.id = some b.row) ∧ b.item.qty ≤ b.row.effective

/-- Both checks let all items of a request pass. -/
structure Admitted (env : Env) (seen : Db → Prop) (items : List CreateItem) (plan : List Booking) :
    Prop where
  items : plan.map Booking.item = items
  offered : Offered env seen (plan.map fun b => (b.item, b.id)) 0
  locked : ∀ b ∈ plan, b.Locked seen

/-- The questions of the check without locks. -/
def ties : List CreateItem → ℕ → List Query
  | [], _ => []
  | it :: items, i => .tie i it.productId :: ties items (i + 1)

/-- The check without locks fails, after some questions. -/
inductive PreflightRaises (env : Env) (seen : Db → Prop) :
    List CreateItem → ℕ → PyErr → List Query → Prop
  | missing {it : CreateItem} {items : List CreateItem} {i : ℕ} {d : Db} (hd : seen d)
      (hn : choose (best d it.productId) (env (.tie i it.productId)) = none) :
      PreflightRaises env seen (it :: items) i
        (.insufficientStockError s!"Product {it.productId}: no inventory available")
        [.tie i it.productId]
  | short {it : CreateItem} {items : List CreateItem} {i id : ℕ} {d : Db} {v : Inventory}
      (hd : seen d) (hc : choose (best d it.productId) (env (.tie i it.productId)) = some id)
      (hv : d.inventory.get id = some v) (hlt : v.effective < it.qty) :
      PreflightRaises env seen (it :: items) i (.insufficientStockError
        s!"Product {it.productId}: requested {it.qty}, available {v.effective}")
        [.tie i it.productId]
  | later {it : CreateItem} {items : List CreateItem} {i id : ℕ} {e : PyErr} {qs : List Query}
      (ho : Offers env seen i it id) (h : PreflightRaises env seen items (i + 1) e qs) :
      PreflightRaises env seen (it :: items) i e (.tie i it.productId :: qs)

/-- The check under the lock fails. -/
inductive LockRaises (seen : Db → Prop) (cs : List (CreateItem × ℕ)) : PyErr → Prop
  | short {it : CreateItem} {id : ℕ} {d : Db} {u : Inventory} (hc : (it, id) ∈ cs) (hd : seen d)
      (hu : d.inventory.get id = some u) (hlt : u.effective < it.qty) :
      LockRaises seen cs (.insufficientStockError (s!"Product {it.productId}: requested {it.qty}, " ++
        s!"available {u.effective} (re-checked under lock)"))

/-! ### Provider calls -/

/-- `qty_reserved` goes up. -/
def addReserved (qty : ℤ) (r : Inventory) : Inventory :=
  { r with qtyReserved := r.qtyReserved + qty }

namespace ProviderAdapter

/-- The call of `hold_stock`; `v` is the inventory row of an internal provider. -/
def holdTalk (env : Env) (call : Call) (sku : String) (qty : ℤ) (reservationId : ℕ)
    (v : Inventory) : ProviderAdapter → ProviderTalk (Option String)
  | internal _ =>
    if v.effective < qty then
      .raise (.insufficientProviderStock s!"Internal: requested {qty}, available {v.effective}")
    else .pure none
  | external a => a.talkWith env "hold_stock" call (a.holdRequest sku qty reservationId)
      (ExternalHttpProviderAdapter.holdReply sku)

end ProviderAdapter

namespace Booking

/-- The item before its provider is called. -/
def newItem (b : Booking) : ReservationItem where
  productId := b.item.productId
  inventoryId := b.id
  providerId := b.row.providerId
  qtyRequested := b.item.qty
  providerHoldRef := none
  providerStatus := .pending
  providerErrorMessage := none

def heldItem (b : Booking) (holdRef : Option String) : ReservationItem :=
  { b.newItem with providerHoldRef := holdRef, providerStatus := .held }

def failedItem (b : Booking) (exc : String) : ReservationItem :=
  { b.newItem with providerStatus := .providerFailed, providerErrorMessage := some exc }

/-- What an exception of the adapter leads to. -/
def refused (b : Booking) : PyErr → ProviderTalk ReservationItem
  | .insufficientProviderStock exc => .raise (.insufficientStockError
      s!"Product {b.item.productId}: provider rejected reservation: {exc}")
  | .providerTimeout exc | .providerUnavailable exc => .pure (b.failedItem exc)
  | e => .raise e

/-- The call of an adapter for an item, and the item after it. -/
def adapterTalk (env : Env) (d₀ : Db) (rid i : ℕ) (b : Booking) (adapter : ProviderAdapter) :
    ProviderTalk ReservationItem :=
  match d₀.products.get b.row.productId with
  | none => .raise (.attributeError "'NoneType' object has no attribute")
  | some product =>
    ((adapter.holdTalk env (.item rid i) product.sku b.item.qty rid
      (addReserved b.item.qty b.row)).bind fun ref => .pure (b.heldItem ref)).handle b.refused

/-- The call of the provider for an item, and the item after it. -/
def talk (env : Env) (d₀ : Db) (rid i : ℕ) (b : Booking) : ProviderTalk ReservationItem :=
  match d₀.providers.get b.row.providerId with
  | none => .raise (.attributeError "'NoneType' object has no attribute")
  | some provider => (Talk.ofExcept (ProviderRegistry.resolve provider (some b.id))).bind fun
      adapter => b.adapterTalk env d₀ rid i adapter

/-- The provider of the row is the service itself. -/
def isInternal (d₀ : Db) (b : Booking) : Bool :=
  (d₀.providers.get b.row.providerId).any fun p => p.type = .internal

end Booking

/-- The calls for all items, and the items after them. -/
def bookTalks (env : Env) (d₀ : Db) (rid : ℕ) :
    List Booking → ℕ → ProviderTalk (List ReservationItem)
  | [], _ => .pure []
  | b :: plan, i => (b.talk env d₀ rid i).bind fun ri =>
      (bookTalks env d₀ rid plan (i + 1)).bind fun ris => .pure (ri :: ris)

/-! ### The change -/

/-- The rows of a plan are locked. -/
def lockedChange (Δ : Change) (plan : List Booking) : Change :=
  plan.foldl (fun Δ b => Δ.know b.id b.row) Δ

/-- The rows of a plan are booked. -/
def reservedChange (Δ : Change) (plan : List Booking) : Change :=
  plan.foldl (fun Δ b => Δ.setStock b.id (addReserved b.item.qty)) Δ

/-- A reservation with the items is new. -/
def bookChange (cfg : Settings) (env : Env) (d₀ : Db) (userId : String) (plan : List Booking)
    (rid : ℕ) (ris : List ReservationItem) : Change :=
  (reservedChange (reservedChange (lockedChange .nothing plan) plan)
    (plan.filter (Booking.isInternal d₀))).setRes rid none
    ⟨userId, .pending, env (.now 0) + minutes cfg.reservationTtlMinutes, ris⟩

/-- `create` returns a new reservation. -/
inductive Creates (cfg : Settings) (env : Env) (d₀ : Db) (R : Rely Db RowKey) (userId : String)
    (items : List CreateItem) : ℕ × Reservation → Trace → Option Change → Prop
  | mk {plan : List Booking} {rid : ℕ} {ris : List ReservationItem}
      (hplan : Admitted env R.seen items plan) (hid : R.ids rid)
      (hok : (bookTalks env d₀ rid plan 0).result = .ok ris) :
      Creates cfg env d₀ R userId items
        (rid, ⟨userId, .pending, env (.now 0) + minutes cfg.reservationTtlMinutes, ris⟩)
        (answers env (.now 0 :: ties items 0 ++ (bookTalks env d₀ rid plan 0).asks))
        (some (bookChange cfg env d₀ userId plan rid ris))

/-- The exceptions of `create`. -/
inductive CreateRaises (env : Env) (d₀ : Db) (R : Rely Db RowKey) (items : List CreateItem) :
    PyErr → Trace → Prop
  | preflight {e : PyErr} {qs : List Query} (h : PreflightRaises env R.seen items 0 e qs) :
      CreateRaises env d₀ R items e (answers env (.now 0 :: qs))
  | lock {e : PyErr} {cs : List (CreateItem × ℕ)} (hcs : cs.map Prod.fst = items)
      (ho : Offered env R.seen cs 0) (h : LockRaises R.seen cs e) :
      CreateRaises env d₀ R items e (answers env (.now 0 :: ties items 0))
  | provider {e : PyErr} {plan : List Booking} {rid : ℕ} (hplan : Admitted env R.seen items plan)
      (hid : R.ids rid) (he : (bookTalks env d₀ rid plan 0).result = .error e) :
      CreateRaises env d₀ R items e
        (answers env (.now 0 :: ties items 0 ++ (bookTalks env d₀ rid plan 0).asks))
  | integrity {rid : ℕ} {d : Db} {tr : Trace} (hid : R.ids rid) (hd : R.seen d)
      (hr : d.reservations.get rid ≠ none) : CreateRaises env d₀ R items .integrityError tr

/-! ### The check without locks -/

/-- The inventory rows that the session has loaded are of products in `done`. -/
def Scanned (d₀ : Db) (done : List ℕ) (s : Sess) : Prop :=
  ∀ k, s.val (.inventory k) ≠ none → ∃ r, d₀.inventory.get k = some r ∧ r.productId ∈ done

/-- The product and the provider of a row are loaded. -/
def Loaded (d₀ : Db) (L : List RowKey) (id : ℕ) : Prop :=
  ∀ r, d₀.inventory.get id = some r → .product r.productId ∈ L ∧ .provider r.providerId ∈ L

/-- A row that is offered exists, and is of the item's product. -/
lemma Static.row_of_choose {d : Db} (hd : Static d₀ d) {p n id : ℕ}
    (h : choose (best d p) n = some id) :
    ∃ v r, d.inventory.get id = some v ∧ d₀.inventory.get id = some r ∧ r.ident = v.ident ∧
      r.productId = p := by
  obtain ⟨v, hv, hp, -⟩ := mem_best.mp (mem_of_choose h)
  have hid := hd.stock id
  rw [hv] at hid
  obtain ⟨r, hr, hri⟩ := Option.map_eq_some_iff.mp hid.symm
  refine ⟨v, r, hv, hr, hri, ?_⟩
  rw [← hp]
  exact congrArg Prod.fst hri

lemma wp_preflight (hR : Steady d₀ R) {items : List CreateItem} {i : ℕ} {m : InventoryMap}
    {done : List ℕ} (hw : Work d₀ L .nothing s fun _ => none) (hws : s.writes = [])
    (hscan : Scanned d₀ done s) (hnd : (items.map CreateItem.productId).Nodup)
    (hdone : ∀ it ∈ items, it.productId ∉ done)
    {P : InventoryMap → Sess → Held RowOf → Prop} {E : PyErr → Sess → Held RowOf → Prop}
    (hE : ∀ e qs s', PreflightRaises env R.seen items i e qs →
      s'.trace = s.trace ++ answers env qs → E e s' fun _ => none)
    (hP : ∀ m' L' s' cs, cs.map Prod.fst = items → Offered env R.seen cs i →
      (∀ c ∈ cs, m' c.1.productId = some c.2) →
      (∀ p, p ∉ items.map CreateItem.productId → m' p = m p) →
      (∀ c ∈ cs, Loaded d₀ L' c.2) → (∀ k ∈ L, k ∈ L') → Work d₀ L' .nothing s' (fun _ => none) →
      s'.writes = [] → s'.trace = s.trace ++ answers env (ties items i) →
      P m' s' fun _ => none) :
    wp R env (preflight items i m) P E s fun _ => none := by
  induction items generalizing i m s L done with
  | nil =>
    exact hP m L s [] rfl trivial (by simp) (fun _ _ => rfl) (by simp) (fun _ hk => hk) hw hws
      (by simp [ties])
  | cons it items ih =>
    rw [List.map_cons, List.nodup_cons] at hnd
    simp only [preflight, getBestAvailable, Prog.bind_eq, Prog.bind]
    intro d hd
    have hstat := hR.static d hd
    rw [show ((s.log (.tie i it.productId) (env (.tie i it.productId))).own d : Db) = d from
      Session.own_of_nil hws d]
    have hw₁ := hw.log (.tie i it.productId) (env (.tie i it.productId))
    have htr₁ : (s.log (.tie i it.productId) (env (.tie i it.productId))).trace =
        s.trace ++ answers env [.tie i it.productId] := rfl
    have hscan₁ : Scanned d₀ done (s.log (.tie i it.productId) (env (.tie i it.productId))) := hscan
    have hws₁ : (s.log (.tie i it.productId) (env (.tie i it.productId))).writes = [] := hws
    generalize s.log (.tie i it.productId) (env (.tie i it.productId)) = s₁
      at hw₁ htr₁ hscan₁ hws₁ ⊢
    rcases hc : choose (best d it.productId) (env (.tie i it.productId)) with _ | id
    · simp only [hc]
      exact hE _ _ _ (.missing hd hc) htr₁
    obtain ⟨v, r, hv, hr, hri, hp⟩ := hstat.row_of_choose hc
    have hkeys : rowKeys d id = [.inventory id, .product v.productId, .provider v.providerId] := by
      simp [rowKeys, hv]
    -- the rows scanned so far are of other products, so this one is loaded now
    have hnone : s₁.val (.inventory id) = none := by
      by_contra hne
      obtain ⟨r', hr', hmem⟩ := hscan₁ id hne
      rw [hr] at hr'
      cases hr'
      exact hdone it (by simp) (hp ▸ hmem)
    have hval : (s₁.load (rowKeys d id) d).val (.inventory id) = some v := by
      simp [Session.val_load, hnone, hkeys, hv]
    simp only [hc, Option.map_some, Option.getD_some, wp_bind]
    refine wp_obj hval ?_
    simp only [Prog.pure_eq, wp]
    have htr₂ : (s₁.load (rowKeys d id) d).trace = s.trace ++ answers env [.tie i it.productId] := by
      rw [Session.load_trace, htr₁]
    have hws₂ : (s₁.load (rowKeys d id) d).writes = [] := by rw [Session.load_writes, hws₁]
    have hw₂ : Work d₀ (L ++ rowKeys d id) .nothing (s₁.load (rowKeys d id) d) fun _ => none :=
      hw₁.load hstat
    -- the row is the only object that is new
    have hscan₂ : Scanned d₀ (it.productId :: done) (s₁.load (rowKeys d id) d) := by
      intro k hk
      rw [Session.val_load] at hk
      rcases hk₁ : s₁.val (.inventory k) with _ | v'
      · rw [hk₁, hkeys] at hk
        have : k = id := by
          by_contra hne
          simp [hne] at hk
        subst this
        exact ⟨r, hr, by simp [hp]⟩
      · obtain ⟨r', hr', hmem⟩ := hscan₁ k (by simp [hk₁])
        exact ⟨r', hr', List.mem_cons_of_mem _ hmem⟩
    generalize s₁.load (rowKeys d id) d = s₂ at hw₂ htr₂ hscan₂ hws₂ ⊢
    have htrace : ∀ (s' : Sess) qs, s'.trace = s₂.trace ++ answers env qs →
        s'.trace = s.trace ++ answers env (.tie i it.productId :: qs) := by
      intro s' qs hs'
      rw [hs', htr₂, List.append_assoc, ← answers_append]
      rfl
    split
    · next hlt =>
      exact hE _ _ _ (.short hd hc hv hlt) htr₂
    next hge =>
    have ho : Offers env R.seen i it id := ⟨d, v, hd, hc, hv, not_lt.mp hge⟩
    refine ih hw₂ hws₂ hscan₂ hnd.2 ?_ (fun e qs s' h hs' => ?_) ?_
    · intro it' hit'
      rw [List.mem_cons, not_or]
      refine ⟨fun hne => hnd.1 (List.mem_map.mpr ⟨it', hit', hne⟩), hdone it' (by simp [hit'])⟩
    · exact hE e _ s' (.later ho h) (htrace s' qs hs')
    · intro m' L' s' cs hcs hoff hm' hout hload hL hw' hws' hs'
      -- the later items do not overwrite the entry of this one
      have hmid : m' it.productId = some id := by
        rw [hout _ hnd.1]
        simp [InventoryMap.set]
      refine hP m' L' s' ((it, id) :: cs) (by simp [hcs]) ⟨ho, hoff⟩ ?_ ?_ ?_ ?_ hw' hws'
        (htrace s' _ hs')
      · simpa [hmid] using hm'
      · intro p hp'
        rw [List.map_cons, List.mem_cons, not_or] at hp'
        rw [hout p hp'.2]
        simp [InventoryMap.set, hp'.1]
      · intro c hc'
        rcases List.mem_cons.mp hc' with rfl | hc'
        · intro r' hr'
          rw [hr] at hr'
          cases hr'
          have hprod : r.productId = v.productId := congrArg Prod.fst hri
          have hprov : r.providerId = v.providerId := congrArg Prod.snd hri
          rw [hprod, hprov]
          exact ⟨hL _ (by simp [hkeys]), hL _ (by simp [hkeys])⟩
        · exact hload c hc'
      · exact fun k hk => hL k (List.mem_append_left _ hk)

/-! ### The check under the lock -/

lemma LockRaises.cons {cs : List (CreateItem × ℕ)} {e : PyErr} (h : LockRaises seen cs e)
    (c : CreateItem × ℕ) : LockRaises seen (c :: cs) e := by
  obtain ⟨hc, hd, hu, hlt⟩ := h
  exact .short (List.mem_cons_of_mem _ hc) hd hu hlt

lemma wp_lockRows (hR : Steady d₀ R) {cs : List (CreateItem × ℕ)} {pre m : InventoryMap}
    (hw : Work d₀ L Δ s H) (hΔ : ∀ k, Δ.stock k = id)
    (hpre : ∀ c ∈ cs, pre c.1.productId = some c.2)
    (hrow : ∀ c ∈ cs, d₀.inventory.get c.2 ≠ none)
    (hnd : (cs.map fun c => c.1.productId).Nodup)
    {P : InventoryMap → Sess → Held RowOf → Prop} {E : PyErr → Sess → Held RowOf → Prop}
    (hE : ∀ e s' H', LockRaises R.seen cs e → s'.trace = s.trace → E e s' H')
    (hP : ∀ m' s' H' plan, (plan.map fun b => (b.item, b.id)) = cs →
      (∀ b ∈ plan, b.Locked R.seen) → (∀ c ∈ cs, m' c.1.productId = some c.2) →
      (∀ p, (p ∉ cs.map fun c => c.1.productId) → m' p = m p) →
      Work d₀ L (lockedChange Δ plan) s' H' → s'.trace = s.trace → P m' s' H') :
    wp R env (lockRows (cs.map Prod.fst) pre m) P E s H := by
  induction cs generalizing m s H Δ with
  | nil => exact hP m s H [] rfl (by simp) (by simp) (fun _ _ => rfl) hw rfl
  | cons c cs ih =>
    obtain ⟨it, id⟩ := c
    rw [List.map_cons, List.nodup_cons] at hnd
    have hitem : pre.item it.productId = .ok id := by
      simp [InventoryMap.item, hpre (it, id) (by simp)]
    simp only [List.map_cons, lockRows, hitem, getByIdForUpdate, Prog.ofExcept, Prog.bind_eq,
      Prog.bind]
    -- the value is that of the object, as some database that was seen had it
    refine hw.lock hR (fun hn => absurd hn (hrow (it, id) (by simp))) ?_
    intro s₁ H₁ u hu hw₁ hH₁ htr₁ _
    obtain ⟨d, hd, hdu⟩ := hu
    rw [hΔ]
    simp only [Prog.pure_eq, Prog.pure_bind, id_eq]
    split
    · next hlt => exact hE _ s₁ H₁ (.short (by simp) hd hdu hlt) htr₁
    next hge =>
    refine ih (hw₁.know hH₁) (by simpa using hΔ) (fun c hc => hpre c (by simp [hc]))
      (fun c hc => hrow c (by simp [hc])) hnd.2 (fun e s' H' h hs' => ?_) ?_
    · exact hE e s' H' (h.cons _) (hs'.trans htr₁)
    · intro m' s' H' plan hplan hlocked hm' hout hw' hs'
      have hmid : m' it.productId = some id := by
        rw [hout _ hnd.1]
        simp [InventoryMap.set]
      refine hP m' s' H' (⟨it, id, u⟩ :: plan) (by simp [hplan]) ?_ ?_ ?_ hw' (hs'.trans htr₁)
      · intro b hb
        rcases List.mem_cons.mp hb with rfl | hb
        · exact ⟨⟨d, hd, hdu⟩, not_lt.mp hge⟩
        · exact hlocked b hb
      · simpa [hmid] using hm'
      · intro p hp
        rw [List.map_cons, List.mem_cons, not_or] at hp
        rw [hout p hp.2]
        simp [InventoryMap.set, hp.1]

/-! ### The rows of a plan -/

section Rows

variable {plan : List Booking} {b : Booking}

@[simp] lemma lockedChange_stock (Δ : Change) (plan : List Booking) :
    (lockedChange Δ plan).stock = Δ.stock := by
  induction plan generalizing Δ with
  | nil => rfl
  | cons b plan ih => exact ih _

@[simp] lemma lockedChange_res (Δ : Change) (plan : List Booking) :
    (lockedChange Δ plan).res = Δ.res := by
  induction plan generalizing Δ with
  | nil => rfl
  | cons b plan ih => exact ih _

@[simp] lemma lockedChange_ord (Δ : Change) (plan : List Booking) :
    (lockedChange Δ plan).ord = Δ.ord := by
  induction plan generalizing Δ with
  | nil => rfl
  | cons b plan ih => exact ih _

lemma lockedChange_was_of_not_mem (Δ : Change) {k : ℕ} (h : k ∉ plan.map Booking.id) :
    (lockedChange Δ plan).was k = Δ.was k := by
  induction plan generalizing Δ with
  | nil => rfl
  | cons b plan ih =>
    rw [List.map_cons, List.mem_cons, not_or] at h
    exact (ih _ h.2).trans (Change.know_was_of_ne _ _ h.1)

lemma lockedChange_was_of_mem (Δ : Change) (hnd : (plan.map Booking.id).Nodup) (h : b ∈ plan) :
    (lockedChange Δ plan).was b.id = some b.row := by
  induction plan generalizing Δ with
  | nil => cases h
  | cons b' plan ih =>
    rw [List.map_cons, List.nodup_cons] at hnd
    rcases List.mem_cons.mp h with rfl | h
    · exact (lockedChange_was_of_not_mem _ hnd.1).trans (Change.know_was_self _ _ _)
    · exact ih _ hnd.2 h

@[simp] lemma reservedChange_was (Δ : Change) (plan : List Booking) :
    (reservedChange Δ plan).was = Δ.was := by
  induction plan generalizing Δ with
  | nil => rfl
  | cons b plan ih => exact ih _

@[simp] lemma reservedChange_res (Δ : Change) (plan : List Booking) :
    (reservedChange Δ plan).res = Δ.res := by
  induction plan generalizing Δ with
  | nil => rfl
  | cons b plan ih => exact ih _

@[simp] lemma reservedChange_ord (Δ : Change) (plan : List Booking) :
    (reservedChange Δ plan).ord = Δ.ord := by
  induction plan generalizing Δ with
  | nil => rfl
  | cons b plan ih => exact ih _

/-- What a plan books of an inventory row. -/
def bookedQty (plan : List Booking) (k : ℕ) : ℤ :=
  (plan.map fun b => if b.id = k then b.item.qty else 0).sum

@[simp] lemma addReserved_zero (v : Inventory) : addReserved 0 v = v := by
  simp [addReserved]

lemma addReserved_addReserved (m n : ℤ) (v : Inventory) :
    addReserved m (addReserved n v) = addReserved (n + m) v := by
  simp [addReserved, add_assoc]

lemma reservedChange_stock (Δ : Change) (plan : List Booking) (k : ℕ) (v : Inventory) :
    (reservedChange Δ plan).stock k v = addReserved (bookedQty plan k) (Δ.stock k v) := by
  induction plan generalizing Δ with
  | nil => simp [reservedChange, bookedQty]
  | cons b plan ih =>
    have hb : (Δ.setStock b.id (addReserved b.item.qty)).stock k v =
        addReserved (if b.id = k then b.item.qty else 0) (Δ.stock k v) := by
      by_cases hk : b.id = k
      · subst hk
        simp [Change.setStock]
      · simp [Change.setStock, hk, Ne.symm hk]
    refine (ih _).trans ?_
    rw [hb, addReserved_addReserved]
    simp [bookedQty]

lemma reservedChange_setRes (Δ : Change) (plan : List Booking) (x : ℕ) (r : Option Reservation)
    (c : Reservation) :
    reservedChange (Δ.setRes x r c) plan = (reservedChange Δ plan).setRes x r c := by
  induction plan generalizing Δ with
  | nil => rfl
  | cons b plan ih => exact ih (Δ.setStock b.id (addReserved b.item.qty))

lemma bookedQty_of_not_mem {k : ℕ} (h : k ∉ plan.map Booking.id) : bookedQty plan k = 0 := by
  refine List.sum_eq_zero fun x hx => ?_
  obtain ⟨b, hb, rfl⟩ := List.mem_map.mp hx
  refine if_neg ?_
  rintro rfl
  exact h (List.mem_map_of_mem hb)

lemma bookedQty_of_mem (hnd : (plan.map Booking.id).Nodup) (h : b ∈ plan) :
    bookedQty plan b.id = b.item.qty := by
  induction plan with
  | nil => cases h
  | cons b' plan ih =>
    rw [List.map_cons, List.nodup_cons] at hnd
    have hcons : bookedQty (b' :: plan) b.id =
        (if b'.id = b.id then b'.item.qty else 0) + bookedQty plan b.id := by
      simp [bookedQty]
    rw [hcons]
    rcases List.mem_cons.mp h with rfl | h
    · rw [bookedQty_of_not_mem hnd.1]
      simp
    · have hne : b'.id ≠ b.id := fun he => hnd.1 (he ▸ List.mem_map_of_mem h)
      rw [ih hnd.2 h, if_neg hne, zero_add]

end Rows

/-! ### The increments -/

lemma wp_reserve {plan : List Booking} {m : InventoryMap} (hw : Work d₀ L Δ s H)
    (hm : ∀ b ∈ plan, m b.item.productId = some b.id)
    (hwas : ∀ b ∈ plan, Δ.was b.id = some b.row) {P : Unit → Sess → Held RowOf → Prop}
    {E : PyErr → Sess → Held RowOf → Prop}
    (hP : ∀ s', Work d₀ L (reservedChange Δ plan) s' H → s'.trace = s.trace → P () s' H) :
    wp R env (reserve (plan.map Booking.item) m) P E s H := by
  induction plan generalizing s Δ with
  | nil => exact hP s hw rfl
  | cons b plan ih =>
    have hitem : m.item b.item.productId = .ok b.id := by
      simp [InventoryMap.item, hm b (by simp)]
    simp only [List.map_cons, reserve, hitem, Prog.ofExcept, Prog.bind_eq, Prog.pure_bind]
    have hw' := hw.modifyStock (hw.of_was (hwas b (by simp))) (addReserved b.item.qty)
    refine ih hw' (fun b' hb' => hm b' (by simp [hb'])) (fun b' hb' => hwas b' (by simp [hb'])) ?_
    intro s' hs' htr
    exact hP s' hs' (by rw [htr, Session.modify_trace])

/-! ### The items and their holds -/

/-- The change while the items of the new reservation `rid` are created: `c` is the reservation,
`plan` the bookings that are left. -/
structure Booked (d₀ : Db) (L : List RowKey) (rid : ℕ) (Δ : Change) (c : Reservation)
    (plan : List Booking) : Prop where
  res : Δ.res rid = some (none, c)
  free : ∀ x, x ≠ rid → Δ.res x = none
  ord : ∀ x, Δ.ord x = none
  was : ∀ b ∈ plan, Δ.was b.id = some b.row
  stock : ∀ b ∈ plan, Δ.stock b.id b.row = addReserved b.item.qty b.row
  nodup : (plan.map Booking.id).Nodup
  loaded : ∀ b ∈ plan, .product b.row.productId ∈ L ∧ .provider b.row.providerId ∈ L

namespace Booked

variable {rid : ℕ} {c : Reservation} {b : Booking} {plan : List Booking}

lemma setRes (h : Booked d₀ L rid Δ c plan) (c' : Reservation) :
    Booked d₀ L rid (Δ.setRes rid none c') c' plan :=
  ⟨Change.setRes_res_self _ _ _ _, fun x hx => (Change.setRes_res_of_ne _ _ _ hx).trans (h.free x hx),
    h.ord, h.was, h.stock, h.nodup, h.loaded⟩

/-- The other rows do not change with the first one. -/
lemma tail (h : Booked d₀ L rid Δ c (b :: plan)) (f : Inventory → Inventory) :
    Booked d₀ L rid (Δ.setStock b.id f) c plan where
  res := h.res
  free := h.free
  ord := h.ord
  was b' hb' := h.was b' (by simp [hb'])
  stock b' hb' := by
    have hne : b'.id ≠ b.id := by
      intro he
      have := h.nodup
      rw [List.map_cons, List.nodup_cons] at this
      exact this.1 (he ▸ List.mem_map_of_mem hb')
    simpa [Change.setStock, hne] using h.stock b' (by simp [hb'])
  nodup := (List.nodup_cons.mp h.nodup).2
  loaded b' hb' := h.loaded b' (by simp [hb'])

/-- A flush fails only if the id of the new reservation is in use. -/
lemma flush (h : Booked d₀ L rid Δ c plan) (hR : Steady d₀ R) (hw : Work d₀ L Δ s H)
    {P : Unit → Sess → Held RowOf → Prop} {E : PyErr → Sess → Held RowOf → Prop}
    (hok : ∀ s' H', Work d₀ L Δ s' H' → s'.trace = s.trace → P () s' H')
    (hfail : ∀ d s' H', R.seen d → d.reservations.get rid ≠ none → E .integrityError s' H') :
    wp R env InventoryReservation.flush P E s H := by
  refine hw.flush hR hok fun s' H' _ hc => ?_
  rcases hw.clash hR hc with ⟨x, c', d, hx, hd, hr⟩ | ⟨x, o, d, hx, -⟩
  · obtain rfl : x = rid := by
      by_contra hne
      simp [h.free x hne] at hx
    exact hfail d s' H' hd hr
  · simp [h.ord x] at hx

end Booked

/-- The change by the hold of a booking. -/
def heldChange (d₀ : Db) (Δ : Change) (b : Booking) : Change :=
  if b.isInternal d₀ then Δ.setStock b.id (addReserved b.item.qty) else Δ

lemma heldChange_setRes (d₀ : Db) (Δ : Change) (b : Booking) (x : ℕ) (r : Option Reservation)
    (c : Reservation) :
    heldChange d₀ (Δ.setRes x r c) b = (heldChange d₀ Δ b).setRes x r c := by
  unfold heldChange
  split <;> rfl

lemma reservedChange_filter_cons (d₀ : Db) (Δ : Change) (b : Booking) (plan : List Booking) :
    reservedChange Δ ((b :: plan).filter (Booking.isInternal d₀)) =
      reservedChange (heldChange d₀ Δ b) (plan.filter (Booking.isInternal d₀)) := by
  by_cases hb : b.isInternal d₀
  · rw [List.filter_cons_of_pos hb, heldChange, if_pos hb]
    rfl
  · rw [List.filter_cons_of_neg hb, heldChange, if_neg hb]

/-- The adapter that `resolve` chooses. -/
lemma resolve_ok {p : InventoryProvider} {b : Booking} {a : ProviderAdapter}
    (hp : d₀.providers.get b.row.providerId = some p)
    (h : ProviderRegistry.resolve p (some b.id) = .ok a) :
    (a = .internal b.id ∧ b.isInternal d₀) ∨ (∃ e, a = .external e) ∧ ¬b.isInternal d₀ := by
  unfold ProviderRegistry.resolve at h
  rcases ht : p.type with _ | _ <;> simp only [ht] at h
  · cases h
    exact Or.inl ⟨rfl, by simp [Booking.isInternal, hp, ht]⟩
  · rcases hn : ExternalHttpProviderAdapter.new p with e | e <;> rw [hn] at h <;> cases h
    exact Or.inr ⟨⟨e, rfl⟩, by simp [Booking.isInternal, hp, ht]⟩

/-- What is proved about the item `ri` of a booking after `o`: the change has the item last. -/
def Holds (env : Env) (d₀ : Db) (L : List RowKey) (rid : ℕ) (Δ : Change) (c : Reservation)
    (pre : List ReservationItem) (b : Booking) (o : ProviderTalk ReservationItem) (s : Sess)
    (P : Unit → Sess → Held RowOf → Prop) (E : PyErr → Sess → Held RowOf → Prop) : Prop :=
  match o.result with
  | .ok ri => ∀ s' H', Work d₀ L ((heldChange d₀ Δ b).setRes rid none
      { c with items := pre ++ [ri] }) s' H' → s'.trace = s.trace ++ answers env o.asks → P () s' H'
  | .error e => ∀ s' H', s'.trace = s.trace ++ answers env o.asks → E e s' H'

/-- An item gets the answer of its provider. -/
lemma Work.setLast {rid : ℕ} {c : Reservation} {pre : List ReservationItem} {ri : ReservationItem}
    (h : Work d₀ L Δ s H) (hres : Δ.res rid = some (none, c)) (hc : c.items = pre ++ [ri])
    (f : ReservationItem → ReservationItem) :
    Work d₀ L (Δ.setRes rid none { c with items := pre ++ [f ri] })
      (s.modify (.reservation rid) fun r => r.setItem pre.length f) H := by
  have := h.modifyRes hres fun r => r.setItem pre.length f
  rwa [setItem_append hc] at this

lemma wp_callProvider {rid : ℕ} {c : Reservation} {b : Booking} {plan : List Booking}
    {pre : List ReservationItem} {p : InventoryProvider} {a : ProviderAdapter}
    (hw : Work d₀ L Δ s H) (hb : Booked d₀ L rid Δ c (b :: plan))
    (hc : c.items = pre ++ [b.newItem])
    (hp : d₀.providers.get b.row.providerId = some p)
    (ha : ProviderRegistry.resolve p (some b.id) = .ok a)
    {P : Unit → Sess → Held RowOf → Prop} {E : PyErr → Sess → Held RowOf → Prop}
    (h : Holds env d₀ L rid Δ c pre b (b.adapterTalk env d₀ rid pre.length a) s P E) :
    wp R env (callProvider rid pre.length b.item b.row.productId a) P E s H := by
  have hprod := hw.product (hb.loaded b (by simp)).1
  unfold callProvider
  simp only [Prog.tryCatch_eq, Prog.bind_eq, wp_tryCatch, wp_bind, obj, wp, hprod]
  unfold Booking.adapterTalk at h
  rcases hpr : d₀.products.get b.row.productId with _ | product
  · rw [hpr] at h
    exact h s H (by simp [Talk.raise])
  rw [hpr] at h
  simp only at h
  simp only [Prog.pure_eq, wp]
  rcases resolve_ok hp ha with ⟨rfl, hint⟩ | ⟨⟨e, rfl⟩, hext⟩
  · have hval := hw.stock_val (hb.was b (by simp))
    rw [hb.stock b (by simp)] at hval
    simp only [ProviderAdapter.holdStock, InternalProviderAdapter.holdStock, Prog.bind_eq, wp_bind,
      obj, wp, hval, Prog.pure_eq]
    simp only [ProviderAdapter.holdTalk] at h
    split
    · next hlt =>
      rw [if_pos hlt] at h
      exact h s H (by simp [Talk.raise, Talk.bind, Talk.handle, Booking.refused])
    next hge =>
    rw [if_neg hge] at h
    have hm := (hw.modifyStock (hw.of_was (hb.was b (by simp))) (addReserved b.item.qty)).setLast
      hb.res hc fun ri => { ri with providerHoldRef := none, providerStatus := .held }
    refine h _ H ?_ (by simp [Talk.pure, Talk.bind, Talk.handle])
    rw [heldChange, if_pos hint]
    exact hm
  · rw [wp_bind]
    refine e.callWith_talks env _ _ _ _ R _ _ s H ?_
    simp only [ProviderAdapter.holdTalk] at h
    generalize e.talkWith env "hold_stock" (.item rid pre.length)
      (e.holdRequest product.sku b.item.qty rid)
      (ExternalHttpProviderAdapter.holdReply product.sku) = o at h ⊢
    have hΔ : heldChange d₀ Δ b = Δ := by rw [heldChange, if_neg hext]
    rw [Holds, hΔ] at h
    obtain ⟨qs, err | ref⟩ := o
    · -- of the exceptions, an outage is noted at the item
      have hout : ∀ exc, b.refused err = .pure (b.failedItem exc) →
          P () ((s.asked env qs).modify (.reservation rid) fun r => r.setItem pre.length fun ri =>
            { ri with providerStatus := .providerFailed, providerErrorMessage := some exc }) H := by
        intro exc hr
        have hm := (hw.asked env qs).setLast hb.res hc fun ri =>
          { ri with providerStatus := .providerFailed, providerErrorMessage := some exc }
        simp only [Talk.bind, Talk.handle, hr, Talk.pure] at h
        exact h _ H hm (by simp)
      have hraise : ∀ e', b.refused err = .raise e' → E e' (s.asked env qs) H := by
        intro e' hr
        simp only [Talk.bind, Talk.handle, hr, Talk.raise] at h
        exact h _ H (by simp)
      cases err with
      | insufficientProviderStock exc => exact hraise _ rfl
      | providerTimeout exc => exact hout exc rfl
      | providerUnavailable exc => exact hout exc rfl
      | _ => exact hraise _ rfl
    · have hm := (hw.asked env qs).setLast hb.res hc fun ri =>
        { ri with providerHoldRef := ref, providerStatus := .held }
      refine h _ H hm ?_
      simp [Talk.bind, Talk.handle, Talk.pure]

lemma Booked.heldChange {rid : ℕ} {c : Reservation} {b : Booking} {plan : List Booking}
    (h : Booked d₀ L rid Δ c (b :: plan)) :
    Booked d₀ L rid (heldChange d₀ Δ b) c plan := by
  unfold InventoryReservation.heldChange
  split
  · exact h.tail _
  · have := h.tail id
    rwa [show Δ.setStock b.id id = Δ by simp [Change.setStock]] at this

/-- The loop over the items. -/
lemma wp_holdItems (hR : Steady d₀ R) {rid : ℕ} {c : Reservation} {plan : List Booking}
    (pre : List ReservationItem) {m : InventoryMap} (hw : Work d₀ L Δ s H)
    (hb : Booked d₀ L rid Δ c plan) (hc : c.items = pre)
    (hm : ∀ b ∈ plan, m b.item.productId = some b.id)
    {P : Unit → Sess → Held RowOf → Prop} {E : PyErr → Sess → Held RowOf → Prop}
    (hfail : ∀ d s' H', R.seen d → d.reservations.get rid ≠ none → E .integrityError s' H')
    (h : match (bookTalks env d₀ rid plan pre.length).result with
      | .ok ris => ∀ s' H', Work d₀ L ((reservedChange Δ (plan.filter (Booking.isInternal d₀))).setRes
          rid none { c with items := pre ++ ris }) s' H' →
          s'.trace = s.trace ++ answers env (bookTalks env d₀ rid plan pre.length).asks → P () s' H'
      | .error e => ∀ s' H',
          s'.trace = s.trace ++ answers env (bookTalks env d₀ rid plan pre.length).asks → E e s' H') :
    wp R env (holdItems rid (plan.map Booking.item) pre.length m) P E s H := by
  induction plan generalizing Δ c pre s H with
  | nil =>
    refine h s H ?_ (by simp [bookTalks, Talk.pure])
    have hΔ : (reservedChange Δ ([].filter (Booking.isInternal d₀))).setRes rid none
        { c with items := pre ++ [] } = Δ := by
      rw [List.append_nil, ← hc]
      exact Change.setRes_self hb.res
    rwa [hΔ]
  | cons b plan ih =>
    have hitem : m.item b.item.productId = .ok b.id := by
      simp [InventoryMap.item, hm b (by simp)]
    have hval := hw.stock_val (hb.was b (by simp))
    rw [hb.stock b (by simp)] at hval
    simp only [List.map_cons, holdItems, hitem, Prog.ofExcept, Prog.bind_eq, Prog.pure_bind, wp_bind]
    refine wp_obj hval ?_
    have hw₁ := hw.modifyRes hb.res fun r => { r with items := r.items ++ [b.newItem] }
    have hb₁ := hb.setRes { c with items := c.items ++ [b.newItem] }
    rw [hc] at hw₁ hb₁
    rw [wp_bind]
    show wp R env (Prog.bind flush _) _ _ _ _
    rw [wp_bind]
    -- the item is sent to the database before its provider is asked
    refine hb₁.flush hR hw₁ (fun s₂ H₂ hw₂ htr₂ => ?_) hfail
    rw [Session.modify_trace] at htr₂
    have hprov := hw₂.provider (hb.loaded b (by simp)).2
    rw [wp_bind]
    simp only [obj, wp, addReserved, hprov]
    rw [bookTalks, Booking.talk] at h
    -- without a provider or an adapter the loop ends here
    rcases hp : d₀.providers.get b.row.providerId with _ | p
    · rw [hp] at h
      exact h s₂ H₂ (by simp [Talk.raise, Talk.bind, htr₂])
    rw [hp] at h
    simp only [Prog.pure_eq, wp]
    simp only at h
    rcases ha : ProviderRegistry.resolve p (some b.id) with e | a
    · rw [ha] at h
      exact h s₂ H₂ (by simp [Talk.ofExcept, Talk.bind, htr₂])
    rw [ha] at h
    have htalk : (Talk.ofExcept (Except.ok a) : ProviderTalk ProviderAdapter).bind
        (fun a => b.adapterTalk env d₀ rid pre.length a) = b.adapterTalk env d₀ rid pre.length a := by
      simp [Talk.ofExcept, Talk.bind]
    rw [htalk] at h
    simp only [Prog.pure_bind, wp_bind]
    refine wp_callProvider hw₂ hb₁ rfl hp ha ?_
    rw [Holds]
    rcases ho : (b.adapterTalk env d₀ rid pre.length a).result with e | ri
    · intro s' H' hs'
      simp only [Talk.bind, ho] at h
      exact h s' H' (by rw [hs', htr₂])
    · intro s₃ H₃ hw₃ hs₃
      -- the item has its answer, and the loop goes on behind it
      have hpre : pre.length + 1 = (pre ++ [ri]).length := by simp
      have hb₃ := hb₁.heldChange.setRes { c with items := pre ++ [ri] }
      simp only [Talk.bind, ho] at h
      rw [hpre] at h ⊢
      refine ih _ hw₃ hb₃ rfl (fun b' hb' => hm b' (by simp [hb'])) ?_
      rw [reservedChange_filter_cons] at h
      simp only [heldChange_setRes, reservedChange_setRes, Change.setRes_setRes]
      have hs : ∀ (s' : Sess) qs, s'.trace = s₃.trace ++ answers env qs → s'.trace = s.trace ++
          answers env ((b.adapterTalk env d₀ rid pre.length a).asks ++ qs) := by
        intro s' qs hs'
        rw [hs', hs₃, htr₂, answers_append, List.append_assoc]
      rcases hr : (bookTalks env d₀ rid plan (pre ++ [ri]).length).result with e | ris
      · simp only [hr] at h
        exact fun s' H' hs' => h s' H' (hs s' _ hs')
      · simp only [hr, Talk.pure, List.append_nil] at h
        simp only [List.append_assoc, List.singleton_append]
        exact fun s' H' hw' hs' => h s' H' hw' (hs s' _ hs')

/-! ### The operation -/

/-- A row that was offered is of the item's product. -/
lemma Offered.row (hseen : ∀ d, seen d → Static d₀ d) {cs : List (CreateItem × ℕ)} {i : ℕ}
    (h : Offered env seen cs i) : ∀ c ∈ cs, ∃ r, d₀.inventory.get c.2 = some r ∧
      r.productId = c.1.productId := by
  induction cs generalizing i with
  | nil => simp
  | cons c cs ih =>
    obtain ⟨⟨d, v, hd, hc, -⟩, h⟩ := h
    intro c' hc'
    rcases List.mem_cons.mp hc' with rfl | hc'
    · obtain ⟨-, r, -, hr, -, hp⟩ := (hseen d hd).row_of_choose hc
      exact ⟨r, hr, hp⟩
    · exact ih h c' hc'

namespace Admitted

variable {items : List CreateItem} {plan : List Booking} {b : Booking}

/-- The row of a booking, up to the counters. -/
lemma row (h : Admitted env seen items plan) (hseen : ∀ d, seen d → Static d₀ d)
    (hb : b ∈ plan) : ∃ r, d₀.inventory.get b.id = some r ∧ r.ident = b.row.ident ∧
      r.productId = b.item.productId := by
  obtain ⟨r, hr, hp⟩ := h.offered.row hseen (b.item, b.id) (List.mem_map.mpr ⟨b, hb, rfl⟩)
  obtain ⟨⟨d, hd, hrow⟩, -⟩ := h.locked b hb
  have := (hseen d hd).stock b.id
  rw [hrow, hr] at this
  exact ⟨r, hr, (Option.some.inj this).symm, hp⟩

/-- Different products have different rows. -/
lemma nodup (h : Admitted env seen items plan) (hseen : ∀ d, seen d → Static d₀ d)
    (hnd : (items.map CreateItem.productId).Nodup) : (plan.map Booking.id).Nodup := by
  have hmap : (plan.map Booking.id).map (fun k => (d₀.inventory.get k).map Inventory.productId) =
      (items.map CreateItem.productId).map some := by
    rw [← h.items, List.map_map, List.map_map, List.map_map]
    refine List.map_congr_left fun b hb => ?_
    obtain ⟨r, hr, -, hp⟩ := h.row hseen hb
    simp [hr, hp]
  exact List.Nodup.of_map _ (hmap ▸ hnd.map (Option.some_injective ℕ))

end Admitted

theorem create_meets (hR : Steady d₀ R) (cfg : Settings) (userId : String)
    {items : List CreateItem} (hnd : (items.map CreateItem.productId).Nodup) :
    Meets d₀ R env (create cfg userId items) (Creates cfg env d₀ R userId items)
      (CreateRaises env d₀ R items) := by
  unfold Meets create
  simp only [Prog.bind_eq]
  rw [wp, wp_bind]
  -- the rows that are offered
  refine wp_preflight hR ((Work.init d₀).log (.now 0) (env (.now 0))) rfl
    (show Scanned d₀ [] _ from fun k hk => absurd rfl hk) hnd (by simp) (fun e qs s' h hs' => ?_) ?_
  · rw [hs']
    exact .preflight h
  intro m L s₁ cs hcs ho hm _ hload _ hw₁ _ htr₁
  replace htr₁ : s₁.trace = answers env (.now 0 :: ties items 0) := htr₁
  subst hcs
  rw [wp_bind]
  have hrow := ho.row hR.static
  -- the rows under their locks
  refine wp_lockRows hR hw₁ (fun _ => rfl) hm (fun c hc hn => ?_) (by simpa [Function.comp_def] using hnd)
    (fun e s' H' h hs' => ?_) ?_
  · obtain ⟨r, hr, -⟩ := hrow c hc
    rw [hn] at hr
    cases hr
  · rw [hs', htr₁]
    exact .lock rfl ho h
  intro m' s₂ H₂ plan hplan hlocked hm' _ hw₂ htr₂
  rw [htr₁] at htr₂
  have hitems : cs.map Prod.fst = plan.map Booking.item := by
    rw [← hplan, List.map_map]
    rfl
  have hadm : Admitted env R.seen (cs.map Prod.fst) plan := ⟨hitems.symm, hplan ▸ ho, hlocked⟩
  have hids := hadm.nodup hR.static hnd
  have hmap : ∀ b ∈ plan, m' b.item.productId = some b.id := by
    intro b hb
    exact hm' (b.item, b.id) (hplan ▸ List.mem_map.mpr ⟨b, hb, rfl⟩)
  have hwas : ∀ b ∈ plan, (lockedChange .nothing plan).was b.id = some b.row :=
    fun b hb => lockedChange_was_of_mem _ hids hb
  rw [hitems] at htr₂ hadm ⊢
  rw [wp_bind]
  -- the counters and the reservation itself
  refine wp_reserve hw₂ hmap hwas fun s₃ hw₃ htr₃ => ?_
  intro rid hid
  have hres : (reservedChange (lockedChange .nothing plan) plan).res = fun _ => none := by
    simp [Change.nothing]
  have hord : (reservedChange (lockedChange .nothing plan) plan).ord = fun _ => none := by
    simp [Change.nothing]
  refine ⟨hw₃.res_free (by rw [hres]), ?_⟩
  have hw₄ := hw₃.insertRes rid (by rw [hres]) ⟨userId, .pending,
    env (.now 0) + minutes cfg.reservationTtlMinutes, []⟩
  have hbooked : Booked d₀ L rid _ _ plan := ⟨Change.setRes_res_self
      (reservedChange (lockedChange .nothing plan) plan) rid none ⟨userId, .pending,
        env (.now 0) + minutes cfg.reservationTtlMinutes, []⟩,
    fun x hx => by rw [Change.setRes_res_of_ne _ _ _ hx, hres], fun x => by rw [Change.setRes_ord, hord],
    fun b hb => by simpa using hwas b hb, fun b hb => ?_, hids, fun b hb => ?_⟩
  rotate_left
  · rw [Change.setRes_stock, reservedChange_stock, bookedQty_of_mem hids hb]
    simp [Change.nothing]
  · obtain ⟨r, hr, hri, -⟩ := hadm.row hR.static hb
    have hl := hload (b.item, b.id) (hplan ▸ List.mem_map.mpr ⟨b, hb, rfl⟩) r hr
    rwa [show r.productId = b.row.productId from congrArg Prod.fst hri,
      show r.providerId = b.row.providerId from congrArg Prod.snd hri] at hl
  have hfail : ∀ (d : Db) (s' : Sess), R.seen d → d.reservations.get rid ≠ none →
      CreateRaises env d₀ R (plan.map Booking.item) .integrityError s'.trace :=
    fun d s' hd hr => .integrity hid hd hr
  rw [wp_bind]
  refine hbooked.flush hR hw₄ (fun s₅ H₅ hw₅ htr₅ => ?_) fun d s' _ => hfail d s'
  rw [Session.insert_trace, htr₃, htr₂] at htr₅
  rw [wp_bind]
  -- the holds of the items
  refine wp_holdItems hR [] hw₅ hbooked rfl hmap (fun d s' _ => hfail d s') ?_
  simp only [List.length_nil, List.nil_append, reservedChange_setRes, Change.setRes_setRes]
  have htrace : ∀ (s' : Sess) qs, s'.trace = s₅.trace ++ answers env qs → s'.trace = answers env
      (.now 0 :: ties (plan.map Booking.item) 0 ++ qs) := by
    intro s' qs hs'
    rw [hs', htr₅, ← answers_append]
  rcases hr : (bookTalks env d₀ rid plan 0).result with e | ris
  · intro s' H' hs'
    rw [htrace s' _ hs']
    exact .provider hadm hid hr
  intro s₆ H₆ hw₆ htr₆
  have hb₆ : Booked d₀ L rid (bookChange cfg env d₀ userId plan rid ris) _ [] :=
    ⟨Change.setRes_res_self _ _ _ _, fun x hx => by
      rw [bookChange, Change.setRes_res_of_ne _ _ _ hx, reservedChange_res, hres],
      fun x => by rw [bookChange, Change.setRes_ord, reservedChange_ord, hord], by simp, by simp,
      List.nodup_nil, by simp⟩
  rw [wp_bind]
  refine hb₆.flush hR hw₆ (fun s₇ H₇ hw₇ htr₇ => ?_) fun d s' _ => hfail d s'
  rw [wp_bind]
  refine wp_obj (hw₇.res_val hb₆.res) ⟨some (bookChange cfg env d₀ userId plan rid ris), ?_, L, hw₇⟩
  rw [htr₇, htrace s₆ _ htr₆]
  exact .mk hadm hid hr

end InventoryReservation
