/-
# The published availability and admission

`get_availability` reports the free stock of every row of a product.  A request whose items all
have a source with enough free stock is admitted, except that an internal provider asks for the
quantity a second time.
-/
import InventoryReservation.Admission

namespace InventoryReservation

open RowTxn ReservationService InventoryRepository

variable {cfg : Settings} {env : Env} {d : Db} {userId : String} {items : List CreateItem}
  {plan : List Booking} {i rid : ℕ}

/-! ### The report -/

/-- The report entry of a row. -/
def Inventory.source (d : Db) (v : Inventory) : Source where
  providerId := v.providerId
  providerName := ((d.providers.get v.providerId).map InventoryProvider.name).getD "unknown"
  qtyAvailable := v.qtyAvailable
  qtyReserved := v.qtyReserved
  effectiveAvailable := v.qtyAvailable - v.qtyReserved
  lastSyncedAt := v.lastSyncedAt

/-- The rows of a product. -/
def productRows (d : Db) (productId : ℕ) : List (ℕ × Inventory) :=
  d.inventory.rows.filter fun r => r.2.productId = productId

/-- What `get_availability` reports. -/
def published (d : Db) (productId : ℕ) : List Source :=
  (productRows d productId).map fun r => r.2.source d

lemma mem_productRows {p k : ℕ} {v : Inventory} :
    (k, v) ∈ productRows d p ↔ d.inventory.get k = some v ∧ v.productId = p := by
  simp [productRows]

lemma mem_published {p : ℕ} {s : Source} : s ∈ published d p ↔
    ∃ k v, d.inventory.get k = some v ∧ v.productId = p ∧ s = v.source d := by
  simp only [published, List.mem_map, Prod.exists, mem_productRows]
  constructor
  · rintro ⟨k, v, ⟨hv, hp⟩, rfl⟩
    exact ⟨k, v, hv, hp, rfl⟩
  · rintro ⟨k, v, hv, hp, rfl⟩
    exact ⟨k, v, ⟨hv, hp⟩, rfl⟩

lemma wp_sources {R : Rely Db RowKey} {s : Sess} {H : Held RowOf} {rs : List (ℕ × Inventory)}
    (hrow : ∀ r ∈ rs, s.val (.inventory r.1) = some r.2)
    (hprov : ∀ r ∈ rs, s.val (.provider r.2.providerId) = d.providers.get r.2.providerId)
    {P : List Source → Sess → Held RowOf → Prop} {E : PyErr → Sess → Held RowOf → Prop}
    (h : P (rs.map fun r => r.2.source d) s H) :
    wp R env (InventoryService.sources (rs.map Prod.fst)) P E s H := by
  induction rs generalizing P with
  | nil => exact h
  | cons r rs ih =>
    rw [List.map_cons, InventoryService.sources, Prog.bind_eq, wp_bind, InventoryService.source,
      Prog.bind_eq, wp_bind]
    refine wp_obj (hrow r (by simp)) ?_
    have hp := hprov r (by simp)
    simp only [wp, hp, Prog.pure_eq, Prog.bind_eq, wp_bind]
    exact ih (fun r' hr' => hrow r' (by simp [hr'])) (fun r' hr' => hprov r' (by simp [hr'])) h

/-- The report is about the database as it is. -/
theorem getAvailability_reports (env : Env) (d : Db) (p : ℕ) :
    (transact env d (InventoryService.getAvailability p)).result = .ok (published d p) := by
  have hw : wp (Rely.solo d) env (InventoryService.getAvailability p)
      (fun a _ _ => a = published d p) (fun _ _ _ => False) Session.init fun _ => none := by
    unfold InventoryService.getAvailability getAllByProduct
    simp only [Prog.bind_eq, Prog.bind, Prog.pure_eq]
    intro d' hd'
    rw [seen_solo hd', show (Session.init : Sess).own d = d from rfl]
    change wp _ _ (InventoryService.sources ((productRows d p).map Prod.fst)) _ _
      (Session.init.load ((productRows d p).flatMap fun r => rowKeys d r.1) d) _
    have hmem : ∀ r ∈ productRows d p,
        ∀ k ∈ [RowKey.inventory r.1, .product r.2.productId, .provider r.2.providerId],
          k ∈ (productRows d p).flatMap fun r => rowKeys d r.1 := by
      rintro ⟨k, v⟩ hr key hkey
      refine List.mem_flatMap.mpr ⟨(k, v), hr, ?_⟩
      rw [rowKeys, (mem_productRows.mp hr).1]
      exact hkey
    refine wp_sources (fun r hr => ?_) (fun r hr => ?_) rfl
    · rw [Session.val_load, Session.val_init, Option.none_or, if_pos (hmem r hr _ (by simp))]
      exact (mem_productRows.mp (show (r.1, r.2) ∈ productRows d p from hr)).1
    · rw [Session.val_load, Session.val_init, Option.none_or, if_pos (hmem r hr _ (by simp))]
      rfl
  obtain ⟨H, -, hend⟩ := solo_of_wp (Prog.takesIds_of_le (fun _ hm => hm) _) (Alone.init d) hw
  unfold transact
  generalize solo env d (InventoryService.getAvailability p) (RowStore.fresh d) Session.init = out
    at hend
  obtain ⟨e | a, s⟩ := out
  · exact hend.elim
  · exact congrArg Except.ok hend

/-! ### Choices and the report -/

/-- A row is chosen for a product that has rows, and no other row of it has more room. -/
lemma chosen_of_published (env : Env) (i : ℕ) {it : CreateItem} {s : Source}
    (hs : s ∈ published d it.productId) :
    ∃ k v, chosen env d i it = some k ∧ d.inventory.get k = some v ∧
      s.effectiveAvailable ≤ v.effective := by
  obtain ⟨j, u, hu, hp, rfl⟩ := mem_published.mp hs
  rcases hc : chosen env d i it with _ | k
  · exfalso
    -- among the rows of the product there is one with the most room
    obtain ⟨r, hr, hmax⟩ := (productRows d it.productId).toFinset.exists_max_image
      (fun r => r.2.effective) ⟨(j, u), List.mem_toFinset.mpr (mem_productRows.mpr ⟨hu, hp⟩)⟩
    rw [List.mem_toFinset] at hr
    have hbest : r.1 ∈ best d it.productId := by
      obtain ⟨hr1, hr2⟩ := mem_productRows.mp (show (r.1, r.2) ∈ _ from hr)
      exact mem_best.mpr ⟨r.2, hr1, hr2, fun id' r' hr' hp' =>
        hmax (id', r') (List.mem_toFinset.mpr (mem_productRows.mpr ⟨hr', hp'⟩))⟩
    rw [choose_eq_none.mp hc] at hbest
    cases hbest
  · obtain ⟨v, hv, -, hmax⟩ := mem_best.mp (mem_of_choose hc)
    exact ⟨k, v, rfl, hv, hmax j u hu hp⟩

/-- The report for the item has a source with enough free stock. -/
def Sufficient (env : Env) (d : Db) (it : CreateItem) : Prop :=
  ∃ ss s, (transact env d (InventoryService.getAvailability it.productId)).result = .ok ss ∧
    s ∈ ss ∧ it.qty ≤ s.effectiveAvailable

lemma sufficient_iff {it : CreateItem} :
    Sufficient env d it ↔ ∃ s ∈ published d it.productId, it.qty ≤ s.effectiveAvailable := by
  constructor
  · rintro ⟨ss, s, hss, hs, hle⟩
    rw [getAvailability_reports] at hss
    cases hss
    exact ⟨s, hs, hle⟩
  · rintro ⟨s, hs, hle⟩
    exact ⟨_, s, getAvailability_reports env d _, hs, hle⟩

lemma Fitting.sufficient (h : Fitting env d plan i) :
    ∀ it ∈ plan.map Booking.item, Sufficient env d it := by
  intro it hit
  obtain ⟨b, hb, rfl⟩ := List.mem_map.mp hit
  obtain ⟨j, hfit⟩ := h.of_mem hb
  exact sufficient_iff.mpr ⟨b.row.source d,
    mem_published.mpr ⟨b.id, b.row, hfit.row, hfit.product, rfl⟩, hfit.room⟩

/-- A request whose items all have a sufficient source has a plan. -/
lemma exists_fitting (h : ∀ it ∈ items, Sufficient env d it) (i : ℕ) :
    ∃ plan, plan.map Booking.item = items ∧ Fitting env d plan i := by
  induction items generalizing i with
  | nil => exact ⟨[], rfl, trivial⟩
  | cons it items ih =>
    obtain ⟨s, hs, hle⟩ := sufficient_iff.mp (h it (by simp))
    obtain ⟨k, v, hc, hv, hmax⟩ := chosen_of_published env i hs
    obtain ⟨plan, hplan, hfit⟩ := ih (fun it' hit' => h it' (by simp [hit'])) (i + 1)
    exact ⟨⟨it, k, v⟩ :: plan, by simp [hplan], ⟨hc, hv, hle.trans hmax⟩, hfit⟩

/-! ### Admission -/

/-- Rows refer to products and providers that exist. -/
structure Linked (d : Db) : Prop where
  product : ∀ k v, d.inventory.get k = some v → d.products.get v.productId ≠ none
  provider : ∀ k v, d.inventory.get k = some v → d.providers.get v.providerId ≠ none

/-- The provider can be asked for holds. -/
def InventoryProvider.HoldsStock (p : InventoryProvider) : Prop :=
  ∃ a, ExternalHttpProviderAdapter.new p = .ok a ∧ a.requireCapability "hold_stock" = .ok ()

/-- Every external provider grants every hold. -/
structure Granting (env : Env) (d : Db) : Prop where
  provider : ∀ j p, d.providers.get j = some p → p.type = .external → p.HoldsStock
  reply : ∀ x i r, r.kind = some .hold → ∃ s qty ref detail,
    env (.http (.item x i) r) = .response s ∧ s.isSuccess ∧ s.body = .object qty (some ref) detail

/-- Rows of internal providers that are chosen have room for the quantity twice. -/
def RoomTwice (env : Env) (d : Db) (items : List CreateItem) : Prop :=
  ∀ i it k v, items[i]? = some it → chosen env d i it = some k → d.inventory.get k = some v →
    d.isInternal k → 2 * it.qty ≤ v.effective

/-- An item is booked on a row of its product with the most room. -/
structure BookedBest (env : Env) (d : Db) (it : CreateItem) (ri : ReservationItem) : Prop where
  productId : ri.productId = it.productId
  qty : ri.qtyRequested = it.qty
  row : ∃ v, d.inventory.get ri.inventoryId = some v ∧ v.productId = it.productId ∧
    ∀ ss, (transact env d (InventoryService.getAvailability it.productId)).result = .ok ss →
      ∀ s ∈ ss, s.effectiveAvailable ≤ v.effective

/-- `create` returns when the report promises it, and books the rows with the most room. -/
def AdmissionAgrees (cfg : Settings) (env : Env) (d : Db) (userId : String)
    (items : List CreateItem) : Prop :=
  ((∃ a, (serve cfg d ⟨.create userId items, env⟩).result = .ok a) ↔
    ∀ it ∈ items, Sufficient env d it) ∧
  ∀ id r, (serve cfg d ⟨.create userId items, env⟩).result = .ok (.reservation id r) →
    List.Forall₂ (BookedBest env d) items r.items

lemma isSuccess_ne_409 {s : Response} (h : s.isSuccess) : s.status ≠ 409 := by
  intro hs
  simp [Response.isSuccess, hs] at h

/-- Where providers grant all holds, a booking fails for want of room only. -/
lemma Granting.talk (hg : Granting env d) (hl : Linked d) {b : Booking} (hfit : b.Fits env d i)
    (j rid : ℕ) : (∃ ri, (b.talk env d rid j).result = .ok ri) ↔
      (d.isInternal b.id → 2 * b.item.qty ≤ b.row.effective) := by
  obtain ⟨product, hprod⟩ := Option.ne_none_iff_exists'.mp (hl.product b.id _ hfit.row)
  obtain ⟨p, hp⟩ := Option.ne_none_iff_exists'.mp (hl.provider b.id _ hfit.row)
  have hint : d.isInternal b.id ↔ p.type = .internal := by
    simp [Db.isInternal, hfit.row, hp]
  rw [hint]
  cases ht : p.type with
  | internal =>
    obtain ⟨-, hok, herr⟩ := Booking.talk_internal env rid j hp ht hprod
    refine ⟨fun h _ => ?_, fun h => ⟨_, hok (h rfl)⟩⟩
    obtain ⟨ri, hri⟩ := h
    by_contra hlt
    obtain ⟨e, he⟩ := herr (not_le.mp hlt)
    rw [he] at hri
    cases hri
  | external =>
    obtain ⟨a, ha, hcap⟩ := hg.provider _ p hp ht
    obtain ⟨s, qty, ref, detail, hs, hok, hbody⟩ :=
      hg.reply rid j (a.holdRequest product.sku b.item.qty rid) rfl
    refine ⟨fun _ hi => (by cases hi), fun _ => ⟨b.heldItem (some ref), ?_⟩⟩
    rw [Booking.talk_external hp ht ha hcap hprod, hs]
    simp [ExternalHttpProviderAdapter.holdReply, isSuccess_ne_409 hok,
      ExternalHttpProviderAdapter.raiseForStatus, hok, hbody, bind, Except.bind]

lemma Fitting.forall₂_booked {ris : List ReservationItem} (h : Fitting env d plan i)
    (hris : List.Forall₂ (Booking.Outcome d) plan ris) :
    List.Forall₂ (BookedBest env d) (plan.map Booking.item) ris := by
  induction hris generalizing i with
  | nil => exact .nil
  | @cons b ri plan ris hb _ ih =>
    refine .cons ⟨hb.productId, hb.qty, b.row, ?_, h.1.product, fun ss hss s hs => ?_⟩ (ih h.2)
    · rw [hb.inventoryId]
      exact h.1.row
    · rw [getAvailability_reports] at hss
      cases hss
      obtain ⟨k, v, hc, hv, hmax⟩ := chosen_of_published env i hs
      obtain rfl := Option.some.inj (hc.symm.trans h.1.chosen)
      rw [h.1.row] at hv
      cases hv
      exact hmax

lemma shop_linked : Linked shop where
  product
    | 1, _, rfl | 2, _, rfl | 3, _, rfl => by decide
  provider
    | 1, _, rfl | 2, _, rfl | 3, _, rfl => by decide

lemma shop_granting (now : ℤ) : Granting (calm now) shop where
  provider
    | 1, _, rfl, ht => by cases ht
    | 2, _, rfl, _ => ⟨_, rfl, rfl⟩
  reply _ _ _ _ := ⟨_, _, _, _, rfl, rfl, rfl⟩

end InventoryReservation
