/-
# The sync

`sync_from_provider` overwrites the stock of the rows of a provider with what the provider
reports.  It locks no row before its flush, so its specification is about the objects that it
has loaded and changed; what it commits is a change of the stock alone.
-/
import InventoryReservation.ProviderCalls

namespace InventoryReservation

open RowTxn InventoryService InventoryRepository

variable {env : Env} {R : Rely Db RowKey} {d₀ d : Db} {L : List RowKey} {s : Sess}
  {H : Held RowOf} {p : InventoryProvider} {ids : List ℕ} {k id pid : ℕ}

/-! ### What a sync reads -/

/-- The SKU of a row, if it has one that is not empty. -/
def skuOf (d : Db) (id : ℕ) : Option String :=
  (((d.inventory.get id).bind fun v => d.products.get v.productId).map Product.sku).filter (· ≠ "")

/-- The text of a `ProviderError`. -/
def PyErr.providerError : PyErr → Option String
  | capabilityNotSupported exc | providerTimeout exc | providerUnavailable exc
  | insufficientProviderStock exc => some exc
  | _ => none

/-- The quantity that the provider reports for a row, or the exception that comes instead. -/
def reading (env : Env) (p : InventoryProvider) (id : ℕ) (sku : String) : Except PyErr ℤ := do
  let a ← ExternalHttpProviderAdapter.new p
  ExternalHttpProviderAdapter.stockReply sku (env (.http (.row id) (a.stockRequest sku)))

/-- The report after one more row. -/
def SyncReport.add (report : SyncReport) (sku : String) : Except PyErr ℤ → Except PyErr SyncReport
  | .ok _ => .ok { report with updated := report.updated + 1 }
  | .error e =>
    match e.providerError with
    | some exc => .ok { report with errors := report.errors ++ [s!"{sku}: {exc}"] }
    | none => .error e

/-- The report after some rows. -/
def reportOn (env : Env) (d : Db) (p : InventoryProvider) :
    List ℕ → SyncReport → Except PyErr SyncReport
  | [], report => .ok report
  | id :: ids, report =>
    match skuOf d id with
    | none => reportOn env d p ids report
    | some sku => (report.add sku (reading env p id sku)).bind (reportOn env d p ids)

/-- The quantity that is reported for a row, if there is one, fits its column. -/
def rowFits (env : Env) (d : Db) (p : InventoryProvider) (id : ℕ) : Bool :=
  ((skuOf d id).bind fun sku => (reading env p id sku).toOption).all fitsInt

/-- What a row gets: the quantity that is reported, and the time. -/
def syncedTo (env : Env) (d : Db) (p : InventoryProvider) (ids : List ℕ) (k : ℕ) :
    Option (ℤ × ℤ) :=
  if k ∈ ids then
    (skuOf d k).bind fun sku => (reading env p k sku).toOption.map (·, env (.now k))
  else none

def Inventory.sync (v : Inventory) : Option (ℤ × ℤ) → Inventory
  | none => v
  | some (qty, now) => { v with qtyAvailable := qty, lastSyncedAt := some now }

@[simp] lemma Inventory.sync_ident (v : Inventory) (o : Option (ℤ × ℤ)) :
    (v.sync o).ident = v.ident := by
  cases o <;> rfl

/-- What a sync commits. -/
def syncChange (f : ℕ → Option (ℤ × ℤ)) : Change :=
  Change.nothing.onStock fun k v => v.sync (f k)

lemma skuOf_of_row {v : Inventory} (hv : (d.inventory.get k).map Inventory.ident = some v.ident) :
    skuOf d k = ((d.products.get v.productId).map Product.sku).filter (· ≠ "") := by
  obtain ⟨v₀, hv₀, hid⟩ := Option.map_eq_some_iff.mp hv
  have hp : v₀.productId = v.productId := congrArg Prod.fst hid
  simp [skuOf, hv₀, hp]

/-! ### The objects of a sync -/

/-- The session of a sync: its inventory rows are as loaded, or changed to what was reported. -/
structure Syncing (d₀ : Db) (L : List RowKey) (f : ℕ → Option (ℤ × ℤ)) (s : Sess)
    (H : Held RowOf) : Prop where
  other : ∀ key, (∀ k, key ≠ .inventory k) → ¬(s.cell H key).Touched
  product : ∀ pid, .product pid ∈ L → s.val (.product pid) = d₀.products.get pid
  stock : ∀ k, f k = none ∧ ¬(s.cell H (.inventory k)).Touched ∨
    (s.cell H (.inventory k)).Touched ∧
      ∃ u, (s.cell H (.inventory k)).Prepares (some (some u, u.sync (f k)))
  loaded : ∀ k, .inventory k ∈ L → ∃ u : Inventory,
    (s.cell H (.inventory k)).Prepares (some (some u, u.sync (f k))) ∧
      (d₀.inventory.get k).map Inventory.ident = some u.ident

namespace Syncing

variable {f : ℕ → Option (ℤ × ℤ)}

lemma log (h : Syncing d₀ L f s H) (q : Query) (a : Answer q) : Syncing d₀ L f (s.log q a) H :=
  ⟨h.other, h.product, h.stock, h.loaded⟩

/-- A row that gets what was reported for it. -/
lemma modify (h : Syncing d₀ L f s H) (hk : .inventory k ∈ L) (qty now : ℤ) :
    Syncing d₀ L (Function.update f k (some (qty, now)))
      (s.modify (.inventory k) fun r => { r with qtyAvailable := qty, lastSyncedAt := some now })
      H := by
  obtain ⟨u, hu, hid⟩ := h.loaded k hk
  have hk' : ((s.modify (.inventory k) fun r =>
      { r with qtyAvailable := qty, lastSyncedAt := some now }).cell H (.inventory k)).Prepares
        (some (some u, u.sync (some (qty, now)))) := by
    have := hu.modify fun r => { r with qtyAvailable := qty, lastSyncedAt := some now }
    have hsync : ∀ o, ({ u.sync o with qtyAvailable := qty, lastSyncedAt := some now } : Inventory) =
        u.sync (some (qty, now)) := fun o => by cases o <;> rfl
    rwa [hsync] at this
  have ht : ((s.modify (.inventory k) fun r =>
      { r with qtyAvailable := qty, lastSyncedAt := some now }).cell H (.inventory k)).Touched := by
    refine Or.inl (Session.mem_dirty_modify.mpr (Or.inr ⟨rfl, ?_⟩))
    rw [show s.val (.inventory k) = _ from hu.1]
    simp
  have hframe : ∀ key, key ≠ .inventory k → (s.modify (.inventory k) fun r =>
      { r with qtyAvailable := qty, lastSyncedAt := some now }).cell H key = s.cell H key :=
    fun key hkey => Session.cell_modify_of_ne _ hkey
  refine ⟨fun key hkey => ?_, fun pid hpid => ?_, fun j => ?_, fun j hj => ?_⟩
  · rw [hframe key (hkey k)]
    exact h.other key hkey
  · rw [Session.val_modify_of_ne _ _ (by simp)]
    exact h.product pid hpid
  · by_cases hjk : j = k
    · subst hjk
      rw [Function.update_self]
      exact Or.inr ⟨ht, u, hk'⟩
    · rw [hframe _ (by simp [hjk]), Function.update_of_ne hjk]
      exact h.stock j
  · by_cases hjk : j = k
    · subst hjk
      rw [Function.update_self]
      exact ⟨u, hk', hid⟩
    · rw [hframe _ (by simp [hjk]), Function.update_of_ne hjk]
      exact h.loaded j hj

/-- The objects of a session that has only read. -/
lemma start {L' : List RowKey} (hw : Work d₀ L' .nothing s H) (hH : ∀ key, H key = none)
    (hL : ∀ key ∈ L, key ∈ L')
    (hobj : ∀ k, .inventory k ∈ L → ∃ u : Inventory, s.objs (.inventory k) = some ⟨some u, u⟩ ∧
      (d₀.inventory.get k).map Inventory.ident = some u.ident) :
    Syncing d₀ L (fun _ => none) s H where
  other key hkey := by
    cases key with
    | product pid => exact (hw.prod pid).2
    | provider pid => exact (hw.prov pid).2
    | inventory k => exact absurd rfl (hkey k)
    | reservation x => exact hw.res x
    | order x => exact hw.ord x
  product pid hpid := hw.product (hL _ hpid)
  stock k := by
    refine Or.inl ⟨rfl, ?_⟩
    rintro (hd | hn)
    · exact (hw.stock k).dirty hd (hH _)
    · exact hn (hH _)
  loaded k hk := by
    obtain ⟨u, hu, hid⟩ := hobj k hk
    refine ⟨u, ⟨by simp [Session.val, hu, Inventory.sync], Or.inr ⟨hH _, fun o ho => ?_⟩,
      fun hne => absurd rfl hne⟩, hid⟩
    rw [show s.objs (.inventory k) = some o from ho] at hu
    cases hu
    rfl

/-- A flush changes nothing that the session has prepared. -/
lemma flushed (h : Syncing d₀ L f s H) (hg : ∀ key, R.guard key) {s' : Sess} {H' : Held RowOf}
    (hf : Flushed R s H s' H') : Syncing d₀ [] f s' H' where
  other key hkey := by
    have hn : (s.cell H key).Prepares none := h.other key hkey
    exact hn.flushed (hg key) hf
  product pid hpid := by simp at hpid
  stock k := by
    rcases h.stock k with ⟨hk, hn⟩ | ⟨ht, u, hu⟩
    · have hn : (s.cell H (.inventory k)).Prepares none := hn
      exact Or.inl ⟨hk, hn.flushed (hg _) hf⟩
    · refine Or.inr ⟨Or.inr ?_, u, hu.flushed (hg _) hf⟩
      by_cases hd : RowKey.inventory k ∈ s.dirty ∧ H (.inventory k) = none
      · obtain ⟨d, -, hH, -⟩ := hf.granted _ hd.1 hd.2
        simp [Session.cell, hH]
      · have hk : H' (.inventory k) = H (.inventory k) := hf.kept _ (by tauto)
        rcases ht with ht | ht
        · intro hn
          exact hd ⟨ht, hk.symm.trans hn⟩
        · exact fun hn => ht (hk.symm.trans hn)
  loaded k hk := by simp at hk

/-- What a sync commits is its change. -/
lemma commits (h : Syncing d₀ L f s H) {guard : RowKey → Prop} (hg : ∀ k, guard k) {d d' : Db}
    {ws : List RowKey} (hs : Settled guard s H d d' ws) : (syncChange f).Commits d d' ws where
  products := by
    funext pid
    exact hs.untouched (h.other (.product pid) (by simp))
  providers := by
    funext pid
    exact hs.untouched (h.other (.provider pid) (by simp))
  stock k := by
    rcases h.stock k with ⟨hk, hn⟩ | ⟨ht, u, hu⟩
    · have hrow : d'.inventory.get k = d.inventory.get k := hs.untouched hn
      rw [hrow]
      simp [syncChange, Change.onStock, Change.nothing, hk, Inventory.sync]
    · have hd : d.inventory.get k = some u := by
        rcases hu.2.1 with hb | ⟨hb, ho⟩
        · exact hs.held _ _ hb
        · obtain ⟨o, ho', -⟩ := Option.map_eq_some_iff.mp hu.1
          have := hs.stored _ (ht.resolve_right (not_not.mpr hb)) hb (hg _) o ho'
          rw [ho o ho'] at this
          exact this.symm
      have hd' : d'.inventory.get k = some (u.sync (f k)) := (hs.changed _ (hg _) ht).trans hu.1
      rw [hd, hd']
      rfl
  was k u hu := by simp [syncChange, Change.onStock, Change.nothing] at hu
  res x b c hx := by simp [syncChange, Change.nothing] at hx
  res_out x _ := hs.untouched (h.other (.reservation x) (by simp))
  ord x o hx := by simp [syncChange, Change.nothing] at hx
  ord_out x _ := hs.untouched (h.other (.order x) (by simp))
  wrote x hx := absurd (hs.wrote _ hx) (h.other (.reservation x) (by simp))
  same := hs.same

/-- A sync inserts nothing, so its flush does not fail. -/
lemma not_clash (h : Syncing d₀ L f s H) (hg : ∀ key, R.guard key) : ¬Clash R s H := by
  rintro ⟨key, hk, hc⟩
  obtain ⟨hn, o, d, ho, hb, -⟩ := hc (hg key)
  by_cases hkey : ∀ k, key ≠ .inventory k
  · exact h.other key hkey (Or.inl hk)
  · simp only [not_forall, not_not] at hkey
    obtain ⟨k, rfl⟩ := hkey
    rcases h.stock k with ⟨-, hn'⟩ | ⟨-, u, hu⟩
    · exact hn' (Or.inl hk)
    · rcases hu.2.1 with hh | ⟨-, ho'⟩
      · rw [show H (.inventory k) = some (some u) from hh] at hn
        cases hn
      · have := ho' o ho
        rw [hb] at this
        cases this

end Syncing

/-! ### The loop -/

lemma syncedTo_append (env : Env) (d : Db) (p : InventoryProvider) (pre : List ℕ) (id : ℕ) :
    syncedTo env d p (pre ++ [id]) = Function.update (syncedTo env d p pre) id
      ((skuOf d id).bind fun sku => (reading env p id sku).toOption.map (·, env (.now id))) := by
  funext k
  by_cases hk : k = id
  · subst hk
    simp [syncedTo]
  · simp [syncedTo, hk]

lemma syncedTo_skip (env : Env) (p : InventoryProvider) (pre : List ℕ)
    (h : skuOf d id = none ∨ ∃ sku e, skuOf d id = some sku ∧
      reading env p id sku = .error e) :
    syncedTo env d p (pre ++ [id]) = syncedTo env d p pre := by
  rw [syncedTo_append]
  have hnone : ((skuOf d id).bind fun sku =>
      (reading env p id sku).toOption.map (·, env (.now id))) = none := by
    rcases h with h | ⟨sku, e, h, he⟩
    · rw [h]
      rfl
    · simp [h, he, Except.toOption]
  rw [hnone, Function.update_eq_self_iff, syncedTo]
  split
  · exact hnone.symm
  · rfl

/-- The exceptions that `sync_from_provider` handles, and their texts. -/
lemma PyErr.providerError_cases (e : PyErr) : (∃ exc, e.providerError = some exc ∧
      (e = capabilityNotSupported exc ∨ e = providerTimeout exc ∨ e = providerUnavailable exc ∨
        e = insufficientProviderStock exc)) ∨ e.providerError = none := by
  cases e <;> simp [providerError]

/-- One row: the request, the two assignments, and the handler. -/
lemma wp_syncRow {a : ExternalHttpProviderAdapter} (ha : ExternalHttpProviderAdapter.new p = .ok a)
    {pre : List ℕ} {report : SyncReport} {fits : Bool}
    (hw : Syncing d₀ L (syncedTo env d₀ p pre) s H)
    (hL : .inventory id ∈ L) {sku : String} (hsku : skuOf d₀ id = some sku)
    {P : SyncReport × Bool → Sess → Held RowOf → Prop} {E : PyErr → Sess → Held RowOf → Prop}
    (hok : ∀ r s', report.add sku (reading env p id sku) = .ok r →
      Syncing d₀ L (syncedTo env d₀ p (pre ++ [id])) s' H → P (r, fits && rowFits env d₀ p id) s' H)
    (herr : ∀ e s', report.add sku (reading env p id sku) = .error e → E e s' H) :
    wp R env (do
      try
        let qty ← (ProviderAdapter.external a).checkStock (.row id) sku
        .ask (.now id) fun now =>
        .modify (.inventory id) (fun r =>
          { r with qtyAvailable := qty, lastSyncedAt := some now }) do
        pure ({ report with updated := report.updated + 1 }, fits && fitsInt qty)
      catch
        | .capabilityNotSupported exc | .providerTimeout exc | .providerUnavailable exc
        | .insufficientProviderStock exc =>
          pure ({ report with errors := report.errors ++ [s!"{sku}: {exc}"] }, fits)
        | e => throw e) P E s H := by
  have hread : reading env p id sku = ExternalHttpProviderAdapter.stockReply sku
      (env (.http (.row id) (a.stockRequest sku))) := by
    rw [reading, ha]
    rfl
  simp only [Prog.tryCatch_eq, wp_tryCatch, Prog.bind_eq, wp_bind,
    ProviderAdapter.checkStock, ExternalHttpProviderAdapter.checkStock, wp, wp_ofExcept]
  rw [← hread]
  have hw' := hw.log (.http (.row id) (a.stockRequest sku))
    (env (.http (.row id) (a.stockRequest sku)))
  generalize s.log (.http (.row id) (a.stockRequest sku))
    (env (.http (.row id) (a.stockRequest sku))) = s₁ at hw'
  -- an error of the provider is noted and leaves the row alone, any other escapes
  rcases hr : reading env p id sku with e | qty
  · have hskip := syncedTo_skip env p pre (Or.inr ⟨sku, e, hsku, hr⟩)
    rw [show rowFits env d₀ p id = true by simp [rowFits, hsku, hr, Except.toOption],
      Bool.and_true] at hok
    rw [hr, SyncReport.add] at hok herr
    rcases e.providerError_cases with ⟨exc, hexc, he⟩ | hexc
    · rw [hexc] at hok
      have hP := hok _ s₁ rfl (by rw [hskip]; exact hw')
      rcases he with rfl | rfl | rfl | rfl <;> exact hP
    · rw [hexc] at herr
      have hE := herr e s₁ rfl
      cases e <;> first | exact hE | cases hexc
  · rw [show rowFits env d₀ p id = fitsInt qty by simp [rowFits, hsku, hr, Except.toOption]] at hok
    refine hok _ _ (by rw [hr, SyncReport.add]) ?_
    rw [syncedTo_append, hsku, Option.bind_some, hr]
    exact (hw'.log (.now id) (env (.now id))).modify hL qty (env (.now id))

lemma wp_syncRows (hp : p.type = .external) (pre : List ℕ) {report : SyncReport} {fits : Bool}
    (hw : Syncing d₀ L (syncedTo env d₀ p pre) s H)
    (hL : ∀ id ∈ ids, .inventory id ∈ L ∧ ∀ v, d₀.inventory.get id = some v →
      .product v.productId ∈ L)
    {P : SyncReport × Bool → Sess → Held RowOf → Prop} {E : PyErr → Sess → Held RowOf → Prop}
    (hok : ∀ r s' H', reportOn env d₀ p ids report = .ok r →
      Syncing d₀ L (syncedTo env d₀ p (pre ++ ids)) s' H' →
      P (r, fits && ids.all (rowFits env d₀ p)) s' H')
    (herr : ∀ e s' H', reportOn env d₀ p ids report = .error e → E e s' H') :
    wp R env (syncRows p ids report fits) P E s H := by
  induction ids generalizing pre report fits s with
  | nil =>
    show P (report, fits) s H
    simpa using hok report s H rfl (by simpa using hw)
  | cons id ids ih =>
    obtain ⟨⟨u, hu, hid⟩, hprod⟩ := And.intro (hw.loaded id (hL id (by simp)).1) (hL id (by simp)).2
    obtain ⟨v₀, hv₀, hident⟩ := Option.map_eq_some_iff.mp hid
    have hpid : v₀.productId = u.productId := congrArg Prod.fst hident
    have hval := hw.product _ (hprod v₀ hv₀)
    rw [hpid] at hval
    have hnext : ∀ {report' : SyncReport} {s' : Sess},
        Syncing d₀ L (syncedTo env d₀ p (pre ++ [id])) s' H →
        reportOn env d₀ p (id :: ids) report = reportOn env d₀ p ids report' →
        wp R env (syncRows p ids report' (fits && rowFits env d₀ p id)) P E s' H := by
      intro report' s' hw' hrep
      refine ih (pre ++ [id]) hw' (fun id' hid' => hL id' (by simp [hid'])) (fun r s'' H'' hr hs => ?_)
        fun e s'' H'' he => ?_
      · rw [Bool.and_assoc, ← List.all_cons]
        exact hok r s'' H'' (hrep.trans hr) (by simpa using hs)
      · exact herr e s'' H'' (hrep.trans he)
    have hskip : skuOf d₀ id = none → wp R env (syncRows p ids report fits) P E s H := by
      intro hsku
      have hfits : (fits && rowFits env d₀ p id) = fits := by simp [rowFits, hsku]
      rw [← hfits]
      refine hnext ?_ ?_
      · rw [syncedTo_skip env p pre (Or.inl hsku)]
        exact hw
      · rw [reportOn, hsku]
    have hskuOf := skuOf_of_row hid
    rw [syncRows, Prog.bind_eq, wp_bind]
    refine wp_obj hu.1 ?_
    have hpu : (u.sync (syncedTo env d₀ p pre id)).productId = u.productId :=
      congrArg Prod.fst (u.sync_ident _)
    rw [wp, hpu, hval]
    rcases hpr : (d₀.products.get u.productId).map Product.sku with _ | sku
    · exact hskip (by rw [hskuOf, hpr]; rfl)
    by_cases hempty : sku = ""
    · subst hempty
      exact hskip (by rw [hskuOf, hpr]; rfl)
    have hsku : skuOf d₀ id = some sku := by
      rw [hskuOf, hpr]
      simp [Option.filter, hempty]
    have hrow : reportOn env d₀ p (id :: ids) report =
        (report.add sku (reading env p id sku)).bind (reportOn env d₀ p ids) := by
      rw [reportOn, hsku]
    have hresolve : ProviderRegistry.resolve p none =
        (ExternalHttpProviderAdapter.new p).map .external := by
      simp only [ProviderRegistry.resolve, hp]
      rcases ExternalHttpProviderAdapter.new p with e | a <;> rfl
    simp only
    rw [Prog.bind_eq, wp_bind, wp_ofExcept, hresolve]
    rcases ha : ExternalHttpProviderAdapter.new p with e | a
    · -- the adapter cannot be built, and the exception is none of the provider's
      obtain ⟨key, rfl⟩ := new_error ha
      refine herr _ s H ?_
      rw [hrow, reading, ha]
      rfl
    · simp only [Except.map]
      rw [Prog.bind_eq, wp_bind]
      refine wp_syncRow ha hw (hL id (by simp)).1 hsku (fun r s' hr hs' => ?_) fun e s' he => ?_
      · exact hnext hs' (by rw [hrow, hr]; rfl)
      · exact herr e s' H (by rw [hrow, he]; rfl)

/-! ### The transaction -/

/-- The transaction of a sync. -/
def syncTransaction (providerId : ℕ) : Svc SyncReport :=
  (syncFromProvider providerId).commit .integrityError

/-- The ids of the rows of a provider. -/
def rowsOf (d : Db) (providerId : ℕ) : List ℕ :=
  (d.inventory.rows.filter fun r => r.2.providerId = providerId).map Prod.fst

lemma mem_rowsOf : id ∈ rowsOf d pid ↔
    ∃ v, d.inventory.get id = some v ∧ v.providerId = pid := by
  simp only [rowsOf, List.mem_map, List.mem_filter, Prod.exists, Table.mem_rows,
    decide_eq_true_eq]
  constructor
  · rintro ⟨_, v, ⟨hv, hp⟩, rfl⟩
    exact ⟨v, hv, hp⟩
  · rintro ⟨v, hv, hp⟩
    exact ⟨id, v, ⟨hv, hp⟩, rfl⟩

/-- What a sync reports, and what it overwrites. -/
inductive Syncs (env : Env) (d₀ : Db) (seen : Db → Prop) (pid : ℕ) :
    SyncReport → (ℕ → Option (ℤ × ℤ)) → Prop
  | rows {p : InventoryProvider} {d : Db} {report : SyncReport} (hd : seen d)
      (hp : d₀.providers.get pid = some p) (hactive : p.isActive) (htype : p.type = .external)
      (hreport : reportOn env d₀ p (rowsOf d pid) ⟨0, [], none⟩ = .ok report)
      (hfits : (rowsOf d pid).all (rowFits env d₀ p)) :
      Syncs env d₀ seen pid report (syncedTo env d₀ p (rowsOf d pid))
  | internal {p : InventoryProvider} (hp : d₀.providers.get pid = some p) (hactive : p.isActive)
      (htype : p.type = .internal) :
      Syncs env d₀ seen pid ⟨0, [], some "internal providers do not require sync"⟩ fun _ => none

/-- The exceptions of a sync. -/
inductive SyncRaises (env : Env) (d₀ : Db) (seen : Db → Prop) (pid : ℕ) : PyErr → Prop
  | notFound (hp : d₀.providers.get pid = none) :
      SyncRaises env d₀ seen pid (.notFoundError s!"Provider {pid} not found")
  | inactive {p : InventoryProvider} (hp : d₀.providers.get pid = some p)
      (hactive : p.isActive = false) :
      SyncRaises env d₀ seen pid (.valueError s!"Provider {pid} is inactive")
  | provider {p : InventoryProvider} {d : Db} {e : PyErr} (hd : seen d)
      (hp : d₀.providers.get pid = some p) (hactive : p.isActive) (htype : p.type = .external)
      (he : reportOn env d₀ p (rowsOf d pid) ⟨0, [], none⟩ = .error e) :
      SyncRaises env d₀ seen pid e
  | quantity {p : InventoryProvider} {d : Db} {report : SyncReport} (hd : seen d)
      (hp : d₀.providers.get pid = some p) (hactive : p.isActive) (htype : p.type = .external)
      (hreport : reportOn env d₀ p (rowsOf d pid) ⟨0, [], none⟩ = .ok report)
      (hfits : ¬(rowsOf d pid).all (rowFits env d₀ p)) :
      SyncRaises env d₀ seen pid .dataError

/-- A sync that reports and one that raises have not seen the same rows of the provider. -/
lemma Syncs.not_raises {seen seen' : Db → Prop} {report : SyncReport} {f : ℕ → Option (ℤ × ℤ)}
    {e : PyErr} (h : Syncs env d₀ seen pid report f) (h' : SyncRaises env d₀ seen' pid e)
    (hsame : ∀ d d', seen d → seen' d' → rowsOf d' pid = rowsOf d pid) : False := by
  cases h with
  | rows hd hp hactive htype hrep hfits =>
    cases h' with
    | notFound hp' =>
      rw [hp] at hp'
      cases hp'
    | inactive hp' hactive' =>
      obtain rfl := Option.some.inj (hp.symm.trans hp')
      rw [hactive] at hactive'
      cases hactive'
    | provider hd' hp' _ _ he =>
      obtain rfl := Option.some.inj (hp.symm.trans hp')
      rw [hsame _ _ hd hd', hrep] at he
      cases he
    | quantity hd' hp' _ _ _ hfits' =>
      obtain rfl := Option.some.inj (hp.symm.trans hp')
      rw [hsame _ _ hd hd'] at hfits'
      exact hfits' hfits
  | internal hp hactive htype =>
    cases h' with
    | notFound hp' =>
      rw [hp] at hp'
      cases hp'
    | inactive hp' hactive' =>
      obtain rfl := Option.some.inj (hp.symm.trans hp')
      rw [hactive] at hactive'
      cases hactive'
    | provider _ hp' _ htype' | quantity _ hp' _ htype' =>
      obtain rfl := Option.some.inj (hp.symm.trans hp')
      rw [htype] at htype'
      cases htype'

/-- An inventory row that one of two plain reads has loaded. -/
lemma obj_of_loads (ks : List RowKey) (d : Db) {ks' : List RowKey} {d' : Db}
    (hk : .inventory k ∈ ks ∧ d.inventory.get k ≠ none ∨
      .inventory k ∈ ks' ∧ d'.inventory.get k ≠ none) :
    ∃ u : Inventory, (((Session.init : Sess).load ks d).load ks' d').objs (.inventory k) =
      some ⟨some u, u⟩ ∧ (d.inventory.get k = some u ∨ d'.inventory.get k = some u) := by
  obtain ⟨o, ho⟩ : ∃ o, (((Session.init : Sess).load ks d).load ks' d').objs (.inventory k) =
      some o := by
    rcases hk with ⟨hmem, hrow⟩ | ⟨hmem, hrow⟩
    · obtain ⟨o, ho⟩ := Option.ne_none_iff_exists'.mp
        (Session.objs_load_ne_none (s := (Session.init : Sess)) (d := d) hmem hrow)
      exact ⟨o, Session.objs_load ks' d' ho⟩
    · exact Option.ne_none_iff_exists'.mp (Session.objs_load_ne_none hmem hrow)
  obtain ⟨b, u⟩ := o
  rcases Session.objs_load_inv ho with h | ⟨-, -, hrow, hb⟩
  · rcases Session.objs_load_inv h with h' | ⟨-, -, hrow, hb⟩
    · cases h'
    · obtain rfl : b = some u := hb
      exact ⟨u, ho, Or.inl hrow⟩
  · obtain rfl : b = some u := hb
    exact ⟨u, ho, Or.inr hrow⟩

lemma mem_rowKeys (h : .inventory k ∈ (d.inventory.rows.filter fun r =>
    r.2.providerId = pid).flatMap fun r => rowKeys d r.1) : d.inventory.get k ≠ none := by
  obtain ⟨⟨j, v⟩, hj, hk⟩ := List.mem_flatMap.mp h
  have hv : d.inventory.get j = some v := Table.mem_rows.mp (List.mem_filter.mp hj).1
  simp only [rowKeys, hv, List.mem_cons, RowKey.inventory.injEq, reduceCtorEq, List.not_mem_nil,
    or_false] at hk
  rw [hk, hv]
  simp

/-- The rows of the provider are loaded with their products. -/
lemma rowKeys_of_mem {v : Inventory} (hid : id ∈ rowsOf d pid) (hv : d.inventory.get id = some v) :
    .inventory id ∈ ((d.inventory.rows.filter fun r => r.2.providerId = pid).flatMap fun r =>
      rowKeys d r.1) ∧ .product v.productId ∈ ((d.inventory.rows.filter fun r =>
        r.2.providerId = pid).flatMap fun r => rowKeys d r.1) := by
  obtain ⟨⟨j, w⟩, hj, rfl⟩ := List.mem_map.mp hid
  have hw : d.inventory.get j = some w := Table.mem_rows.mp (List.mem_filter.mp hj).1
  obtain rfl : w = v := Option.some.inj (hw.symm.trans hv)
  constructor <;> exact List.mem_flatMap.mpr ⟨(j, w), hj, by simp [rowKeys, hw]⟩

theorem sync_spec (hR : Steady d₀ R) (pid : ℕ) :
    wp R env (syncFromProvider pid)
      (fun report s H => ∃ f, Syncs env d₀ R.seen pid report f ∧ Syncing d₀ [] f s H)
      (fun e _ _ => SyncRaises env d₀ R.seen pid e) Session.init fun _ => none := by
  unfold syncFromProvider getAllByProvider
  intro d hd
  have hprov : d.providers.get pid = d₀.providers.get pid := congrFun (hR.static d hd).providers pid
  rw [show (Session.init : Sess).own d = d from rfl]
  simp only [hprov]
  rcases hp : d₀.providers.get pid with _ | p
  · exact .notFound hp
  simp only [Prog.bind_eq, wp_bind]
  have hw : Work d₀ ([] ++ providerKeys d pid) .nothing (Session.init.load (providerKeys d pid) d)
      fun _ => none := (Work.init d₀).load (hR.static d hd)
  have hval := hw.provider (show RowKey.provider pid ∈ [] ++ providerKeys d pid by simp [providerKeys])
  rw [hp] at hval
  refine wp_obj hval ?_
  rcases hactive : p.isActive with _ | _
  · exact .inactive hp hactive
  by_cases htype : p.type = .internal
  · simp only [Bool.not_true, Bool.false_eq_true, if_false, htype, if_true]
    exact ⟨_, .internal hp hactive htype, .start hw (fun _ => rfl) (by simp) (by simp)⟩
  have hext : p.type = .external := by
    rcases ht : p.type with _ | _
    · exact absurd ht htype
    · rfl
  simp only [Bool.not_true, Bool.false_eq_true, if_false, htype, wp_bind]
  intro d' hd'
  rw [Session.own_of_writes (Session.load_writes _ _ _), show (Session.init : Sess).own d' = d'
    from rfl]
  have hw' : Work d₀ (([] ++ providerKeys d pid) ++ (d'.inventory.rows.filter fun r =>
      r.2.providerId = pid).flatMap fun r => rowKeys d' r.1) .nothing _ fun _ => none :=
    hw.load (hR.static d' hd')
  -- both plain reads may have loaded an inventory row, and they agree on what it is of
  have hstart := Syncing.start hw' (fun _ => rfl) (fun key hkey => List.mem_append_right _ hkey)
    fun k hk => by
      obtain ⟨u, hu, hrow⟩ := obj_of_loads (providerKeys d pid) d
        (Or.inr ⟨hk, mem_rowKeys hk⟩)
      refine ⟨u, hu, ?_⟩
      rcases hrow with hrow | hrow
      · rw [← (hR.static d hd).stock k, hrow]
        rfl
      · rw [← (hR.static d' hd').stock k, hrow]
        rfl
  have hids : ∀ id ∈ rowsOf d' pid, ∀ v, d₀.inventory.get id = some v → ∃ v',
      d'.inventory.get id = some v' ∧ v'.productId = v.productId := by
    intro id hid v hv
    obtain ⟨v', hv', -⟩ := mem_rowsOf.mp hid
    have hident := (hR.static d' hd').stock id
    rw [hv, hv'] at hident
    exact ⟨v', hv', congrArg Prod.fst (Option.some.inj hident)⟩
  show wp R env (Prog.bind (syncRows p (rowsOf d' pid) ⟨0, [], none⟩ true) _) _ _ _ _
  rw [wp_bind]
  refine wp_syncRows hext [] hstart (fun id hid => ?_) (fun report s' H' hrep hs => ?_)
    fun e s' H' he => .provider hd' hp hactive hext he
  · obtain ⟨w, hw, -⟩ := mem_rowsOf.mp hid
    refine ⟨(rowKeys_of_mem hid hw).1, fun v hv => ?_⟩
    obtain ⟨v', hv', hpid⟩ := hids id hid v hv
    exact hpid ▸ (rowKeys_of_mem hid hv').2
  · rw [wp_bind]
    -- the flush raises on a quantity that does not fit
    refine wpFlush_intro (fun s'' H'' hf => ?_) fun s'' H'' _ hc => ?_
    · rw [Bool.true_and]
      by_cases hfits : (rowsOf d' pid).all (rowFits env d₀ p)
      · rw [hfits]
        exact ⟨_, .rows hd' hp hactive hext hrep hfits, hs.flushed hR.guard hf⟩
      · rw [Bool.not_eq_true _ |>.mp hfits]
        exact .quantity hd' hp hactive hext hrep hfits
    · exact absurd hc (hs.not_clash hR.guard)

/-- A sync that runs alone commits what it reports, or raises and changes nothing. -/
theorem sync_transact (env : Env) (hd : Static d₀ d) (pid : ℕ) :
    (∃ report f ws, Syncs env d₀ (· = d) pid report f ∧
      (transact env d (syncTransaction pid)).result = .ok report ∧
      (syncChange f).Commits d (transact env d (syncTransaction pid)).db ws) ∨
    ∃ e, SyncRaises env d₀ (· = d) pid e ∧
      (transact env d (syncTransaction pid)).result = .error e ∧
      (transact env d (syncTransaction pid)).db = d := by
  have hw : wp (Rely.solo d) env (syncFromProvider pid)
      (fun report s H => ∃ f, Syncs env d₀ (· = d) pid report f ∧ Syncing d₀ [] f s H)
      (fun e _ _ => SyncRaises env d₀ (· = d) pid e) Session.init fun _ => none :=
    sync_spec (steady_solo hd) pid
  have hclash : ∀ report s H, (∃ f, Syncs env d₀ (· = d) pid report f ∧ Syncing d₀ [] f s H) →
      Clash (Rely.solo d) s H → SyncRaises env d₀ (· = d) pid .integrityError :=
    fun report s H ⟨f, _, hs⟩ hc => absurd hc (hs.not_clash fun _ => trivial)
  rcases transact_of_wp (E := fun e _ => SyncRaises env d₀ (· = d) pid e) hw hclash with
    ⟨report, s, H, ws, ⟨f, hf, hs⟩, hres, -, hset⟩ | h
  · exact Or.inl ⟨report, f, ws, hf, hres, hs.commits (fun _ => trivial) hset⟩
  · exact Or.inr h

/-- A sync of an active external provider does what its loop does, if all quantities fit. -/
theorem sync_external (env : Env) (d : Db) (pid : ℕ) (hp : d.providers.get pid = some p)
    (hactive : p.isActive) (htype : p.type = .external) :
    (∃ report ws, reportOn env d p (rowsOf d pid) ⟨0, [], none⟩ = .ok report ∧
      (rowsOf d pid).all (rowFits env d p) ∧
      (transact env d (syncTransaction pid)).result = .ok report ∧
      (syncChange (syncedTo env d p (rowsOf d pid))).Commits d
        (transact env d (syncTransaction pid)).db ws) ∨
    ∃ e, (reportOn env d p (rowsOf d pid) ⟨0, [], none⟩ = .error e ∨
        ¬(rowsOf d pid).all (rowFits env d p)) ∧
      (transact env d (syncTransaction pid)).result = .error e ∧
      (transact env d (syncTransaction pid)).db = d := by
  rcases sync_transact env (.refl d) pid with ⟨report, f, ws, hs, hres, hc⟩ | ⟨e, he, hres, hdb⟩
  · cases hs with
    | rows hd hp' _ _ hrep hfits =>
      cases hd
      obtain rfl := Option.some.inj (hp'.symm.trans hp)
      exact Or.inl ⟨report, ws, hrep, hfits, hres, hc⟩
    | internal hp' _ htype' =>
      obtain rfl := Option.some.inj (hp'.symm.trans hp)
      rw [htype] at htype'
      cases htype'
  · cases he with
    | notFound hp' =>
      rw [hp] at hp'
      cases hp'
    | inactive hp' hactive' =>
      obtain rfl := Option.some.inj (hp'.symm.trans hp)
      rw [hactive] at hactive'
      cases hactive'
    | provider hd hp' _ _ he =>
      cases hd
      obtain rfl := Option.some.inj (hp'.symm.trans hp)
      exact Or.inr ⟨e, Or.inl he, hres, hdb⟩
    | quantity hd hp' _ _ _ hfits =>
      cases hd
      obtain rfl := Option.some.inj (hp'.symm.trans hp)
      exact Or.inr ⟨_, Or.inr hfits, hres, hdb⟩

end InventoryReservation
