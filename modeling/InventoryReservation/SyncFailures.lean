/-
# SKUs that fail in a sync

The outcomes of the requests are given row by row.  What a sync reports is about the rows it
has asked for, as long as every exception on the way is a `ProviderError` and the database takes
the quantities.
-/
import InventoryReservation.Serial
import InventoryReservation.Sync

namespace InventoryReservation

open RowTxn InventoryService ExternalHttpProviderAdapter

variable {env : Env} {d : Db} {p : InventoryProvider} {pid : ℕ} {ids : List ℕ}
  {outs : ℕ → HttpOutcome}

/-- The rows with a SKU. -/
def withSku (d : Db) (ids : List ℕ) : List (ℕ × String) :=
  ids.filterMap fun id => (skuOf d id).map (id, ·)

lemma mem_withSku {r : ℕ × String} : r ∈ withSku d ids ↔ r.1 ∈ ids ∧ skuOf d r.1 = some r.2 := by
  obtain ⟨id, sku⟩ := r
  simp only [withSku, List.mem_filterMap, Option.map_eq_some_iff, Prod.mk.injEq]
  constructor
  · rintro ⟨id, hid, _, hsku, rfl, rfl⟩
    exact ⟨hid, hsku⟩
  · rintro ⟨hid, hsku⟩
    exact ⟨id, hid, sku, hsku, rfl, rfl⟩

/-- The rows of the provider with a SKU. -/
def skuRows (d : Db) (pid : ℕ) : List (ℕ × String) := withSku d (rowsOf d pid)

/-! ### Outcomes of a request -/

/-- A request for the stock ends with a JSON reply that has an integer quantity, with a status
that is no success, with a timeout, or with another transport error. -/
inductive StockOutcome : HttpOutcome → Prop
  | reply {r : Response} {qty : ℤ} {ref detail : Option String} (hr : r.isSuccess)
      (hbody : r.body = .object (some (some qty)) ref detail) : StockOutcome (.response r)
  | status {r : Response} (hr : r.isSuccess = false) : StockOutcome (.response r)
  | timeout : StockOutcome .timeout
  | transport (text : String) : StockOutcome (.error text)

/-- The quantity of a reply. -/
def HttpOutcome.qty : HttpOutcome → Option ℤ
  | .response r =>
    match r.isSuccess, r.body with
    | true, .object (some qty) _ _ => qty
    | _, _ => none
  | _ => none

/-- An outcome that spoils nothing: no transport error but a timeout, and no quantity that its column
cannot store. -/
structure HttpOutcome.Harmless (o : HttpOutcome) : Prop where
  mapped : ¬o.IsTransportError
  fits : ∀ qty, o.qty = some qty → fitsInt qty

/-- How the loop takes an outcome: as a reply, as a `ProviderError`, or as neither. -/
lemma StockOutcome.reply_of {o : HttpOutcome} (h : StockOutcome o) (sku : String) :
    (∃ q, stockReply sku o = .ok q ∧ o.qty = some q ∧ ¬o.IsTransportError) ∨
    (∃ e exc, stockReply sku o = .error e ∧ e.providerError = some exc ∧ o.qty = none ∧
      ¬o.IsTransportError) ∨
    ∃ e, stockReply sku o = .error e ∧ e.providerError = none ∧ o.qty = none ∧
      o.IsTransportError := by
  cases h with
  | @reply r qty ref detail hr hbody =>
    refine Or.inl ⟨qty, ?_, ?_, id⟩
    · simp only [stockReply, raiseForStatus, hr, hbody]
      rfl
    · simp [HttpOutcome.qty, hr, hbody]
  | @status r hr =>
    refine Or.inr (Or.inl ⟨.providerUnavailable r.error, r.error, ?_, rfl, ?_, id⟩)
    · simp only [stockReply, raiseForStatus, hr]
      rfl
    · simp [HttpOutcome.qty, hr]
  | timeout => exact Or.inr (Or.inl ⟨_, _, rfl, rfl, rfl, id⟩)
  | transport text => exact Or.inr (Or.inr ⟨_, rfl, rfl, rfl, trivial⟩)

/-! ### The report -/

/-- The text of an error begins with the SKU. -/
def ReportedOn (r : ℕ × String) (entry : String) : Prop := ∃ exc : String, entry = s!"{r.2}: {exc}"

/-- The report of a sync: a count of the rows that were replied to, and an entry for each of the
others, in their order. -/
structure Accounts (outs : ℕ → HttpOutcome) (rows : List (ℕ × String)) (report : SyncReport) :
    Prop where
  updated : report.updated = (rows.filter fun r => (outs r.1).qty.isSome).length
  errors : List.Forall₂ ReportedOn (rows.filter fun r => !(outs r.1).qty.isSome) report.errors

lemma Accounts.total {rows : List (ℕ × String)} {report : SyncReport}
    (h : Accounts outs rows report) : report.updated + report.errors.length = rows.length := by
  rw [h.updated, ← h.errors.length_eq]
  exact (List.length_eq_length_filter_add fun r : ℕ × String => (outs r.1).qty.isSome).symm

lemma Accounts.nil : Accounts outs [] ⟨0, [], none⟩ := ⟨rfl, .nil⟩

lemma Accounts.reply {rows : List (ℕ × String)} {r : ℕ × String} {report : SyncReport}
    {qty : ℤ} (h : Accounts outs rows report) (hr : (outs r.1).qty = some qty) :
    Accounts outs (rows ++ [r]) { report with updated := report.updated + 1 } where
  updated := by simp [h.updated, hr]
  errors := by
    rw [List.filter_append, show [r].filter (fun r => !(outs r.1).qty.isSome) = [] by simp [hr],
      List.append_nil]
    exact h.errors

lemma Accounts.failure {rows : List (ℕ × String)} {r : ℕ × String} {report : SyncReport}
    (h : Accounts outs rows report) (hr : (outs r.1).qty = none) (exc : String) :
    Accounts outs (rows ++ [r])
      { report with errors := report.errors ++ [s!"{r.2}: {exc}"] } where
  updated := by simp [h.updated, hr]
  errors := by
    rw [List.filter_append, show [r].filter (fun r => !(outs r.1).qty.isSome) = [r] by simp [hr]]
    exact List.rel_append h.errors (.cons ⟨exc, rfl⟩ .nil)

lemma withSku_cons_none {id : ℕ} (h : skuOf d id = none) : withSku d (id :: ids) = withSku d ids := by
  simp [withSku, h]

lemma withSku_cons_some {id : ℕ} {sku : String} (h : skuOf d id = some sku) :
    withSku d (id :: ids) = (id, sku) :: withSku d ids := by
  simp [withSku, h]

/-- The requests for the stock of the rows end as given. -/
def Replies (env : Env) (p : InventoryProvider) (outs : ℕ → HttpOutcome)
    (rows : List (ℕ × String)) : Prop :=
  ∀ r ∈ rows, StockOutcome (outs r.1) ∧ ∀ a, ExternalHttpProviderAdapter.new p = .ok a →
    env (.http (.row r.1) (a.stockRequest r.2)) = outs r.1

section Loop

variable {a : ExternalHttpProviderAdapter}

lemma Replies.reading {rows : List (ℕ × String)} (h : Replies env p outs rows)
    (ha : ExternalHttpProviderAdapter.new p = .ok a) {r : ℕ × String} (hr : r ∈ rows) :
    reading env p r.1 r.2 = stockReply r.2 (outs r.1) := by
  rw [InventoryReservation.reading, ha, ← (h r hr).2 a ha]
  rfl

lemma Replies.toOption {rows : List (ℕ × String)} (h : Replies env p outs rows)
    (ha : ExternalHttpProviderAdapter.new p = .ok a) {r : ℕ × String} (hr : r ∈ rows) :
    (InventoryReservation.reading env p r.1 r.2).toOption = (outs r.1).qty := by
  rw [h.reading ha hr]
  rcases (h r hr).1.reply_of r.2 with ⟨q, hq, hqty, -⟩ | ⟨e, exc, he, -, hqty, -⟩ | ⟨e, he, -, hqty, -⟩
  · rw [hq, hqty]
    rfl
  · rw [he, hqty]
    rfl
  · rw [he, hqty]
    rfl

/-- The quantities that are assigned fit exactly if those of the replies do. -/
lemma all_rowFits (ha : ExternalHttpProviderAdapter.new p = .ok a)
    (henv : Replies env p outs (withSku d ids)) : ids.all (rowFits env d p) ↔
      ∀ r ∈ withSku d ids, ∀ qty, (outs r.1).qty = some qty → fitsInt qty := by
  have hrow : ∀ r ∈ withSku d ids, rowFits env d p r.1 = (outs r.1).qty.all fitsInt := by
    intro r hr
    rw [rowFits, (mem_withSku.mp hr).2, Option.bind_some, henv.toOption ha hr]
  constructor
  · intro h r hr qty hqty
    have hfits := List.all_eq_true.mp h r.1 (mem_withSku.mp hr).1
    rwa [hrow r hr, hqty] at hfits
  · intro h
    refine List.all_eq_true.mpr fun id hid => ?_
    rcases hsku : skuOf d id with _ | sku
    · simp [rowFits, hsku]
    have hmem : (id, sku) ∈ withSku d ids := mem_withSku.mpr ⟨hid, hsku⟩
    rw [show rowFits env d p id = (outs id).qty.all fitsInt from hrow _ hmem]
    rcases hqty : (outs id).qty with _ | qty
    · rfl
    · exact h _ hmem qty hqty

lemma Replies.tail {r : ℕ × String} {rows : List (ℕ × String)}
    (h : Replies env p outs (r :: rows)) : Replies env p outs rows :=
  fun r' hr' => h r' (List.mem_cons_of_mem _ hr')

/-- Without a transport error the loop goes through, and accounts for all rows. -/
lemma reportOn_accounts (ha : ExternalHttpProviderAdapter.new p = .ok a)
    (henv : Replies env p outs (withSku d ids)) {pre : List (ℕ × String)} {report : SyncReport}
    (hpre : Accounts outs pre report)
    (h : ∀ r ∈ withSku d ids, ¬(outs r.1).IsTransportError) :
    ∃ report', reportOn env d p ids report = .ok report' ∧
      Accounts outs (pre ++ withSku d ids) report' := by
  induction ids generalizing pre report with
  | nil => exact ⟨report, rfl, by simpa [withSku] using hpre⟩
  | cons id ids ih =>
    rcases hsku : skuOf d id with _ | sku
    · rw [withSku_cons_none hsku] at h henv ⊢
      rw [reportOn, hsku]
      exact ih henv hpre h
    rw [withSku_cons_some hsku] at h henv ⊢
    have hrest := fun r hr => h r (List.mem_cons_of_mem _ hr)
    have hread := henv.reading ha (r := (id, sku)) List.mem_cons_self
    rw [reportOn, hsku, List.append_cons]
    simp only [hread]
    rcases (henv _ List.mem_cons_self).1.reply_of sku with
      ⟨q, hr, hq, -⟩ | ⟨e, exc, hr, he, hq, -⟩ | ⟨e, -, -, -, ht⟩
    · rw [hr]
      exact ih henv.tail (hpre.reply (r := (id, sku)) hq) hrest
    · rw [hr, SyncReport.add, he]
      exact ih henv.tail (hpre.failure (r := (id, sku)) hq exc) hrest
    · exact absurd ht (h (id, sku) (by simp))

/-- A transport error ends the loop. -/
lemma reportOn_escapes (ha : ExternalHttpProviderAdapter.new p = .ok a)
    (henv : Replies env p outs (withSku d ids)) {report : SyncReport}
    (h : ∃ r ∈ withSku d ids, (outs r.1).IsTransportError) :
    ∃ e, reportOn env d p ids report = .error e := by
  induction ids generalizing report with
  | nil => simp [withSku] at h
  | cons id ids ih =>
    rcases hsku : skuOf d id with _ | sku
    · rw [withSku_cons_none hsku] at h henv
      rw [reportOn, hsku]
      exact ih henv h
    rw [withSku_cons_some hsku] at h henv
    have hrest : ¬(outs id).IsTransportError → ∃ r ∈ withSku d ids, (outs r.1).IsTransportError := by
      intro hn
      obtain ⟨r, hr, ht⟩ := h
      rcases List.mem_cons.mp hr with rfl | hr
      · exact absurd ht hn
      · exact ⟨r, hr, ht⟩
    have hread := henv.reading ha (r := (id, sku)) List.mem_cons_self
    rw [reportOn, hsku]
    simp only [hread]
    rcases (henv _ List.mem_cons_self).1.reply_of sku with
      ⟨q, hr, -, hn⟩ | ⟨e, exc, hr, he, -, hn⟩ | ⟨e, hr, he, -⟩
    · rw [hr]
      exact ih henv.tail (hrest hn)
    · rw [hr, SyncReport.add, he]
      exact ih henv.tail (hrest hn)
    · rw [hr, SyncReport.add, he]
      exact ⟨e, rfl⟩

/-- An adapter that cannot be built ends the loop at the first row with a SKU. -/
lemma reportOn_unbuilt {e : PyErr} (ha : ExternalHttpProviderAdapter.new p = .error e)
    {report : SyncReport} (h : withSku d ids ≠ []) : reportOn env d p ids report = .error e := by
  induction ids generalizing report with
  | nil => simp [withSku] at h
  | cons id ids ih =>
    rcases hsku : skuOf d id with _ | sku
    · rw [withSku_cons_none hsku] at h
      rw [reportOn, hsku]
      exact ih h
    · obtain ⟨key, rfl⟩ := new_error ha
      have hread : reading env p id sku = .error (.keyError key) := by
        rw [reading, ha]
        rfl
      simp only [reportOn, hsku, hread]
      rfl

lemma reportOn_of_nil {report : SyncReport} (h : withSku d ids = []) :
    reportOn env d p ids report = .ok report := by
  induction ids with
  | nil => rfl
  | cons id ids ih =>
    rcases hsku : skuOf d id with _ | sku
    · rw [withSku_cons_none hsku] at h
      rw [reportOn, hsku]
      exact ih h
    · rw [withSku_cons_some hsku] at h
      cases h

end Loop

/-! ### What a sync leaves -/

/-- What a row gets from a sync. -/
def fetched (env : Env) (d : Db) (pid : ℕ) (outs : ℕ → HttpOutcome) (k : ℕ) : Option (ℤ × ℤ) :=
  if k ∈ (skuRows d pid).map Prod.fst then (outs k).qty.map (·, env (.now k)) else none

/-- A sync returns, whatever some of the rows end with: the rows that were replied to have the
reported quantity and a new time, nothing else has changed, and the report accounts for the
rows with a SKU. -/
structure Unspoilt (env : Env) (d : Db) (pid : ℕ) (outs : ℕ → HttpOutcome)
    (out : Outcome Db Query Answer PyErr SyncReport) : Prop where
  returns : ∃ report, out.result = .ok report ∧ Accounts outs (skuRows d pid) report ∧
    report.updated + report.errors.length = (skuRows d pid).length
  rows : ∀ k, out.db.inventory.get k = (d.inventory.get k).map (·.sync (fetched env d pid outs k))
  rest : ∀ key, (∀ k, key ≠ .inventory k) → RowStore.row out.db key = RowStore.row d key

/-- For rows with a reply, the quantity that is reported is the one of the reply. -/
lemma syncedTo_eq_fetched (henv : Replies env p outs (skuRows d pid))
    (h : skuRows d pid = [] ∨ ∃ a, ExternalHttpProviderAdapter.new p = .ok a) (k : ℕ) :
    syncedTo env d p (rowsOf d pid) k = fetched env d pid outs k := by
  have hmem : k ∈ (skuRows d pid).map Prod.fst ↔ k ∈ rowsOf d pid ∧ skuOf d k ≠ none := by
    simp only [skuRows, List.mem_map, Option.ne_none_iff_exists']
    constructor
    · rintro ⟨r, hr, rfl⟩
      exact ⟨(mem_withSku.mp hr).1, r.2, (mem_withSku.mp hr).2⟩
    · rintro ⟨hk, sku, hsku⟩
      exact ⟨(k, sku), mem_withSku.mpr ⟨hk, hsku⟩, rfl⟩
  rw [syncedTo, fetched]
  by_cases hk : k ∈ (skuRows d pid).map Prod.fst
  · obtain ⟨hrow, hne⟩ := hmem.mp hk
    obtain ⟨sku, hsku⟩ := Option.ne_none_iff_exists'.mp hne
    obtain ⟨a, ha⟩ : ∃ a, ExternalHttpProviderAdapter.new p = .ok a := by
      refine h.resolve_left fun hnil => ?_
      rw [hnil] at hk
      cases hk
    have hmem' : (k, sku) ∈ skuRows d pid := mem_withSku.mpr ⟨hrow, hsku⟩
    rw [if_pos hrow, if_pos hk, hsku, Option.bind_some, henv.toOption ha hmem']
  · rw [if_neg hk]
    split
    · next hrow =>
      have hsku : skuOf d k = none := by
        by_contra hne
        exact hk (hmem.mpr ⟨hrow, hne⟩)
      rw [hsku]
      rfl
    · rfl

/-- The rows of a provider leave nothing to spoil its sync: none has a SKU, or the adapter of the
provider can be built and the outcomes for the rows are harmless. -/
def Syncable (d : Db) (p : InventoryProvider) (pid : ℕ) (outs : ℕ → HttpOutcome) : Prop :=
  skuRows d pid = [] ∨ (∃ a, ExternalHttpProviderAdapter.new p = .ok a) ∧
    ∀ r ∈ skuRows d pid, (outs r.1).Harmless

/-- If nothing spoils the sync the loop goes through, and its report accounts for all rows. -/
lemma Syncable.accounts (h : Syncable d p pid outs) (henv : Replies env p outs (skuRows d pid)) :
    ∃ report, reportOn env d p (rowsOf d pid) ⟨0, [], none⟩ = .ok report ∧
      Accounts outs (skuRows d pid) report := by
  rcases h with hnil | ⟨⟨a, ha⟩, hout⟩
  · refine ⟨_, reportOn_of_nil hnil, ?_⟩
    rw [hnil]
    exact .nil
  · exact reportOn_accounts ha henv .nil fun r hr => (hout r hr).mapped

/-- Nothing spoils the sync exactly if the loop goes through with quantities that fit. -/
lemma syncable_iff (henv : Replies env p outs (skuRows d pid)) : Syncable d p pid outs ↔
    (∃ report, reportOn env d p (rowsOf d pid) ⟨0, [], none⟩ = .ok report) ∧
      (rowsOf d pid).all (rowFits env d p) := by
  by_cases hnil : skuRows d pid = []
  · refine iff_of_true (Or.inl hnil) ⟨⟨_, reportOn_of_nil hnil⟩, ?_⟩
    refine List.all_eq_true.mpr fun id hid => ?_
    rcases hsku : skuOf d id with _ | sku
    · simp [rowFits, hsku]
    · have hmem : (id, sku) ∈ skuRows d pid := mem_withSku.mpr ⟨hid, hsku⟩
      rw [hnil] at hmem
      cases hmem
  rcases ha : ExternalHttpProviderAdapter.new p with e | a
  · refine iff_of_false (fun h => ?_) fun h => ?_
    · obtain ⟨⟨a, ha'⟩, -⟩ := h.resolve_left hnil
      rw [ha] at ha'
      cases ha'
    · obtain ⟨⟨report, hrep⟩, -⟩ := h
      rw [reportOn_unbuilt ha hnil] at hrep
      cases hrep
  constructor
  · intro h
    obtain ⟨report, hrep, -⟩ := h.accounts henv
    exact ⟨⟨report, hrep⟩, (all_rowFits ha henv).mpr fun r hr => ((h.resolve_left hnil).2 r hr).fits⟩
  · rintro ⟨⟨report, hrep⟩, hfits⟩
    refine Or.inr ⟨⟨a, ha⟩, fun r hr => ⟨fun ht => ?_, (all_rowFits ha henv).mp hfits r hr⟩⟩
    obtain ⟨e, he⟩ := reportOn_escapes ha henv ⟨r, hr, ht⟩
    rw [he] at hrep
    cases hrep

/-- A sync of an active external provider is not spoilt by failing rows exactly when no row ends
with a transport error other than a timeout and every reported quantity fits its column (and the
adapter of the provider can be built, if a row has a SKU). -/
theorem sync_unspoilt_iff (env : Env) (d : Db) (pid : ℕ) (hp : d.providers.get pid = some p)
    (hactive : p.isActive) (htype : p.type = .external)
    (henv : Replies env p outs (skuRows d pid)) :
    Unspoilt env d pid outs (transact env d (syncTransaction pid)) ↔ Syncable d p pid outs := by
  rcases sync_external env d pid hp hactive htype with
    ⟨report, ws, hrep, hfits, hres, hc⟩ | ⟨e, hrep, hres, -⟩
  · have h : Syncable d p pid outs := (syncable_iff henv).mpr ⟨⟨report, hrep⟩, hfits⟩
    obtain ⟨report', hrep', hacc⟩ := h.accounts henv
    obtain rfl := Except.ok.inj (hrep.symm.trans hrep')
    refine iff_of_true ⟨⟨report, hres, hacc, hacc.total⟩, fun k => ?_, fun key hkey => ?_⟩ h
    · rw [hc.stock k, ← syncedTo_eq_fetched henv (h.imp_right And.left)]
      rfl
    · cases key with
      | product x => exact congrFun hc.products x
      | provider x => exact congrFun hc.providers x
      | inventory k => exact absurd rfl (hkey k)
      | reservation x => exact hc.res_out x rfl
      | order x => exact hc.ord_out x rfl
  · refine iff_of_false (fun h => ?_) fun h => ?_
    · obtain ⟨report, hres', -⟩ := h.returns
      rw [hres] at hres'
      cases hres'
    · obtain ⟨⟨report, hrep'⟩, hfits⟩ := (syncable_iff henv).mp h
      rcases hrep with hrep | hno
      · rw [hrep] at hrep'
        cases hrep'
      · exact hno hfits

/-- The partner has seven lamps and cannot be reached for the rugs. -/
def refusedRugs : ℕ → HttpOutcome
  | 3 => .error "refused"
  | _ => .response ⟨200, .object (some (some 7)) none none, ""⟩

/-- The rugs do not reply in time. -/
def lateRugs : ℕ → HttpOutcome
  | 3 => .timeout
  | _ => .response ⟨200, .object (some (some 7)) none none, ""⟩

/-- A timeout for the rugs does not spoil the sync of the lamps. -/
theorem sync_unspoilt_iff_late : Unspoilt (replying lateRugs 5) shop 2 lateRugs
    (transact (replying lateRugs 5) shop (syncTransaction 2)) := by
  have houts : ∀ id, StockOutcome (lateRugs id) := by
    intro id
    unfold lateRugs
    split
    · exact .timeout
    · exact .reply rfl rfl
  refine (sync_unspoilt_iff (replying lateRugs 5) shop 2 rfl rfl rfl
    fun r _ => ⟨houts r.1, fun _ _ => rfl⟩).mpr (Or.inr ⟨⟨_, rfl⟩, fun r _ => ?_⟩)
  unfold lateRugs
  split
  · exact ⟨id, fun qty hqty => by cases hqty⟩
  · exact ⟨id, fun qty hqty => by cases hqty; rfl⟩

/-- A refused connection for the rugs spoils the sync of the lamps. -/
theorem sync_spoilt : ¬∀ env d pid p outs, d.providers.get pid = some p → p.isActive →
    p.type = .external → Replies env p outs (skuRows d pid) →
    Unspoilt env d pid outs (transact env d (syncTransaction pid)) := by
  intro h
  have houts : ∀ id, StockOutcome (refusedRugs id) := by
    intro id
    unfold refusedRugs
    split
    · exact .transport _
    · exact .reply rfl rfl
  obtain ⟨⟨report, hres, -⟩, -, -⟩ :=
    h (replying refusedRugs 5) shop 2 _ refusedRugs rfl rfl rfl
      fun r _ => ⟨houts r.1, fun _ _ => rfl⟩
  have herr : (transact (replying refusedRugs 5) shop (syncTransaction 2)).result =
      .error (.httpxError "refused") := by
    rfl
  rw [herr] at hres
  cases hres

end InventoryReservation
