/-
# Conservation of stock along serial runs

The counters of every inventory row stay within the initial stock, and the clamp of
`_release_items` never acts.  For a row of an internal provider the reserved quantity counts
every unit twice.
-/
import InventoryReservation.Serial

namespace InventoryReservation

open RowTxn ReservationService

variable {cfg : Settings} {env : Env} {d d₀ d₁ d₂ : Db} {q : ServiceCall} {qs : List ServiceCall}

/-! ### The clamp -/

/-- Two changes do the same to the database `d`. -/
structure Change.Agree (d : Db) (Δ Δ' : Change) : Prop where
  stock : ∀ k v, d.inventory.get k = some v → Δ.stock k v = Δ'.stock k v
  res : Δ.res = Δ'.res
  ord : Δ.ord = Δ'.ord

lemma Change.Agree.row_eq {Δ Δ' : Change} (h : Δ.Agree d Δ') (h₁ : Δ.Applies d d₁)
    (h₂ : Δ'.Applies d d₂) (k : RowKey) : RowStore.row d₁ k = RowStore.row d₂ k := by
  cases k with
  | product p => simp [h₁.products, h₂.products]
  | provider p => simp [h₁.providers, h₂.providers]
  | inventory k =>
    simp only [Db.row_inventory, h₁.stock, h₂.stock]
    rcases hv : d.inventory.get k with _ | v
    · rfl
    · simp [h.stock k v hv]
  | reservation x =>
    simp only [Db.row_reservation]
    rcases hx : Δ.res x with _ | ⟨b, c⟩
    · rw [h₁.res_out x hx, h₂.res_out x (h.res ▸ hx)]
    · rw [(h₁.res x b c hx).2, (h₂.res x b c (h.res ▸ hx)).2]
  | order x =>
    simp only [Db.row_order]
    rcases hx : Δ.ord x with _ | o
    · rw [h₁.ord_out x hx, h₂.ord_out x (h.ord ▸ hx)]
    · rw [(h₁.ord x o hx).2, (h₂.ord x o (h.ord ▸ hx)).2]

/-- Two outcomes that leave the same rows. -/
structure SameOutcome (o o' : Outcome Db Query Answer PyErr Reply) : Prop where
  result : o.result = o'.result
  trace : o.trace = o'.trace
  rows : ∀ k : RowKey, RowStore.row o.db k = RowStore.row o'.db k

/-- On a balanced database the release of pending reservations does not depend on the clamp. -/
lemma Kept.release_agree (h : Kept d₀ d) {clamp : ℤ → ℤ} (hclamp : Clamps clamp)
    {status : ReservationStatus} {rs : List (ℕ × Reservation)}
    (hs : status = .cancelled ∨ status = .expired) (hnd : (rs.map Prod.fst).Nodup)
    (hst : ∀ r ∈ rs, r.2.status = .pending)
    (ha : (releaseChange (max 0) status rs).Applies d d₁) :
    (releaseChange (max 0) status rs).Agree d (releaseChange clamp status rs) := by
  have hlaw : (releaseChange (max 0) status rs).Lawful d (max 0) := .release hs hnd hst
  have hpos' : Positive d₁ := h.positive.applies hlaw (fun x r hx => by
    obtain ⟨_, -, hn, -⟩ := mem_of_releaseChange_res hnd hx
    cases hn) ha
  refine ⟨fun k v hv => ?_, ?_, by funext x; simp⟩
  · have hback : Backed d := h.funded.reserved
    have hstock := fun {clamp : ℤ → ℤ} (hclamp : Clamps clamp) =>
      (hback.release_stock h.coherent h.positive hpos' hs hnd hst ha hclamp hv).2
    rw [hstock clamps_max, hstock hclamp]
  · funext x
    by_cases hx : x ∈ rs.map Prod.fst
    · obtain ⟨⟨y, r⟩, hr, rfl⟩ := List.mem_map.mp hx
      rw [releaseChange_res_of_mem hnd hr, releaseChange_res_of_mem hnd hr]
    · rw [releaseChange_res_of_not_mem hx, releaseChange_res_of_not_mem hx]

section Clamp

variable {clamp : ℤ → ℤ} {x : ℕ} {tr tr' : Trace} {Δ Δ' : Option Change} {e e' : PyErr}

/-- Two runs of a transaction on one database end alike, apart from the clamp. -/
def Alike (clamp : ℤ → ℤ) : Option Change → Option Change → Prop
  | none, none => True
  | some Δ, some Δ' => ∃ status rs, (status = .cancelled ∨ status = .expired) ∧
      (rs.map Prod.fst).Nodup ∧ (∀ r ∈ rs, r.2.status = ReservationStatus.pending) ∧
      Δ = releaseChange (max 0) status rs ∧ Δ' = releaseChange clamp status rs
  | _, _ => False

lemma Cancels.alike (h : Cancels env d (· = d) (max 0) x () tr Δ)
    (h' : Cancels env d (· = d) clamp x () tr' Δ') : tr = tr' ∧ Alike clamp Δ Δ' := by
  cases h with
  | noop hd hr hst =>
    cases h' with
    | noop => exact ⟨rfl, trivial⟩
    | release hd' hr' hst' =>
      subst hd hd'
      rw [hr] at hr'
      cases hr'
      rw [hst'] at hst
      rcases hst with hst | hst <;> cases hst
  | release hd hr hst hok =>
    cases h' with
    | noop hd' hr' hst' =>
      subst hd hd'
      rw [hr] at hr'
      cases hr'
      rw [hst] at hst'
      rcases hst' with hst' | hst' <;> cases hst'
    | release hd' hr' =>
      subst hd hd'
      rw [hr] at hr'
      cases hr'
      exact ⟨rfl, .cancelled, _, Or.inl rfl, by simp, by simpa using hst, rfl, rfl⟩

lemma CancelRaises.unique (h : CancelRaises env d (· = d) x e tr)
    (h' : CancelRaises env d (· = d) x e' tr') : e = e' ∧ tr = tr' := by
  cases h with
  | notFound hd hr =>
    cases h' with
    | notFound => exact ⟨rfl, rfl⟩
    | _ hd' hr' =>
      subst hd hd'
      rw [hr] at hr'
      cases hr'
  | status hd hr hst =>
    cases h' with
    | notFound hd' hr' =>
      subst hd hd'
      rw [hr] at hr'
      cases hr'
    | status hd' hr' =>
      subst hd hd'
      rw [hr] at hr'
      cases hr'
      exact ⟨rfl, rfl⟩
    | provider hd' hr' hst' =>
      subst hd hd'
      rw [hr] at hr'
      cases hr'
      rw [hst] at hst'
      cases hst'
  | provider hd hr hst he =>
    cases h' with
    | notFound hd' hr' =>
      subst hd hd'
      rw [hr] at hr'
      cases hr'
    | status hd' hr' hst' =>
      subst hd hd'
      rw [hr] at hr'
      cases hr'
      rw [hst] at hst'
      cases hst'
    | provider hd' hr' hst' he' =>
      subst hd hd'
      rw [hr] at hr'
      cases hr'
      rw [he] at he'
      cases he'
      exact ⟨rfl, rfl⟩

/-- The batch of a sweep is determined by the database and the clock. -/
lemma batch_unique {rs rs' : List (ℕ × Reservation)}
    (hids : rs.map (fun r => RowKey.reservation r.1) = rs'.map fun r => RowKey.reservation r.1)
    (hrow : ∀ r ∈ rs, d.reservations.get r.1 = some r.2)
    (hrow' : ∀ r ∈ rs', d.reservations.get r.1 = some r.2) : rs = rs' := by
  induction rs generalizing rs' with
  | nil =>
    cases rs' with
    | nil => rfl
    | cons => cases hids
  | cons r rs ih =>
    cases rs' with
    | nil => cases hids
    | cons r' rs' =>
      obtain ⟨x, r⟩ := r
      obtain ⟨x', r'⟩ := r'
      simp only [List.map_cons, List.cons.injEq, RowKey.reservation.injEq] at hids
      obtain ⟨rfl, hids⟩ := hids
      have hr : d.reservations.get x = some r := hrow _ List.mem_cons_self
      have hr' : d.reservations.get x = some r' := hrow' _ List.mem_cons_self
      obtain rfl : r = r' := Option.some.inj (hr.symm.trans hr')
      rw [ih hids (fun r hr => hrow r (List.mem_cons_of_mem _ hr))
        fun r hr => hrow' r (List.mem_cons_of_mem _ hr)]

lemma Expires.alike {limit n n' : ℕ} (h : Expires env d (Rely.solo d) (max 0) limit n tr Δ)
    (h' : Expires env d (Rely.solo d) clamp limit n' tr' Δ') :
    n = n' ∧ tr = tr' ∧ Alike clamp Δ Δ' := by
  cases h with
  | mk hd hfree hrs hrow =>
    cases h' with
    | mk hd' hfree' hrs' hrow' =>
      rw [seen_solo hd, show _ = _ from hfree] at hrs
      rw [seen_solo hd] at hrow
      rw [seen_solo hd', show _ = _ from hfree'] at hrs'
      rw [seen_solo hd'] at hrow'
      obtain rfl := batch_unique (hrs.trans hrs'.symm) hrow hrow'
      exact ⟨rfl, rfl, .expired, _, Or.inr rfl, nodup_of_batch hrs,
        fun r hr => (expired_of_mem hrs hrow (show (r.1, r.2) ∈ _ from hr)).2.1, rfl, rfl⟩

end Clamp

lemma SameOutcome.refl (o : Outcome Db Query Answer PyErr Reply) : SameOutcome o o :=
  ⟨rfl, rfl, fun _ => rfl⟩

/-- How a transaction ends: as `S` says if it returns, as `F` says if it raises. -/
def EndsBy (d : Db) (S : Reply → Trace → Option Change → Prop) (F : PyErr → Trace → Prop)
    (o : Outcome Db Query Answer PyErr Reply) : Prop :=
  (∃ a Δ ws, S a o.trace Δ ∧ o.result = .ok a ∧ Effect d o.db ws Δ) ∨
    ∃ e, F e o.trace ∧ o.result = .error e ∧ o.db = d

/-- Two transactions whose ends are alike leave the same rows. -/
lemma Kept.same_of_alike (h : Kept d₀ d) {clamp : ℤ → ℤ} (hclamp : Clamps clamp)
    {S S' : Reply → Trace → Option Change → Prop} {F : PyErr → Trace → Prop}
    {o o' : Outcome Db Query Answer PyErr Reply} (ho : EndsBy d S F o) (ho' : EndsBy d S' F o')
    (hS : ∀ a a' tr tr' Δ Δ', S a tr Δ → S' a' tr' Δ' → a = a' ∧ tr = tr' ∧ Alike clamp Δ Δ')
    (hF : ∀ e e' tr tr', F e tr → F e' tr' → e = e' ∧ tr = tr')
    (hSF : ∀ a e tr tr' Δ, S a tr Δ → F e tr' → False)
    (hSF' : ∀ a e tr tr' Δ, S' a tr Δ → F e tr' → False) : SameOutcome o o' := by
  rcases ho with ⟨a, Δ, ws, hs, hres, heff⟩ | ⟨e, he, hres, hdb⟩
  · rcases ho' with ⟨a', Δ', ws', hs', hres', heff'⟩ | ⟨e', he', -, -⟩
    · obtain ⟨rfl, htr, halike⟩ := hS _ _ _ _ _ _ hs hs'
      refine ⟨hres.trans hres'.symm, htr, fun k => ?_⟩
      rcases Δ with _ | Δ <;> rcases Δ' with _ | Δ'
      · rw [show o.db = d from heff, show o'.db = d from heff']
      · exact halike.elim
      · exact halike.elim
      · obtain ⟨status, rs, hst, hnd, hp, rfl, rfl⟩ := halike
        have hc : Change.Commits _ d o.db ws := heff
        have hc' : Change.Commits _ d o'.db ws' := heff'
        exact (h.release_agree hclamp hst hnd hp hc.toApplies).row_eq hc.toApplies hc'.toApplies k
    · exact (hSF _ _ _ _ _ hs he').elim
  · rcases ho' with ⟨a', Δ', ws', hs', -, -⟩ | ⟨e', he', hres', hdb'⟩
    · exact (hSF' _ _ _ _ _ hs' he).elim
    · obtain ⟨rfl, htr⟩ := hF _ _ _ _ he he'
      exact ⟨hres.trans hres'.symm, htr, fun k => by rw [hdb, hdb']⟩

lemma same_of_solo {x : ℕ} : ∀ d₁ d₂, d₁ = d → d₂ = d → d₂.reservations.get x = d₁.reservations.get x := by
  rintro _ _ rfl rfl
  rfl

/-- Two cancellations of one reservation, one with another clamp. -/
lemma Kept.same_of_cancel (h : Kept d₀ d) {clamp : ℤ → ℤ} (hclamp : Clamps clamp) {x : ℕ}
    {S S' : Reply → Trace → Option Change → Prop} {o o' : Outcome Db Query Answer PyErr Reply}
    (ho : EndsBy d S (CancelRaises env d (· = d) x) o)
    (ho' : EndsBy d S' (CancelRaises env d (· = d) x) o')
    (hS : ∀ {a tr Δ}, S a tr Δ → a = .done ∧ Cancels env d (· = d) (max 0) x () tr Δ)
    (hS' : ∀ {a tr Δ}, S' a tr Δ → a = .done ∧ Cancels env d (· = d) clamp x () tr Δ) :
    SameOutcome o o' := by
  refine h.same_of_alike hclamp ho ho' (fun a a' tr tr' Δ Δ' hs hs' => ?_)
    (fun _ _ _ _ => CancelRaises.unique) (fun _ _ _ _ _ hs hf => ?_) fun _ _ _ _ _ hs hf => ?_
  · obtain ⟨rfl, hc⟩ := hS hs
    obtain ⟨rfl, hc'⟩ := hS' hs'
    exact ⟨rfl, hc.alike hc'⟩
  · exact (hS hs).2.not_raises hf same_of_solo
  · exact (hS' hs).2.not_raises hf same_of_solo

/-- Along a run the clamp never changes a result. -/
theorem clamp_irrelevant (h : Kept d₀ d) (hop : q.op.Distinct) {clamp : ℤ → ℤ}
    (hclamp : Clamps clamp) :
    SameOutcome (serve cfg d q) (transact q.env d (q.op.transactionBy clamp cfg)) := by
  obtain ⟨op, env⟩ := q
  have ho := Op.transact hop (max 0) cfg env (.refl d)
  have ho' := Op.transact hop clamp cfg env (.refl d)
  cases op with
  | create => exact .refl _
  | confirm => exact .refl _
  | cancel x => exact h.same_of_cancel hclamp ho ho' (fun hs => hs.cancel) fun hs => hs.cancel
  | expireBatch limit =>
    refine h.same_of_alike hclamp ho ho' (fun a a' tr tr' Δ Δ' hs hs' => ?_) (fun _ _ _ _ hf => ?_)
      (fun _ _ _ _ _ _ hf => h.coherent.not_expireRaises hf)
      fun _ _ _ _ _ _ hf => h.coherent.not_expireRaises hf
    · obtain ⟨n, rfl, hs⟩ := hs.expire
      obtain ⟨n', rfl, hs'⟩ := hs'.expire
      obtain ⟨rfl, halike⟩ := hs.alike hs'
      exact ⟨rfl, halike⟩
    · exact (h.coherent.not_expireRaises hf).elim
  | paymentOutcome x outcome =>
    cases outcome with
    | success => exact .refl _
    | failed => exact h.same_of_cancel hclamp ho ho' (fun hs => hs.failed) fun hs => hs.failed

/-! ### Conservation -/

/-- Along a run of valid calls every row has its initial stock less what was sold, covers what is
promised, and never goes below zero; and whatever call comes next, it ends as it would without
the clamp of `_release_items`. -/
theorem stock_conserved (cfg : Settings) (h0 : Blank d₀) (hu : Unreserved d₀)
    (hqs : ∀ q ∈ qs, q.op.Valid) :
    (∀ k v, (run cfg d₀ qs).inventory.get k = some v →
      ∃ v₀, d₀.inventory.get k = some v₀ ∧
        v.qtyAvailable = v₀.qtyAvailable - (run cfg d₀ qs).unitsIn .confirmed k ∧
        (run cfg d₀ qs).unitsIn .pending k ≤ v.qtyReserved ∧ v.qtyReserved ≤ v.qtyAvailable ∧
        (run cfg d₀ qs).unitsIn .confirmed k + (run cfg d₀ qs).unitsIn .pending k ≤
          v₀.qtyAvailable ∧
        0 ≤ v.qtyReserved ∧ 0 ≤ v.qtyAvailable) ∧
    ∀ q : ServiceCall, q.op.Valid →
      SameOutcome (serve cfg (run cfg d₀ qs) q)
        (transact q.env (run cfg d₀ qs) (q.op.transactionBy id cfg)) := by
  have hkept : Kept d₀ (run cfg d₀ qs) := kept_of_run (h0.kept hu) hqs
  refine ⟨fun k v hv => ?_, fun q hq => clamp_irrelevant hkept hq.distinct clamps_id⟩
  have hstat : Static d₀ (run cfg d₀ qs) := static_of_run fun q hq => (hqs q hq).distinct
  have hid := hstat.stock k
  rw [hv] at hid
  obtain ⟨v₀, hv₀, -⟩ := Option.map_eq_some_iff.mp hid.symm
  have hsold := hkept.funded.sold k v₀ v hv₀ hv
  have hpend := hkept.funded.pending_le hkept.positive hv
  have hbound := hkept.funded.bounded k v hv
  have hnn := hkept.positive.unitsIn_nonneg .pending k
  exact ⟨v₀, hv₀, hsold, hpend, hbound, by omega, by omega, by omega⟩

theorem stock_conserved_sale :
    (run quarter shop sale).inventory.get 2 = some ⟨2, 2, 7, 0, none⟩ ∧
      (run quarter shop sale).unitsIn .confirmed 2 ≤ 10 := by
  have hrow : (run quarter shop sale).inventory.get 2 = some ⟨2, 2, 7, 0, none⟩ := by
    decide +kernel
  obtain ⟨v₀, hv₀, hsold, -⟩ :=
    (stock_conserved quarter shop_blank shop_unreserved (by decide)).1 2 _ hrow
  cases hv₀
  simp only at hsold
  exact ⟨hrow, by omega⟩

end InventoryReservation
