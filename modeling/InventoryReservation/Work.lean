/-
# Sessions that prepare a change

`Work d₀ L Δ s H` says that the session `s`, with the rows `H` locked, has the change `Δ` in
memory or flushed: the locked inventory rows are changed by `Δ`, so are the reservations, and
nothing else is.  The products and providers in `L` are loaded.  Every statement of the
service has its rule here, and `Work.commits` is what a session commits in the end.
-/
import InventoryReservation.Change
import InventoryReservation.RowTxn.Talk

namespace InventoryReservation

open RowTxn

/-- What the operations rely on: the database is `d₀` up to counters and reservations, and
every lock is granted up to date. -/
structure Steady (d₀ : Db) (R : Rely Db RowKey) : Prop where
  static : ∀ d, R.seen d → Static d₀ d
  guard : ∀ k, R.guard k

/-- A product or provider: it is as in the database, or not loaded (and not in the list `L`),
and nothing is done to it. -/
def Fixed {α : Type} (v : Option α) (inL : Prop) (c : Cell α) : Prop :=
  (c.val = v ∨ c.val = none ∧ ¬inL) ∧ ¬c.Touched

/-- An inventory row: if it is locked, the object is the locked version changed by `f`; `r` is
the row of the database up to the counters, `w` the locked version if it is known. -/
structure Stocked (r : Option Inventory) (f : Inventory → Inventory) (w : Option Inventory)
    (c : Cell Inventory) : Prop where
  locked : ∀ v, c.held = some v → ∃ u, v = some u ∧ c.val = some (f u) ∧
    r.map Inventory.ident = some u.ident
  known : ∀ u, w = some u → c.held = some (some u)
  dirty : c.dirty → c.held ≠ none
  free : c.held = none → r = none ∨ f = id

/-- The session has prepared the change `Δ`. -/
structure Work (d₀ : Db) (L : List RowKey) (Δ : Change) (s : Sess) (H : Held RowOf) : Prop where
  prov : ∀ p, Fixed (d₀.providers.get p) (.provider p ∈ L) (s.cell H (.provider p))
  prod : ∀ p, Fixed (d₀.products.get p) (.product p ∈ L) (s.cell H (.product p))
  stock : ∀ k, Stocked (d₀.inventory.get k) (Δ.stock k) (Δ.was k) (s.cell H (.inventory k))
  res : ∀ x, (s.cell H (.reservation x)).Prepares (Δ.res x)
  ord : ∀ x, (s.cell H (.order x)).Prepares ((Δ.ord x).map fun o => (none, o))

variable {d₀ : Db} {R : Rely Db RowKey} {env : Env} {L : List RowKey} {Δ : Change} {s s' : Sess}
  {H H' : Held RowOf} {α β : Type}

lemma Fixed.load {v : Option α} {p q : Prop} [Decidable q] {c c' : Cell α} (h : Fixed v p c)
    (ht : c'.Touched ↔ c.Touched) (hv : c'.val = c.val.or (if q then v else none)) :
    Fixed v (p ∨ q) c' := by
  refine ⟨?_, fun hc => h.2 (ht.mp hc)⟩
  rw [hv]
  rcases h.1 with hc | ⟨hc, hp⟩
  · left
    rw [hc]
    split
    · exact Option.or_self
    · exact Option.or_none
  · rw [hc, Option.none_or]
    split
    · exact Or.inl rfl
    · next hq => exact Or.inr ⟨rfl, not_or.mpr ⟨hp, hq⟩⟩

lemma Stocked.id_of_free {r w : Option Inventory} {f : Inventory → Inventory} {c : Cell Inventory}
    (h : Stocked r f w c) (hn : c.held = none) (hr : r ≠ none) : f = id :=
  (h.free hn).resolve_left hr

lemma wp_obj {k : RowKey} {P : RowOf k → Sess → Held RowOf → Prop}
    {E : PyErr → Sess → Held RowOf → Prop} {v : RowOf k} (hv : s.val k = some v) (h : P v s H) :
    wp R env (obj k) P E s H := by
  simpa only [obj, wp, hv, Prog.pure_eq] using h

namespace Work

/-- A session that has done nothing. -/
lemma init (d₀ : Db) : Work d₀ [] .nothing Session.init fun _ => none where
  prov p := ⟨Or.inr ⟨rfl, by simp⟩, by simp [Cell.Touched, Session.cell, Session.init]⟩
  prod p := ⟨Or.inr ⟨rfl, by simp⟩, by simp [Cell.Touched, Session.cell, Session.init]⟩
  stock k := ⟨fun v h => by simp [Session.cell] at h, fun u h => by simp [Change.nothing] at h,
    fun h => by simp [Session.cell, Session.init] at h, fun _ => Or.inr rfl⟩
  res x := by simp [Cell.Prepares, Change.nothing, Cell.Touched, Session.cell, Session.init]
  ord x := by simp [Cell.Prepares, Change.nothing, Cell.Touched, Session.cell, Session.init]

lemma log (h : Work d₀ L Δ s H) (q : Query) (a : Answer q) : Work d₀ L Δ (s.log q a) H :=
  ⟨h.prov, h.prod, h.stock, h.res, h.ord⟩

lemma asked (h : Work d₀ L Δ s H) (env : Env) (qs : List Query) : Work d₀ L Δ (s.asked env qs) H :=
  ⟨h.prov, h.prod, h.stock, h.res, h.ord⟩

lemma provider (h : Work d₀ L Δ s H) {p : ℕ} (hp : .provider p ∈ L) :
    s.val (.provider p) = d₀.providers.get p :=
  (h.prov p).1.resolve_right fun hc => hc.2 hp

lemma product (h : Work d₀ L Δ s H) {p : ℕ} (hp : .product p ∈ L) :
    s.val (.product p) = d₀.products.get p :=
  (h.prod p).1.resolve_right fun hc => hc.2 hp

lemma res_free (h : Work d₀ L Δ s H) {x : ℕ} (hx : Δ.res x = none) :
    H (.reservation x) = none := by
  have := h.res x
  rw [hx] at this
  by_contra hn
  exact this (Or.inr hn)

lemma ord_free (h : Work d₀ L Δ s H) {x : ℕ} (hx : Δ.ord x = none) : H (.order x) = none := by
  have := h.ord x
  rw [hx] at this
  by_contra hn
  exact this (Or.inr hn)

lemma res_val (h : Work d₀ L Δ s H) {x : ℕ} {b : Option Reservation} {c : Reservation}
    (hx : Δ.res x = some (b, c)) : s.val (.reservation x) = some c := by
  have := h.res x
  rw [hx] at this
  exact this.1

lemma ord_val (h : Work d₀ L Δ s H) {x : ℕ} {o : Order} (hx : Δ.ord x = some o) :
    s.val (.order x) = some o := by
  have := h.ord x
  rw [hx] at this
  exact this.1

/-- A statement about one inventory row. -/
lemma set_stock (h : Work d₀ L Δ s H) {k : ℕ} {f : Inventory → Inventory}
    (hcell : ∀ k', k' ≠ .inventory k → s'.cell H' k' = s.cell H k')
    (hk : Stocked (d₀.inventory.get k) (f ∘ Δ.stock k) (Δ.was k) (s'.cell H' (.inventory k))) :
    Work d₀ L (Δ.setStock k f) s' H' where
  prov p := by rw [hcell _ (by simp)]; exact h.prov p
  prod p := by rw [hcell _ (by simp)]; exact h.prod p
  stock j := by
    by_cases hj : j = k
    · subst hj
      simpa [Change.setStock] using hk
    · rw [hcell _ (by simp [hj])]
      simpa [Change.setStock, hj] using h.stock j
  res x := by rw [hcell _ (by simp)]; exact h.res x
  ord x := by rw [hcell _ (by simp)]; exact h.ord x

/-- A statement about one reservation. -/
lemma set_res (h : Work d₀ L Δ s H) {x : ℕ} {b : Option Reservation} {c : Reservation}
    (hcell : ∀ k', k' ≠ .reservation x → s'.cell H' k' = s.cell H k')
    (hx : (s'.cell H' (.reservation x)).Prepares (some (b, c))) :
    Work d₀ L (Δ.setRes x b c) s' H' where
  prov p := by rw [hcell _ (by simp)]; exact h.prov p
  prod p := by rw [hcell _ (by simp)]; exact h.prod p
  stock j := by rw [hcell _ (by simp)]; exact h.stock j
  res y := by
    by_cases hy : y = x
    · subst hy
      simpa using hx
    · rw [hcell _ (by simp [hy]), Change.setRes_res_of_ne _ _ _ hy]
      exact h.res y
  ord y := by rw [hcell _ (by simp)]; exact h.ord y

/-- The change of a row that does not exist does not matter. -/
lemma of_stock (h : Work d₀ L Δ s H) {Δ' : Change} (hwas : Δ'.was = Δ.was)
    (hres : Δ'.res = Δ.res) (hord : Δ'.ord = Δ.ord)
    (hst : ∀ k, d₀.inventory.get k ≠ none → Δ'.stock k = Δ.stock k) : Work d₀ L Δ' s H where
  prov := h.prov
  prod := h.prod
  stock k := by
    rw [hwas]
    rcases hd : d₀.inventory.get k with _ | r
    · refine ⟨fun v hv => ?_, (h.stock k).known, (h.stock k).dirty, fun _ => Or.inl rfl⟩
      obtain ⟨u, -, -, hid⟩ := (h.stock k).locked v hv
      simp [hd] at hid
    · rw [hst k (by simp [hd]), ← hd]
      exact h.stock k
  res := by rw [hres]; exact h.res
  ord := by rw [hord]; exact h.ord

/-- A plain read before the first flush loads products and providers as they are. -/
lemma load (h : Work d₀ L Δ s H) {ks : List RowKey} {d : Db} (hd : Static d₀ d) :
    Work d₀ (L ++ ks) Δ (s.load ks d) H where
  prov p := by
    simp only [List.mem_append]
    refine (h.prov p).load (Session.touched_load ks d) ?_
    simp only [Session.cell_val, Session.val_load, Db.row_provider, hd.providers]
  prod p := by
    simp only [List.mem_append]
    refine (h.prod p).load (Session.touched_load ks d) ?_
    simp only [Session.cell_val, Session.val_load, Db.row_product, hd.products]
  stock k := by
    refine ⟨fun v hv => ?_, (h.stock k).known, fun hk => ?_, fun hn => ?_⟩
    · obtain ⟨u, hu, hval, hid⟩ := (h.stock k).locked v hv
      rw [Session.cell_val] at hval
      refine ⟨u, hu, ?_, hid⟩
      rw [Session.cell_val, Session.val_load, hval]
      rfl
    · exact (h.stock k).dirty (by simpa [Session.cell] using hk)
    · exact (h.stock k).free hn
  res x := (h.res x).load ks d
  ord x := (h.ord x).load ks d

/-- The lock of an inventory row is granted. -/
lemma hold (h : Work d₀ L Δ s H) {k : ℕ} {v : Inventory}
    (hid : (d₀.inventory.get k).map Inventory.ident = some v.ident) (hn : H (.inventory k) = none)
    (hv : (s.val (.inventory k)).getD v = v) :
    Work d₀ L Δ (s.load1 (.inventory k) (some v)) (H.hold (.inventory k) (some v)) := by
  have hΔ : Δ.stock k = id :=
    (h.stock k).id_of_free hn (by rintro h0; simp [h0] at hid)
  obtain ⟨hval, hheld⟩ : ((s.load1 (.inventory k) (some v)).cell
      (H.hold (.inventory k) (some v)) (.inventory k)).val = some v ∧ _ :=
    Session.cell_hold_self hv
  have : Work d₀ L (Δ.setStock k id) (s.load1 (.inventory k) (some v))
      (H.hold (.inventory k) (some v)) := h.set_stock
    (fun k' hk => Session.cell_hold_of_ne _ _ hk)
    ⟨fun w hw => ⟨v, by rw [hheld] at hw; exact (Option.some.inj hw).symm, by simp [hval, hΔ], hid⟩,
      fun u hu => absurd ((h.stock k).known u hu) (by simp [Session.cell, hn]),
      fun _ => by simp [hheld], fun hc => by simp [hheld] at hc⟩
  refine this.of_stock rfl rfl rfl fun j _ => ?_
  simp [Change.setStock]

/-- The rule for `get_by_id_for_update`: there is no such row, or the session goes on with the
row as the change has made it. -/
lemma lock (h : Work d₀ L Δ s H) (hR : Steady d₀ R) {k : ℕ} {c : Option Inventory → Svc α}
    {P : α → Sess → Held RowOf → Prop} {E : PyErr → Sess → Held RowOf → Prop}
    (hnone : d₀.inventory.get k = none → wp R env (c none) P E s H)
    (hsome : ∀ s' H' u, (∃ d, R.seen d ∧ d.inventory.get k = some u) → Work d₀ L Δ s' H' →
      H' (.inventory k) = some (some u) → s'.trace = s.trace → s'.writes = s.writes →
      wp R env (c (some (Δ.stock k u))) P E s' H') :
    wp R env (.lock (.inventory k) c) P E s H := by
  refine wp_lock (hR.guard _) (fun hn hd => (h.stock k).dirty hd hn) ?_ ?_ ?_
  · intro d hd hr _
    exact hnone ((hR.static d hd).symm.stock_eq_none hr)
  · intro d r hd hrow hr
    obtain ⟨u, rfl, hval, -⟩ := (h.stock k).locked r hr
    rw [Session.cell_val] at hval
    rw [hval]
    exact hsome s H u ⟨d, hd, hrow⟩ h hr rfl rfl
  · intro d v hd _ hr hn hv
    have hid : (d₀.inventory.get k).map Inventory.ident = some v.ident := by
      rw [← (hR.static d hd).stock k, show d.inventory.get k = some v from hr]
      rfl
    have hΔ : Δ.stock k = id :=
      (h.stock k).id_of_free hn (by rintro h0; simp [h0] at hid)
    have := hsome _ _ v ⟨d, hd, hr⟩ (h.hold hid hn hv) (by simp [Held.hold]) (by simp) (by simp)
    rwa [hΔ] at this

/-- An assignment to the attributes of a locked inventory row. -/
lemma modifyStock (h : Work d₀ L Δ s H) {k : ℕ} {u : Inventory}
    (hk : H (.inventory k) = some (some u)) (f : Inventory → Inventory) :
    Work d₀ L (Δ.setStock k f) (s.modify (.inventory k) f) H := by
  refine h.set_stock (fun k' hk' => Session.cell_modify_of_ne _ hk')
    ⟨fun v hv => ?_, (h.stock k).known, ?_, ?_⟩
  · obtain ⟨w, rfl, hw, hid⟩ := (h.stock k).locked v hv
    refine ⟨w, rfl, ?_, hid⟩
    rw [Session.cell_val] at hw ⊢
    rw [Session.val_modify_self, hw]
    rfl
  · exact fun _ => by simp [Session.cell, hk]
  · exact fun hn => by simp [Session.cell, hk] at hn

/-- A row that is locked stays as it is. -/
lemma know (h : Work d₀ L Δ s H) {k : ℕ} {u : Inventory} (hk : H (.inventory k) = some (some u)) :
    Work d₀ L (Δ.know k u) s H where
  prov := h.prov
  prod := h.prod
  stock j := by
    by_cases hj : j = k
    · subst hj
      refine ⟨(h.stock j).locked, fun u' hu' => ?_, (h.stock j).dirty, (h.stock j).free⟩
      rw [Change.know_was_self] at hu'
      cases hu'
      exact hk
    · rw [Change.know_was_of_ne _ _ hj]
      exact h.stock j
  res := h.res
  ord := h.ord

lemma of_was (h : Work d₀ L Δ s H) {k : ℕ} {u : Inventory} (hk : Δ.was k = some u) :
    H (.inventory k) = some (some u) := (h.stock k).known u hk

/-- The object of a row that is known. -/
lemma stock_val (h : Work d₀ L Δ s H) {k : ℕ} {u : Inventory} (hk : Δ.was k = some u) :
    s.val (.inventory k) = some (Δ.stock k u) := by
  obtain ⟨u', hu', hval, -⟩ := (h.stock k).locked _ (h.of_was hk)
  rw [Session.cell_val] at hval
  rw [hval, Option.some.inj hu']

/-- An assignment to the attributes of a reservation of the change. -/
lemma modifyRes (h : Work d₀ L Δ s H) {x : ℕ} {b : Option Reservation} {c : Reservation}
    (hx : Δ.res x = some (b, c)) (f : Reservation → Reservation) :
    Work d₀ L (Δ.setRes x b (f c)) (s.modify (.reservation x) f) H := by
  refine h.set_res (fun k' hk' => Session.cell_modify_of_ne _ hk') ?_
  have := h.res x
  rw [hx] at this
  exact this.modify f

/-- A reservation that the session has loaded. -/
lemma readRes (h : Work d₀ L Δ s H) {x : ℕ} {r : Reservation} (hx : Δ.res x = none)
    (ho : s.objs (.reservation x) = some ⟨some r, r⟩) :
    Work d₀ L (Δ.setRes x (some r) r) s H := by
  refine h.set_res (fun _ _ => rfl)
    ⟨by simp [Session.val, ho], Or.inr ⟨h.res_free hx, fun o' ho' => ?_⟩, ?_⟩
  · rw [show s.objs (.reservation x) = some o' from ho'] at ho
    cases ho
    rfl
  · exact fun hne => absurd rfl hne

/-- A new reservation. -/
lemma insertRes (h : Work d₀ L Δ s H) (x : ℕ) (hx : Δ.res x = none) (c : Reservation) :
    Work d₀ L (Δ.setRes x none c) (s.insert (.reservation x) c) H := by
  refine h.set_res (fun k' hk' => Session.cell_insert_of_ne _ hk') ?_
  have := h.res x
  rw [hx] at this
  exact this.insert c

/-- A new order. -/
lemma insertOrd (h : Work d₀ L Δ s H) (x : ℕ) (hx : Δ.ord x = none) (v : Order) :
    Work d₀ L (Δ.addOrd x v) (s.insert (.order x) v) H where
  prov p := by rw [Session.cell_insert_of_ne _ (by simp)]; exact h.prov p
  prod p := by rw [Session.cell_insert_of_ne _ (by simp)]; exact h.prod p
  stock j := by rw [Session.cell_insert_of_ne _ (by simp)]; exact h.stock j
  res y := by rw [Session.cell_insert_of_ne _ (by simp)]; exact h.res y
  ord y := by
    by_cases hy : y = x
    · subst hy
      have := h.ord y
      rw [hx] at this
      simpa using this.insert v
    · rw [Session.cell_insert_of_ne _ (by simp [hy]), Change.addOrd_ord_of_ne _ _ hy]
      exact h.ord y

/-! ### Flush and commit -/

/-- A flush changes nothing that the session has prepared. -/
lemma flushed (h : Work d₀ L Δ s H) (hR : Steady d₀ R) (hf : Flushed R s H s' H') :
    Work d₀ L Δ s' H' := by
  have hfixed : ∀ {k : RowKey} {v : Option (RowOf k)} {p : Prop},
      Fixed v p (s.cell H k) → Fixed v p (s'.cell H' k) := by
    intro k v p hk
    have hnone : (s.cell H k).Prepares none := hk.2
    refine ⟨?_, hnone.flushed (hR.guard k) hf⟩
    rw [Session.cell_val, hf.val]
    exact hk.1
  refine ⟨fun p => hfixed (h.prov p), fun p => hfixed (h.prod p), fun k => ?_,
    fun x => (h.res x).flushed (hR.guard _) hf, fun x => (h.ord x).flushed (hR.guard _) hf⟩
  have hk : H' (.inventory k) = H (.inventory k) := by
    refine hf.kept _ ?_
    by_contra hc
    rw [not_or, not_not, not_not] at hc
    exact (h.stock k).dirty hc.1 hc.2
  refine ⟨fun v hv => ?_, fun u hu => hk.trans ((h.stock k).known u hu), fun hd => ?_,
    fun hn => (h.stock k).free (hk.symm.trans hn)⟩
  · obtain ⟨u, hu, hval, hid⟩ := (h.stock k).locked v (hk.symm.trans hv)
    rw [Session.cell_val] at hval
    refine ⟨u, hu, ?_, hid⟩
    rw [Session.cell_val, hf.val, hval]
  · simp [Session.cell, hf.dirty] at hd

/-- A flush fails only on a key that is in use. -/
lemma clash (h : Work d₀ L Δ s H) (hR : Steady d₀ R) (hc : Clash R s H) :
    (∃ x c d, Δ.res x = some (none, c) ∧ R.seen d ∧ d.reservations.get x ≠ none) ∨
    ∃ x o d, Δ.ord x = some o ∧ R.seen d ∧ d.orders.get x ≠ none := by
  obtain ⟨k, hk, hc⟩ := hc
  obtain ⟨hn, o, d, ho, hb, hd, hr⟩ := hc (hR.guard k)
  cases k with
  | product p => exact absurd (Or.inl hk) (h.prod p).2
  | provider p => exact absurd (Or.inl hk) (h.prov p).2
  | inventory j => exact absurd hn ((h.stock j).dirty hk)
  | reservation x =>
    have hx := h.res x
    rcases hΔ : Δ.res x with _ | ⟨b, c⟩
    · rw [hΔ] at hx
      exact absurd (Or.inl hk) hx
    · rw [hΔ] at hx
      rcases hx.2.1 with hh | ⟨-, hh⟩
      · exact absurd (hn.symm.trans hh) (by simp)
      · obtain rfl : b = none := (hh o ho).symm.trans hb
        exact Or.inl ⟨x, c, d, hΔ, hd, hr⟩
  | order x =>
    have hx := h.ord x
    rcases hΔ : Δ.ord x with _ | v
    · rw [hΔ] at hx
      exact absurd (Or.inl hk) hx
    · exact Or.inr ⟨x, v, d, hΔ, hd, hr⟩

/-- The rule for `flush`. -/
lemma flush (h : Work d₀ L Δ s H) (hR : Steady d₀ R) {P : Unit → Sess → Held RowOf → Prop}
    {E : PyErr → Sess → Held RowOf → Prop}
    (hok : ∀ s' H', Work d₀ L Δ s' H' → s'.trace = s.trace → P () s' H')
    (hfail : ∀ s' H', s'.trace = s.trace → Clash R s H → E .integrityError s' H') :
    wp R env InventoryReservation.flush P E s H := by
  refine wpFlush_intro (fun s' H' hf => ?_) (fun s' H' htr hc => ?_)
  · exact hok s' H' (h.flushed hR hf) hf.trace
  · exact hfail s' H' htr hc

/-- A session commits the change that it has prepared. -/
theorem commits (h : Work d₀ L Δ s H) {guard : RowKey → Prop} (hg : ∀ k, guard k) {d d' : Db}
    (hd : Static d₀ d) {ws : List RowKey} (hs : Settled guard s H d d' ws)
    (hΔ : ∀ x b c, Δ.res x = some (b, c) → b ≠ some c) : Δ.Commits d d' ws where
  products := by
    funext p
    exact hs.untouched (h.prod p).2
  providers := by
    funext p
    exact hs.untouched (h.prov p).2
  stock k := by
    -- without its lock a row is not written, under it the session has its value
    rcases hk : H (.inventory k) with _ | r
    · have hu : d'.inventory.get k = d.inventory.get k :=
        hs.kept (.inventory k) (fun hm => (h.stock k).dirty hm hk) hk
      rw [hu]
      rcases (h.stock k).free hk with hn | hid
      · rw [hd.stock_eq_none hn]
        rfl
      · rw [hid]
        exact Option.map_id_apply.symm
    · obtain ⟨u, rfl, hval, -⟩ := (h.stock k).locked r hk
      have h1 : d.inventory.get k = some u := hs.held _ _ hk
      have h2 : d'.inventory.get k = some (Δ.stock k u) :=
        (hs.changed (.inventory k) (hg _) (Or.inr (by simp [hk]))).trans hval
      rw [h1, h2]
      rfl
  was k u hu := hs.held _ _ (h.of_was hu)
  res x b c hx := by
    have := h.res x
    rw [hx] at this
    exact this.settled hs (hg _) (hΔ x b c hx)
  res_out x hx := by
    have := h.res x
    rw [hx] at this
    exact hs.untouched this
  ord x o hx := by
    have := h.ord x
    rw [hx] at this
    exact this.settled hs (hg _) (by simp)
  ord_out x hx := by
    have := h.ord x
    rw [hx] at this
    exact hs.untouched this
  wrote x hx hn := by
    have := h.res x
    rw [hn] at this
    exact this (hs.wrote _ hx)
  same := hs.same

end Work

/-! ### Specifications of operations -/

/-- What a session has done before its last flush: nothing, or the work for a change. -/
def Prepared (d₀ : Db) (s : Sess) (H : Held RowOf) : Option Change → Prop
  | none => s.dirty = [] ∧ ∀ k, H k = none
  | some Δ => ∃ L, Work d₀ L Δ s H

/-- What a transaction commits: nothing, or a change. -/
def Effect (d d' : Db) (ws : List RowKey) : Option Change → Prop
  | none => d' = d
  | some Δ => Δ.Commits d d' ws

/-- The questions of a transaction with their answers. -/
abbrev Trace : Type := List (Σ q, Answer q)

/-- The operation `p` meets a specification: `S` relates its result, its questions and the
change it makes, `F` an exception and the questions asked before it. -/
def Meets (d₀ : Db) (R : Rely Db RowKey) (env : Env) (p : Svc α)
    (S : α → Trace → Option Change → Prop) (F : PyErr → Trace → Prop) : Prop :=
  wp R env p (fun a s H => ∃ Δ, S a s.trace Δ ∧ Prepared d₀ s H Δ) (fun e s _ => F e s.trace)
    Session.init fun _ => none

/-- A change that changes every reservation it names. -/
def Change.Proper (Δ : Change) : Prop := ∀ x b c, Δ.res x = some (b, c) → b ≠ some c

/-- A session that has prepared nothing writes nothing. -/
lemma Prepared.wrote_nothing (h : Prepared d₀ s H none) {guard : RowKey → Prop} {d d' : Db}
    {ws : List RowKey} (hs : Settled guard s H d d' ws) : ws = [] := by
  refine List.eq_nil_iff_forall_not_mem.mpr fun k hk => ?_
  rcases hs.wrote k hk with hd | hn
  · simp [h.1] at hd
  · exact hn (h.2 k)

lemma Prepared.effect {Δ : Option Change} (h : Prepared d₀ s H Δ)
    (hΔ : ∀ δ, Δ = some δ → δ.Proper) {guard : RowKey → Prop} (hg : ∀ k, guard k) {d d' : Db}
    (hd : Static d₀ d) {ws : List RowKey} (hs : Settled guard s H d d' ws) : Effect d d' ws Δ := by
  rcases Δ with _ | Δ
  · exact hs.same (h.wrote_nothing hs)
  · obtain ⟨L, hw⟩ := h
    exact hw.commits hg hd hs (hΔ Δ rfl)

/-- A key that the change inserts is in use. -/
def Collides (seen : Db → Prop) : Option Change → Prop
  | none => False
  | some Δ => (∃ x c d, Δ.res x = some (none, c) ∧ seen d ∧ d.reservations.get x ≠ none) ∨
      ∃ x o d, Δ.ord x = some o ∧ seen d ∧ d.orders.get x ≠ none

lemma Prepared.collides {Δ : Option Change} (h : Prepared d₀ s H Δ) (hR : Steady d₀ R)
    (hc : Clash R s H) : Collides R.seen Δ := by
  rcases Δ with _ | Δ
  · obtain ⟨k, hk, -⟩ := hc
    simp [h.1] at hk
  · obtain ⟨L, hw⟩ := h
    exact hw.clash hR hc

lemma steady_solo {d : Db} (hd : Static d₀ d) : Steady d₀ (Rely.solo d) :=
  ⟨fun _ hd' => by cases hd'; exact hd, fun _ => trivial⟩

lemma steady_soloIds {d : Db} (hd : Static d₀ d) (ids : ℕ → Prop) :
    Steady d₀ (Rely.soloIds d ids) :=
  ⟨(steady_solo hd).static, fun _ => trivial⟩

/-- An operation that runs alone commits the change of its specification, or raises and leaves
the database as it was. -/
theorem Meets.transact_ids {d : Db} {ids : ℕ → Prop} {p : Svc α}
    {S : α → Trace → Option Change → Prop} {F : PyErr → Trace → Prop} (hd : Static d₀ d)
    (hids : p.TakesIds ids d.reservations.fresh) (h : Meets d₀ (Rely.soloIds d ids) env p S F)
    (hS : ∀ a tr Δ, S a tr (some Δ) → Δ.Proper)
    (hF : ∀ a tr Δ, S a tr Δ → Collides (· = d) Δ → F .integrityError tr) :
    (∃ a Δ ws, S a (RowTxn.transact env d (p.commit .integrityError)).trace Δ ∧
      (RowTxn.transact env d (p.commit .integrityError)).result = .ok a ∧
      Effect d (RowTxn.transact env d (p.commit .integrityError)).db ws Δ) ∨
    ∃ e, F e (RowTxn.transact env d (p.commit .integrityError)).trace ∧
      (RowTxn.transact env d (p.commit .integrityError)).result = .error e ∧
      (RowTxn.transact env d (p.commit .integrityError)).db = d := by
  have := transact_of_wp_ids hids h fun a s H ⟨Δ, hSa, hp⟩ hc =>
    hF a s.trace Δ hSa (hp.collides (steady_soloIds hd ids) hc)
  rcases this with ⟨a, s, H, ws, ⟨Δ, hSa, hp⟩, hres, htr, hs⟩ | h
  · refine Or.inl ⟨a, Δ, ws, by rwa [htr], hres, ?_⟩
    exact hp.effect (fun δ hδ => hS a s.trace δ (hδ ▸ hSa)) (fun _ => trivial) hd hs
  · exact Or.inr h

theorem Meets.transact {d : Db} {p : Svc α} {S : α → Trace → Option Change → Prop}
    {F : PyErr → Trace → Prop} (hd : Static d₀ d) (h : Meets d₀ (Rely.solo d) env p S F)
    (hS : ∀ a tr Δ, S a tr (some Δ) → Δ.Proper)
    (hF : ∀ a tr Δ, S a tr Δ → Collides (· = d) Δ → F .integrityError tr) :
    (∃ a Δ ws, S a (RowTxn.transact env d (p.commit .integrityError)).trace Δ ∧
      (RowTxn.transact env d (p.commit .integrityError)).result = .ok a ∧
      Effect d (RowTxn.transact env d (p.commit .integrityError)).db ws Δ) ∨
    ∃ e, F e (RowTxn.transact env d (p.commit .integrityError)).trace ∧
      (RowTxn.transact env d (p.commit .integrityError)).result = .error e ∧
      (RowTxn.transact env d (p.commit .integrityError)).db = d :=
  Meets.transact_ids hd (p.takesIds_of_le fun _ hm => hm) h hS hF

end InventoryReservation
