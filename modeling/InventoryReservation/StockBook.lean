/-
# The service as a book of claims

What the reservations are for: a reservation is a claim on the stock of the external providers,
held while it is pending, used when it is confirmed, dropped when it is cancelled or expires.  The
counter `qty_reserved` is the sum of the held claims, and the check under the lock is the check
that a claim fits into the free units.  A row of the service's own stock is not part of the book,
for there every unit is reserved twice.
-/
import InventoryReservation.ClaimBook
import InventoryReservation.Concurrent
import InventoryReservation.Finality
import InventoryReservation.SyncPromises
import InventoryReservation.RowTxn.Guarantee

namespace InventoryReservation

open RowTxn ReservationService

variable {cfg : Settings} {env : Env} {d d' d₀ : Db} {Δ : Change} {k x : ℕ}

/-! ### The book of a database -/

def ReservationStatus.stage : ReservationStatus → ClaimBook.Stage
  | pending => .held
  | confirmed => .used
  | cancelled | expired => .dropped

namespace Db

/-- The stock of the external providers, and the claims that the reservations are. -/
def book (d : Db) : ClaimBook.Book ℕ ℕ where
  stock k := if d.isInternal k then 0 else (d.inventory.get k).elim 0 Inventory.qtyAvailable
  claim x := (d.reservations.get x).map fun r =>
    ⟨r.status.stage, fun k => if d.isInternal k then 0 else qtyOn k r.items⟩

lemma book_claim_of_some {r : Reservation} (h : d.reservations.get x = some r) :
    d.book.claim x =
      some ⟨r.status.stage, fun k => if d.isInternal k then 0 else qtyOn k r.items⟩ := by
  simp [book, h]

lemma book_claim_of_none (h : d.reservations.get x = none) : d.book.claim x = none := by
  simp [book, h]

lemma book_stock_of_some {v : Inventory} (h : d.inventory.get k = some v)
    (hk : d.isInternal k = false) : d.book.stock k = v.qtyAvailable := by
  simp [book, h, hk]

lemma book_finite (d : Db) : {x | d.book.claim x ≠ none}.Finite := by
  refine (Finset.finite_toSet (Finset.range d.reservations.fresh)).subset fun x hx => ?_
  rcases hr : d.reservations.get x with _ | r
  · exact absurd (book_claim_of_none hr) hx
  · simpa using Table.lt_fresh_of_get hr

/-- The units that claims have in a stage are those of the reservations with the status. -/
lemma book_total (status : ReservationStatus)
    (hs : ∀ s : ReservationStatus, s.stage = status.stage ↔ s = status)
    (hk : d.isInternal k = false) : d.book.total status.stage k = d.unitsIn status k := by
  have hall : ∀ x, d.book.claim x ≠ none → x ∈ Finset.range d.reservations.fresh := by
    intro x hx
    rcases hr : d.reservations.get x with _ | r
    · exact absurd (book_claim_of_none hr) hx
    · simpa using Table.lt_fresh_of_get hr
  rw [ClaimBook.Book.total_eq_sum hall]
  refine Finset.sum_congr rfl fun x _ => ?_
  rcases hr : d.reservations.get x with _ | r
  · rw [ClaimBook.Book.units_of_none (book_claim_of_none hr)]
    rfl
  · rw [ClaimBook.Book.units_of_some (book_claim_of_some hr)]
    simp [Reservation.unitsIn, hs, hk]

lemma book_held (hk : d.isInternal k = false) : d.book.total .held k = d.unitsIn .pending k :=
  book_total .pending (fun s => by cases s <;> simp [ReservationStatus.stage]) hk

end Db

/-- What is reserved on a row of an external provider is what claims hold, and what is effectively
available is what is free. -/
lemma Backed.represents (h : Backed d) {v : Inventory} (hv : d.inventory.get k = some v)
    (hk : d.isInternal k = false) :
    v.qtyReserved = d.book.total .held k ∧ v.effective = d.book.free k := by
  have hres : v.qtyReserved = d.book.total .held k := by
    rw [h k v hv, hk, Db.book_held hk]
    simp
  refine ⟨hres, ?_⟩
  rw [Inventory.effective, ClaimBook.Book.free, Db.book_stock_of_some hv hk, hres]

/-- An item is on a row that exists. -/
lemma Coherent.qtyOn_of_none (h : Coherent d) {r : Reservation}
    (hr : d.reservations.get x = some r) (hk : d.inventory.get k = none) :
    qtyOn k r.items = 0 := by
  refine List.sum_eq_zero fun n hn => ?_
  obtain ⟨it, hit, rfl⟩ := List.mem_map.mp hn
  obtain ⟨⟨w, hw, -⟩, -⟩ := h.placed x r hr it hit
  rw [if_neg]
  rintro rfl
  rw [hw] at hk
  cases hk

/-- A balanced database has a sound book. -/
lemma Kept.bookSound (h : Kept d₀ d) : d.book.Sound where
  finite := d.book_finite
  nonneg x c hc k := by
    obtain ⟨r, hr, rfl⟩ := Option.map_eq_some_iff.mp hc
    simp only
    split
    · exact le_rfl
    · exact qtyOn_nonneg (h.positive x r hr)
  covered k := by
    rcases hint : d.isInternal k with _ | _
    · rw [Db.book_held hint]
      rcases hv : d.inventory.get k with _ | v
      · have hzero : d.unitsIn .pending k = 0 := by
          unfold Db.unitsIn Table.sum
          refine Finset.sum_eq_zero fun x _ => ?_
          rcases hr : d.reservations.get x with _ | r
          · rfl
          · simp [Reservation.unitsIn, h.coherent.qtyOn_of_none hr hv]
        simp [Db.book, hint, hv, hzero]
      · rw [Db.book_stock_of_some hv hint]
        exact (h.funded.pending_le h.positive hv).trans (h.funded.bounded k v hv)
    · have hzero : d.book.total .held k = 0 := by
        unfold ClaimBook.Book.total
        refine finsum_eq_zero_of_forall_eq_zero fun x => ?_
        rcases hr : d.reservations.get x with _ | r
        · exact ClaimBook.Book.units_of_none (Db.book_claim_of_none hr)
        · rw [ClaimBook.Book.units_of_some (Db.book_claim_of_some hr)]
          simp [hint]
      rw [hzero]
      simp [Db.book, hint]

/-! ### A change is a step of the book -/

lemma book_stock_of_applies (hd : Static d d') (ha : Δ.Applies d d')
    (h : ∀ v, d.inventory.get k = some v → (Δ.stock k v).qtyAvailable = v.qtyAvailable) :
    d'.book.stock k = d.book.stock k := by
  simp only [Db.book, hd.isInternal, ha.stock k]
  rcases hv : d.inventory.get k with _ | v
  · rfl
  · simp [h v hv]

lemma book_claim_of_res (hd : Static d d') (ha : Δ.Applies d d') {b : Option Reservation}
    {c : Reservation} (h : Δ.res x = some (b, c)) :
    d'.book.claim x =
      some ⟨c.status.stage, fun k => if d.isInternal k then 0 else qtyOn k c.items⟩ := by
  rw [Db.book_claim_of_some (ha.res x b c h).2]
  simp only [hd.isInternal]

lemma book_claim_of_out (hd : Static d d') (ha : Δ.Applies d d') (h : Δ.res x = none) :
    d'.book.claim x = d.book.claim x := by
  simp only [Db.book, ha.res_out x h, hd.isInternal]

lemma releasedStock_qtyAvailable (clamp : ℤ → ℤ) (rs : List (ℕ × Reservation)) (k : ℕ)
    (v : Inventory) : (releasedStock clamp rs k v).qtyAvailable = v.qtyAvailable := by
  have hitems : ∀ (items : List ReservationItem) (v : Inventory),
      (stockOf isDone (release clamp) items k v).qtyAvailable = v.qtyAvailable := by
    intro items
    induction items with
    | nil => exact fun _ => rfl
    | cons it items ih =>
      intro v
      rw [stockOf, ih]
      split <;> rfl
  induction rs generalizing v with
  | nil => rfl
  | cons r rs ih => exact (ih _).trans (hitems _ _)

/-- A lawful change is one step of the book. -/
theorem bookStep_of_lawful (hΔ : Δ.Lawful d₀ (max 0)) (hcoh : Coherent d) (hback : Backed d)
    (hΔpos : Δ.Positive) (ha : Δ.Applies d d') : ClaimBook.Step d.book d'.book := by
  have hd : Static d d' := hΔ.static ha
  cases hΔ with
  | @book cfg env userId plan rid ris hnd hroom hris =>
    have hres : (bookChange cfg env d₀ userId plan rid ris).res rid = some (none, _) :=
      Change.setRes_res_self _ _ _ _
    refine .claim (Db.book_claim_of_none (ha.res _ _ _ hres).1) (fun k => ?_) (fun k hk => ?_) ?_
      (book_claim_of_res hd ha hres) fun y hy => book_claim_of_out hd ha ?_
    · split
      · exact le_rfl
      · exact qtyOn_nonneg (hΔpos _ _ hres)
    · -- a row with units is one that was locked with room for them
      rcases hint : d.isInternal k with _ | _
      · simp only [hint, Bool.false_eq_true, if_false, qtyOn_of_outcomes hris] at hk ⊢
        have hmem : k ∈ plan.map Booking.id := by
          by_contra hn
          exact hk (bookedQty_of_not_mem hn)
        obtain ⟨b, hb, rfl⟩ := List.mem_map.mp hmem
        have hrow : d.inventory.get b.id = some b.row := ha.was _ _ (bookChange_was hnd hb)
        rw [bookedQty_of_mem hnd hb, ← (hback.represents hrow hint).2]
        exact hroom b hb
      · simp [hint] at hk
    · funext k
      refine book_stock_of_applies hd ha fun v _ => ?_
      rw [bookChange_stock]
      rfl
    · simp [bookChange, Change.setRes_res_of_ne _ _ _ hy, Change.nothing]
  | @confirm x r hst =>
    have hres : (confirmChange x r).res x = some (some r, r.confirmed) := by simp [confirmChange]
    have hr := (ha.res _ _ _ hres).1
    have hunits : ∀ k, qtyOn k r.confirmed.items = qtyOn k r.items := fun k =>
      qtyOn_settled k _ _ r.items
    have hclaim : d.book.claim x =
        some ⟨.held, fun k => if d.isInternal k then 0 else qtyOn k r.items⟩ := by
      rw [Db.book_claim_of_some hr, hst]
      rfl
    refine .use hclaim (fun k => ?_) ?_ fun y hy => book_claim_of_out hd ha ?_
    · rcases hint : d.isInternal k with _ | _
      · rcases hv : d.inventory.get k with _ | v
        · -- an item is on a row that exists
          simp [Db.book, hd.isInternal, hint, ha.stock k, hv, hcoh.qtyOn_of_none hr hv]
        · have hstock : (confirmChange x r).stock k v = consumed r.items k v := rfl
          simp [Db.book, hd.isInternal, hint, ha.stock k, hv, hstock, consumed_eq]
      · simp [Db.book, hd.isInternal, hint]
    · rw [book_claim_of_res hd ha hres]
      simp only [hunits]
      rfl
    · simp [confirmChange, Change.setRes_res_of_ne _ _ _ hy, Change.nothing]
  | @release status rs hs hnd hst =>
    refine .drop (t := {x | x ∈ rs.map Prod.fst}) (fun x hx => ?_) ?_ fun x hx =>
      book_claim_of_out hd ha (releaseChange_res_of_not_mem hx)
    · obtain ⟨⟨y, r⟩, hr, rfl⟩ := List.mem_map.mp hx
      have hres : (releaseChange (max 0) status rs).res y = some (some r, r.released status) :=
        releaseChange_res_of_mem hnd hr
      refine ⟨fun k => if d.isInternal k then 0 else qtyOn k r.items, ?_, ?_⟩
      · rw [Db.book_claim_of_some (ha.res _ _ _ hres).1, hst _ hr]
        rfl
      · rw [book_claim_of_res hd ha hres]
        have hstage : (r.released status).status.stage = .dropped := by
          rcases hs with rfl | rfl <;> rfl
        rw [hstage]
        congr 2
        funext k
        rw [show qtyOn k (r.released status).items = qtyOn k r.items from qtyOn_settled k _ _ _]
    · funext k
      refine book_stock_of_applies hd ha fun v _ => ?_
      rw [releaseChange_stock]
      exact releasedStock_qtyAvailable _ _ _ _

/-! ### Mixed runs -/

/-- A call is a step of the book, if it changes the database. -/
theorem Consistent.bookStep (h : Consistent d) {q : ServiceCall} (hq : q.op.Valid) :
    (serve cfg d q).db = d ∨ ClaimBook.Step d.book (serve cfg d q).db.book := by
  refine serve_induction hq.distinct (Or.inl rfl) fun _ _ Δ _ hret hΔ hc => Or.inr ?_
  have hpos : Δ.Positive := fun x r hx => hret.positive hq.positive hx
  exact bookStep_of_lawful hΔ h.coherent h.backed hpos hc.toApplies

/-- A sync brings new stock. -/
lemma sync_restock (d : Db) (pid : ℕ) (env : Env) :
    ClaimBook.Restock d.book (transact env d (syncTransaction pid)).db.book := by
  rcases sync_transact env (.refl d) pid with ⟨report, f, ws, -, -, hc⟩ | ⟨e, -, -, hdb⟩
  · funext x
    exact book_claim_of_out (static_of_sync hc.toApplies) hc.toApplies rfl
  · rw [hdb]
    rfl

/-- What a step of a mixed run does to the book. -/
def Step.OnBook (cfg : Settings) (d : Db) (s : Step) : Prop :=
  match s with
  | .call _ => s.serve cfg d = d ∨ ClaimBook.Step d.book (s.serve cfg d).book
  | .sync _ _ => ClaimBook.Restock d.book (s.serve cfg d).book

lemma Consistent.onBook (h : Consistent d) {s : Step} (hs : s.Valid) : s.OnBook cfg d := by
  cases s with
  | call q => exact h.bookStep hs
  | sync pid env => exact sync_restock d pid env

/-- A mixed run is a run of the book in which stock comes and goes. -/
theorem openRun_of_steps {steps : List Step} (h : Consistent d) (hs : ∀ s ∈ steps, s.Valid) :
    ClaimBook.OpenRun d.book (runSteps cfg d steps).book := by
  induction steps generalizing d with
  | nil => exact .refl
  | cons s steps ih =>
    have hs' := hs s (by simp)
    refine .trans ?_ (ih (h.step hs') fun s' hs'' => hs s' (by simp [hs'']))
    have hbook : s.OnBook cfg d := h.onBook hs'
    cases s with
    | call q =>
      rcases hbook with hsame | hstep
      · rw [hsame]
      · exact .single (Or.inl hstep)
    | sync pid env => exact .single (Or.inr hbook)

/-- In every state that calls and syncs reach, the counters of a row of an external provider are
those of the book: what is reserved is what claims hold, and what is effectively available is free;
and whatever comes next, a call is at most one step of the book, a sync brings new stock. -/
theorem service_refines_book {steps : List Step} (cfg : Settings) (h0 : Blank d)
    (hu : Unreserved d) (hs : ∀ s ∈ steps, s.Valid) :
    (∀ k v, (runSteps cfg d steps).inventory.get k = some v →
      (runSteps cfg d steps).isInternal k = false →
      v.qtyReserved = (runSteps cfg d steps).book.total .held k ∧
        v.effective = (runSteps cfg d steps).book.free k) ∧
    ∀ s : Step, s.Valid → s.OnBook cfg (runSteps cfg d steps) := by
  have h : Consistent (runSteps cfg d steps) := consistent_of_steps (h0.consistent hu) hs
  exact ⟨fun k v hv hk => h.backed.represents hv hk, fun s hv => h.onBook hv⟩

/-- Three lamps are reserved and the stock is synced; then the lamps are paid for. -/
theorem service_refines_book_lamps :
    (runSteps quarter shop (lampsAndSync 4)).book.total .held 2 = 3 ∧
      Step.OnBook quarter (runSteps quarter shop (lampsAndSync 4))
        (.call ⟨.confirm 1, calm 10⟩) := by
  have hv : ∀ s ∈ lampsAndSync 4, s.Valid := by
    intro s hs
    rcases List.mem_cons.mp hs with rfl | hs
    · exact ⟨by decide, by decide⟩
    · rw [List.mem_singleton.mp hs]
      trivial
  obtain ⟨hrow, hnext⟩ := service_refines_book quarter shop_blank shop_unreserved hv
  have hres := (hrow 2 ⟨2, 2, 4, 3, some 5⟩ rfl rfl).1
  exact ⟨hres.symm, hnext _ ⟨trivial, trivial⟩⟩

/-! ### Calls at the same time -/

section Concurrent

variable {T : Type} {iso : Isolation} {n : ℕ}

/-- A call promises of its commit what its change does. -/
theorem Op.verifiedBy {I : List (Commit T RowKey Reply) → Db → Prop} {G : Db → Db → Prop} {t : T}
    {op : Op} (hop : op.Distinct) (hI : ∀ d, (relyOn I (fun _ => True) t).seen d → Static d₀ d)
    (h : ∀ h d d' a tr Δ ws, I h d → t ∉ h.map Commit.tid →
      op.Returns (max 0) cfg env d₀ (relyOn I (fun _ => True) t) a tr Δ → Effect d d' ws Δ →
      I (h ++ [⟨t, a, ws⟩]) d' ∧ G d d') :
    VerifiedBy I G (fun _ => True) env t (op.transaction cfg) := by
  refine verifiedBy_commit (wp_mono (fun a s H ⟨Δ, hS, hp⟩ => ?_) (fun _ _ _ _ => trivial)
    (op.meets ⟨hI, fun _ => trivial⟩ (max 0) cfg hop))
  intro hist d d' ws hd ht hs
  refine h hist d d' a s.trace Δ ws hd ht hS ?_
  exact hp.effect (fun δ hδ => (hδ ▸ hS : op.Returns _ cfg env d₀ _ a _ (some δ)).proper)
    (fun _ => trivial) (hI d ⟨hist, hd, ht⟩) hs

/-- What a commit does: nothing, or a lawful change of a database that is as serial runs keep it,
`d₀` being the first database and `d₁` the one at the opening. -/
inductive Trade (d₀ d₁ d d' : Db) : Prop
  | nothing (h : d' = d)
  | change {Δ : Change} (hd : Kept d₀ d) (hΔ : Δ.Lawful d₁ (max 0)) (hpos : Δ.Positive)
      (ha : Δ.Applies d d')

namespace Trade

variable {d₁ : Db}

lemma book (h : Trade d₀ d₁ d d') : ClaimBook.Run d.book d'.book := by
  cases h with
  | nothing h => rw [h]
  | change hd hΔ hpos ha =>
    exact .single (bookStep_of_lawful hΔ hd.coherent hd.funded.reserved hpos ha)

lemma frame (h : Trade d₀ d₁ d d') {r : Reservation} (hr : d.reservations.get x = some r)
    (hst : r.status ≠ .pending) :
    d'.reservations.get x = some r ∧ d'.orders.get x = d.orders.get x := by
  cases h with
  | nothing h =>
    rw [h]
    exact ⟨hr, rfl⟩
  | change _ hΔ _ ha => exact hΔ.frame ha hr hst

lemma book_of_run (h : Relation.ReflTransGen (Trade d₀ d₁) d d') : ClaimBook.Run d.book d'.book := by
  induction h with
  | refl => exact .refl
  | tail _ hs ih => exact ih.trans hs.book

lemma frame_of_run (h : Relation.ReflTransGen (Trade d₀ d₁) d d') {r : Reservation}
    (hr : d.reservations.get x = some r) (hst : r.status ≠ .pending) :
    d'.reservations.get x = some r ∧ d'.orders.get x = d.orders.get x := by
  induction h with
  | refl => exact ⟨hr, rfl⟩
  | tail _ hs ih =>
    obtain ⟨hr', ho'⟩ := hs.frame ih.1 hst
    exact ⟨hr', ho'.trans ih.2⟩

end Trade

lemma Op.trades {d₁ : Db} {op : Op} (hop : op.Valid) (env : Env) (t : T) :
    VerifiedBy (fun _ d => Static d₁ d ∧ Kept d₀ d) (Trade d₀ d₁) (fun _ => True) env t
      (op.transaction cfg) := by
  have hseen : ∀ d, (relyOn (K := RowKey) (α := Reply) (fun _ d => Static d₁ d ∧ Kept d₀ d)
      (fun _ => True) t).seen d → Static d₁ d := by
    rintro d ⟨-, hd, -⟩
    exact hd.1
  refine op.verifiedBy hop.distinct hseen fun h d d' a tr Δ ws hd _ hret heff => ?_
  rcases Δ with _ | Δ
  · rw [show d' = d from heff]
    exact ⟨hd, .nothing rfl⟩
  · have hc : Δ.Commits d d' ws := heff
    have hΔ := hret.lawful hseen hop.distinct
    have hpos : Δ.Positive := fun x r hx => hret.positive hop.positive hx
    exact ⟨⟨hd.1.trans (hΔ.static hc.toApplies), hd.2.commits hd.1 hΔ hpos hc⟩,
      .change hd.2 hΔ hpos hc.toApplies⟩

variable [DecidableEq T] {env : T → Env} {ops : T → Op} {qs : List ServiceCall} {c c' : System T}

/-- Between two configurations of an up-to-date run the database changes by trades. -/
theorem trades_of_upToDate (hd : Kept d₀ d) (hops : ∀ t, (ops t).Valid)
    (h : UpToDateRun iso cfg env d n ops c) (h' : Run iso env (fun _ => True) c c') :
    Kept d₀ c'.db ∧ Relation.ReflTransGen (Trade d₀ d) c.db c'.db := by
  obtain ⟨⟨-, hk⟩, ht⟩ := guarantee_of_run (I := fun _ d' => Static d d' ∧ Kept d₀ d')
    (G := Trade d₀ d) ⟨.refl d, hd⟩ (fun t => (ops t).trades (hops t) (env t) t) h h'
  exact ⟨hk, ht⟩

/-- Calls of all kinds that run at the same time, every lock being granted up to date: between any
two points of the run the book makes steps of its own, the counters are those of the book, and what
has left the stock was used in between. -/
theorem concurrent_refines_book (iso : Isolation) (cfg : Settings) (env : T → Env) (n : ℕ)
    (h0 : Blank d₀) (hu : Unreserved d₀) (hqs : ∀ q ∈ qs, q.op.Valid) (hops : ∀ t, (ops t).Valid)
    (h : UpToDateRun iso cfg env (run cfg d₀ qs) n ops c)
    (h' : Run iso env (fun _ => True) c c') :
    ClaimBook.Run c.db.book c'.db.book ∧ c'.db.book.Sound ∧
      ∀ k v, c'.db.inventory.get k = some v → c'.db.isInternal k = false →
        v.qtyReserved = c'.db.book.total .held k ∧ v.effective = c'.db.book.free k ∧
        v.qtyAvailable =
          c.db.book.stock k - (c'.db.book.total .used k - c.db.book.total .used k) := by
  have hqk : Kept d₀ (run cfg d₀ qs) := kept_of_run (h0.kept hu) hqs
  obtain ⟨hk, ht⟩ := trades_of_upToDate hqk hops h h'
  have hbook := Trade.book_of_run ht
  refine ⟨hbook, hk.bookSound, fun k v hv hint => ?_⟩
  obtain ⟨hres, heff⟩ := Backed.represents hk.funded.reserved hv hint
  have hcons := hbook.conserves (trades_of_upToDate hqk hops h .init).1.bookSound k
  rw [Db.book_stock_of_some hv hint] at hcons
  exact ⟨hres, heff, by omega⟩

/-- In the same runs the lifecycle is coherent at every point, and a reservation that was settled at
one point is the same, with its order, at every later one. -/
theorem concurrent_lifecycle (iso : Isolation) (cfg : Settings) (env : T → Env) (n : ℕ)
    (h0 : Blank d₀) (hu : Unreserved d₀) (hqs : ∀ q ∈ qs, q.op.Valid) (hops : ∀ t, (ops t).Valid)
    (h : UpToDateRun iso cfg env (run cfg d₀ qs) n ops c)
    (h' : Run iso env (fun _ => True) c c') :
    Coherent c'.db ∧ ∀ x r, c.db.reservations.get x = some r → r.status ≠ .pending →
      c'.db.reservations.get x = some r ∧ c'.db.orders.get x = c.db.orders.get x := by
  obtain ⟨hk, ht⟩ := trades_of_upToDate (kept_of_run (h0.kept hu) hqs) hops h h'
  exact ⟨hk.coherent, fun x r hr hst => Trade.frame_of_run ht hr hst⟩

end Concurrent

/-- One customer pays for the lamps, another one reserves rugs. -/
def payAndReserve (t : Bool) : Op := if t then .confirm 1 else .create "bob" [⟨3, 6⟩]

def atFive : Bool → Env := fun _ => calm 5

/-- The rugs are checked, then the payment runs to its end. -/
def paysFirst : List (Act Bool) :=
  List.replicate 4 (.step false) ++ List.replicate 19 (.step true)

/-- The lamps are paid for at one point of a run, the rugs are reserved at a later one. -/
lemma payAndReserve_run : ∃ c c' : System Bool,
    UpToDateRun .repeatableRead quarter atFive (run quarter shop lamps) 2 payAndReserve c ∧
      Run .repeatableRead atFive (fun _ => True) c c' ∧
      (c.db.reservations.get 1).map Reservation.status = some .confirmed ∧
      c'.db.inventory.get 3 = some ⟨3, 2, 10, 6, none⟩ ∧ c'.db.isInternal 3 = false := by
  have hrun : ((replay (fun _ => true) .repeatableRead atFive
      (opening quarter (run quarter shop lamps) 2 payAndReserve) paysFirst).bind fun c =>
      (replay (fun _ => true) .repeatableRead atFive c (List.replicate 20 (.step false))).map
        fun c' => ((c.db.reservations.get 1).map Reservation.status, c'.db.inventory.get 3,
          c'.db.isInternal 3)) =
      some (some .confirmed, some ⟨3, 2, 10, 6, none⟩, false) := by
    rfl
  obtain ⟨c, hc, hrun⟩ := Option.bind_eq_some_iff.mp hrun
  obtain ⟨c', hc', hrun⟩ := Option.map_eq_some_iff.mp hrun
  simp only [Prod.mk.injEq] at hrun
  exact ⟨c, c', (run_of_replay .init hc).mono fun _ (_ : True) => rfl,
    (run_of_replay .init hc').mono fun _ (_ : True) => rfl, hrun⟩

lemma payAndReserve_valid : ∀ t, (payAndReserve t).Valid := by
  decide

theorem concurrent_refines_book_rugs : ∃ c c' : System Bool,
    (c.db.reservations.get 1).map Reservation.status = some .confirmed ∧
      ClaimBook.Run c.db.book c'.db.book ∧ c'.db.book.total .held 3 = 6 := by
  obtain ⟨c, c', hc, hc', hst, hrow, hint⟩ := payAndReserve_run
  obtain ⟨hbook, -, hrep⟩ := concurrent_refines_book .repeatableRead quarter atFive 2 shop_blank
    shop_unreserved (show ∀ q ∈ lamps, q.op.Valid by decide) payAndReserve_valid hc hc'
  exact ⟨c, c', hst, hbook, (hrep 3 _ hrow hint).1.symm⟩

theorem concurrent_lifecycle_rugs : ∃ c c' : System Bool,
    (c.db.reservations.get 1).map Reservation.status = some .confirmed ∧ Coherent c'.db ∧
      c'.db.reservations.get 1 = c.db.reservations.get 1 := by
  obtain ⟨c, c', hc, hc', hst, -⟩ := payAndReserve_run
  obtain ⟨r, hr, hs⟩ := Option.map_eq_some_iff.mp hst
  obtain ⟨hcoh, hfinal⟩ := concurrent_lifecycle .repeatableRead quarter atFive 2 shop_blank
    shop_unreserved (show ∀ q ∈ lamps, q.op.Valid by decide) payAndReserve_valid hc hc'
  exact ⟨c, c', hst, hcoh, (hfinal 1 r hr (by rw [hs]; decide)).1.trans hr.symm⟩

end InventoryReservation
