/-
# The exact ledger

On the rows of external providers `qty_reserved` is what pending reservations promise.  On a row
of an internal provider every reservation leaves its units a second time, since its adapter
increments the counter that `create` has incremented.
-/
import InventoryReservation.LeftHeld

namespace InventoryReservation

open RowTxn ReservationService

variable {cfg : Settings} {d d₀ : Db} {q : ServiceCall} {qs : List ServiceCall}

/-- Every row has reserved what the pending reservations ask of it. -/
def Exact (d : Db) : Prop :=
  ∀ k v, d.inventory.get k = some v → v.qtyReserved = d.unitsIn .pending k

/-- The providers take all items of a plan. -/
def Passing (env : Env) (d : Db) (plan : List Booking) : Prop :=
  ∀ (i : ℕ) (b : Booking), plan[i]? = some b → b.Passes env d d.reservations.fresh i

/-- The call is no request with an item on a row of an internal provider that is booked: if all items
have room and no provider fails, all rows that are chosen belong to external providers. -/
def SparesOwn (d : Db) (q : ServiceCall) : Prop :=
  ∀ userId items plan, q.op = .create userId items → plan.map Booking.item = items →
    Fitting q.env d plan 0 → Passing q.env d plan → ∀ b ∈ plan, ¬b.isInternal d

/-- No reservation was ever made on a row of an internal provider. -/
def OwnUnused (d : Db) : Prop := ∀ k, d.isInternal k → d.units k = 0

lemma Funded.exact_iff (h : Funded d₀ d) : Exact d ↔ OwnUnused d := by
  constructor
  · intro hex k hk
    obtain ⟨v, hv⟩ : ∃ v, d.inventory.get k = some v := by
      rw [← Option.isSome_iff_exists]
      by_contra hn
      simp [Db.isInternal, show d.inventory.get k = none by simpa using hn] at hk
    have hr := h.reserved k v hv
    rw [hex k v hv, if_pos hk] at hr
    omega
  · intro hun k v hv
    rw [h.reserved k v hv]
    split
    · next hk => rw [hun k hk, add_zero]
    · rw [add_zero]

/-! ### One call -/

/-- The units on a row after a request: those of its items are new if it is booked. -/
lemma units_create {userId : String} {items : List CreateItem} (cfg : Settings) (env : Env) (d : Db)
    (hv : (Op.create userId items).Valid) :
    (∀ k, (serve cfg d ⟨.create userId items, env⟩).db.units k = d.units k) ∧
        (∀ plan, plan.map Booking.item = items → Fitting env d plan 0 → ¬Passing env d plan) ∨
      ∃ plan, plan.map Booking.item = items ∧ Fitting env d plan 0 ∧ Passing env d plan ∧
        ∀ k, (serve cfg d ⟨.create userId items, env⟩).db.units k = d.units k + bookedQty plan k := by
  have hpass : ∀ {plan : List Booking}, Passing env d plan ↔
      ∀ (i : ℕ) (b : Booking), plan[i]? = some b →
        ∃ ri, (b.talk env d d.reservations.fresh (0 + i)).result = .ok ri := by
    simp [Passing, Booking.talk_ok_iff]
  cases created cfg env d userId hv.distinct with
  | refused hno _ _ _ hdb =>
    exact Or.inl ⟨fun k => by rw [hdb], fun plan hitems hplan => (hno plan hitems hplan).elim⟩
  | @failed plan rid e hitems hplan hid he _ _ hdb =>
    subst hid
    refine Or.inl ⟨fun k => by rw [hdb], fun plan' hitems' hplan' hall => ?_⟩
    obtain rfl := hplan'.unique hplan (hitems'.trans hitems.symm)
    obtain ⟨j, b, e', hb, he'⟩ := bookTalks_raises.mp ⟨e, he⟩
    obtain ⟨ri, hri⟩ := hpass.mp hall j b hb
    rw [he'] at hri
    cases hri
  | @booked plan rid ris ws hitems hplan hid hok _ _ hc =>
    subst hid
    refine Or.inr ⟨plan, hitems, hplan, hpass.mpr fun i b hb => ?_, fun k => ?_⟩
    · obtain ⟨hlen, hall⟩ := bookTalks_ok.mp hok
      obtain ⟨hlt, -⟩ := List.getElem?_eq_some_iff.mp hb
      exact ⟨_, hall i b ris[i] hb (List.getElem?_eq_getElem (hlen ▸ hlt))⟩
    · exact (units_book k (outcomes_of_bookTalks hok) hc.toApplies).2.2

/-- No other call changes them. -/
lemma units_settlement (cfg : Settings) (d : Db) (hop : q.op.Distinct)
    (hne : ∀ userId items, q.op ≠ .create userId items) (k : ℕ) : (serve cfg d q).db.units k = d.units k := by
  refine serve_induction hop rfl fun a tr Δ ws hret hΔ hc => ?_
  cases hret.does with
  | create hcr => exact absurd hcr (hne _ _)
  | confirm _ _ hs =>
    cases hs with
    | mk _ _ hst => exact (units_confirm k hst hc.toApplies).2.2
  | cancel _ _ hs =>
    cases hs with
    | release _ _ hst =>
      exact (units_release k (Or.inl rfl) (by simp) (by simpa using hst) hc.toApplies).2.2
  | expire _ _ hs =>
    cases hs with
    | mk _ _ hrs hrow =>
      exact (units_release k (Or.inr rfl) (nodup_of_batch hrs) (fun r hr =>
        (expired_of_mem hrs hrow (show (r.1, r.2) ∈ _ from hr)).2.1) hc.toApplies).2.2

lemma isInternal_serve (cfg : Settings) (d : Db) (hop : q.op.Distinct) (k : ℕ) :
    (serve cfg d q).db.isInternal k = d.isInternal k :=
  (show Static d (run cfg d [q]) from static_of_run (by simpa using hop)).isInternal k

lemma Fitting.isInternal_id {env : Env} {plan : List Booking} {i : ℕ} {b : Booking}
    (h : Fitting env d plan i) (hb : b ∈ plan) : d.isInternal b.id = b.isInternal d := by
  obtain ⟨j, hfit⟩ := h.of_mem hb
  simp [Db.isInternal, hfit.row, Booking.isInternal]

/-- A call makes no reservation on the rows of internal providers exactly if it spares them. -/
lemma ownUnused_serve (hpos : Positive d) (hv : q.op.Valid) :
    OwnUnused (serve cfg d q).db ↔ OwnUnused d ∧ SparesOwn d q := by
  have hint := isInternal_serve cfg d hv.distinct
  by_cases hcr : ∃ userId items, q.op = .create userId items
  · obtain ⟨op, env⟩ := q
    obtain ⟨userId, items, rfl⟩ := hcr
    rcases units_create cfg env d hv with ⟨hu, hno⟩ | ⟨plan, hitems, hplan, hpass, hu⟩
    · -- a creation that does not come through has nothing to spare
      have hspares : SparesOwn d ⟨.create userId items, env⟩ := by
        rintro _ _ plan ⟨rfl, rfl⟩ hitems hplan hall
        exact (hno plan hitems hplan hall).elim
      simp only [OwnUnused, hu, hint, hspares, and_true]
    · subst hitems
      have hnd := hplan.nodup hv.distinct
      have hspares : SparesOwn d ⟨.create userId (plan.map Booking.item), env⟩ ↔
          ∀ b ∈ plan, ¬b.isInternal d := by
        refine ⟨fun h => h userId _ plan rfl rfl hplan hpass, fun h => ?_⟩
        rintro _ _ plan' ⟨rfl, rfl⟩ hitems' hplan' -
        rwa [hplan'.unique hplan hitems']
      rw [hspares]
      simp only [OwnUnused, hu, hint]
      constructor
      · intro h
        -- both terms are nonnegative, so both are zero
        have hzero : ∀ k, d.isInternal k → d.units k = 0 ∧ bookedQty plan k = 0 := by
          intro k hk
          have hsum := h k hk
          have hunits := hpos.units_nonneg k
          have hbooked : 0 ≤ bookedQty plan k := by
            by_cases hmem : k ∈ plan.map Booking.id
            · obtain ⟨b, hb, rfl⟩ := List.mem_map.mp hmem
              rw [bookedQty_of_mem hnd hb]
              exact (hv.positive b.item (List.mem_map_of_mem hb)).le
            · rw [bookedQty_of_not_mem hmem]
          omega
        refine ⟨fun k hk => (hzero k hk).1, fun b hb hint' => ?_⟩
        have hqty := (hzero b.id (by rwa [hplan.isInternal_id hb])).2
        rw [bookedQty_of_mem hnd hb] at hqty
        exact absurd hqty (hv.positive b.item (List.mem_map_of_mem hb)).ne'
      · rintro ⟨h, hext⟩ k hk
        rw [h k hk, zero_add]
        refine bookedQty_of_not_mem fun hmem => ?_
        obtain ⟨b, hb, rfl⟩ := List.mem_map.mp hmem
        exact hext b hb (by rwa [← hplan.isInternal_id hb])
  · have hu := units_settlement cfg d hv.distinct fun userId items h =>
      hcr ⟨userId, items, h⟩
    have hspares : SparesOwn d q := fun userId items _ h => (hcr ⟨userId, items, h⟩).elim
    simp only [OwnUnused, hu, hint, hspares, and_true]

/-! ### Runs -/

lemma Kept.ownUnused_run (h : Kept d₀ d) (hqs : ∀ q ∈ qs, q.op.Valid) :
    OwnUnused (run cfg d qs) ↔ OwnUnused d ∧ EachStep cfg SparesOwn d qs := by
  induction qs generalizing d with
  | nil => exact (and_iff_left trivial).symm
  | cons q qs ih =>
    have hv := hqs q (by simp)
    rw [run_cons, ih (h.serve hv) fun q' hq' => hqs q' (by simp [hq']),
      ownUnused_serve h.positive hv, and_assoc]
    rfl

/-- A run leaves an exact ledger if and only if each of its calls spares the internal providers. -/
theorem ledger_exact_iff (cfg : Settings) (hd : Blank d) (hu : Unreserved d)
    (hqs : ∀ q ∈ qs, q.op.Valid) : Exact (run cfg d qs) ↔ EachStep cfg SparesOwn d qs := by
  rw [(kept_of_run (hd.kept hu) hqs).funded.exact_iff, (hd.kept hu).ownUnused_run hqs]
  exact and_iff_right fun k _ => hd.sum _

/-- Lamps and chairs are asked for, of which the partner refuses the lamps. -/
def refusedLamps : ServiceCall := ⟨.create "ada" [⟨2, 3⟩, ⟨1, 2⟩], replying (fun _ => conflict) 0⟩

/-- The request is rolled back before the shop itself is asked; later on lamps are reserved and
paid for. -/
theorem ledger_exact_iff_lamps :
    Exact (run quarter shop (refusedLamps :: lamps ++ [⟨.confirm 1, calm 5⟩])) := by
  refine (ledger_exact_iff quarter shop_blank shop_unreserved (by decide)).mpr ⟨?_, ?_, ?_, trivial⟩
  · rintro userId items plan hop hitems hplan hpass
    cases hop
    -- the first row that is chosen is the partner's
    have hfit : Fitting refusedLamps.env shop
        [⟨⟨2, 3⟩, 2, ⟨2, 2, 10, 0, none⟩⟩, ⟨⟨1, 2⟩, 1, ⟨1, 1, 10, 0, none⟩⟩] 0 :=
      ⟨⟨rfl, rfl, by decide⟩, ⟨rfl, rfl, by decide⟩, trivial⟩
    obtain rfl := hplan.unique hfit hitems
    obtain ⟨p, product, hp, -, hor⟩ := hpass 0 _ rfl
    cases hp
    rcases hor with ⟨hint, -⟩ | ⟨-, a, -, -, hfatal⟩
    · cases hint
    · exact (hfatal (Or.inl rfl)).elim
  · rintro userId items plan hop hitems hplan - b hb hint
    cases hop
    have hfit : Fitting (calm 0) (serve quarter shop refusedLamps).db
        [⟨⟨2, 3⟩, 2, ⟨2, 2, 10, 0, none⟩⟩] 0 :=
      ⟨⟨rfl, rfl, by decide⟩, trivial⟩
    obtain rfl := hplan.unique hfit hitems
    obtain rfl := List.mem_singleton.mp hb
    cases hint
  · intro userId items plan hop
    cases hop

/-- Two chairs are reserved, and the row has four reserved. -/
theorem ledger_not_exact : ¬∀ cfg d qs, Blank d → Unreserved d → (∀ q ∈ qs, q.op.Valid) →
    Exact (run cfg d qs) := by
  intro h
  have hex := h quarter shop [⟨.create "ada" [⟨1, 2⟩], calm 0⟩] shop_blank shop_unreserved
    (by decide)
  have hrow : (run quarter shop [⟨.create "ada" [⟨1, 2⟩], calm 0⟩]).inventory.get 1 =
      some ⟨1, 1, 10, 4, none⟩ := by rfl
  have hpend : (run quarter shop [⟨.create "ada" [⟨1, 2⟩], calm 0⟩]).unitsIn .pending 1 = 2 := by
    decide +kernel
  have := hex 1 _ hrow
  rw [hpend] at this
  cases this

end InventoryReservation
