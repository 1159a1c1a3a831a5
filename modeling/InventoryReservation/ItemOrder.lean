/-
# The order of the items in a request

Where the reply to a hold depends on what is sent, and not on the place of the item in the
list, neither does anything else: the items are checked, booked and held each for itself, since
different products have different rows.
-/
import Mathlib.Data.List.Perm.Basic
import InventoryReservation.Admission

namespace InventoryReservation

open RowTxn ReservationService

variable {cfg : Settings} {env env' : Env} {d : Db} {userId : String}
  {items items' : List CreateItem} {plan plan' : List Booking} {b : Booking} {i j rid rid' : ℕ}

/-- What a request says, up to the reservation it is for. -/
def Request.anonymous (r : Request) : Request :=
  { r with json := r.json.map fun body => { body with reservationId := 0 } }

lemma Request.kind_anonymous (r : Request) : r.anonymous.kind = r.kind := by
  unfold kind anonymous
  rcases r.method <;> rcases r.json <;> rfl

/-- Outside worlds that do not see the places of the items: which of several best rows comes
first depends on the product, and the reply to a hold on provider, SKU and quantity. -/
structure SameReplies (env env' : Env) : Prop where
  tie : ∀ i j p, env (.tie i p) = env' (.tie j p)
  hold : ∀ x y i j r r', r.kind = some .hold → r.anonymous = r'.anonymous →
    env (.http (.item x i) r) = env' (.http (.item y j) r')

namespace SameReplies

lemma symm (h : SameReplies env env') : SameReplies env' env where
  tie i j p := (h.tie j i p).symm
  hold x y i j r r' hr hrr' := by
    refine (h.hold y x j i r' r ?_ hrr'.symm).symm
    rw [← r'.kind_anonymous, ← hrr', r.kind_anonymous, hr]

lemma chosen (h : SameReplies env env') (i j : ℕ) (it : CreateItem) :
    chosen env d i it = chosen env' d j it := by
  unfold InventoryReservation.chosen
  rw [h.tie i j]

lemma fits (h : SameReplies env env') (hb : b.Fits env d i) (j : ℕ) : b.Fits env' d j :=
  ⟨(h.chosen i j b.item).symm.trans hb.chosen, hb.row, hb.room⟩

/-- A plan fits if each booking does, whatever its place. -/
lemma fitting (h : SameReplies env env') (hplan : Fitting env d plan i) (j : ℕ)
    (hsub : ∀ b ∈ plan', b ∈ plan) : Fitting env' d plan' j := by
  induction plan' generalizing j with
  | nil => trivial
  | cons b plan' ih =>
    obtain ⟨k, hb⟩ := hplan.of_mem (hsub b (by simp))
    exact ⟨h.fits hb j, ih (j + 1) fun b' hb' => hsub b' (by simp [hb'])⟩

/-- What a provider call makes of an item does not depend on the place of the item. -/
lemma talk (h : SameReplies env env') (b : Booking) (rid rid' i j : ℕ) :
    (b.talk env d rid i).result = (b.talk env' d rid' j).result := by
  unfold Booking.talk
  rcases d.providers.get b.row.providerId with _ | p
  · rfl
  simp only [Talk.bind_result]
  refine congrArg (Except.bind _) (funext fun a => ?_)
  unfold Booking.adapterTalk
  rcases d.products.get b.row.productId with _ | product
  · rfl
  simp only [Talk.handle_result, Talk.bind_result]
  cases a with
  | internal row => rfl
  | external e =>
    have hreply := h.hold rid rid' i j (e.holdRequest product.sku b.item.qty rid)
      (e.holdRequest product.sku b.item.qty rid') rfl rfl
    simp only [ProviderAdapter.holdTalk, ExternalHttpProviderAdapter.talkWith, Talk.bind_result,
      Talk.ask, hreply]

end SameReplies

/-! ### Plans in another order -/

/-- The plan of the items in another order. -/
lemma exists_plan_perm (h : items.Perm items') (hitems : plan.map Booking.item = items) :
    ∃ plan' : List Booking, plan'.Perm plan ∧ plan'.map Booking.item = items' := by
  subst hitems
  have hrel : List.Forall₂ (fun it b => b.item = it) (plan.map Booking.item) plan := by
    rw [List.forall₂_map_left_iff]
    exact List.forall₂_same.mpr fun _ _ => rfl
  obtain ⟨plan', hrel', hperm⟩ := List.perm_comp_forall₂ h.symm hrel
  refine ⟨plan', hperm, ?_⟩
  clear h hrel hperm
  generalize plan.map Booking.item = its at hrel'
  induction hrel' with
  | nil => rfl
  | cons hb _ ih => rw [List.map_cons, hb, ih]

lemma bookedQty_perm (h : plan.Perm plan') (k : ℕ) : bookedQty plan k = bookedQty plan' k := by
  unfold bookedQty
  exact List.Perm.sum_eq (h.map _)

/-- Each item that is booked is what its own provider call makes of it. -/
lemma SameReplies.forall₂_talk (rid' : ℕ) (h : SameReplies env env') {ris : List ReservationItem}
    (hok : (bookTalks env d rid plan i).result = .ok ris) :
    List.Forall₂ (fun b ri => (b.talk env' d rid' 0).result = .ok ri) plan ris := by
  obtain ⟨hlen, hall⟩ := bookTalks_ok.mp hok
  refine List.forall₂_iff_get.mpr ⟨hlen.symm, fun j h₁ h₂ => ?_⟩
  rw [← h.talk _ rid rid' (i + j) 0]
  exact hall j _ _ (List.getElem?_eq_getElem h₁) (List.getElem?_eq_getElem h₂)

/-- The calls for a plan in another order raise if one of the calls for the plan does. -/
lemma SameReplies.raises (h : SameReplies env env') (hperm : plan.Perm plan')
    (he : ∃ e, (bookTalks env d rid plan 0).result = .error e) :
    ∃ e, (bookTalks env' d rid' plan' 0).result = .error e := by
  obtain ⟨j, b, e, hb, he⟩ := bookTalks_raises.mp he
  obtain ⟨j', hb'⟩ := List.getElem?_of_mem (hperm.subset (List.mem_of_getElem? hb))
  exact bookTalks_raises.mpr ⟨j', b, e, hb', h.talk b rid rid' (0 + j) (0 + j') ▸ he⟩

/-- The items that are booked are the same in another order. -/
lemma SameReplies.perm (h : SameReplies env env') (hperm : plan'.Perm plan)
    {ris ris' : List ReservationItem} (hok : (bookTalks env d rid plan 0).result = .ok ris)
    (hok' : (bookTalks env' d rid' plan' 0).result = .ok ris') : ris'.Perm ris := by
  have hrel := h.forall₂_talk rid' hok
  have hself : SameReplies env' env' :=
    ⟨fun i j p => (h.tie 0 i p).symm.trans (h.tie 0 j p), fun x y i j r r' hr hrr' => by
      have hr₁ : r'.kind = some .hold := by
        rw [← r'.kind_anonymous, ← hrr', r.kind_anonymous, hr]
      exact (h.hold 0 x 0 i r r hr rfl).symm.trans (h.hold 0 y 0 j r r' hr hrr')⟩
  have hrel' := hself.forall₂_talk rid' hok'
  obtain ⟨ris₂, hrel₂, hp⟩ := List.perm_comp_forall₂ hperm hrel
  have hfun : Relator.RightUnique
      fun (b : Booking) (ri : ReservationItem) => (b.talk env' d rid' 0).result = .ok ri := by
    intro b ri ri' h₁ h₂
    rw [h₁] at h₂
    exact Except.ok.inj h₂
  rw [List.right_unique_forall₂' hfun hrel' hrel₂]
  exact hp

/-! ### Requests -/

/-- Two requests that are served alone end in the same way: both return and book the same items
on the same rows, or both raise and leave the database as it was. -/
structure SameEnd (d : Db) (out out' : Outcome Db Query Answer PyErr Reply) : Prop where
  returns : (∃ a, out.result = .ok a) ↔ ∃ a, out'.result = .ok a
  stock : ∀ a a', out.result = .ok a → out'.result = .ok a' →
    ∀ k, out.db.inventory.get k = out'.db.inventory.get k
  items : ∀ x x' r r', out.result = .ok (.reservation x r) → out'.result = .ok (.reservation x' r') →
    r.items.Perm r'.items
  raises : ∀ e e', out.result = .error e → out'.result = .error e' → out.db = d ∧ out'.db = d

/-- The order of the items in a request does not matter. -/
theorem item_order_irrelevant (cfg : Settings) (d : Db) (userId : String)
    (h : SameReplies env env') (hperm : items.Perm items') (hv : (Op.create userId items).Valid) :
    SameEnd d (serve cfg d ⟨.create userId items, env⟩) (serve cfg d ⟨.create userId items', env'⟩) := by
  have hnd' : (items'.map CreateItem.productId).Nodup := (hperm.map _).nodup_iff.mp hv.distinct
  have hout := created cfg env d userId hv.distinct
  have hout' := created cfg env' d userId hnd'
  generalize serve cfg d ⟨.create userId items, env⟩ = out at hout
  generalize serve cfg d ⟨.create userId items', env'⟩ = out' at hout'
  -- a plan for one of the requests is a plan for the other, in another order
  have hplans : ∀ {plan plan' : List Booking}, plan.map Booking.item = items →
      Fitting env d plan 0 → plan'.map Booking.item = items' → Fitting env' d plan' 0 →
      plan'.Perm plan := by
    intro plan plan' hitems hplan hitems' hplan'
    obtain ⟨plan₂, hp, hitems₂⟩ := exists_plan_perm hperm hitems
    have hplan₂ := h.fitting hplan 0 fun b hb => hp.subset hb
    rwa [hplan'.unique hplan₂ (hitems'.trans hitems₂.symm)]
  have hno : ∀ {plan : List Booking}, plan.map Booking.item = items → Fitting env d plan 0 →
      (∀ plan', plan'.map Booking.item = items' → ¬Fitting env' d plan' 0) → False := by
    intro plan hitems hplan hno
    obtain ⟨plan₂, hp, hitems₂⟩ := exists_plan_perm hperm hitems
    exact hno plan₂ hitems₂ (h.fitting hplan 0 fun b hb => hp.subset hb)
  have hno' : ∀ {plan' : List Booking}, plan'.map Booking.item = items' → Fitting env' d plan' 0 →
      (∀ plan, plan.map Booking.item = items → ¬Fitting env d plan 0) → False := by
    intro plan' hitems' hplan' hno
    obtain ⟨plan₂, hp, hitems₂⟩ := exists_plan_perm hperm.symm hitems'
    exact hno plan₂ hitems₂ (h.symm.fitting hplan' 0 fun b hb => hp.subset hb)
  -- two requests that raise
  have hraise : ∀ {e e' : PyErr}, out.result = .error e → out'.result = .error e' → out.db = d →
      out'.db = d → SameEnd d out out' := fun hres hres' hdb hdb' =>
    ⟨by simp [hres, hres'], fun a a' ha => (by simp [hres] at ha),
      fun x x' r r' ha => (by simp [hres] at ha), fun _ _ _ _ => ⟨hdb, hdb'⟩⟩
  cases hout with
  | refused hno₁ _ _ hres hdb =>
    cases hout' with
    | refused _ _ _ hres' hdb' => exact hraise hres hres' hdb hdb'
    | failed hitems' hplan' => exact (hno' hitems' hplan' hno₁).elim
    | booked hitems' hplan' => exact (hno' hitems' hplan' hno₁).elim
  | failed hitems hplan _ he _ hres hdb =>
    cases hout' with
    | refused hno₂ => exact (hno hitems hplan hno₂).elim
    | failed _ _ _ _ _ hres' hdb' => exact hraise hres hres' hdb hdb'
    | booked hitems' hplan' _ hok' =>
      obtain ⟨e, he'⟩ := h.raises (hplans hitems hplan hitems' hplan').symm ⟨_, he⟩
      rw [hok'] at he'
      cases he'
  | booked hitems hplan _ hok _ hres hc =>
    cases hout' with
    | refused hno₂ => exact (hno hitems hplan hno₂).elim
    | failed hitems' hplan' _ he' =>
      obtain ⟨e, he⟩ := h.symm.raises (hplans hitems hplan hitems' hplan') ⟨_, he'⟩
      rw [hok] at he
      cases he
    | booked hitems' hplan' _ hok' _ hres' hc' =>
      have hp := hplans hitems hplan hitems' hplan'
      refine ⟨by simp [hres, hres'], fun _ _ _ _ k => ?_, fun x x' r r' hr hr' => ?_,
        fun e _ he => (by simp [hres] at he)⟩
      · rw [hc.stock, hc'.stock]
        refine congrArg (Option.map · _) (funext fun v => ?_)
        rw [bookChange_stock, bookChange_stock, bookedQty_perm hp.symm,
          bookedQty_perm (hp.symm.filter _)]
      · rw [hres] at hr
        rw [hres'] at hr'
        cases hr
        cases hr'
        exact (h.perm hp hok hok').symm

/-- Chairs and lamps, and lamps and chairs. -/
theorem item_order_irrelevant_shop : SameEnd shop
    (serve quarter shop ⟨.create "ada" [⟨1, 2⟩, ⟨2, 3⟩], calm 0⟩)
    (serve quarter shop ⟨.create "ada" [⟨2, 3⟩, ⟨1, 2⟩], calm 5⟩) :=
  item_order_irrelevant quarter shop "ada" ⟨fun _ _ _ => rfl, fun _ _ _ _ _ _ _ _ => rfl⟩
    (List.Perm.swap _ _ _) (by decide)

end InventoryReservation
