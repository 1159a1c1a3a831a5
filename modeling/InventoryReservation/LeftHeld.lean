/-
# Holds that a failed request leaves at the providers

A request that fails is rolled back in the database.  At the providers nothing is rolled back:
`create` never releases a hold, so what was granted before the item that fails stays held.
-/
import InventoryReservation.FailOpen
import InventoryReservation.Finality

namespace InventoryReservation

open RowTxn ReservationService

variable {cfg : Settings} {env : Env} {d : Db} {userId : String} {items : List CreateItem}
  {plan : List Booking} {b : Booking} {i j rid : ℕ} {out : HttpOutcome} {outs : ℕ → HttpOutcome}
  {q : Query}

/-- The reply to a hold that makes the request fail: a conflict, an exception that nothing maps,
or a success without a JSON object. -/
def HttpOutcome.IsFatal : HttpOutcome → Prop
  | response r => r.status = 409 ∨ r.isSuccess ∧ ∀ qty ref detail, r.body ≠ .object qty ref detail
  | timeout => False
  | error _ => True

/-- The provider of the booked row makes the request fail. -/
def Booking.Fails (d : Db) (b : Booking) (out : HttpOutcome) : Prop :=
  ∃ p, d.providers.get b.row.providerId = some p ∧
    (p.type = .internal ∧ b.row.effective < 2 * b.item.qty ∨
      p.type = .external ∧ (¬p.HoldsStock ∨ out.IsFatal))

/-- The provider of the booked row takes the item: it is the shop itself and has room for the
quantity once more, or its API can be asked for holds and does not refuse this one. -/
def Booking.Passes (env : Env) (d : Db) (rid i : ℕ) (b : Booking) : Prop :=
  ∃ p product, d.providers.get b.row.providerId = some p ∧
    d.products.get b.row.productId = some product ∧
    (p.type = .internal ∧ 2 * b.item.qty ≤ b.row.effective ∨
      p.type = .external ∧ ∃ a, ExternalHttpProviderAdapter.new p = .ok a ∧
        a.requireCapability "hold_stock" = .ok () ∧
        ¬(env (.http (.item rid i) (a.holdRequest product.sku b.item.qty rid))).IsFatal)

/-- The provider of the booked row can be asked for a hold. -/
def Booking.Asked (d : Db) (b : Booking) : Prop :=
  ∃ p, d.providers.get b.row.providerId = some p ∧ p.type = .external ∧ p.HoldsStock

/-- It is asked for a hold and grants it. -/
structure Booking.Grants (d : Db) (b : Booking) (out : HttpOutcome) : Prop where
  asked : b.Asked d
  granted : out.granted ≠ none

/-! ### One item -/

lemma Booking.Grants.not_fails (h : b.Grants d out) : ¬b.Fails d out := by
  obtain ⟨⟨p, hp, ht, hh⟩, hg⟩ := h
  rintro ⟨p', hp', hor⟩
  obtain rfl : p = p' := Option.some.inj (hp.symm.trans hp')
  rcases hor with ⟨hi, -⟩ | ⟨-, hn | hf⟩
  · rw [ht] at hi
    cases hi
  · exact hn hh
  · cases out with
    | timeout => exact hf
    | error text => exact hg rfl
    | response r =>
      simp only [HttpOutcome.granted] at hg
      rcases hf with h409 | ⟨-, hbody⟩
      · simp [Response.isSuccess, h409] at hg
      · split at hg
        · split at hg
          · next hb => exact hbody _ _ _ hb
          · exact hg rfl
        · exact hg rfl

/-- A reply is fatal if the adapter raises on it, and not for an outage. -/
lemma HttpOutcome.isFatal_iff (sku : String) (out : HttpOutcome) :
    out.IsFatal ↔
      ∃ e, ExternalHttpProviderAdapter.holdReply sku out = .error e ∧ isOutage e = false := by
  cases out with
  | timeout => simp [IsFatal, ExternalHttpProviderAdapter.holdReply, isOutage]
  | error text => simp [IsFatal, ExternalHttpProviderAdapter.holdReply, isOutage]
  | response r =>
    simp only [IsFatal, ExternalHttpProviderAdapter.holdReply]
    by_cases h409 : r.status = 409
    · cases hb : r.body <;> simp [h409, isOutage]
    by_cases hs : r.isSuccess
    · cases hb : r.body <;>
        simp [h409, hs, isOutage, ExternalHttpProviderAdapter.raiseForStatus, bind, Except.bind]
    · simp [h409, hs, isOutage, ExternalHttpProviderAdapter.raiseForStatus, bind, Except.bind]

lemma returns_iff {α : Type} {x : Except PyErr α} : (∃ a, x = .ok a) ↔ ¬∃ e, x = .error e := by
  cases x <;> simp

lemma Booking.refused_error (e : PyErr) :
    (∃ e', (b.refused e).result = .error e') ↔ isOutage e = false := by
  cases e <;> simp [refused, isOutage, Talk.raise, Talk.pure]

section Item

variable {p : InventoryProvider} {product : Product}

/-- An external provider that cannot be asked for holds makes the request fail. -/
lemma Booking.talk_rejected (hp : d.providers.get b.row.providerId = some p)
    (ht : p.type = .external) (hprod : d.products.get b.row.productId = some product)
    (hh : ¬p.HoldsStock) :
    (b.talk env d rid i).asks = [] ∧ ∃ e, (b.talk env d rid i).result = .error e := by
  unfold talk
  simp only [hp, ProviderRegistry.resolve, ht]
  rcases ha : ExternalHttpProviderAdapter.new p with e | a
  · simp [Talk.bind, Talk.ofExcept, bind, Except.bind]
  have hcap : ∃ text, a.requireCapability "hold_stock" = .error (.capabilityNotSupported text) := by
    unfold ExternalHttpProviderAdapter.requireCapability
    split
    · next hc => exact absurd ⟨a, ha, by simp [ExternalHttpProviderAdapter.requireCapability, hc]⟩ hh
    · exact ⟨_, rfl⟩
  obtain ⟨text, hcap⟩ := hcap
  simp [Talk.bind, Talk.ofExcept, bind, Except.bind, adapterTalk, hprod, ProviderAdapter.holdTalk,
    ExternalHttpProviderAdapter.talkWith, hcap, Talk.handle, refused, Talk.raise, pure, Except.pure]

/-- Another one is asked once. -/
lemma Booking.asks_external {a : ExternalHttpProviderAdapter}
    (hp : d.providers.get b.row.providerId = some p) (ht : p.type = .external)
    (ha : ExternalHttpProviderAdapter.new p = .ok a)
    (hcap : a.requireCapability "hold_stock" = .ok ())
    (hprod : d.products.get b.row.productId = some product) :
    .http (.item rid i) (a.holdRequest product.sku b.item.qty rid) ∈ (b.talk env d rid i).asks := by
  unfold talk
  simp only [hp, ProviderRegistry.resolve, ht, ha, bind, Except.bind, Talk.mem_bind_asks]
  refine Or.inr ⟨.external a, rfl, ?_⟩
  simp [adapterTalk, hprod, ProviderAdapter.holdTalk, ExternalHttpProviderAdapter.talkWith, hcap,
    Talk.mem_handle_asks, Talk.mem_bind_asks, Talk.ask, Talk.ofExcept]

lemma Booking.passes_iff (hp : d.providers.get b.row.providerId = some p)
    (hprod : d.products.get b.row.productId = some product) : b.Passes env d rid i ↔
      (p.type = .internal ∧ 2 * b.item.qty ≤ b.row.effective ∨
        p.type = .external ∧ ∃ a, ExternalHttpProviderAdapter.new p = .ok a ∧
          a.requireCapability "hold_stock" = .ok () ∧
          ¬(env (.http (.item rid i) (a.holdRequest product.sku b.item.qty rid))).IsFatal) := by
  simp [Passes, hp, hprod]

/-- The call for an item returns exactly if its provider takes the item. -/
lemma Booking.talk_ok_iff : (∃ ri, (b.talk env d rid i).result = .ok ri) ↔
    b.Passes env d rid i := by
  rcases hp : d.providers.get b.row.providerId with _ | p
  · simp [talk, Passes, hp, Talk.raise]
  rcases hprod : d.products.get b.row.productId with _ | product
  · have herr : ∀ ri, (b.talk env d rid i).result ≠ .ok ri := by
      intro ri h
      rw [talk, hp] at h
      obtain ⟨adapter, -, h⟩ := Talk.bind_ok.mp h
      simp [adapterTalk, hprod, Talk.raise] at h
    simp [Passes, hp, hprod, herr]
  rw [passes_iff hp hprod]
  cases ht : p.type with
  | internal =>
    obtain ⟨-, hok, herr⟩ := Booking.talk_internal env rid i hp ht hprod
    simp only [true_and, reduceCtorEq, false_and, or_false]
    constructor
    · rintro ⟨ri, hri⟩
      by_contra hlt
      obtain ⟨e, he⟩ := herr (not_le.mp hlt)
      rw [he] at hri
      cases hri
    · exact fun h => ⟨_, hok h⟩
  | external =>
    simp only [reduceCtorEq, false_and, true_and, false_or]
    by_cases hh : p.HoldsStock
    · obtain ⟨a, ha, hcap⟩ := hh
      simp only [ha, Except.ok.injEq, exists_eq_left', hcap, true_and]
      rw [Booking.talk_external hp ht ha hcap hprod, HttpOutcome.isFatal_iff product.sku]
      rcases ExternalHttpProviderAdapter.holdReply product.sku
        (env (.http (.item rid i) (a.holdRequest product.sku b.item.qty rid))) with e | ref
      · simp [returns_iff, b.refused_error e]
      · simp
    · refine iff_of_false ?_ ?_
      · rintro ⟨ri, hri⟩
        obtain ⟨e, he⟩ := (talk_rejected hp ht hprod hh).2
        rw [he] at hri
        cases hri
      · rintro ⟨a, ha, hcap, -⟩
        exact hh ⟨a, ha, hcap⟩

/-- The call for an item raises exactly if its provider makes the request fail. -/
lemma Booking.Fits.fails_iff (hfit : b.Fits env d j) (hl : Linked d)
    (hout : ∀ r, r.kind = some .hold → env (.http (.item rid i) r) = out) :
    (∃ e, (b.talk env d rid i).result = .error e) ↔ b.Fails d out := by
  obtain ⟨product, hprod⟩ := Option.ne_none_iff_exists'.mp (hl.product _ _ hfit.row)
  obtain ⟨p, hp⟩ := Option.ne_none_iff_exists'.mp (hl.provider _ _ hfit.row)
  have hreply : ∀ a : ExternalHttpProviderAdapter,
      env (.http (.item rid i) (a.holdRequest product.sku b.item.qty rid)) = out :=
    fun a => hout _ rfl
  have hpasses : b.Passes env d rid i ↔ ¬b.Fails d out := by
    rw [passes_iff hp hprod]
    cases ht : p.type <;>
      simp [Fails, hp, ht, hreply, InventoryProvider.HoldsStock, ← and_assoc]
  rw [← not_iff_not, ← hpasses, ← talk_ok_iff, returns_iff]

/-- Only an external provider that can hold stock is asked. -/
lemma Booking.Fits.asked_iff (rid i : ℕ) (hfit : b.Fits env d j) (hl : Linked d) :
    (∃ r, .http (.item rid i) r ∈ (b.talk env d rid i).asks ∧ r.kind = some .hold) ↔
      b.Asked d := by
  obtain ⟨product, hprod⟩ := Option.ne_none_iff_exists'.mp (hl.product _ _ hfit.row)
  obtain ⟨p, hp⟩ := Option.ne_none_iff_exists'.mp (hl.provider _ _ hfit.row)
  constructor
  · rintro ⟨r, hr, -⟩
    refine ⟨p, hp, ?_⟩
    cases ht : p.type with
    | internal =>
      rw [(Booking.talk_internal env rid i hp ht hprod).1] at hr
      cases hr
    | external =>
      refine ⟨rfl, ?_⟩
      by_contra hh
      rw [(talk_rejected hp ht hprod hh).1] at hr
      cases hr
  · rintro ⟨p', hp', ht, a, ha, hcap⟩
    exact ⟨_, asks_external hp' ht ha hcap hprod, rfl⟩

end Item

/-! ### The request -/

/-- The request releases a hold with the reference. -/
def Request.Releases (holdRef : String) (r : Request) : Prop :=
  ∃ a : ExternalHttpProviderAdapter, r = a.releaseRequest holdRef

/-- A call that raises leaves the database as it was, and has released every hold that was
granted to it. -/
def NothingLeft (d : Db) (out : Outcome Db Query Answer PyErr Reply) : Prop :=
  ∀ e, out.result = .error e → out.db = d ∧
    ∀ x i r (reply : HttpOutcome) ref, ⟨.http (.item x i) r, reply⟩ ∈ out.trace →
      r.kind = some .hold → reply.granted = some ref →
      ∃ r' reply', ⟨.http (.item x i) r', reply'⟩ ∈ out.trace ∧ r'.Releases ref

/-- The replies to the holds of a request. -/
def HoldReplies (env : Env) (outs : ℕ → HttpOutcome) : Prop :=
  ∀ x i r, r.kind = some .hold → env (.http (.item x i) r) = outs i

/-- No hold is granted before the first item that fails. -/
def FailsUnheld (env : Env) (d : Db) (items : List CreateItem) (outs : ℕ → HttpOutcome) : Prop :=
  ∀ plan, plan.map Booking.item = items → Fitting env d plan 0 →
    ∀ (i j : ℕ) (b b' : Booking), i < j → plan[i]? = some b → plan[j]? = some b' →
      b'.Fails d (outs j) → (∀ (k : ℕ) (c : Booking), k < j → plan[k]? = some c →
        ¬c.Fails d (outs k)) → ¬b.Grants d (outs i)

/-- The first item whose call raises. -/
lemma first_raises {e : PyErr} (he : (bookTalks env d rid plan i).result = .error e) :
    ∃ (j : ℕ) (b : Booking), plan[j]? = some b ∧
      (∃ e', (b.talk env d rid (i + j)).result = .error e') ∧
      ∀ (k : ℕ) (c : Booking), k < j → plan[k]? = some c →
        ¬∃ e', (c.talk env d rid (i + k)).result = .error e' := by
  classical
  have hex : ∃ (j : ℕ) (b : Booking), plan[j]? = some b ∧
      ∃ e', (b.talk env d rid (i + j)).result = .error e' := by
    obtain ⟨j, b, e', hb, he'⟩ := bookTalks_raises.mp ⟨e, he⟩
    exact ⟨j, b, hb, e', he'⟩
  obtain ⟨b, hb, he'⟩ := Nat.find_spec hex
  exact ⟨Nat.find hex, b, hb, he', fun k c hk hc hraise => Nat.find_min hex hk ⟨c, hc, hraise⟩⟩

/-- The items of a plan for which a hold is asked: those before the first that fails. -/
lemma Fitting.asked_iff (rid : ℕ) (hplan : Fitting env d plan 0) (hl : Linked d)
    (hout : HoldReplies env outs) :
    (∃ r, .http (.item rid i) r ∈ (bookTalks env d rid plan 0).asks ∧ r.kind = some .hold) ↔
      ∃ b : Booking, plan[i]? = some b ∧ b.Asked d ∧
        ∀ (k : ℕ) (c : Booking), k < i → plan[k]? = some c → ¬c.Fails d (outs k) := by
  have hok : ∀ {k : ℕ} {c : Booking}, plan[k]? = some c →
      ((∃ ri, (c.talk env d rid k).result = .ok ri) ↔ ¬c.Fails d (outs k)) := by
    intro k c hc
    rw [← (hplan.get hc).fails_iff hl fun r hr => hout rid k r hr]
    rcases (c.talk env d rid k).result with e | ri <;> simp
  simp only [mem_bookTalks_asks, Nat.zero_add]
  constructor
  · rintro ⟨r, ⟨j, b, hb, hq, hall⟩, hk⟩
    obtain ⟨-, -, rfl⟩ := Query.Calls.unique ⟨r, rfl, hk⟩ (calls_of_talk hq)
    exact ⟨b, hb, ((hplan.get hb).asked_iff rid i hl).mp ⟨r, hq, hk⟩,
      fun k c hki hc => (hok hc).mp (hall k c hki hc)⟩
  · rintro ⟨b, hb, hask, hall⟩
    obtain ⟨r, hr, hk⟩ := ((hplan.get hb).asked_iff rid i hl).mpr hask
    exact ⟨r, ⟨i, b, hb, hr, fun k c hki hc => (hok hc).mpr (hall k c hki hc)⟩, hk⟩

def conflict : HttpOutcome := .response ⟨409, .object none none none, "conflict"⟩

/-- The hold for the first item of a request is granted, the others are refused. -/
def firstOnly (i : ℕ) : HttpOutcome := if i = 0 then holds else conflict

/-- The hold for the first item of a request times out, the others are refused. -/
def neverHeld (i : ℕ) : HttpOutcome := if i = 0 then .timeout else conflict

end InventoryReservation
