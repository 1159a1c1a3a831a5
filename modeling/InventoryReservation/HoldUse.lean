/-
# What becomes of a hold

The provider of a hold is told to consume it or to release it.  A confirmation that fails is
rolled back in the database, but not at the providers that have confirmed by then; what is
released later may be one of their holds.
-/
import InventoryReservation.Confirmation
import InventoryReservation.FailOpen

namespace InventoryReservation

open RowTxn ReservationService

variable {cfg : Settings} {env : Env} {d d₀ : Db} {x i : ℕ} {r : Reservation}
  {q : ServiceCall} {qs : List ServiceCall} {w w' : Σ q, Answer q}

/-- The call has a response that tells of success. -/
def Succeeded (w : Σ q, Answer q) : Prop :=
  ∃ c r, ∃ s : Response, w = ⟨.http c r, .response s⟩ ∧ s.isSuccess

/-- After a hold was consumed it is not released, and after it was released it is not consumed:
`w` is the earlier call. -/
def UsedOnce (w w' : Σ q, Answer q) : Prop :=
  ∀ x i, (w.1.Calls .confirm x i → Succeeded w → ¬w'.1.Calls .release x i) ∧
    (w.1.Calls .release x i → Succeeded w → ¬w'.1.Calls .confirm x i)

/-- If the call confirms a reservation, no item whose hold the provider confirms comes before the
first item that escapes. -/
def ConfirmsCleanly (cfg : Settings) (d : Db) (q : ServiceCall) : Prop :=
  ∀ x r, (q.op = .confirm x ∨ q.op = .paymentOutcome x .success) →
    d.reservations.get x = some r → r.status = .pending → expiryCheck cfg q.env r = some false →
    ∀ (i j : ℕ) (it it' : ReservationItem), i < j → r.items[i]? = some it → r.items[j]? = some it' →
      it.Consumed q.env d x i →
      (∀ (k : ℕ) (it'' : ReservationItem), k < j → r.items[k]? = some it'' →
        ¬it''.Escapes q.env d x k) →
      ¬it'.Escapes q.env d x j

/-- A call to confirm a hold, and its reply. -/
lemma consumed_of_mem {it : ReservationItem} (hp : it.Placed d) {out : HttpOutcome} {rq : Request}
    (hw : .http (.item x i) rq ∈ (confirmItemTalk env d x i it).asks)
    (hout : out = env (.http (.item x i) rq)) {s : Response} (hs : out = .response s)
    (hok : s.isSuccess) : it.Consumed env d x i := by
  by_cases h : ∃ a ref, it.HeldAt d a ref
  · obtain ⟨a, ref, h⟩ := h
    rw [confirmItemTalk_held h, Talk.mem_handle_asks, Talk.mem_bind_asks,
      ExternalHttpProviderAdapter.talkWith, Talk.mem_bind_asks] at hw
    rcases hw with ((hw | ⟨⟨⟩, hcap, hw⟩) | ⟨_, -, hw⟩) | ⟨e, -, hw⟩
    · simp [Talk.ofExcept] at hw
    · obtain rfl : rq = a.confirmRequest ref := by simpa [Talk.ask, Talk.ofExcept] using hw
      exact ⟨a, ref, h, hcap, s, hout ▸ hs, hok⟩
    · simp [Talk.pure] at hw
    · split at hw <;> simp [Talk.pure, Talk.raise] at hw
  · rw [confirmItemTalk_other hp fun a ref ha => h ⟨a, ref, ha⟩] at hw
    simp [Talk.pure] at hw

lemma ReservationItem.Consumed.not_escapes {it : ReservationItem} (h : it.Consumed env d x i) :
    ¬it.Escapes env d x i := by
  obtain ⟨a, ref, ha, hcap, s, hs, -⟩ := h
  rintro ⟨a', ref', ha', hor⟩
  obtain ⟨rfl, rfl⟩ := ha.unique ha'
  rcases hor with hn | ⟨t, ht⟩
  · exact hn hcap
  · rw [hs] at ht
    cases ht

/-- In a clean confirmation that fails no hold is consumed. -/
lemma ConfirmsCleanly.not_consumed (hclean : ConfirmsCleanly cfg d q) (hcoh : Coherent d)
    (hop : q.op = .confirm x ∨ q.op = .paymentOutcome x .success)
    (hr : d.reservations.get x = some r) (hst : r.status = .pending)
    (hexp : expiryCheck cfg q.env r = some false) {e : PyErr}
    (he : (confirmTalk q.env d x r).result = .error e) {rq : Request} {s : Response}
    (hw : .http (.item x i) rq ∈ (confirmTalk q.env d x r).asks)
    (hs : q.env (.http (.item x i) rq) = .response s) (hok : s.isSuccess)
    (hk : rq.kind = some .confirm) : False := by
  classical
  have hplaced := hcoh.placed x r hr
  -- the first item that escapes
  have hex : ∃ (j : ℕ) (it : ReservationItem), r.items[j]? = some it ∧ it.Escapes q.env d x j := by
    by_contra hno
    have hok' : (confirmTalk q.env d x r).result = .ok () :=
      (confirmTalk_ok hplaced).mpr fun j it hj hesc => hno ⟨j, it, hj, hesc⟩
    rw [he] at hok'
    cases hok'
  obtain ⟨it', hj, hesc⟩ := Nat.find_spec hex
  have hbefore : ∀ (k : ℕ) (it : ReservationItem), k < Nat.find hex → r.items[k]? = some it →
      ¬it.Escapes q.env d x k := fun k it hkj hk hesc => Nat.find_min hex hkj ⟨it, hk, hesc⟩
  generalize Nat.find hex = j at hj hesc hbefore
  -- the item whose hold is consumed
  obtain ⟨i', it, hi, hq, hall⟩ := mem_settleTalk_all.mp hw
  simp only [Nat.zero_add] at hq hall
  obtain ⟨-, -, rfl⟩ := Query.Calls.unique ⟨rq, rfl, hk⟩ (calls_of_confirmItemTalk hq)
  have hcons := consumed_of_mem (hplaced it (List.mem_of_getElem? hi)) hq rfl hs hok
  rcases Nat.lt_trichotomy i j with hlt | rfl | hgt
  · exact hclean x r hop hr hst hexp i j it it' hlt hi hj hcons hbefore hesc
  · obtain rfl : it = it' := Option.some.inj (hi.symm.trans hj)
    exact hcons.not_escapes hesc
  · have hok' := hall j it' hgt hj
    rw [confirmItemTalk_ok (hplaced it' (List.mem_of_getElem? hj))] at hok'
    exact hok' hesc

/-- A returned call has one kind of calls about a reservation. -/
lemma CallMade.unique {Δ : Option Change} {kind kind' : CallKind} (h : CallMade d Δ x kind)
    (h' : CallMade d Δ x kind') : kind = kind' := by
  have hne : ∀ {r r' : Reservation} {δ δ' : Change} {status : ReservationStatus}, Δ = some δ →
      Δ = some δ' → δ.res x = some (some r, r.confirmed) →
      δ'.res x = some (some r', r'.released status) →
      (status = .cancelled ∨ status = .expired) → False := by
    intro r r' δ δ' status hΔ hΔ' hr hr' hs
    obtain rfl : δ = δ' := Option.some.inj (hΔ.symm.trans hΔ')
    have heq : r.confirmed = r'.released status :=
      (Prod.mk.inj (Option.some.inj (hr.symm.trans hr'))).2
    have hst : ReservationStatus.confirmed = status := congrArg Reservation.status heq
    rcases hs with rfl | rfl <;> cases hst
  cases h with
  | hold hx =>
    cases h' with
    | hold => rfl
    | confirm hx' => simp [hx] at hx'
    | release hx' => simp [hx] at hx'
  | confirm hx _ hΔ hres =>
    cases h' with
    | hold hx' => simp [hx] at hx'
    | confirm => rfl
    | release _ _ hΔ' hs hres' => exact (hne hΔ hΔ' hres hres' hs).elim
  | release hx _ hΔ hs hres =>
    cases h' with
    | hold hx' => simp [hx] at hx'
    | confirm _ _ hΔ' hres' => exact (hne hΔ' hΔ hres' hres hs).elim
    | release => rfl

/-- A clean call that has a hold consumed or released settles its reservation, and makes no calls
of another kind about it. -/
lemma serve_settles (hcoh : Coherent d) (hop : q.op.Distinct) (hclean : ConfirmsCleanly cfg d q)
    (hw : w ∈ (serve cfg d q).trace) {kind : CallKind} (hc : w.1.Calls kind x i)
    (hs : Succeeded w) (hk : kind ≠ .hold) :
    (∃ r, (serve cfg d q).db.reservations.get x = some r ∧ r.status ≠ .pending) ∧
      ∀ w' ∈ (serve cfg d q).trace, ∀ kind' j, w'.1.Calls kind' x j → kind = kind' := by
  cases served hop cfg d with
  | raises h _ hdb =>
    exfalso
    rcases h.calls hcoh hw hc with ⟨rfl, -⟩ | ⟨rfl, hop', r, hr, hst, hexp, htr, he⟩
    · exact hk rfl
    · obtain ⟨c, rq, s, rfl, hok⟩ := hs
      obtain ⟨_, hq, hkind⟩ := hc
      cases hq
      rw [htr, mem_answers] at hw
      obtain ⟨hq, hs⟩ := hw
      refine hclean.not_consumed hcoh hop' hr hst hexp he ?_ hs.symm hok hkind
      exact (List.mem_cons.mp hq).resolve_left fun h => by cases h
  | same h _ hdb =>
    exfalso
    cases h.calls hw hc with
    | hold => exact hk rfl
    | confirm _ _ hΔ => cases hΔ
    | release _ _ hΔ => cases hΔ
  | commits h _ _ hcm =>
    refine ⟨?_, fun w' hw' kind' j hc' => (h.calls hw hc).unique (h.calls hw' hc')⟩
    cases h.calls hw hc with
    | hold => exact absurd rfl hk
    | confirm _ _ hΔ hres =>
      cases hΔ
      exact ⟨_, (hcm.res x _ _ hres).2, by simp [Reservation.confirmed, Reservation.settle]⟩
    | release _ _ hΔ hs hres =>
      cases hΔ
      refine ⟨_, (hcm.res x _ _ hres).2, ?_⟩
      rcases hs with rfl | rfl <;> simp [Reservation.released, Reservation.settle]

lemma usedOnce_of_not_calls (h : ∀ kind x i, kind ≠ CallKind.hold → w.1.Calls kind x i →
    Succeeded w → ∀ kind' i', w'.1.Calls kind' x i' → kind = kind') : UsedOnce w w' := by
  intro x i
  constructor
  · intro hc hs hc'
    cases h .confirm x i (by simp) hc hs _ _ hc'
  · intro hc hs hc'
    cases h .release x i (by simp) hc hs _ _ hc'

/-- In a run of clean confirmations no hold is both consumed and released. -/
theorem holds_used_once (h0 : Blank d₀) (hqs : ∀ q ∈ qs, q.op.Distinct)
    (hclean : EachStep cfg (ConfirmsCleanly cfg) d₀ qs) :
    (runTrace cfg d₀ qs).Pairwise UsedOnce := by
  have hcoh := h0.coherent
  clear h0
  induction qs generalizing d₀ with
  | nil => exact List.Pairwise.nil
  | cons q qs ih =>
    have hq := hqs q (by simp)
    have hqs' : ∀ q' ∈ qs, q'.op.Distinct := fun q' hq' => hqs q' (by simp [hq'])
    have hcoh' : Coherent (run cfg d₀ [q]) := coherent_of_run hcoh (by simpa using hq)
    refine List.pairwise_append.mpr ⟨?_, ih hqs' hclean.2 hcoh', fun w hw w' hw' => ?_⟩
    · refine List.pairwise_of_forall_mem_list fun w hw w' hw' => usedOnce_of_not_calls ?_
      intro kind x i hk hc hs kind' i' hc'
      exact (serve_settles hcoh hq hclean.1 hw hc hs hk).2 w' hw' kind' i' hc'
    · refine usedOnce_of_not_calls fun kind x i hk hc hs kind' i' hc' => ?_
      -- the reservation is settled, and no provider is called about it again
      obtain ⟨r, hr, hst⟩ := (serve_settles hcoh hq hclean.1 hw hc hs hk).1
      exact absurd hc' (run_calls_settled hcoh' hqs' hr hst w' hw' kind' i')

/-- The connection for the first item is refused, the calls for the others succeed. -/
def firstRefused (i : ℕ) : HttpOutcome := if i = 0 then .error "refused" else holds

/-- Lamps and rugs are reserved, their confirmation fails at the lamps, and the customer cancels:
both holds are released and none was consumed. -/
theorem holds_used_once_lamps : (runTrace quarter shop
    [⟨.create "ada" [⟨2, 1⟩, ⟨3, 1⟩], calm 0⟩, ⟨.confirm 1, replying firstRefused 5⟩,
      ⟨.cancel 1, calm 6⟩]).Pairwise UsedOnce := by
  refine holds_used_once shop_blank (by decide) ⟨?_, ?_, ?_, trivial⟩
  · rintro x r (hop | hop) <;> cases hop
  · rintro x r (hop | hop) hr _ _ i j it it' hij _ hj ⟨a, ref, _, _, s, hs, _⟩ <;> cases hop
    have hr' : (serve quarter shop ⟨.create "ada" [⟨2, 1⟩, ⟨3, 1⟩], calm 0⟩).db.reservations.get 1 =
        some ⟨"ada", .pending, 900000000, [⟨2, 2, 2, 1, some "hold", .held, none⟩,
          ⟨3, 3, 2, 1, some "hold", .held, none⟩]⟩ := by
      rfl
    obtain rfl := Option.some.inj (hr'.symm.trans hr)
    rcases i with _ | i
    · -- the call for the lamps has no response
      cases hs
    · obtain ⟨hlt, -⟩ := List.getElem?_eq_some_iff.mp hj
      simp at hlt
      omega
  · rintro x r (hop | hop) <;> cases hop

/-- The call for the first item succeeds, the connections for the others are refused. -/
def firstConfirmed (i : ℕ) : HttpOutcome := if i = 0 then holds else .error "refused"

/-- Lamps and rugs are reserved, their confirmation fails at the rugs, and the customer cancels. -/
def failedSale : List ServiceCall :=
  [⟨.create "ada" [⟨2, 1⟩, ⟨3, 1⟩], calm 0⟩, ⟨.confirm 1, replying firstConfirmed 5⟩,
    ⟨.cancel 1, calm 6⟩]

/-- The hold for the lamps is consumed, and then it is released. -/
theorem hold_used_twice : ¬∀ cfg d₀ qs, Blank d₀ → (∀ q ∈ qs, q.op.Distinct) →
    (runTrace cfg d₀ qs).Pairwise UsedOnce := by
  intro h
  have hall := h quarter shop failedSale shop_blank (by decide)
  have htr : runTrace quarter shop failedSale =
      answers (calm 0) [.now 0, .tie 0 2, .tie 1 3,
        .http (.item 1 0) ⟨.post, "https://partner/holds", [], 10, some ⟨"lamp", 1, 1⟩⟩,
        .http (.item 1 1) ⟨.post, "https://partner/holds", [], 10, some ⟨"rug", 1, 1⟩⟩] ++
      (answers (replying firstConfirmed 5) [.now 0,
        .http (.item 1 0) ⟨.post, "https://partner/holds/hold/confirm", [], 10, none⟩,
        .http (.item 1 1) ⟨.post, "https://partner/holds/hold/confirm", [], 10, none⟩] ++
      (answers (calm 6) [.http (.item 1 0) ⟨.delete, "https://partner/holds/hold", [], 10, none⟩,
        .http (.item 1 1) ⟨.delete, "https://partner/holds/hold", [], 10, none⟩] ++ [])) := by
    rfl
  rw [htr] at hall
  obtain ⟨-, hall, -⟩ := List.pairwise_append.mp hall
  obtain ⟨-, -, hall⟩ := List.pairwise_append.mp hall
  have hconfirm : ⟨.http (.item 1 0) ⟨.post, "https://partner/holds/hold/confirm", [], 10, none⟩,
      holds⟩ ∈ answers (replying firstConfirmed 5) [.now 0,
        .http (.item 1 0) ⟨.post, "https://partner/holds/hold/confirm", [], 10, none⟩,
        .http (.item 1 1) ⟨.post, "https://partner/holds/hold/confirm", [], 10, none⟩] :=
    mem_answers.mpr ⟨by simp, rfl⟩
  refine (hall _ hconfirm _ (List.mem_append_left _ List.mem_cons_self) 1 0).1 ?_ ?_ ?_
  · exact ⟨_, rfl, rfl⟩
  · exact ⟨_, _, _, rfl, rfl⟩
  · exact ⟨_, rfl, rfl⟩

end InventoryReservation
