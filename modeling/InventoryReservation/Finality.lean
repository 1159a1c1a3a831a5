/-
# Settled reservations

The lifecycle invariant along serial runs, and what follows for a reservation that is no longer
pending: nothing changes it again, and no provider is called about it.
-/
import InventoryReservation.Serial

namespace InventoryReservation

open RowTxn ReservationService

variable {cfg : Settings} {env : Env} {d d₀ : Db} {q : ServiceCall} {qs : List ServiceCall}

/-! ### The provider calls of a step -/

/-- What a returned call says about a provider call that it made: `kind` and `x` are the kind of
the call and the reservation it is for, `Δ` is the change. -/
inductive CallMade (d : Db) (Δ : Option Change) (x : ℕ) : CallKind → Prop
  | hold (hx : d.reservations.get x = none) : CallMade d Δ x .hold
  | confirm {r : Reservation} {δ : Change} (hx : d.reservations.get x = some r)
      (hst : r.status = .pending) (hΔ : Δ = some δ) (hres : δ.res x = some (some r, r.confirmed)) :
      CallMade d Δ x .confirm
  | release {r : Reservation} {δ : Change} {status : ReservationStatus}
      (hx : d.reservations.get x = some r) (hst : r.status = .pending) (hΔ : Δ = some δ)
      (hs : status = .cancelled ∨ status = .expired)
      (hres : δ.res x = some (some r, r.released status)) : CallMade d Δ x .release

lemma reservations_get_of_fresh_le {n : ℕ} (h : (Rely.solo d : Rely Db RowKey).ids n) :
    d.reservations.get n = none :=
  d.reservations.get_of_fresh_le n h

lemma Query.Plain.not_calls {q : Query} (h : q.Plain) {kind : CallKind} {x i : ℕ} {p : Prop}
    (hc : q.Calls kind x i) : p := absurd hc (h kind x i)

lemma calls_of_now_cons {asks : List Query} {w : Σ q, Answer q} {kind : CallKind} {x i n : ℕ}
    (hw : w ∈ answers env (.now n :: asks)) (hc : w.1.Calls kind x i) : w.1 ∈ asks := by
  obtain ⟨q', hq', rfl⟩ := List.mem_map.mp hw
  rcases List.mem_cons.mp hq' with rfl | hq'
  · exact (Query.plain_now n).not_calls hc
  · exact hq'

lemma calls_of_hold {plan : List Booking} {items : List CreateItem} {rid : ℕ}
    {w : Σ q, Answer q} {kind : CallKind} {x i : ℕ}
    (hw : w ∈ answers env (.now 0 :: ties items 0 ++ (bookTalks env d rid plan 0).asks))
    (hc : w.1.Calls kind x i) : kind = .hold ∧ x = rid := by
  rcases List.mem_append.mp (calls_of_now_cons hw hc) with hq | hq
  · exact (plain_of_ties hq).not_calls hc
  · obtain ⟨j, hj⟩ := calls_of_bookTalks hq
    obtain ⟨rfl, rfl, -⟩ := hc.unique hj
    exact ⟨rfl, rfl⟩

lemma calls_of_confirmation {r : Reservation} {y : ℕ} {w : Σ q, Answer q} {kind : CallKind}
    {x i : ℕ} (hw : w ∈ answers env (.now 0 :: (confirmTalk env d y r).asks))
    (hc : w.1.Calls kind x i) : kind = .confirm ∧ x = y := by
  obtain ⟨j, hj⟩ := calls_of_confirm (calls_of_now_cons hw hc)
  obtain ⟨rfl, rfl, -⟩ := hc.unique hj
  exact ⟨rfl, rfl⟩

theorem Op.Returns.calls {op : Op} {a : Reply} {tr : Trace} {Δ : Option Change}
    (h : op.Returns (max 0) cfg env d (Rely.solo d) a tr Δ) {w : Σ q, Answer q} (hw : w ∈ tr)
    {kind : CallKind} {x i : ℕ} (hc : w.1.Calls kind x i) : CallMade d Δ x kind := by
  cases h.does with
  | create _ _ hs =>
    cases hs with
    | mk hplan hid hok =>
      obtain ⟨rfl, rfl⟩ := calls_of_hold hw hc
      exact .hold (reservations_get_of_fresh_le hid)
  | confirm _ _ hs =>
    cases hs with
    | mk hd hr hst hexp hok =>
      obtain ⟨rfl, rfl⟩ := calls_of_confirmation hw hc
      rw [seen_solo hd] at hr
      exact .confirm hr hst rfl (by simp [confirmChange])
  | cancel _ _ hs =>
    cases hs with
    | noop => cases hw
    | release hd hr hst hok =>
      obtain ⟨q', hq', rfl⟩ := List.mem_map.mp hw
      obtain ⟨j, hj⟩ := calls_of_release hq'
      obtain ⟨rfl, rfl, -⟩ := hc.unique hj
      rw [seen_solo hd] at hr
      exact .release hr hst rfl (Or.inl rfl) (releaseChange_res_of_mem (by simp) (by simp))
  | expire _ _ hs =>
    cases hs with
    | mk hd hfree hrs hrow hok =>
      have hq := calls_of_now_cons hw hc
      rcases List.mem_cons.mp hq with hq | hq
      · exact (hq ▸ Query.plain_scan).not_calls hc
      obtain ⟨r, hr, j, hj⟩ := calls_of_expire hq
      obtain ⟨rfl, rfl, -⟩ := hc.unique hj
      obtain ⟨hget, hst, -⟩ := expired_of_mem hrs hrow (show (r.1, r.2) ∈ _ from hr)
      rw [seen_solo hd] at hget
      exact .release hget hst rfl (Or.inr rfl) (releaseChange_res_of_mem (nodup_of_batch hrs) hr)

/-- A call that raises has asked providers for holds of a reservation that does not exist, or
for confirmations of a pending one. -/
theorem Op.Raises.calls (hcoh : Coherent d) {op : Op} {e : PyErr} {tr : Trace}
    (h : op.Raises cfg env d (Rely.solo d) e tr) {w : Σ q, Answer q} (hw : w ∈ tr)
    {kind : CallKind} {x i : ℕ} (hc : w.1.Calls kind x i) :
    kind = .hold ∧ d.reservations.get x = none ∨
      kind = .confirm ∧ (op = .confirm x ∨ op = .paymentOutcome x .success) ∧
        ∃ r, d.reservations.get x = some r ∧ r.status = .pending ∧
          expiryCheck cfg env r = some false ∧
          tr = answers env (.now 0 :: (confirmTalk env d x r).asks) ∧
          (confirmTalk env d x r).result = .error e := by
  -- only a call of a provider that escapes ends a confirmation after a call
  have hconfirm : ∀ {y : ℕ}, ConfirmRaises cfg env d (Rely.solo d : Rely Db RowKey).seen y e tr →
      kind = .confirm ∧ x = y ∧ ∃ r, d.reservations.get x = some r ∧ r.status = .pending ∧
          expiryCheck cfg env r = some false ∧
          tr = answers env (.now 0 :: (confirmTalk env d x r).asks) ∧
          (confirmTalk env d x r).result = .error e := by
    intro y h
    have hnow : w ∈ answers env [.now 0] → False :=
      fun hw => absurd (calls_of_now_cons hw hc) List.not_mem_nil
    cases h with
    | notFound => cases hw
    | status => cases hw
    | compare => exact (hnow hw).elim
    | expired => exact (hnow hw).elim
    | duplicate => exact (hnow hw).elim
    | provider hd hr hst hexp he =>
      obtain ⟨rfl, rfl⟩ := calls_of_confirmation hw hc
      rw [seen_solo hd] at hr
      exact ⟨rfl, rfl, _, hr, hst, hexp, rfl, he⟩
    | integrity hd hr hst hexp hd' ho hok =>
      rw [seen_solo hd] at hr
      rw [seen_solo hd'] at ho
      exact absurd ((hcoh.reservation _ _ hr).pending hst).1 ho
  -- a cancellation that raises has not come to the calls
  have hcancel : ∀ {y : ℕ}, CancelRaises env d (Rely.solo d : Rely Db RowKey).seen y e tr →
      False := by
    intro y h
    cases h with
    | notFound => cases hw
    | status => cases hw
    | provider hd hr hst he =>
      rw [seen_solo hd] at hr
      rw [releaseTalk_ok (hcoh.releasable hr)] at he
      cases he
  cases op with
  | create userId items =>
    left
    cases h with
    | preflight h =>
      exact (h.plain _ (calls_of_now_cons hw hc)).not_calls hc
    | lock =>
      exact (plain_of_ties (calls_of_now_cons hw hc)).not_calls hc
    | provider _ hid he =>
      obtain ⟨rfl, rfl⟩ := calls_of_hold hw hc
      exact ⟨rfl, reservations_get_of_fresh_le hid⟩
    | integrity hid hd hr =>
      rw [seen_solo hd] at hr
      exact absurd (reservations_get_of_fresh_le hid) hr
  | confirm y =>
    obtain ⟨rfl, rfl, hr⟩ := hconfirm h
    exact Or.inr ⟨rfl, Or.inl rfl, hr⟩
  | cancel y => exact (hcancel h).elim
  | expireBatch limit => exact (hcoh.not_expireRaises h).elim
  | paymentOutcome y outcome =>
    cases outcome with
    | success =>
      obtain ⟨rfl, rfl, hr⟩ := hconfirm h
      exact Or.inr ⟨rfl, Or.inr rfl, hr⟩
    | failed => exact (hcancel h).elim

/-! ### The lifecycle along a run -/

/-- In every run the status of a reservation, its items and its order fit together, so that the
exceptions that tell of the contrary are never raised. -/
theorem lifecycle_coherent (cfg : Settings) (h0 : Blank d₀) (hqs : ∀ q ∈ qs, q.op.Distinct) :
    Coherent (run cfg d₀ qs) ∧ (run cfg d₀ qs).providers.get = d₀.providers.get ∧
      ∀ q : ServiceCall, q.op.Distinct →
        (∀ t, (serve cfg (run cfg d₀ qs) q).result ≠ .error (.duplicateOrderError t)) ∧
        ∀ t, (serve cfg (run cfg d₀ qs) q).result ≠ .error (.valueError t) := by
  have hcoh : Coherent (run cfg d₀ qs) := coherent_of_run h0.coherent hqs
  refine ⟨hcoh, (static_of_run hqs).providers, fun q hop => ?_⟩
  cases served hop cfg (run cfg d₀ qs) with
  | raises h hres =>
    obtain ⟨hdup, hval⟩ := h.expected hcoh
    rw [hres]
    exact ⟨fun t ht => hdup t (Except.error.inj ht), fun t ht => hval t (Except.error.inj ht)⟩
  | same _ hres =>
    rw [hres]
    exact ⟨by simp, by simp⟩
  | commits _ hres =>
    rw [hres]
    exact ⟨by simp, by simp⟩

theorem lifecycle_coherent_sale :
    ((run quarter shop sale).reservations.get 1).map Reservation.status = some .confirmed ∧
      Coherent (run quarter shop sale) :=
  ⟨by decide +kernel, (lifecycle_coherent quarter shop_blank (by decide)).1⟩

/-! ### The frame of a settled reservation -/

section Frame

variable {x : ℕ} {r : Reservation}

lemma Change.Lawful.frame {clamp : ℤ → ℤ} {Δ : Change} {d' : Db} (h : Δ.Lawful d₀ clamp)
    (ha : Δ.Applies d d') (hr : d.reservations.get x = some r) (hst : r.status ≠ .pending) :
    d'.reservations.get x = some r ∧ d'.orders.get x = d.orders.get x := by
  cases h.at x with
  | frame hres hord => exact ⟨(ha.res_out x hres).trans hr, ha.ord_out x hord⟩
  | book hres =>
    rw [(ha.res x _ _ hres).1] at hr
    cases hr
  | confirm hres _ hp =>
    rw [(ha.res x _ _ hres).1] at hr
    cases hr
    exact absurd hp hst
  | release hres _ _ hp =>
    rw [(ha.res x _ _ hres).1] at hr
    cases hr
    exact absurd hp hst

lemma serve_frame (hop : q.op.Distinct) (hr : d.reservations.get x = some r)
    (hst : r.status ≠ .pending) : (serve cfg d q).db.reservations.get x = some r ∧
      (serve cfg d q).db.orders.get x = d.orders.get x :=
  serve_induction hop ⟨hr, rfl⟩ fun _ _ _ _ _ hΔ hc => hΔ.frame hc.toApplies hr hst

lemma run_frame (hqs : ∀ q ∈ qs, q.op.Distinct) (hr : d.reservations.get x = some r)
    (hst : r.status ≠ .pending) : (run cfg d qs).reservations.get x = some r ∧
      (run cfg d qs).orders.get x = d.orders.get x := by
  refine run_induction ⟨hr, rfl⟩ fun d' q hq hd => ?_
  obtain ⟨hres, hord⟩ : (serve cfg d' q).db.reservations.get x = some r ∧ _ :=
    serve_frame (hqs q hq) hd.1 hst
  exact ⟨hres, hord.trans hd.2⟩

/-- A call about the reservation `x`. -/
def Op.Concerns (x : ℕ) (op : Op) : Prop :=
  op = .confirm x ∨ op = .cancel x ∨ ∃ outcome, op = .paymentOutcome x outcome

/-- A call about a settled reservation changes nothing at all. -/
lemma serve_settled (hop : q.op.Distinct) (hx : q.op.Concerns x)
    (hr : d.reservations.get x = some r) (hst : r.status ≠ .pending) : (serve cfg d q).db = d := by
  cases served hop cfg d with
  | raises _ _ hdb => exact hdb
  | same _ _ hdb => exact hdb
  | commits h _ _ _ =>
    exfalso
    have hpend : ∀ {y : ℕ} {d' : Db} {r' : Reservation}, y = x →
        (Rely.solo d : Rely Db RowKey).seen d' → d'.reservations.get y = some r' →
        r'.status = .pending → False := by
      intro y d' r' hy hd hr' hp
      rw [hy, seen_solo hd, hr] at hr'
      cases hr'
      exact hst hp
    have hdoes := h.does
    generalize (serve cfg d q).trace = tr at hdoes
    rcases hdoes with ⟨hop', -, -⟩ | ⟨hop', -, hs⟩ | ⟨hop', -, hs⟩ | ⟨hop', -, -⟩
    · rcases hx with hx | hx | ⟨o, hx⟩ <;> rw [hop'] at hx <;> cases hx
    · cases hs with
      | mk hd hr' hp =>
        refine hpend ?_ hd hr' hp
        rcases hop' with hop' | hop' <;> rcases hx with hx | hx | ⟨o, hx⟩ <;>
          rw [hop'] at hx <;> cases hx <;> rfl
    · cases hs with
      | release hd hr' hp =>
        refine hpend ?_ hd hr' hp
        rcases hop' with hop' | hop' <;> rcases hx with hx | hx | ⟨o, hx⟩ <;>
          rw [hop'] at hx <;> cases hx <;> rfl
    · rcases hx with hx | hx | ⟨o, hx⟩ <;> rw [hop'] at hx <;> cases hx

/-- No provider is called about a settled reservation. -/
lemma serve_calls_settled (hcoh : Coherent d) (hop : q.op.Distinct)
    (hr : d.reservations.get x = some r) (hst : r.status ≠ .pending) :
    ∀ w ∈ (serve cfg d q).trace, ∀ kind i, ¬w.1.Calls kind x i := by
  intro w hw kind i hc
  have hmade : ∀ {Δ : Option Change}, CallMade d Δ x kind → False := by
    intro Δ h
    cases h with
    | hold hx =>
      rw [hr] at hx
      cases hx
    | confirm hx hp =>
      rw [hr] at hx
      cases hx
      exact hst hp
    | release hx hp =>
      rw [hr] at hx
      cases hx
      exact hst hp
  cases served hop cfg d with
  | raises h =>
    rcases h.calls hcoh hw hc with ⟨-, hx⟩ | ⟨-, -, r', hx, hp, -⟩
    · rw [hr] at hx
      cases hx
    · rw [hr] at hx
      cases hx
      exact hst hp
  | same h => exact hmade (h.calls hw hc)
  | commits h => exact hmade (h.calls hw hc)

lemma run_calls_settled (hcoh : Coherent d) (hqs : ∀ q ∈ qs, q.op.Distinct)
    (hr : d.reservations.get x = some r) (hst : r.status ≠ .pending) :
    ∀ w ∈ runTrace cfg d qs, ∀ kind i, ¬w.1.Calls kind x i := by
  induction qs generalizing d with
  | nil => simp [runTrace]
  | cons q qs ih =>
    intro w hw
    have hq := hqs q (by simp)
    have hcoh' : Coherent (run cfg d [q]) := coherent_of_run hcoh (by simpa using hq)
    rcases List.mem_append.mp hw with hw | hw
    · exact serve_calls_settled hcoh hq hr hst w hw
    · exact ih hcoh' (fun q' hq' => hqs q' (by simp [hq'])) (serve_frame hq hr hst).1 w hw

/-- After a reservation was settled, a run leaves it and its order as they are, a call about it
changes nothing in the whole database, and no provider is called about it. -/
theorem first_settlement_wins (cfg : Settings) (h0 : Blank d₀) {qs' : List ServiceCall}
    (hqs : ∀ q ∈ qs, q.op.Distinct) (hqs' : ∀ q ∈ qs', q.op.Distinct)
    (hr : (run cfg d₀ qs).reservations.get x = some r) (hst : r.status ≠ .pending) :
    (run cfg d₀ (qs ++ qs')).reservations.get x = some r ∧
    (run cfg d₀ (qs ++ qs')).orders.get x = (run cfg d₀ qs).orders.get x ∧
    (∀ pre q post, qs' = pre ++ q :: post → q.op.Concerns x →
      (serve cfg (run cfg d₀ (qs ++ pre)) q).db = run cfg d₀ (qs ++ pre)) ∧
    ∀ w ∈ runTrace cfg (run cfg d₀ qs) qs', ∀ kind i, ¬w.1.Calls kind x i := by
  have hcoh : Coherent (run cfg d₀ qs) := coherent_of_run h0.coherent hqs
  simp only [run_append]
  generalize run cfg d₀ qs = d at hr hcoh ⊢
  obtain ⟨hres, hord⟩ : (run cfg d qs').reservations.get x = some r ∧ _ := run_frame hqs' hr hst
  refine ⟨hres, hord, fun pre q post hpre hx => ?_, run_calls_settled hcoh hqs' hr hst⟩
  have hq : q.op.Distinct := hqs' q (by simp [hpre])
  have hframe : (run cfg d pre).reservations.get x = some r ∧ _ :=
    run_frame (fun q' hq' => hqs' q' (by simp [hpre, hq'])) hr hst
  exact serve_settled hq hx hframe.1 hst

end Frame

/-- The sold reservation is cancelled and paid for once more. -/
theorem first_settlement_wins_sale :
    ((run quarter shop (sale ++ [⟨.cancel 1, calm 6⟩, ⟨.paymentOutcome 1 .success, calm 7⟩])
      ).reservations.get 1).map Reservation.status = some .confirmed := by
  obtain ⟨r, hr, hst⟩ : ∃ r, (run quarter shop sale).reservations.get 1 = some r ∧
      r.status = .confirmed := by
    exact Option.map_eq_some_iff.mp (by decide +kernel)
  have h := first_settlement_wins quarter shop_blank
    (show ∀ q ∈ sale, q.op.Distinct by decide)
    (show ∀ q ∈ ([⟨.cancel 1, calm 6⟩, ⟨.paymentOutcome 1 .success, calm 7⟩] : List ServiceCall),
      q.op.Distinct by decide)
    hr (by rw [hst]; decide)
  rw [h.1, Option.map_some, hst]

end InventoryReservation
