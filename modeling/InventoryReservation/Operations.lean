/-
# The operations together

One type for the calls of the service, with what each returns, and one specification of all of
them.  From here on an operation is known by what it returns, what it asks, and what it changes.
-/
import InventoryReservation.Booking
import InventoryReservation.Settlement
import InventoryReservation.RowTxn.Soundness

namespace InventoryReservation

open RowTxn ReservationService

/-- A call of the service. -/
inductive Op
  | create (userId : String) (items : List CreateItem)
  | confirm (reservationId : ℕ)
  | cancel (reservationId : ℕ)
  | expireBatch (limit : ℕ)
  | paymentOutcome (reservationId : ℕ) (outcome : PaymentOutcome)
deriving DecidableEq, Repr

/-- What a call returns. -/
inductive Reply
  | reservation (id : ℕ) (r : Reservation)
  | order (o : Order)
  | done
  | count (n : ℕ)
deriving DecidableEq, Repr

namespace Op

/-- The program of a call; the service has `max 0` for `clamp`. -/
def programBy (clamp : ℤ → ℤ) (cfg : Settings) : Op → Svc Reply
  | create userId items => do
    let r ← ReservationService.create cfg userId items
    return .reservation r.1 r.2
  | confirm x => do
    let o ← ReservationService.confirm cfg x
    return .order o
  | cancel x => do
    cancelBy clamp x
    return .done
  | expireBatch limit => do
    let n ← expireBatchBy clamp limit
    return .count n
  | paymentOutcome x outcome => do
    let o ← paymentOutcomeBy clamp cfg x outcome
    return match o with
      | some o => .order o
      | none => .done

/-- The transaction of a call: it is committed when the call returns. -/
def transactionBy (clamp : ℤ → ℤ) (cfg : Settings) (op : Op) : Svc Reply :=
  (op.programBy clamp cfg).commit .integrityError

def transaction (cfg : Settings) (op : Op) : Svc Reply := op.transactionBy (max 0) cfg

/-- The request schema refuses two items of one product. -/
def Distinct : Op → Prop
  | create _ items => (items.map CreateItem.productId).Nodup
  | _ => True

/-- The request schema asks for a positive quantity. -/
def Positive : Op → Prop
  | create _ items => ∀ it ∈ items, 0 < it.qty
  | _ => True

/-- What the request schema enforces. -/
structure Valid (op : Op) : Prop where
  distinct : op.Distinct
  positive : op.Positive

instance : DecidablePred Distinct
  | create _ items => inferInstanceAs (Decidable (items.map CreateItem.productId).Nodup)
  | confirm _ | cancel _ | expireBatch _ | paymentOutcome _ _ => .isTrue trivial

instance : DecidablePred Positive
  | create _ items => inferInstanceAs (Decidable (∀ it ∈ items, 0 < it.qty))
  | confirm _ | cancel _ | expireBatch _ | paymentOutcome _ _ => .isTrue trivial

instance (op : Op) : Decidable op.Valid :=
  decidable_of_iff (op.Distinct ∧ op.Positive) ⟨fun h => ⟨h.1, h.2⟩, fun h => ⟨h.1, h.2⟩⟩

variable (clamp : ℤ → ℤ) (cfg : Settings) (env : Env) (d₀ : Db) (R : Rely Db RowKey)

/-- What a call returns, asks and changes. -/
def Returns : Op → Reply → Trace → Option Change → Prop
  | create userId items, .reservation id r, tr, Δ => Creates cfg env d₀ R userId items (id, r) tr Δ
  | confirm x, .order o, tr, Δ => Confirms cfg env d₀ R.seen x o tr Δ
  | cancel x, .done, tr, Δ => Cancels env d₀ R.seen clamp x () tr Δ
  | expireBatch limit, .count n, tr, Δ => Expires env d₀ R clamp limit n tr Δ
  | paymentOutcome x .success, .order o, tr, Δ => Confirms cfg env d₀ R.seen x o tr Δ
  | paymentOutcome x .failed, .done, tr, Δ => Cancels env d₀ R.seen clamp x () tr Δ
  | _, _, _, _ => False

/-- What a call raises, and asks before. -/
def Raises : Op → PyErr → Trace → Prop
  | create _ items => CreateRaises env d₀ R items
  | confirm x => ConfirmRaises cfg env d₀ R.seen x
  | cancel x => CancelRaises env d₀ R.seen x
  | expireBatch limit => ExpireRaises env d₀ R limit
  | paymentOutcome x .success => ConfirmRaises cfg env d₀ R.seen x
  | paymentOutcome x .failed => CancelRaises env d₀ R.seen x

end Op

variable {clamp : ℤ → ℤ} {cfg : Settings} {env : Env} {d₀ : Db} {R : Rely Db RowKey} {α β : Type}

/-- A result that is only wrapped. -/
lemma Meets.wrap {p : Svc α} {f : α → Svc β} {S : α → Trace → Option Change → Prop}
    {S' : β → Trace → Option Change → Prop} {F : PyErr → Trace → Prop}
    (h : Meets d₀ R env p S F)
    (hf : ∀ a, ∃ b, f a = .pure b ∧ ∀ tr Δ, S a tr Δ → S' b tr Δ) :
    Meets d₀ R env (p.bind f) S' F := by
  unfold Meets
  rw [wp_bind]
  refine wp_mono (fun a s H ⟨Δ, hS, hp⟩ => ?_) (fun _ _ _ h => h) h
  obtain ⟨b, hb, hSb⟩ := hf a
  rw [hb]
  exact ⟨Δ, hSb _ _ hS, hp⟩

theorem Op.meets (hR : Steady d₀ R) (clamp : ℤ → ℤ) (cfg : Settings) {op : Op}
    (hop : op.Distinct) :
    Meets d₀ R env (op.programBy clamp cfg) (op.Returns clamp cfg env d₀ R)
      (op.Raises cfg env d₀ R) := by
  cases op with
  | create userId items =>
    exact (create_meets hR cfg userId hop).wrap fun a => ⟨_, rfl, fun _ _ h => h⟩
  | confirm x => exact (confirm_meets hR cfg x).wrap fun a => ⟨_, rfl, fun _ _ h => h⟩
  | cancel x => exact (cancel_meets hR clamp x).wrap fun a => ⟨_, rfl, fun _ _ h => h⟩
  | expireBatch limit => exact (expire_meets hR clamp limit).wrap fun a => ⟨_, rfl, fun _ _ h => h⟩
  | paymentOutcome x outcome =>
    cases outcome with
    | success =>
      have h : Meets d₀ R env (paymentOutcomeBy clamp cfg x .success)
          (fun o tr Δ => ∃ a, o = some a ∧ Confirms cfg env d₀ R.seen x a tr Δ)
          (ConfirmRaises cfg env d₀ R.seen x) :=
        (confirm_meets hR cfg x).wrap fun a => ⟨some a, rfl, fun _ _ h => ⟨a, rfl, h⟩⟩
      exact h.wrap fun o => ⟨_, rfl, fun tr Δ ⟨a, ho, h⟩ => ho ▸ h⟩
    | failed =>
      have h : Meets d₀ R env (paymentOutcomeBy clamp cfg x .failed)
          (fun o tr Δ => o = none ∧ Cancels env d₀ R.seen clamp x () tr Δ)
          (CancelRaises env d₀ R.seen x) :=
        (cancel_meets hR clamp x).wrap fun _ => ⟨none, rfl, fun _ _ h => ⟨rfl, h⟩⟩
      exact h.wrap fun o => ⟨_, rfl, fun tr Δ ⟨ho, h⟩ => ho ▸ h⟩

/-! ### Results in cases -/

section Returns

variable {a : Reply} {tr : Trace} {Δ : Option Change} {x limit : ℕ}

lemma Op.Returns.create {userId : String} {items : List CreateItem}
    (h : (Op.create userId items).Returns clamp cfg env d₀ R a tr Δ) :
    ∃ id r, a = .reservation id r ∧ Creates cfg env d₀ R userId items (id, r) tr Δ := by
  cases a <;> first | exact h.elim | exact ⟨_, _, rfl, h⟩

lemma Op.Returns.confirm (h : (Op.confirm x).Returns clamp cfg env d₀ R a tr Δ) :
    ∃ o, a = .order o ∧ Confirms cfg env d₀ R.seen x o tr Δ := by
  cases a <;> first | exact h.elim | exact ⟨_, rfl, h⟩

lemma Op.Returns.cancel (h : (Op.cancel x).Returns clamp cfg env d₀ R a tr Δ) :
    a = .done ∧ Cancels env d₀ R.seen clamp x () tr Δ := by
  cases a <;> first | exact h.elim | exact ⟨rfl, h⟩

lemma Op.Returns.failed (h : (Op.paymentOutcome x .failed).Returns clamp cfg env d₀ R a tr Δ) :
    a = .done ∧ Cancels env d₀ R.seen clamp x () tr Δ := by
  cases a <;> first | exact h.elim | exact ⟨rfl, h⟩

lemma Op.Returns.expire (h : (Op.expireBatch limit).Returns clamp cfg env d₀ R a tr Δ) :
    ∃ n, a = .count n ∧ Expires env d₀ R clamp limit n tr Δ := by
  cases a <;> first | exact h.elim | exact ⟨_, rfl, h⟩

end Returns

/-- What a call returns, by the operation that does the work. -/
inductive Op.Does (clamp : ℤ → ℤ) (cfg : Settings) (env : Env) (d₀ : Db) (R : Rely Db RowKey)
    (op : Op) (a : Reply) (tr : Trace) (Δ : Option Change) : Prop
  | create {userId : String} {items : List CreateItem} {id : ℕ} {r : Reservation}
      (hop : op = .create userId items) (ha : a = .reservation id r)
      (h : Creates cfg env d₀ R userId items (id, r) tr Δ)
  | confirm {x : ℕ} {o : Order} (hop : op = .confirm x ∨ op = .paymentOutcome x .success)
      (ha : a = .order o) (h : Confirms cfg env d₀ R.seen x o tr Δ)
  | cancel {x : ℕ} (hop : op = .cancel x ∨ op = .paymentOutcome x .failed) (ha : a = .done)
      (h : Cancels env d₀ R.seen clamp x () tr Δ)
  | expire {limit n : ℕ} (hop : op = .expireBatch limit) (ha : a = .count n)
      (h : Expires env d₀ R clamp limit n tr Δ)

lemma Op.Returns.does {op : Op} {a : Reply} {tr : Trace} {Δ : Option Change}
    (h : op.Returns clamp cfg env d₀ R a tr Δ) : op.Does clamp cfg env d₀ R a tr Δ := by
  cases op with
  | create userId items =>
    obtain ⟨id, r, ha, h⟩ := h.create
    exact .create rfl ha h
  | confirm x =>
    obtain ⟨o, ha, h⟩ := h.confirm
    exact .confirm (Or.inl rfl) ha h
  | cancel x =>
    obtain ⟨ha, h⟩ := h.cancel
    exact .cancel (Or.inl rfl) ha h
  | expireBatch limit =>
    obtain ⟨n, ha, h⟩ := h.expire
    exact .expire rfl ha h
  | paymentOutcome x outcome =>
    cases outcome with
    | success => cases a <;> first | exact h.elim | exact .confirm (Or.inr rfl) rfl h
    | failed =>
      obtain ⟨ha, h⟩ := h.failed
      exact .cancel (Or.inr rfl) ha h

lemma confirmed_ne {r : Reservation} (h : r.status = .pending) : some r ≠ some r.confirmed := by
  intro hr
  have := congrArg Reservation.status (Option.some.inj hr)
  rw [h] at this
  cases this

lemma released_ne {r : Reservation} {status : ReservationStatus} (h : r.status = .pending)
    (hs : status ≠ .pending) : some r ≠ some (r.released status) := by
  intro hr
  have := congrArg Reservation.status (Option.some.inj hr)
  rw [h] at this
  exact hs this.symm

lemma confirmChange_res {x y : ℕ} {r : Reservation} {b : Option Reservation} {c : Reservation}
    (h : (confirmChange x r).res y = some (b, c)) : y = x ∧ b = some r ∧ c = r.confirmed := by
  by_cases hy : y = x
  · subst hy
    simp only [confirmChange, Change.addOrd_res, Change.setRes_res_self, Option.some.injEq,
      Prod.mk.injEq] at h
    exact ⟨rfl, h.1.symm, h.2.symm⟩
  · simp [confirmChange, Change.setRes_res_of_ne _ _ _ hy, Change.nothing] at h

lemma confirmChange_ord {x y : ℕ} {r : Reservation} {o : Order}
    (h : (confirmChange x r).ord y = some o) : y = x ∧ o = ⟨x, r.userId, .created⟩ := by
  by_cases hy : y = x
  · subst hy
    simp only [confirmChange, Change.addOrd_ord_self, Option.some.injEq] at h
    exact ⟨rfl, h.symm⟩
  · simp [confirmChange, Change.addOrd_ord_of_ne _ _ hy, Change.nothing] at h

lemma bookChange_res {userId : String} {plan : List Booking} {rid y : ℕ}
    {ris : List ReservationItem} {b : Option Reservation} {c : Reservation}
    (h : (bookChange cfg env d₀ userId plan rid ris).res y = some (b, c)) : y = rid ∧ b = none ∧
      c = ⟨userId, .pending, env (.now 0) + minutes cfg.reservationTtlMinutes, ris⟩ := by
  by_cases hy : y = rid
  · subst hy
    simp only [bookChange, Change.setRes_res_self, Option.some.injEq, Prod.mk.injEq] at h
    exact ⟨rfl, h.1.symm, h.2.symm⟩
  · simp [bookChange, Change.setRes_res_of_ne _ _ _ hy, Change.nothing] at h

@[simp] lemma bookChange_ord (cfg : Settings) (env : Env) (d₀ : Db) (userId : String)
    (plan : List Booking) (rid : ℕ) (ris : List ReservationItem) (x : ℕ) :
    (bookChange cfg env d₀ userId plan rid ris).ord x = none := by
  simp [bookChange, Change.nothing]

/-- Every reservation that a call changes has a new status. -/
theorem Op.Returns.proper {op : Op} {a : Reply} {tr : Trace} {Δ : Change}
    (h : op.Returns clamp cfg env d₀ R a tr (some Δ)) : Δ.Proper := by
  intro y b c hy
  cases h.does with
  | create _ _ h =>
    cases h
    obtain ⟨-, rfl, -⟩ := bookChange_res hy
    simp
  | confirm _ _ h =>
    cases h with
    | mk _ _ hst =>
      obtain ⟨-, rfl, rfl⟩ := confirmChange_res hy
      exact confirmed_ne hst
  | cancel _ _ h =>
    cases h with
    | release _ _ hst =>
      obtain ⟨r, hr, rfl, rfl⟩ := mem_of_releaseChange_res (by simp) hy
      obtain rfl : r = _ := (Prod.mk.inj (List.mem_singleton.mp hr)).2
      exact released_ne hst (by simp)
  | expire _ _ h =>
    cases h with
    | mk _ _ hrs hrow =>
      obtain ⟨r, hr, rfl, rfl⟩ := mem_of_releaseChange_res (nodup_of_batch hrs) hy
      exact released_ne (expired_of_mem hrs hrow hr).2.1 (by simp)

/-- A key that is in use makes the call fail. -/
theorem Op.Returns.collides {op : Op} {a : Reply} {tr : Trace} {Δ : Option Change}
    (h : op.Returns clamp cfg env d₀ R a tr Δ) (hc : Collides R.seen Δ) :
    op.Raises cfg env d₀ R .integrityError tr := by
  cases h.does with
  | create hop _ hs =>
    subst hop
    obtain ⟨_, hid, _⟩ := hs
    rcases hc with ⟨y, c, d, hy, hd, hr⟩ | ⟨y, o, d, hy, -⟩
    · obtain ⟨rfl, -⟩ := bookChange_res hy
      exact .integrity hid hd hr
    · simp at hy
  | confirm hop _ h =>
    cases h with
    | mk hd hr hst hexp hok =>
      rcases hc with ⟨y, c, d, hy, -⟩ | ⟨y, o, d, hy, hd', ho⟩
      · obtain ⟨-, hn, -⟩ := confirmChange_res hy
        cases hn
      · obtain ⟨rfl, -⟩ := confirmChange_ord hy
        rcases hop with rfl | rfl <;> exact .integrity hd hr hst hexp hd' ho hok
  | cancel _ _ h =>
    cases h with
    | noop => exact hc.elim
    | release =>
      rcases hc with ⟨y, c, d, hy, -⟩ | ⟨y, o, d, hy, -⟩
      · obtain ⟨r, -, hn, -⟩ := mem_of_releaseChange_res (by simp) hy
        cases hn
      · simp at hy
  | expire _ _ h =>
    cases h with
    | mk _ _ hrs =>
      rcases hc with ⟨y, c, d, hy, -⟩ | ⟨y, o, d, hy, -⟩
      · obtain ⟨r, -, hn, -⟩ := mem_of_releaseChange_res (nodup_of_batch hrs) hy
        cases hn
      · simp at hy

/-! ### Transactions of the operations -/

/-- A call that runs alone returns and commits its change, or raises and changes nothing. -/
theorem Op.transact {op : Op} {d : Db} (hop : op.Distinct) (clamp : ℤ → ℤ) (cfg : Settings)
    (env : Env) (hd : Static d₀ d) :
    (∃ a Δ ws, op.Returns clamp cfg env d₀ (Rely.solo d) a
        (RowTxn.transact env d (op.transactionBy clamp cfg)).trace Δ ∧
      (RowTxn.transact env d (op.transactionBy clamp cfg)).result = .ok a ∧
      Effect d (RowTxn.transact env d (op.transactionBy clamp cfg)).db ws Δ) ∨
    ∃ e, op.Raises cfg env d₀ (Rely.solo d) e
        (RowTxn.transact env d (op.transactionBy clamp cfg)).trace ∧
      (RowTxn.transact env d (op.transactionBy clamp cfg)).result = .error e ∧
      (RowTxn.transact env d (op.transactionBy clamp cfg)).db = d :=
  (op.meets (steady_solo hd) clamp cfg hop).transact hd (fun _ _ _ h => h.proper)
    fun _ _ _ h hc => h.collides hc

/-- A call keeps an invariant against concurrent transactions if its change does; a call without
a change writes nothing. -/
theorem Op.verified_wrote {T : Type} {I : List (Commit T RowKey Reply) → Db → Prop} {t : T} {op : Op}
    (hop : op.Distinct) (hI : ∀ d, (relyOn I (fun _ => True) t).seen d → Static d₀ d)
    (h : ∀ h d d' a tr Δ ws, I h d → t ∉ h.map Commit.tid →
      op.Returns clamp cfg env d₀ (relyOn I (fun _ => True) t) a tr Δ → Effect d d' ws Δ →
      (Δ = none → ws = []) → I (h ++ [⟨t, a, ws⟩]) d') :
    Verified I (fun _ => True) env t (op.transactionBy clamp cfg) := by
  refine verified_commit (wp_mono (fun a s H ⟨Δ, hS, hp⟩ => ?_) (fun _ _ _ _ => trivial)
    (op.meets ⟨hI, fun _ => trivial⟩ clamp cfg hop))
  intro hist d d' ws hd ht hs
  refine h hist d d' a s.trace Δ ws hd ht hS ?_ fun hn => (hn ▸ hp).wrote_nothing hs
  exact hp.effect (fun δ hδ => (hδ ▸ hS : op.Returns clamp cfg env d₀ _ a _ (some δ)).proper)
    (fun _ => trivial) (hI d ⟨hist, hd, ht⟩) hs

theorem Op.verified {T : Type} {I : List (Commit T RowKey Reply) → Db → Prop} {t : T} {op : Op}
    (hop : op.Distinct) (hI : ∀ d, (relyOn I (fun _ => True) t).seen d → Static d₀ d)
    (h : ∀ h d d' a tr Δ ws, I h d → t ∉ h.map Commit.tid →
      op.Returns clamp cfg env d₀ (relyOn I (fun _ => True) t) a tr Δ → Effect d d' ws Δ →
      I (h ++ [⟨t, a, ws⟩]) d') :
    Verified I (fun _ => True) env t (op.transactionBy clamp cfg) :=
  op.verified_wrote hop hI fun hist d d' a tr Δ ws hd ht hret heff _ =>
    h hist d d' a tr Δ ws hd ht hret heff

end InventoryReservation
