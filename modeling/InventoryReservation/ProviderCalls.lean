/-
# Calls to the providers

Which calls an operation makes, for which items, and which exceptions come out of them.
-/
import InventoryReservation.Lifecycle

namespace InventoryReservation

open RowTxn ReservationService

/-! ### Kinds of calls -/

inductive CallKind
  | hold
  | confirm
  | release
deriving DecidableEq, Repr

/-- The kind of a request about a hold. -/
def Request.kind (r : Request) : Option CallKind :=
  match r.method, r.json with
  | .post, some _ => some .hold
  | .post, none => some .confirm
  | .delete, _ => some .release
  | .get, _ => none

/-- The HTTP client fails otherwise than by a timeout. -/
def HttpOutcome.IsTransportError : HttpOutcome → Prop
  | error _ => True
  | _ => False

instance : DecidablePred HttpOutcome.IsTransportError
  | .error _ => .isTrue trivial
  | .response _ | .timeout => .isFalse id

/-- The question is a call of the kind, for the item `i` of the reservation `x`. -/
def Query.Calls (kind : CallKind) (x i : ℕ) (q : Query) : Prop :=
  ∃ r, q = .http (.item x i) r ∧ r.kind = some kind

lemma Query.Calls.unique {kind kind' : CallKind} {x x' i i' : ℕ} {q : Query}
    (h : q.Calls kind x i) (h' : q.Calls kind' x' i') : kind = kind' ∧ x = x' ∧ i = i' := by
  obtain ⟨r, rfl, hr⟩ := h
  obtain ⟨r', hq, hr'⟩ := h'
  cases hq
  exact ⟨Option.some.inj (hr.symm.trans hr'), rfl, rfl⟩

/-- The question is a call of the kind for an item of the reservation. -/
def Query.CallsFor (kind : CallKind) (x : ℕ) (q : Query) : Prop := ∃ i, q.Calls kind x i

/-- The question is no call for an item. -/
def Query.Plain (q : Query) : Prop := ∀ kind x i, ¬q.Calls kind x i

lemma Query.plain_now (n : ℕ) : (Query.now n).Plain := by
  rintro _ _ _ ⟨_, h, -⟩
  cases h

lemma Query.plain_scan : Query.scan.Plain := by
  rintro _ _ _ ⟨_, h, -⟩
  cases h

lemma Query.plain_tie (i p : ℕ) : (Query.tie i p).Plain := by
  rintro _ _ _ ⟨_, h, -⟩
  cases h

lemma plain_of_ties {items : List CreateItem} {i : ℕ} {q : Query} (h : q ∈ ties items i) :
    q.Plain := by
  induction items generalizing i with
  | nil => cases h
  | cons it items ih =>
    rcases List.mem_cons.mp h with rfl | h
    · exact Query.plain_tie _ _
    · exact ih h

lemma PreflightRaises.plain {env : Env} {seen : Db → Prop} {items : List CreateItem} {i : ℕ}
    {e : PyErr} {qs : List Query} (h : PreflightRaises env seen items i e qs) :
    ∀ q ∈ qs, q.Plain := by
  induction h with
  | missing => simpa using Query.plain_tie _ _
  | short => simpa using Query.plain_tie _ _
  | later _ _ ih =>
    intro q hq
    rcases List.mem_cons.mp hq with rfl | hq
    · exact Query.plain_tie _ _
    · exact ih q hq

lemma PreflightRaises.error {env : Env} {seen : Db → Prop} {items : List CreateItem} {i : ℕ}
    {e : PyErr} {qs : List Query} (h : PreflightRaises env seen items i e qs) :
    ∃ t, e = .insufficientStockError t := by
  induction h with
  | missing => exact ⟨_, rfl⟩
  | short => exact ⟨_, rfl⟩
  | later _ _ ih => exact ih

/-! ### Questions of the calls -/

section Asks

variable {env : Env} {d : Db} {x i : ℕ} {it : ReservationItem} {q : Query}

lemma mem_talkWith_asks {α : Type} {a : ExternalHttpProviderAdapter} {cap : String} {call : Call}
    {request : Request} {reply : HttpOutcome → Except PyErr α}
    (h : q ∈ (a.talkWith env cap call request reply).asks) : q = .http call request := by
  unfold ExternalHttpProviderAdapter.talkWith at h
  rw [Talk.mem_bind_asks] at h
  rcases h with h | ⟨_, -, h⟩
  · simp at h
  · simpa [Talk.ask] using h

lemma calls_of_confirmTalk {holdRef : String} {a : ProviderAdapter}
    (h : q ∈ (a.confirmTalk env (.item x i) holdRef).asks) : q.Calls .confirm x i := by
  cases a with
  | internal row => simp [ProviderAdapter.confirmTalk] at h
  | external a => exact ⟨_, mem_talkWith_asks h, rfl⟩

lemma calls_of_releaseTalk {holdRef : String} {a : ProviderAdapter}
    (h : q ∈ (a.releaseTalk env (.item x i) holdRef).asks) : q.Calls .release x i := by
  cases a with
  | internal row => simp [ProviderAdapter.releaseTalk] at h
  | external a => exact ⟨_, mem_talkWith_asks h, rfl⟩

lemma calls_of_holdStock {sku : String} {qty : ℤ} {v : Inventory} {a : ProviderAdapter}
    (h : q ∈ (a.holdTalk env (.item x i) sku qty x v).asks) : q.Calls .hold x i := by
  cases a with
  | internal row =>
    simp only [ProviderAdapter.holdTalk] at h
    split at h <;> simp at h
  | external a => exact ⟨_, mem_talkWith_asks h, rfl⟩

lemma mem_holdTalk_asks {method : Call → String → ProviderAdapter → ProviderTalk Bool}
    {nonFatal : PyErr → Bool} {provider : Option InventoryProvider}
    (h : q ∈ (holdTalk method nonFatal provider x i it).asks) :
    ∃ holdRef a, q ∈ (method (.item x i) holdRef a).asks := by
  unfold holdTalk at h
  split at h
  · next holdRef _ _ =>
    split at h
    · simp at h
    · rw [Talk.mem_bind_asks] at h
      rcases h with h | ⟨a, -, h⟩
      · simp at h
      refine ⟨holdRef, a, ?_⟩
      rw [Talk.mem_handle_asks, Talk.mem_bind_asks] at h
      rcases h with (h | ⟨_, -, h⟩) | ⟨e, -, h⟩
      · exact h
      · simp at h
      · split at h <;> simp at h
  · simp at h

lemma calls_of_confirmItemTalk (h : q ∈ (confirmItemTalk env d x i it).asks) :
    q.Calls .confirm x i := by
  obtain ⟨_, _, h⟩ := mem_holdTalk_asks h
  exact calls_of_confirmTalk h

lemma calls_of_releaseItemTalk (h : q ∈ (releaseItemTalk env d x i it).asks) :
    q.Calls .release x i := by
  obtain ⟨_, _, h⟩ := mem_holdTalk_asks h
  exact calls_of_releaseTalk h

lemma mem_settleTalk_asks {skip : ReservationItem → Bool}
    {talk : ℕ → ReservationItem → ProviderTalk Unit} {items : List ReservationItem}
    (h : q ∈ (settleTalk skip talk items i).asks) : ∃ j it, it ∈ items ∧ q ∈ (talk j it).asks := by
  induction items generalizing i with
  | nil => simp [settleTalk] at h
  | cons it items ih =>
    rw [settleTalk] at h
    split at h
    · obtain ⟨j, it', hit', h⟩ := ih h
      exact ⟨j, it', List.mem_cons_of_mem _ hit', h⟩
    · rw [Talk.mem_bind_asks] at h
      rcases h with h | ⟨_, -, h⟩
      · exact ⟨i, it, List.mem_cons_self, h⟩
      · obtain ⟨j, it', hit', h⟩ := ih h
        exact ⟨j, it', List.mem_cons_of_mem _ hit', h⟩

lemma calls_of_confirm {r : Reservation} (h : q ∈ (confirmTalk env d x r).asks) :
    q.CallsFor .confirm x := by
  obtain ⟨j, it, -, h⟩ := mem_settleTalk_asks h
  exact ⟨j, calls_of_confirmItemTalk h⟩

lemma calls_of_release {r : Reservation} (h : q ∈ (releaseTalk env d x r).asks) :
    q.CallsFor .release x := by
  obtain ⟨j, it, -, h⟩ := mem_settleTalk_asks h
  exact ⟨j, calls_of_releaseItemTalk h⟩

lemma calls_of_expire {rs : List (ℕ × Reservation)} (h : q ∈ (expireTalk env d rs).asks) :
    ∃ r ∈ rs, q.CallsFor .release r.1 := by
  induction rs with
  | nil => simp [expireTalk] at h
  | cons r rs ih =>
    rw [expireTalk, Talk.mem_bind_asks] at h
    rcases h with h | ⟨_, -, h⟩
    · exact ⟨r, List.mem_cons_self, calls_of_release h⟩
    · obtain ⟨r', hr', h⟩ := ih h
      exact ⟨r', List.mem_cons_of_mem _ hr', h⟩

lemma calls_of_talk {b : Booking} (h : q ∈ (b.talk env d x i).asks) : q.Calls .hold x i := by
  unfold Booking.talk at h
  split at h
  · simp at h
  rw [Talk.mem_bind_asks] at h
  rcases h with h | ⟨a, -, h⟩
  · simp at h
  unfold Booking.adapterTalk at h
  split at h
  · simp at h
  rw [Talk.mem_handle_asks, Talk.mem_bind_asks] at h
  rcases h with (h | ⟨_, -, h⟩) | ⟨e, -, h⟩
  · exact calls_of_holdStock h
  · simp at h
  · cases e <;> simp [Booking.refused] at h

lemma calls_of_bookTalks {plan : List Booking} (h : q ∈ (bookTalks env d x plan i).asks) :
    q.CallsFor .hold x := by
  induction plan generalizing i with
  | nil => simp [bookTalks] at h
  | cons b plan ih =>
    rw [bookTalks, Talk.mem_bind_asks] at h
    rcases h with h | ⟨_, -, h⟩
    · exact ⟨i, calls_of_talk h⟩
    · rw [Talk.mem_bind_asks] at h
      rcases h with h | ⟨_, -, h⟩
      · exact ih h
      · simp at h

end Asks

/-! ### Exceptions of the calls -/

section Errors

variable {env : Env} {d : Db} {x i : ℕ} {it : ReservationItem} {e : PyErr}

/-- What an adapter raises when it lacks a capability, or when the HTTP client raises something
that the adapter does not map. -/
def PyErr.Unmapped (e : PyErr) : Prop :=
  (∃ t, e = .capabilityNotSupported t) ∨ ∃ t, e = .httpxError t

lemma talkWith_error {α : Type} {a : ExternalHttpProviderAdapter} {cap : String} {call : Call}
    {request : Request} {reply : HttpOutcome → Except PyErr α}
    (h : (a.talkWith env cap call request reply).result = .error e) :
    (∃ t, e = .capabilityNotSupported t) ∨ reply (env (.http call request)) = .error e := by
  unfold ExternalHttpProviderAdapter.talkWith at h
  rw [Talk.bind_error] at h
  rcases h with h | ⟨_, -, h⟩
  · left
    simp only [Talk.ofExcept_result, ExternalHttpProviderAdapter.requireCapability] at h
    split at h <;> cases h
    exact ⟨_, rfl⟩
  · exact Or.inr h

/-- If the item is held with a reference, its provider is external and has an adapter. -/
def ReservationItem.Releasable (d : Db) (it : ReservationItem) : Prop :=
  it.providerStatus = .held → it.providerHoldRef ≠ none → ∃ p,
    d.providers.get it.providerId = some p ∧ p.type = .external ∧
      ∃ a, ExternalHttpProviderAdapter.new p = .ok a

lemma ReservationItem.Placed.releasable (h : it.Placed d) : it.Releasable d := fun _ => h.ref

lemma Coherent.releasable (h : Coherent d) {r : Reservation} (hr : d.reservations.get x = some r) :
    ∀ it ∈ r.items, it.Releasable d := fun it hit => (h.placed x r hr it hit).releasable

/-- What the release of an item raises: nothing that comes from its adapter. -/
lemma releaseItemTalk_ok (h : it.Releasable d) :
    (releaseItemTalk env d x i it).result = .ok () := by
  unfold releaseItemTalk holdTalk
  split
  · next holdRef hst href =>
    obtain ⟨p, hp, ht, a, ha⟩ := h hst (by simp [href])
    have hres : ProviderRegistry.resolve p none = .ok (.external a) := by
      simp [ProviderRegistry.resolve, ht, ha]
    rw [hp]
    simp only [hres, Talk.bind_ok, Talk.ofExcept_result, Except.ok.injEq, exists_eq_left']
    rw [Talk.handle_ok]
    generalize (ProviderAdapter.external a).releaseTalk env (.item x i) holdRef = o
    rcases hr : o.result with e | b
    · exact Or.inr ⟨e, by simp [Talk.bind, hr], rfl⟩
    · exact Or.inl (by simp [Talk.bind, hr])
  · rfl

lemma confirmItemTalk_error (h : it.Placed d)
    (he : (confirmItemTalk env d x i it).result = .error e) : e.Unmapped := by
  unfold confirmItemTalk holdTalk at he
  split at he
  · next holdRef _ href =>
    obtain ⟨p, hp, ht, a, ha⟩ := h.ref (by simp [href])
    have hres : ProviderRegistry.resolve p none = .ok (.external a) := by
      simp [ProviderRegistry.resolve, ht, ha]
    rw [hp] at he
    simp only [hres, Talk.bind_error, Talk.ofExcept_result, reduceCtorEq, false_or,
      Except.ok.injEq, exists_eq_left', Talk.handle_error, ProviderAdapter.confirmTalk] at he
    obtain ⟨e', he', hfatal⟩ := he
    have he'' : (a.talkWith env "confirm_hold" (.item x i) (a.confirmRequest holdRef)
        (ExternalHttpProviderAdapter.confirmReply holdRef)).result = .error e' := by
      rcases he' with he' | ⟨_, -, he'⟩
      · exact he'
      · cases he'
    split at hfatal
    · cases hfatal
    next hnot =>
    obtain rfl : e' = e := by simpa using hfatal
    rcases talkWith_error he'' with ⟨t, rfl⟩ | hreply
    · exact Or.inl ⟨t, rfl⟩
    · unfold ExternalHttpProviderAdapter.confirmReply at hreply
      split at hreply
      · cases hreply
        simp [isOutage] at hnot
      · cases hreply
        exact Or.inr ⟨_, rfl⟩
      · next r _ =>
        unfold ExternalHttpProviderAdapter.raiseForStatus at hreply
        split at hreply <;> cases hreply
        simp [isOutage] at hnot
  · cases he

lemma settleTalk_error {skip : ReservationItem → Bool}
    {talk : ℕ → ReservationItem → ProviderTalk Unit} {items : List ReservationItem}
    (h : (settleTalk skip talk items i).result = .error e) :
    ∃ j it, it ∈ items ∧ (talk j it).result = .error e := by
  induction items generalizing i with
  | nil => simp [settleTalk] at h
  | cons it items ih =>
    rw [settleTalk] at h
    split at h
    · obtain ⟨j, it', hit', h⟩ := ih h
      exact ⟨j, it', List.mem_cons_of_mem _ hit', h⟩
    · rw [Talk.bind_error] at h
      rcases h with h | ⟨_, -, h⟩
      · exact ⟨i, it, List.mem_cons_self, h⟩
      · obtain ⟨j, it', hit', h⟩ := ih h
        exact ⟨j, it', List.mem_cons_of_mem _ hit', h⟩

/-- The release of a reservation cannot fail at a provider. -/
theorem releaseTalk_ok {r : Reservation} (h : ∀ it ∈ r.items, it.Releasable d) :
    (releaseTalk env d x r).result = .ok () := by
  rcases hr : (releaseTalk env d x r).result with e | ⟨⟩
  · obtain ⟨j, it, hit, he⟩ := settleTalk_error hr
    rw [releaseItemTalk_ok (h it hit)] at he
    cases he
  · rfl

theorem expireTalk_ok {rs : List (ℕ × Reservation)}
    (h : ∀ r ∈ rs, ∀ it ∈ r.2.items, it.Releasable d) : (expireTalk env d rs).result = .ok () := by
  induction rs with
  | nil => rfl
  | cons r rs ih =>
    rw [expireTalk, Talk.bind_ok]
    exact ⟨(), releaseTalk_ok (h r (by simp)), ih fun r' hr' => h r' (by simp [hr'])⟩

/-- A sweep that may release what it finds does not raise. -/
lemma not_expireRaises {R : Rely Db RowKey} {limit : ℕ} {e : PyErr} {tr : Trace}
    (hrel : ∀ d', R.seen d' → ∀ x r, d'.reservations.get x = some r → ∀ it ∈ r.items, it.Releasable d)
    (h : ExpireRaises env d R limit e tr) : False := by
  cases h with
  | provider hd _ _ hrow he =>
    rw [expireTalk_ok fun r hr => hrel _ hd r.1 r.2 (hrow r hr)] at he
    cases he

/-- What the calls of `confirm` raise. -/
theorem confirmTalk_error {r : Reservation} (h : ∀ it ∈ r.items, it.Placed d)
    (he : (confirmTalk env d x r).result = .error e) : e.Unmapped := by
  obtain ⟨j, it, hit, he⟩ := settleTalk_error he
  exact confirmItemTalk_error (h it hit) he

/-- What `create` raises out of a provider call. -/
inductive PyErr.OfHold : PyErr → Prop
  | stock (detail : String) : PyErr.OfHold (.insufficientStockError detail)
  | capability (text : String) : PyErr.OfHold (.capabilityNotSupported text)
  | httpx (text : String) : PyErr.OfHold (.httpxError text)
  | json : PyErr.OfHold .jsonDecodeError
  | attribute (text : String) : PyErr.OfHold (.attributeError text)
  | key (key : String) : PyErr.OfHold (.keyError key)

lemma holdReply_error {sku : String} {out : HttpOutcome}
    (h : ExternalHttpProviderAdapter.holdReply sku out = .error e) :
    e.OfHold ∨ (∃ t, e = .insufficientProviderStock t) ∨ (∃ t, e = .providerTimeout t) ∨
      ∃ t, e = .providerUnavailable t := by
  unfold ExternalHttpProviderAdapter.holdReply at h
  split at h
  · cases h
    exact Or.inr (Or.inr (Or.inl ⟨_, rfl⟩))
  · cases h
    exact Or.inl (.httpx _)
  · split at h
    · split at h <;> cases h
      · exact Or.inl .json
      · exact Or.inl (.attribute _)
      · exact Or.inr (Or.inl ⟨_, rfl⟩)
    · unfold ExternalHttpProviderAdapter.raiseForStatus at h
      split at h
      · simp only [bind, Except.bind] at h
        split at h <;> cases h
        · exact Or.inl .json
        · exact Or.inl (.attribute _)
      · cases h
        exact Or.inr (Or.inr (Or.inr ⟨_, rfl⟩))

lemma new_error {p : InventoryProvider} (h : ExternalHttpProviderAdapter.new p = .error e) :
    ∃ key, e = .keyError key := by
  have hitem : ∀ (c : List (String × String)) key e', item c key = .error e' →
      ∃ key, e' = .keyError key := by
    intro c key e' h
    unfold item at h
    split at h <;> cases h
    exact ⟨_, rfl⟩
  unfold ExternalHttpProviderAdapter.new ExternalHttpProviderAdapter.buildAuthHeaders at h
  simp only [bind, Except.bind, pure, Except.pure] at h
  split at h
  · next e' he =>
    cases h
    split at he
    · split at he
      · next e'' he' =>
        cases he
        exact hitem _ _ _ he'
      · split at he
        · next e'' he' =>
          cases he
          exact hitem _ _ _ he'
        · cases he
    · split at he
      · next e'' he' =>
        cases he
        exact hitem _ _ _ he'
      · cases he
    · cases he
  · cases h

lemma refused_error {b : Booking} {e' : PyErr} (h : (b.refused e').result = .error e)
    (he : e'.OfHold ∨ (∃ t, e' = .insufficientProviderStock t) ∨ (∃ t, e' = .providerTimeout t) ∨
      ∃ t, e' = .providerUnavailable t) : e.OfHold := by
  rcases he with he | ⟨t, rfl⟩ | ⟨t, rfl⟩ | ⟨t, rfl⟩
  · cases he <;>
    · simp only [Booking.refused, Talk.raise_result, Except.error.injEq] at h
      subst h
      constructor
  · simp only [Booking.refused, Talk.raise_result, Except.error.injEq] at h
    subst h
    exact .stock _
  · cases h
  · cases h

lemma talk_error {b : Booking} (h : (b.talk env d x i).result = .error e) : e.OfHold := by
  unfold Booking.talk at h
  split at h
  · cases h
    exact .attribute _
  next p hp =>
  rw [Talk.bind_error] at h
  rcases h with h | ⟨a, ha, h⟩
  · simp only [Talk.ofExcept_result, ProviderRegistry.resolve] at h
    split at h
    · next hn =>  cases hn
    · cases h
    · rcases hn : ExternalHttpProviderAdapter.new p with e' | a <;> rw [hn] at h <;> cases h
      obtain ⟨key, rfl⟩ := new_error hn
      exact .key _
  unfold Booking.adapterTalk at h
  split at h
  · cases h
    exact .attribute _
  rw [Talk.handle_error] at h
  obtain ⟨e', he', h⟩ := h
  refine refused_error h ?_
  rw [Talk.bind_error] at he'
  rcases he' with he' | ⟨_, -, he'⟩
  · cases a with
    | internal row =>
      simp only [ProviderAdapter.holdTalk] at he'
      split at he' <;> cases he'
      exact Or.inr (Or.inl ⟨_, rfl⟩)
    | external a =>
      rcases talkWith_error he' with ⟨t, rfl⟩ | he'
      · exact Or.inl (.capability _)
      · exact holdReply_error he'
  · cases he'

theorem bookTalks_error {plan : List Booking} (h : (bookTalks env d x plan i).result = .error e) :
    e.OfHold := by
  induction plan generalizing i with
  | nil => cases h
  | cons b plan ih =>
    rw [bookTalks, Talk.bind_error] at h
    rcases h with h | ⟨_, -, h⟩
    · exact talk_error h
    · rw [Talk.bind_error] at h
      rcases h with h | ⟨_, -, h⟩
      · exact ih h
      · cases h

end Errors

end InventoryReservation
