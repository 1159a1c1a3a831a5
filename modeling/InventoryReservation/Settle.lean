/-
# What settling a reservation does

The change that `confirm`, `cancel` and `expire_batch` make, the provider calls they ask for,
and the proof that the loop over the items does this.
-/
import InventoryReservation.Work

namespace InventoryReservation

open RowTxn ReservationService

/-! ### Provider calls -/

abbrev ProviderTalk (α : Type) : Type := Talk Query PyErr α

namespace ExternalHttpProviderAdapter

def talkWith {α : Type} (env : Env) (a : ExternalHttpProviderAdapter) (cap : String) (call : Call)
    (request : Request) (reply : HttpOutcome → Except PyErr α) : ProviderTalk α :=
  (Talk.ofExcept (a.requireCapability cap)).bind fun _ =>
    .ask env (.http call request) fun out => .ofExcept (reply out)

lemma callWith_talks {α : Type} (env : Env) (a : ExternalHttpProviderAdapter) (cap : String)
    (call : Call) (request : Request) (reply : HttpOutcome → Except PyErr α) :
    (a.callWith cap call request reply).Talks env (a.talkWith env cap call request reply) :=
  (Prog.Talks.ofExcept _).bind fun _ => Prog.Talks.ask fun _ => Prog.Talks.ofExcept _

end ExternalHttpProviderAdapter

namespace ProviderAdapter

def confirmTalk (env : Env) (call : Call) (holdRef : String) : ProviderAdapter → ProviderTalk Bool
  | internal _ => .pure true
  | external a => a.talkWith env "confirm_hold" call (a.confirmRequest holdRef)
      (ExternalHttpProviderAdapter.confirmReply holdRef)

def releaseTalk (env : Env) (call : Call) (holdRef : String) : ProviderAdapter → ProviderTalk Bool
  | internal _ => .pure true
  | external a => a.talkWith env "release_hold" call (a.releaseRequest holdRef)
      ExternalHttpProviderAdapter.releaseReply

lemma confirmHold_talks (env : Env) (call : Call) (holdRef : String) (a : ProviderAdapter) :
    (a.confirmHold call holdRef).Talks env (a.confirmTalk env call holdRef) := by
  cases a with
  | internal row => exact Prog.Talks.pure true
  | external a => exact a.callWith_talks env _ _ _ _

lemma releaseHold_talks (env : Env) (call : Call) (holdRef : String) (a : ProviderAdapter) :
    (a.releaseHold call holdRef).Talks env (a.releaseTalk env call holdRef) := by
  cases a with
  | internal row => exact Prog.Talks.pure true
  | external a => exact a.callWith_talks env _ _ _ _

end ProviderAdapter

/-- The provider call for an item, when `provider` is its provider. -/
def holdTalk (method : Call → String → ProviderAdapter → ProviderTalk Bool)
    (nonFatal : PyErr → Bool) (provider : Option InventoryProvider) (reservationId i : ℕ)
    (it : ReservationItem) : ProviderTalk Unit :=
  match it.providerStatus, it.providerHoldRef with
  | .held, some holdRef =>
    match provider with
    | none => .raise (.attributeError "'NoneType' object has no attribute")
    | some provider =>
      (Talk.ofExcept (ProviderRegistry.resolve provider none)).bind fun adapter =>
      ((method (.item reservationId i) holdRef adapter).bind fun _ => .pure ()).handle fun e =>
        if nonFatal e then .pure () else .raise e
  | _, _ => .pure ()

variable {env : Env} {R : Rely Db RowKey} {d₀ : Db} {L : List RowKey} {Δ : Change} {s : Sess}
  {H : Held RowOf}

lemma callHold_talks {method : Call → String → ProviderAdapter → Svc Bool}
    {talk : Call → String → ProviderAdapter → ProviderTalk Bool} {nonFatal : PyErr → Bool}
    (hm : ∀ call holdRef a, (method call holdRef a).Talks env (talk call holdRef a))
    {provider : Option InventoryProvider} {reservationId i : ℕ} {it : ReservationItem}
    (hp : s.val (.provider it.providerId) = provider) {P : Unit → Sess → Held RowOf → Prop}
    {E : PyErr → Sess → Held RowOf → Prop}
    (h : (holdTalk talk nonFatal provider reservationId i it).Answered env P E s H) :
    wp R env (callHold method nonFatal reservationId i it) P E s H := by
  unfold callHold
  unfold holdTalk at h
  split
  · next holdRef hst href =>
    rw [hst, href] at h
    simp only at h
    simp only [Prog.bind_eq, wp_bind, obj, wp, hp]
    rcases provider with _ | p
    · simpa [Talk.Answered, Talk.raise, wp] using h
    · refine Prog.Talks.bind (Prog.Talks.ofExcept _) (fun a => ?_) R P E s H h
      refine Prog.Talks.tryCatch (Prog.Talks.bind (hm _ _ a) fun _ => Prog.Talks.pure ()) fun e => ?_
      split
      · exact Prog.Talks.pure ()
      · exact Prog.Talks.ofExcept (.error e)
  · next hno =>
    split at h
    · next holdRef hst href => exact (hno holdRef hst href).elim
    · simpa [Talk.Answered, Talk.pure, wp] using h

/-! ### The loop over the items -/

/-- The calls of the loop, up to the first that raises. -/
def settleTalk (skip : ReservationItem → Bool) (talk : ℕ → ReservationItem → ProviderTalk Unit) :
    List ReservationItem → ℕ → ProviderTalk Unit
  | [], _ => .pure ()
  | it :: items, i =>
    if skip it then settleTalk skip talk items (i + 1)
    else (talk i it).bind fun _ => settleTalk skip talk items (i + 1)

/-- What the loop does to an inventory row. -/
def stockOf (skip : ReservationItem → Bool) (step : ReservationItem → Inventory → Inventory) :
    List ReservationItem → ℕ → Inventory → Inventory
  | [], _, v => v
  | it :: items, k, v =>
    stockOf skip step items k (if !skip it && it.inventoryId = k then step it v else v)

/-- What the loop does to an item. -/
def settled (skip : ReservationItem → Bool) (status : ProviderItemStatus) (it : ReservationItem) :
    ReservationItem :=
  if skip it then it else { it with providerStatus := status }

lemma setItem_append {c : Reservation} {pre items : List ReservationItem} {it : ReservationItem}
    (h : c.items = pre ++ it :: items) (f : ReservationItem → ReservationItem) :
    c.setItem pre.length f = { c with items := pre ++ f it :: items } := by
  rw [Reservation.setItem, h]
  congr 1
  clear h
  induction pre with
  | nil => rfl
  | cons a pre ih => simpa using ih

/-- The change `Δ` after the loop over `items`, when `pre` are the items before them. -/
def Change.settle (Δ : Change) (skip : ReservationItem → Bool)
    (step : ReservationItem → Inventory → Inventory) (status : ProviderItemStatus) (x : ℕ)
    (b : Option Reservation) (c : Reservation) (pre items : List ReservationItem) : Change :=
  (Δ.onStock (stockOf skip step items)).setRes x b
    { c with items := pre ++ items.map (settled skip status) }

/-- A program that has done `W`, after the calls of `o`, meets the postconditions. -/
def Concludes {α : Type} (env : Env) (o : ProviderTalk α) (W : Sess → Held RowOf → Prop) (s : Sess)
    (P : α → Sess → Held RowOf → Prop) (E : PyErr → Sess → Held RowOf → Prop) : Prop :=
  match o.result with
  | .ok a => ∀ s' H', W s' H' → s'.trace = s.trace ++ answers env o.asks → P a s' H'
  | .error e => ∀ s' H', s'.trace = s.trace ++ answers env o.asks → E e s' H'

section Concludes

variable {α : Type} {o : ProviderTalk α} {o₁ : ProviderTalk Unit} {W W' : Sess → Held RowOf → Prop}
  {P : α → Sess → Held RowOf → Prop} {E : PyErr → Sess → Held RowOf → Prop} {s' : Sess}

lemma Concludes.congr (h : Concludes env o W s P E) (hs : s'.trace = s.trace)
    (hW : ∀ s' H', W' s' H' → W s' H') : Concludes env o W' s' P E := by
  unfold Concludes at h ⊢
  rw [hs]
  split at h
  · exact fun s' H' hw => h s' H' (hW s' H' hw)
  · exact h

lemma Concludes.of_ok (h : Concludes env (o₁.bind fun _ => o) W s P E)
    (hok : o₁.result = .ok ()) (hs : s'.trace = s.trace ++ answers env o₁.asks) :
    Concludes env o W s' P E := by
  unfold Concludes at h ⊢
  simp only [Talk.bind, hok] at h
  simpa [hs] using h

lemma Concludes.of_error {e : PyErr} (h : Concludes env (o₁.bind fun _ => o) W s P E)
    (he : o₁.result = .error e) (H' : Held RowOf)
    (hs : s'.trace = s.trace ++ answers env o₁.asks) : E e s' H' := by
  unfold Concludes at h
  simp only [Talk.bind, he] at h
  exact h s' H' hs

end Concludes

/-- The loop changes the stock and the items, and calls the providers. -/
theorem wp_settleItems {skip : ReservationItem → Bool}
    {step : ReservationItem → Inventory → Inventory} {call : ℕ → ℕ → ReservationItem → Svc Unit}
    {talk : ℕ → ReservationItem → ProviderTalk Unit} {status : ProviderItemStatus} {x : ℕ}
    {b : Option Reservation} (hR : Steady d₀ R)
    (hcall : ∀ i it (s : Sess) H P E,
      s.val (.provider it.providerId) = d₀.providers.get it.providerId →
      (talk i it).Answered env P E s H → wp R env (call x i it) P E s H)
    {items : List ReservationItem} (pre : List ReservationItem) {c : Reservation}
    (hw : Work d₀ L Δ s H) (hx : Δ.res x = some (b, c)) (hc : c.items = pre ++ items)
    (hL : ∀ it ∈ items, .provider it.providerId ∈ L) {P : Unit → Sess → Held RowOf → Prop}
    {E : PyErr → Sess → Held RowOf → Prop}
    (h : Concludes env (settleTalk skip talk items pre.length)
      (Work d₀ L (Δ.settle skip step status x b c pre items)) s P E) :
    wp R env (settleItems skip step call status x items pre.length) P E s H := by
  induction items generalizing pre Δ c s H with
  | nil =>
    refine h s H ?_ (by simp [settleTalk, Talk.pure])
    have hΔ : Δ.settle skip step status x b c pre [] = Δ := by
      rw [Change.settle, List.map_nil, ← hc]
      exact Change.setRes_self hx
    rwa [hΔ]
  | cons it items ih =>
    have hL' : ∀ it' ∈ items, .provider it'.providerId ∈ L := fun it' hit' =>
      hL it' (List.mem_cons_of_mem _ hit')
    -- the rest of the loop, from a state in which the first item is done
    have hrest : ∀ (Δ' : Change) (c' : Reservation) (it' : ReservationItem) (s' : Sess) H',
        Work d₀ L Δ' s' H' → Δ'.res x = some (b, c') → c'.items = pre ++ it' :: items →
        Concludes env (settleTalk skip talk items (pre.length + 1))
          (Work d₀ L (Δ'.settle skip step status x b c' (pre ++ [it']) items)) s' P E →
        wp R env (settleItems skip step call status x items (pre.length + 1)) P E s' H' := by
      intro Δ' c' it' s' H' hw' hx' hc' h'
      have hpre : pre.length + 1 = (pre ++ [it']).length := by simp
      rw [hpre] at h' ⊢
      exact ih _ hw' hx' (by simp [hc']) hL' h'
    rw [settleItems]
    rw [settleTalk] at h
    by_cases hskip : skip it
    · rw [if_pos hskip] at h ⊢
      refine hrest Δ c it s H hw hx hc (h.congr rfl fun s' H' hw' => ?_)
      have hΔ : Δ.settle skip step status x b c pre (it :: items) =
          Δ.settle skip step status x b c (pre ++ [it]) items := by
        simp [Change.settle, settled, hskip, Change.onStock, stockOf]
      rwa [hΔ]
    · rw [if_neg hskip] at h ⊢
      simp only [Prog.bind_eq, InventoryRepository.getByIdForUpdate, Prog.bind]
      -- the call and the new status, after the stock of the item's row was changed by `F`
      have hcont : ∀ (F : ℕ → Inventory → Inventory) (s' : Sess) H',
          Work d₀ L (Δ.onStock F) s' H' → s'.trace = s.trace →
          (∀ k, d₀.inventory.get k ≠ none →
            stockOf skip step (it :: items) k = stockOf skip step items k ∘ F k) →
          wp R env ((call x pre.length it).bind fun _ =>
            .modify (.reservation x) (fun r => r.setItem pre.length fun ri =>
              { ri with providerStatus := status })
              (settleItems skip step call status x items (pre.length + 1))) P E s' H' := by
        intro F s' H' hw' htr hF
        rw [wp_bind]
        refine hcall _ it s' H' _ _ (hw'.provider (hL it (by simp))) ?_
        rcases hres : (talk pre.length it).result with e | ⟨⟩
        · simp only [Talk.Answered, hres]
          exact h.of_error hres H' (by simp [htr])
        · simp only [Talk.Answered, hres, wp]
          have hx' : (Δ.onStock F).res x = some (b, c) := hx
          have hm := (hw'.asked env (talk pre.length it).asks).modifyRes hx' fun r =>
            r.setItem pre.length fun ri => { ri with providerStatus := status }
          rw [setItem_append hc] at hm
          refine hrest _ { c with items := pre ++ { it with providerStatus := status } :: items }
            _ _ H' hm (by simp) rfl ?_
          refine (h.of_ok hres (by simp [htr])).congr rfl fun s'' H'' hw'' => ?_
          refine hw''.of_stock rfl ?_ rfl fun k hk => ?_
          · simp [Change.settle, Change.setRes, settled, hskip]
          · rw [Change.settle, Change.setRes_stock]
            exact congrArg (· ∘ Δ.stock k) (hF k hk)
      refine hw.lock hR (fun hnone => ?_) fun s' H' u _ hw' hH' htr _ => ?_
      · refine hcont (fun _ => id) s H hw rfl fun k hk => ?_
        funext v
        simp only [stockOf, Function.comp]
        have : it.inventoryId ≠ k := by
          rintro rfl
          exact hk hnone
        simp [this]
      · have hset : Δ.setStock it.inventoryId (step it) =
            Δ.onStock fun k => if it.inventoryId = k then step it else id := by
          simp only [Change.setStock, Change.onStock, Change.mk.injEq, and_true]
          funext k
          by_cases hk : it.inventoryId = k
          · subst hk
            simp
          · simp [hk, Ne.symm hk]
        refine hcont (fun k => if it.inventoryId = k then step it else id) _ H' ?_ ?_ ?_
        · rw [← hset]
          exact hw'.modifyStock hH' (step it)
        · simpa using htr
        · intro k _
          funext v
          by_cases hk : it.inventoryId = k <;> simp [stockOf, hskip, hk]

/-! ### Loading a reservation -/

variable {α : Type} {P : α → Sess → Held RowOf → Prop} {E : PyErr → Sess → Held RowOf → Prop}

lemma provider_mem_itemKeys (d : Db) {items : List ReservationItem} {it : ReservationItem}
    (h : it ∈ items) :
    .provider it.providerId ∈ items.flatMap (ReservationRepository.itemKeys d) := by
  rw [List.mem_flatMap]
  exact ⟨it, h, by simp [ReservationRepository.itemKeys]⟩

/-- The rule for `get_with_items` at the beginning of a transaction. -/
lemma wp_getWithItems (hR : Steady d₀ R) {x : ℕ} {c : Option Reservation → Svc α}
    (hnone : ∀ d, R.seen d → d.reservations.get x = none →
      wp R env (c none) P E Session.init fun _ => none)
    (hsome : ∀ d r s L, R.seen d → d.reservations.get x = some r →
      Work d₀ L (Change.nothing.setRes x (some r) r) s (fun _ => none) →
      (∀ it ∈ r.items, .provider it.providerId ∈ L) → s.trace = [] → s.writes = [] →
      s.dirty = [] → wp R env (c (some r)) P E s fun _ => none) :
    wp R env ((ReservationRepository.getWithItems x).bind c) P E Session.init fun _ => none := by
  rw [wp_bind]
  intro d hd
  have hown : (Session.init : Sess).own d = d := Session.own_of_nil rfl d
  rw [hown]
  rcases hr : d.reservations.get x with _ | r
  · have hload : (Session.init : Sess).load [.reservation x] d = Session.init := by
      simp [Session.load, hr]
    simp only [hr, hload]
    exact hnone d hd hr
  · have hload : (Session.init : Sess).load [.reservation x] d = { Session.init with
        objs := Function.update (fun _ => none) (.reservation x) (some ⟨some r, r⟩) } := by
      simp [Session.load, hr, Session.load1, Session.init]
    have hw : Work d₀ ([] ++ [.reservation x]) .nothing (Session.init.load [.reservation x] d)
        fun _ => none := (Work.init d₀).load (hR.static d hd)
    rw [hload] at hw
    simp only [hr, hload, Prog.bind_eq, wp_bind]
    refine wp_obj (show _ = some r by simp [Session.val]) ?_
    intro d' hd'
    rw [Session.own_of_nil rfl]
    refine hsome d r _ _ hd hr
      ((hw.readRes (show _ = none from rfl) (by simp)).load (hR.static d' hd')) (fun it hit => ?_) ?_ ?_ ?_
    · exact List.mem_append_right _ (provider_mem_itemKeys d' hit)
    · simp [Session.init]
    · simp [Session.init]
    · simp [Session.init]

end InventoryReservation
