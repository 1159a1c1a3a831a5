/-
# Deadlocks

A call locks the inventory rows of its items one by one and keeps the locks to its end.  If the
items of all calls come in one order of the products, a sweep takes one reservation at most, and
nobody settles a reservation that a sweep may take, no calls wait for each other in a cycle.  The
service enforces none of this: it takes the items as the request lists them.
-/
import InventoryReservation.RowTxn.LockOrder
import InventoryReservation.Concurrent

namespace InventoryReservation

open RowTxn ReservationService InventoryRepository

/-! ### The order of the locks -/

/-- The place of an inventory row in an order of the products: the place of its product. -/
def place (d : Db) (ρ : ℕ → ℕ) (id : ℕ) : ℕ := (d.inventory.get id).elim 0 fun v => ρ v.productId

/-- The inventory rows of a reservation, in the order of its items. -/
def Reservation.rows (r : Reservation) : List ℕ := r.items.map ReservationItem.inventoryId

/-- The items of a reservation come in the order of the products. -/
def Reservation.Ascends (d : Db) (ρ : ℕ → ℕ) (r : Reservation) : Prop :=
  r.rows.Pairwise fun i j => place d ρ i < place d ρ j

/-- The reservation that a call is about. -/
def Op.target : Op → Option ℕ
  | .confirm x | .cancel x | .paymentOutcome x _ => some x
  | .create _ _ | .expireBatch _ => none

/-- One of the calls is about the reservation. -/
def Targeted {T : Type} (ops : T → Op) (x : ℕ) : Prop := ∃ t, (ops t).target = some x

/-- No sweep finds the time past its expiry. -/
def Spared {T : Type} (env : T → Env) (ops : T → Op) (expiresAt : ℤ) : Prop :=
  ∀ t limit, ops t = .expireBatch limit → env t (.now 0) ≤ expiresAt

/-- Calls whose locks are taken in one order: `ρ` gives the place of a product.  A reservation that
a call is about is stored already or has an id from `n` on. -/
structure Orderly {T : Type} (cfg : Settings) (env : T → Env) (d : Db) (n : ℕ) (ops : T → Op)
    (ρ : ℕ → ℕ) : Prop where
  /-- The items of the requests ascend. -/
  requests : ∀ t userId items, ops t = .create userId items →
    items.Pairwise fun it it' => ρ it.productId < ρ it'.productId
  /-- The items of the stored reservations ascend. -/
  stored : ∀ x r, d.reservations.get x = some r → r.Ascends d ρ
  /-- A sweep takes one reservation at most. -/
  limits : ∀ t limit, ops t = .expireBatch limit → limit ≤ 1
  /-- No sweep takes a stored reservation that another call is about. -/
  spared : ∀ x r, Targeted ops x → d.reservations.get x = some r → r.status = .pending →
    Spared env ops r.expiresAt
  /-- Nor one that is created meanwhile. -/
  spared_new : ∀ x t userId items, Targeted ops x → n ≤ x → ops t = .create userId items →
    Spared env ops (env t (.now 0) + minutes cfg.reservationTtlMinutes)

/-- What the changes of a reservation leave alone. -/
structure Reservation.Keeps (r r' : Reservation) : Prop where
  rows : r'.rows = r.rows
  expiresAt : r'.expiresAt = r.expiresAt
  settled : r.status ≠ .pending → r'.status ≠ .pending

lemma Reservation.Keeps.refl (r : Reservation) : r.Keeps r := ⟨rfl, rfl, id⟩

lemma rows_mergeItems {bs cs rs : List ReservationItem}
    (hc : cs.map ReservationItem.inventoryId = bs.map ReservationItem.inventoryId)
    (hr : rs.map ReservationItem.inventoryId = bs.map ReservationItem.inventoryId) :
    (mergeItems bs cs rs).map ReservationItem.inventoryId =
      bs.map ReservationItem.inventoryId := by
  induction bs generalizing cs rs with
  | nil => simp_all [mergeItems]
  | cons b bs ih =>
    rcases cs with _ | ⟨c, cs⟩
    · simp at hc
    rcases rs with _ | ⟨r, rs⟩
    · simp at hr
    simp only [List.map_cons, List.cons.injEq] at hc hr
    simp only [mergeItems, List.map_cons, ih hc.2 hr.2, List.cons.injEq, and_true]
    simp [ReservationItem.merge, col, hc.1, hr.1]

lemma Reservation.Keeps.merge {b c r : Reservation} (hc : b.Keeps c) (hr : b.Keeps r) :
    r.Keeps (b.merge c r) ∧ c.Keeps (b.merge c r) := by
  have hrows : (b.merge c r).rows = b.rows := rows_mergeItems hc.rows hr.rows
  have hexp : (b.merge c r).expiresAt = b.expiresAt := by
    simp [Reservation.merge, col, hc.expiresAt, hr.expiresAt]
  refine ⟨⟨hrows.trans hr.rows.symm, hexp.trans hr.expiresAt.symm, fun hne => ?_⟩,
    ⟨hrows.trans hc.rows.symm, hexp.trans hc.expiresAt.symm, fun hne => ?_⟩⟩
  · by_cases hcb : c.status = b.status
    · simpa [Reservation.merge, col, hcb] using hne
    · have hnp : c.status ≠ .pending := by
        by_cases hb : b.status = .pending
        · rwa [← hb]
        · exact hc.settled hb
      simpa [Reservation.merge, col, hcb] using hnp
  · by_cases hcb : c.status = b.status
    · simpa [Reservation.merge, col, hcb] using hr.settled (hcb ▸ hne)
    · simpa [Reservation.merge, col, hcb] using hne

section Discipline

variable {T : Type} (env : T → Env) (d : Db) (n : ℕ) (ops : T → Op) (ρ : ℕ → ℕ)

/-- Inventory rows ascend; reservations and then orders come after them. -/
def lockBefore : RowKey → RowKey → Prop
  | .inventory i, .inventory j => place d ρ i < place d ρ j
  | .inventory _, .reservation _ | .inventory _, .order _ | .reservation _, .order _ => True
  | _, _ => False

/-- The discipline of orderly calls. -/
def lockDiscipline : Discipline Db RowKey RowOf where
  sound
    | .inventory id, v => (d.inventory.get id).map Inventory.productId = some v.productId
    | .reservation x, r => r.Ascends d ρ ∧
        (Targeted ops x → r.status = .pending → Spared env ops r.expiresAt)
    | .product _, _ | .provider _, _ | .order _, _ => True
  keeps
    | .inventory _, v, w => w.productId = v.productId
    | .reservation _, r, r' => r.Keeps r'
    | .product _, _, _ | .provider _, _, _ | .order _, _, _ => True
  key := .reservation
  first := n
  asked
    | .inventory _ | .order _ => True
    | .reservation x => Targeted ops x
    | .product _ | .provider _ => False
  before := lockBefore d ρ
  keeps_refl k v := by
    cases k with
    | inventory id => rfl
    | reservation x => exact .refl v
    | _ => trivial
  keeps_trans {k u v w} h h' := by
    cases k with
    | inventory id => exact h'.trans h
    | reservation x =>
      exact ⟨h'.rows.trans h.rows, h'.expiresAt.trans h.expiresAt, fun hu => h'.settled (h.settled hu)⟩
    | _ => trivial
  sound_of_keeps {k v w} h h' := by
    cases k with
    | inventory id =>
      have h' : w.productId = v.productId := h'
      show _ = some w.productId
      rw [h']
      exact h
    | reservation x =>
      have h' : v.Keeps w := h'
      refine ⟨?_, fun hx hw => ?_⟩
      · have := h.1
        rwa [Reservation.Ascends, ← h'.rows] at this
      · rw [h'.expiresAt]
        refine h.2 hx ?_
        by_contra hv
        exact h'.settled hv hw
    | _ => trivial
  keeps_merge {k b c r} hc hr := by
    cases k with
    | inventory id =>
      have hc : c.productId = b.productId := hc
      have hr : r.productId = b.productId := hr
      have hm : (b.merge c r).productId = b.productId := by simp [Inventory.merge, col, hc, hr]
      exact ⟨hm.trans hr.symm, hm.trans hc.symm⟩
    | reservation x => exact Reservation.Keeps.merge hc hr
    | _ => exact ⟨trivial, trivial⟩
  key_injective x y h := by simpa using h
  before_irrefl k h := by cases k <;> simp [lockBefore] at h
  before_trans {i j k} h h' := by
    cases i <;> cases j <;> cases k <;> simp_all only [lockBefore]
    omega

end Discipline

/-! ### The programs keep the discipline -/

section Programs

variable {T : Type} {cfg : Settings} {envs : T → Env} {d : Db} {n : ℕ} {ops : T → Op} {ρ : ℕ → ℕ}
  {env : Env} {s : Sess} {H : Set RowKey} {I : Set ℕ} {α : Type}

/-- What holds after a program. -/
abbrev LockPost (α : Type) : Type := α → Sess → Set RowKey → Set ℕ → Prop

lemma place_of_sound {id : ℕ} {v : Inventory}
    (h : (lockDiscipline envs d n ops ρ).sound (.inventory id) v) :
    place d ρ id = ρ v.productId := by
  have h : (d.inventory.get id).map Inventory.productId = some v.productId := h
  obtain ⟨w, hw, hp⟩ := Option.map_eq_some_iff.mp h
  simp [place, hw, hp]

lemma wpOrder_obj {k : RowKey} {P : LockPost (RowOf k)} {E : LockPost PyErr}
    (hP : ∀ v, s.val k = some v → (lockDiscipline envs d n ops ρ).sound k v → P v s H I)
    (hE : ∀ e, E e s H I) : wpOrder (lockDiscipline envs d n ops ρ) env (obj k) P E s H I := by
  intro hs
  rcases hv : s.val k with _ | v
  · exact hE _
  · exact hP v hv (hs v hv)

lemma wpOrder_flush {P : LockPost Unit} (hm : (lockDiscipline envs d n ops ρ).Mays H I s.dirty)
    (hP : ∀ s' : Sess, s'.dirty = [] → (∀ k, s'.val k = s.val k) →
      P () s' {k | k ∈ s.dirty ∨ k ∈ H} I) :
    wpOrder (lockDiscipline envs d n ops ρ) env flush P (fun _ _ _ _ => True) s H I :=
  wpOrderFlush_intro hm hP fun _ _ => trivial

/-- A flush of rows that are locked already. -/
lemma wpOrder_flush_locked {P : LockPost Unit} (hd : ∀ k ∈ s.dirty, k ∈ H)
    (hP : ∀ s' : Sess, s'.dirty = [] → (∀ k, s'.val k = s.val k) → P () s' H I) :
    wpOrder (lockDiscipline envs d n ops ρ) env flush P (fun _ _ _ _ => True) s H I := by
  refine wpOrder_flush (Discipline.mays_of_mem hd) fun s' hs' hval => ?_
  have hset : {k | k ∈ s.dirty ∨ k ∈ H} = H := Set.ext fun k => or_iff_right_of_imp (hd k)
  rw [hset]
  exact hP s' hs' hval

/-- Of the rows that anyone asks for, only inventory rows are locked, and they come before the
places `ps`. -/
def Ahead (L : Discipline Db RowKey RowOf) (d : Db) (ρ : ℕ → ℕ) (H : Set RowKey) (ps : List ℕ) : Prop :=
  ∀ k ∈ H, L.asked k → ∃ id, k = .inventory id ∧ ∀ p ∈ ps, place d ρ id < p

namespace Ahead

variable {L : Discipline Db RowKey RowOf} {ps : List ℕ} {p id : ℕ}

lemma tail (h : Ahead L d ρ H (p :: ps)) : Ahead L d ρ H ps := fun k hk ha => by
  obtain ⟨id, hid, hp⟩ := h k hk ha
  exact ⟨id, hid, fun q hq => hp q (List.mem_cons_of_mem _ hq)⟩

lemma insert (h : Ahead L d ρ H ps) (hp : ∀ p ∈ ps, place d ρ id < p) :
    Ahead L d ρ (insert (.inventory id) H) ps := by
  intro k hk ha
  rcases Set.mem_insert_iff.mp hk with rfl | hk
  · exact ⟨id, rfl, hp⟩
  · exact h k hk ha

/-- The next inventory row may be asked for. -/
lemma may (h : Ahead (lockDiscipline envs d n ops ρ) d ρ H (place d ρ id :: ps)) :
    (lockDiscipline envs d n ops ρ).May H I (.inventory id) := by
  refine Or.inr (Or.inr ⟨trivial, fun k hk ha => ?_⟩)
  obtain ⟨id', rfl, hp⟩ := h k hk ha
  exact hp _ (by simp)

/-- The reservation may be asked for after the inventory rows. -/
lemma may_reservation (h : Ahead (lockDiscipline envs d n ops ρ) d ρ H []) {x : ℕ}
    (hx : Targeted ops x) : (lockDiscipline envs d n ops ρ).May H I (.reservation x) := by
  refine Or.inr (Or.inr ⟨hx, fun k hk ha => ?_⟩)
  obtain ⟨id', rfl, -⟩ := h k hk ha
  trivial

end Ahead

/-! ### Settlements -/

lemma quiet_obj (k : RowKey) : (obj k).Quiet := by
  intro v
  cases v <;> trivial

lemma quiet_callHold {method : Call → String → ProviderAdapter → Svc Bool}
    (hm : ∀ call ref a, (method call ref a).Quiet) (nonFatal : PyErr → Bool) (x i : ℕ)
    (it : ReservationItem) : (callHold method nonFatal x i it).Quiet := by
  unfold callHold
  split
  · refine (quiet_obj _).bind fun p => (Prog.Quiet.ofExcept _).bind fun a => ?_
    refine Prog.Quiet.tryCatch ((hm _ _ a).bind fun _ => trivial) fun e => ?_
    split <;> trivial
  · trivial

lemma quiet_callWith {a : ExternalHttpProviderAdapter} {cap : String} {call : Call} {r : Request}
    {reply : HttpOutcome → Except PyErr α} : (a.callWith cap call r reply).Quiet :=
  (Prog.Quiet.ofExcept _).bind fun _ _ => Prog.Quiet.ofExcept _

lemma quiet_confirmHold (x i : ℕ) (it : ReservationItem) : (confirmHold x i it).Quiet := by
  refine quiet_callHold (fun call ref a => ?_) _ x i it
  cases a with
  | internal row => trivial
  | external a => exact quiet_callWith

lemma quiet_releaseHold (x i : ℕ) (it : ReservationItem) : (releaseHold x i it).Quiet := by
  refine quiet_callHold (fun call ref a => ?_) _ x i it
  cases a with
  | internal row => trivial
  | external a => exact quiet_callWith

lemma keeps_setItem (r : Reservation) (i : ℕ) (f : ReservationItem → ReservationItem)
    (hf : ∀ it, (f it).inventoryId = it.inventoryId) : r.Keeps (r.setItem i f) := by
  refine ⟨?_, rfl, id⟩
  have : ∀ (items : List ReservationItem) i, (items.modify i f).map ReservationItem.inventoryId =
      items.map ReservationItem.inventoryId := by
    intro items
    induction items with
    | nil => simp
    | cons it items ih =>
      intro i
      cases i with
      | zero => simp [hf]
      | succ i => simp [ih]
  exact this r.items i

lemma wpOrder_settleItems {skip : ReservationItem → Bool}
    {step : ReservationItem → Inventory → Inventory} {call : ℕ → ℕ → ReservationItem → Svc Unit}
    {status : ProviderItemStatus} {x i : ℕ} {items : List ReservationItem} {P : LockPost Unit}
    (hstep : ∀ it v, (step it v).productId = v.productId) (hcall : ∀ i it, (call x i it).Quiet)
    (hasc : (items.map fun it => place d ρ it.inventoryId).Pairwise (· < ·))
    (hH : Ahead (lockDiscipline envs d n ops ρ) d ρ H (items.map fun it => place d ρ it.inventoryId))
    (hd : ∀ k ∈ s.dirty, k ∈ H ∨ k = .reservation x)
    (hP : ∀ s' H', Ahead (lockDiscipline envs d n ops ρ) d ρ H' [] → (∀ k ∈ H, k ∈ H') →
      (∀ k ∈ s'.dirty, k ∈ H' ∨ k = .reservation x) → P () s' H' I) :
    wpOrder (lockDiscipline envs d n ops ρ) env (settleItems skip step call status x items i) P
      (fun _ _ _ _ => True) s H I := by
  induction items generalizing i s H with
  | nil => exact hP s H hH (fun _ hk => hk) hd
  | cons it items ih =>
    rw [List.map_cons, List.pairwise_cons] at hasc
    rw [settleItems]
    split
    · exact ih hasc.2 hH.tail hd hP
    simp only [Prog.bind_eq, getByIdForUpdate, Prog.bind]
    -- the call and the new status, after the row of the item was changed or not
    have hcont : ∀ (s' : Sess) H', Ahead (lockDiscipline envs d n ops ρ) d ρ H'
          (items.map fun it => place d ρ it.inventoryId) → (∀ k ∈ H, k ∈ H') →
        (∀ k ∈ s'.dirty, k ∈ H' ∨ k = .reservation x) →
        wpOrder (lockDiscipline envs d n ops ρ) env ((call x i it).bind fun _ =>
          .modify (.reservation x) (fun r => r.setItem i fun ri =>
            { ri with providerStatus := status })
            (settleItems skip step call status x items (i + 1))) P (fun _ _ _ _ => True) s' H' I := by
      intro s' H' hH' hsub hd'
      refine wpOrder_bind.mpr (wpOrder_quiet (hcall i it) (fun _ tr => ⟨fun r _ _ => ?_, ?_⟩)
        fun _ _ => trivial)
      · exact Or.inl (keeps_setItem r i _ fun _ => rfl)
      · refine ih hasc.2 hH' (fun k hk => ?_) fun s'' H'' h₁ h₂ h₃ =>
          hP s'' H'' h₁ (fun k hk => h₂ k (hsub k hk)) h₃
        rcases Session.mem_dirty_modify.mp hk with hk | ⟨rfl, -⟩
        · exact hd' k hk
        · exact Or.inr rfl
    refine ⟨hH.may, ?_, fun v hv => ?_⟩
    · exact hcont s H hH.tail (fun _ hk => hk) hd
    · have hins : Ahead (lockDiscipline envs d n ops ρ) d ρ (insert (.inventory it.inventoryId) H)
          (items.map fun it => place d ρ it.inventoryId) := hH.tail.insert hasc.1
      have hsub : ∀ k ∈ H, k ∈ insert (.inventory it.inventoryId) H := fun _ hk =>
        Set.mem_insert_of_mem _ hk
      have hval : ∃ w, (s.load1 (.inventory it.inventoryId) (some v)).val (.inventory it.inventoryId) =
          some w := by
        rw [Session.val_load1_self]
        rcases s.val (.inventory it.inventoryId) with _ | w
        · exact ⟨v, rfl⟩
        · exact ⟨w, rfl⟩
      obtain ⟨w, hw⟩ := hval
      rw [hw]
      refine ⟨fun u _ _ => Or.inl (hstep it u), hcont _ _ hins hsub fun k hk => ?_⟩
      rcases Session.mem_dirty_modify.mp hk with hk | ⟨rfl, -⟩
      · rw [Session.load1_dirty] at hk
        exact (hd k hk).imp_left (hsub k)
      · exact Or.inl (Set.mem_insert _ _)

lemma ahead_empty (L : Discipline Db RowKey RowOf) (ps : List ℕ) : Ahead L d ρ ∅ ps :=
  fun _ hk => hk.elim

lemma wpOrder_getWithItems {x : ℕ} {P : LockPost (Option Reservation)} (hd : s.dirty = [])
    (hnone : ∀ s' : Sess, s'.dirty = [] → P none s' H I)
    (hsome : ∀ (s' : Sess) r, s'.dirty = [] → r.Ascends d ρ → P (some r) s' H I) :
    wpOrder (lockDiscipline envs d n ops ρ) env (ReservationRepository.getWithItems x) P
      (fun _ _ _ _ => True) s H I := by
  intro d' _
  rcases hr : d'.reservations.get x with _ | r
  · simp only [hr]
    exact hnone _ (by simp [hd])
  · simp only [hr, Prog.bind_eq]
    refine wpOrder_bind.mpr (wpOrder_obj (fun v _ hv => ?_) fun _ => trivial)
    exact fun d'' _ => hsome _ v (by simp [hd]) hv.1

/-- The pending changes of a settlement: of the rows that are not locked yet, the reservation is
the only one. -/
lemma mays_settled {x : ℕ} (hx : Targeted ops x)
    (hH : Ahead (lockDiscipline envs d n ops ρ) d ρ H []) {ks : List RowKey}
    (hd : ∀ k ∈ ks, k ∈ H ∨ k = .reservation x) : (lockDiscipline envs d n ops ρ).Mays H I ks :=
  Discipline.mays_of_mem_or (hH.may_reservation hx) hd

lemma places_of_ascends {r : Reservation} (h : r.Ascends d ρ) :
    (r.items.map fun it => place d ρ it.inventoryId).Pairwise (· < ·) := by
  have h : (r.items.map ReservationItem.inventoryId).Pairwise fun i j => place d ρ i < place d ρ j := h
  rw [List.pairwise_map] at h ⊢
  exact h

lemma wpOrder_releaseItems {clamp : ℤ → ℤ} {x i : ℕ} {r : Reservation} {P : LockPost Unit}
    (hr : r.Ascends d ρ) (hH : Ahead (lockDiscipline envs d n ops ρ) d ρ H
      (r.items.map fun it => place d ρ it.inventoryId))
    (hd : ∀ k ∈ s.dirty, k ∈ H ∨ k = .reservation x)
    (hP : ∀ s' H', Ahead (lockDiscipline envs d n ops ρ) d ρ H' [] → (∀ k ∈ H, k ∈ H') →
      (∀ k ∈ s'.dirty, k ∈ H' ∨ k = .reservation x) → P () s' H' I) :
    wpOrder (lockDiscipline envs d n ops ρ) env (releaseItemsBy clamp x r.items i) P
      (fun _ _ _ _ => True) s H I :=
  wpOrder_settleItems (fun _ _ => rfl) (quiet_releaseHold x) (places_of_ascends hr) hH hd hP

lemma mem_dirty_status {x : ℕ} {f : Reservation → Reservation}
    (hd : ∀ k ∈ s.dirty, k ∈ H ∨ k = .reservation x) :
    ∀ k ∈ (s.modify (.reservation x) f).dirty, k ∈ H ∨ k = .reservation x := by
  intro k hk
  rcases Session.mem_dirty_modify.mp hk with hk | ⟨rfl, -⟩
  · exact hd k hk
  · exact Or.inr rfl

lemma wpOrder_cancel {clamp : ℤ → ℤ} {x : ℕ} (hx : Targeted ops x) :
    wpOrder (lockDiscipline envs d n ops ρ) env (cancelBy clamp x)
      (fun _ s H I => (lockDiscipline envs d n ops ρ).Mays H I s.dirty) (fun _ _ _ _ => True)
      Session.init ∅ ∅ := by
  unfold cancelBy
  simp only [Prog.bind_eq]
  refine wpOrder_bind.mpr (wpOrder_getWithItems rfl (fun _ _ => trivial) fun s r hs hr => ?_)
  have hnil : ∀ k ∈ s.dirty, k ∈ (∅ : Set RowKey) ∨ k = .reservation x := by simp [hs]
  dsimp only
  split
  · exact mays_settled hx (ahead_empty _ _) hnil
  split
  · trivial
  refine wpOrder_bind.mpr (wpOrder_releaseItems hr (ahead_empty _ _) hnil fun s' H' hH' _ hd => ?_)
  refine ⟨fun r' _ _ => Or.inl ⟨rfl, rfl, fun _ h => by cases h⟩, ?_⟩
  exact mays_settled hx hH' (mem_dirty_status hd)

lemma wpOrder_confirm {x : ℕ} (hx : Targeted ops x) :
    wpOrder (lockDiscipline envs d n ops ρ) env (confirm cfg x)
      (fun _ s H I => (lockDiscipline envs d n ops ρ).Mays H I s.dirty) (fun _ _ _ _ => True)
      Session.init ∅ ∅ := by
  unfold confirm
  simp only [Prog.bind_eq]
  refine wpOrder_bind.mpr (wpOrder_getWithItems rfl (fun _ _ => trivial) fun s r hs hr => ?_)
  dsimp only
  split
  · trivial
  simp only [wpOrder]
  split
  · trivial
  · trivial
  refine wpOrder_bind.mpr fun d' _ => ?_
  rcases ho : d'.orders.get x with _ | o
  rotate_left
  · simp only [ho, Prog.pure_eq, wpOrder]
    trivial
  simp only [ho, Prog.pure_eq, wpOrder]
  refine wpOrder_bind.mpr (wpOrder_settleItems (fun _ _ => rfl) (quiet_confirmHold x)
    (places_of_ascends hr) (ahead_empty _ _) (x := x) (by simp [Session.log, hs])
    fun s' H' hH' _ hd => ?_)
  have hd := mem_dirty_status (f := fun r : Reservation => { r with status := .confirmed }) hd
  refine ⟨fun r' _ _ => Or.inl ⟨rfl, rfl, fun _ h => by cases h⟩,
    Or.inr ⟨fun _ h => (by cases h), fun _ _ => trivial⟩, trivial, ?_⟩
  -- the order is inserted last
  have hnew : .order x ∉ (s'.modify (.reservation x)
      fun r : Reservation => { r with status := .confirmed }).dirty := by
    intro hk
    rcases hd _ hk with hk | hk
    · obtain ⟨id, hid, -⟩ := hH' _ hk trivial
      cases hid
    · cases hk
  refine wpOrder_bind.mpr (wpOrder_flush ?_ fun s'' hs'' _ => wpOrder_obj (fun _ _ _ => ?_) fun _ => trivial)
  · simp only [Session.insert, hnew, if_false]
    refine (mays_settled hx hH' hd).append (Or.inr (Or.inr ⟨trivial, fun k hk ha => ?_⟩))
    rcases hk with hk | hk
    · rcases hd k hk with hk | rfl
      · obtain ⟨id, rfl, -⟩ := hH' k hk ha
        trivial
      · trivial
    · obtain ⟨id, rfl, -⟩ := hH' k hk ha
      trivial
  · rw [hs'']
    trivial

/-! ### Sweeps -/

lemma wpOrder_objects {ks : List RowKey} {P : LockPost (List (ℕ × Reservation))}
    (hP : ∀ rs : List (ℕ × Reservation), rs.length ≤ ks.length →
      (∀ r ∈ rs, .reservation r.1 ∈ ks ∧ r.2.Ascends d ρ) → P rs s H I) :
    wpOrder (lockDiscipline envs d n ops ρ) env (ReservationRepository.objects ks) P
      (fun _ _ _ _ => True) s H I := by
  induction ks generalizing P with
  | nil => exact hP [] (Nat.zero_le _) (by simp)
  | cons k ks ih =>
    cases k with
    | reservation x =>
      simp only [ReservationRepository.objects, Prog.bind_eq]
      refine wpOrder_bind.mpr (wpOrder_obj (fun v _ hv => ?_) fun _ => trivial)
      refine wpOrder_bind.mpr (ih fun rs hlen hrs => hP _ (by simpa using hlen) fun r hr => ?_)
      rcases List.mem_cons.mp hr with rfl | hr
      · exact ⟨by simp, hv.1⟩
      · exact ⟨List.mem_cons_of_mem _ (hrs r hr).1, (hrs r hr).2⟩
    | _ => exact hP [] (Nat.zero_le _) (by simp)

/-- A sweep locks its reservation first.  Nobody else asks for it. -/
lemma wpOrder_expireBatch {clamp : ℤ → ℤ} {t : T} {limit : ℕ} (ht : ops t = .expireBatch limit)
    (hl : limit ≤ 1) :
    wpOrder (lockDiscipline envs d n ops ρ) (envs t) (expireBatchBy clamp limit)
      (fun _ s H I => (lockDiscipline envs d n ops ρ).Mays H I s.dirty) (fun _ _ _ _ => True)
      Session.init ∅ ∅ := by
  unfold expireBatchBy ReservationRepository.getExpiredPending
  simp only [Prog.bind_eq, Prog.bind]
  intro d' ks hd' hks hlen
  refine wpOrder_bind.mpr (wpOrder_bind.mpr (wpOrder_objects fun rs hrs hmem => fun d'' _ => ?_))
  have hH : ∀ ps, Ahead (lockDiscipline envs d n ops ρ) d ρ {k | k ∈ ks ∨ k ∈ (∅ : Set RowKey)} ps := by
    rintro ps k (hk | hk) ha
    · obtain ⟨x, hx, rfl⟩ := List.mem_map.mp (hks k hk)
      rw [mem_visit, ReservationRepository.mem_expiredPending] at hx
      obtain ⟨r, hr, hst, hexp⟩ := hx
      exact absurd hexp (not_lt.mpr ((hd' (.reservation x) r hr).2 ha hst t limit ht))
    · exact hk.elim
  rcases rs with _ | ⟨⟨x, r⟩, _ | ⟨r', rs⟩⟩
  · show Discipline.Mays _ _ _ (Session.dirty _)
    simp [Session.log, Session.init, Discipline.Mays]
  · obtain ⟨hx, hr⟩ := hmem (x, r) (by simp)
    refine wpOrder_bind.mpr ?_
    simp only [expireAllBy, Prog.bind_eq]
    refine wpOrder_bind.mpr (wpOrder_releaseItems hr (hH _) (by simp [Session.log, Session.init])
      fun s' H' hH' hsub hd => ?_)
    refine ⟨fun r' _ _ => Or.inl ⟨rfl, rfl, fun _ h => by cases h⟩, ?_⟩
    refine Discipline.mays_of_mem fun k hk => ?_
    rcases mem_dirty_status hd k hk with hk | rfl
    · exact hk
    · exact hsub _ (Or.inl hx)
  · simp only [List.length_cons] at hrs
    omega

/-! ### Requests -/

lemma item_ok {m : InventoryMap} {p id : ℕ} (h : m.item p = .ok id) : m p = some id := by
  unfold InventoryMap.item at h
  split at h
  · next hm => rw [hm, Except.ok.inj h]
  · cases h

/-- The rows of a map are rows of their products. -/
def Placed (d : Db) (ρ : ℕ → ℕ) (m : InventoryMap) : Prop := ∀ p id, m p = some id → place d ρ id = ρ p

lemma Placed.set {m : InventoryMap} (h : Placed d ρ m) {p id : ℕ} (hid : place d ρ id = ρ p) :
    Placed d ρ (m.set p id) := by
  intro p' id' hm
  by_cases hp : p' = p
  · subst hp
    obtain rfl : id = id' := by simpa [InventoryMap.set] using hm
    exact hid
  · exact h p' id' (by simpa [InventoryMap.set, hp] using hm)

lemma wpOrder_item {m : InventoryMap} {p : ℕ} {P : LockPost ℕ}
    (hP : ∀ id, m p = some id → P id s H I) :
    wpOrder (lockDiscipline envs d n ops ρ) env (.ofExcept (m.item p)) P (fun _ _ _ _ => True) s H I := by
  refine wpOrder_ofExcept.mpr ?_
  rcases h : m.item p with e | id
  · trivial
  · exact hP id (item_ok h)

lemma wpOrder_preflight {items : List CreateItem} {i : ℕ} {m : InventoryMap} (hm : Placed d ρ m)
    (hd : s.dirty = []) {P : LockPost InventoryMap}
    (hP : ∀ (m' : InventoryMap) (s' : Sess), s'.dirty = [] → Placed d ρ m' → P m' s' H I) :
    wpOrder (lockDiscipline envs d n ops ρ) env (preflight items i m) P (fun _ _ _ _ => True) s H I := by
  induction items generalizing i m s with
  | nil => exact hP m s hd hm
  | cons it items ih =>
    simp only [preflight, getBestAvailable, Prog.bind_eq, Prog.bind]
    intro d' hd'
    rcases hc : choose (best d' it.productId) (env (.tie i it.productId)) with _ | id
    · simp only [hc]
      trivial
    simp only [hc]
    refine wpOrder_bind.mpr (wpOrder_bind.mpr (wpOrder_obj (fun v _ _ => ?_) fun _ => trivial))
    simp only [Prog.pure_eq, wpOrder]
    split
    · trivial
    obtain ⟨r, hr, hp, -⟩ := mem_best.mp (mem_of_choose hc)
    refine ih (hm.set ?_) (by simp [Session.log, hd])
    rw [place_of_sound (hd' (.inventory id) r hr), hp]

lemma wpOrder_lockRows {items : List CreateItem} {pre m : InventoryMap}
    (hasc : (items.map fun it => ρ it.productId).Pairwise (· < ·)) (hpre : Placed d ρ pre)
    (hm : Placed d ρ m) (hmH : ∀ p id, m p = some id → .inventory id ∈ H) (hd : s.dirty = [])
    (hH : Ahead (lockDiscipline envs d n ops ρ) d ρ H (items.map fun it => ρ it.productId))
    {P : LockPost InventoryMap}
    (hP : ∀ (m' : InventoryMap) (s' : Sess) H', s'.dirty = [] → Placed d ρ m' →
      (∀ p id, m' p = some id → .inventory id ∈ H') → P m' s' H' I) :
    wpOrder (lockDiscipline envs d n ops ρ) env (lockRows items pre m) P (fun _ _ _ _ => True) s H I := by
  induction items generalizing m s H with
  | nil => exact hP m s H hd hm hmH
  | cons it items ih =>
    rw [List.map_cons, List.pairwise_cons] at hasc
    simp only [lockRows, getByIdForUpdate, Prog.bind_eq]
    refine wpOrder_bind.mpr (wpOrder_item fun id hid => ?_)
    have hplace := hpre _ _ hid
    rw [List.map_cons, ← hplace] at hH
    refine wpOrder_bind.mpr ⟨hH.may, trivial, fun v _ => ?_⟩
    rw [Session.val_load1_self, show ((s.val (.inventory id)).or (some v)) =
      some ((s.val (.inventory id)).getD v) by cases s.val (.inventory id) <;> rfl]
    simp only [Prog.pure_eq, wpOrder]
    split
    · trivial
    refine ih hasc.2 (hm.set hplace) (fun p id' hp => ?_) (by simp [hd]) (hH.tail.insert ?_)
    · by_cases hpp : p = it.productId
      · subst hpp
        obtain rfl : id = id' := by simpa [InventoryMap.set] using hp
        exact Set.mem_insert _ _
      · exact Set.mem_insert_of_mem _ (hmH p id' (by simpa [InventoryMap.set, hpp] using hp))
    · rw [hplace]
      exact hasc.1

lemma wpOrder_reserve {items : List CreateItem} {m : InventoryMap}
    (hmH : ∀ p id, m p = some id → .inventory id ∈ H) (hd : ∀ k ∈ s.dirty, k ∈ H)
    {P : LockPost Unit} (hP : ∀ s' : Sess, (∀ k ∈ s'.dirty, k ∈ H) → P () s' H I) :
    wpOrder (lockDiscipline envs d n ops ρ) env (reserve items m) P (fun _ _ _ _ => True) s H I := by
  induction items generalizing s with
  | nil => exact hP s hd
  | cons it items ih =>
    simp only [reserve, Prog.bind_eq]
    refine wpOrder_bind.mpr (wpOrder_item fun id hid => ⟨fun _ _ _ => Or.inl rfl, ih fun k hk => ?_⟩)
    rcases Session.mem_dirty_modify.mp hk with hk | ⟨rfl, -⟩
    · exact hd k hk
    · exact hmH _ _ hid

/-- The session of a request after its reservation was inserted: its changes are of locked rows,
and the items so far come before the places `ps`. -/
structure Filling (d : Db) (ρ : ℕ → ℕ) (rid : ℕ) (ps : List ℕ) (s : Sess) (H : Set RowKey) : Prop where
  dirty : ∀ k ∈ s.dirty, k ∈ H
  locked : .reservation rid ∈ H
  val : ∃ r, s.val (.reservation rid) = some r ∧ ∀ id ∈ r.rows, ∀ p ∈ ps, place d ρ id < p

namespace Filling

variable {rid p id : ℕ} {ps : List ℕ}

lemma ask (h : Filling d ρ rid ps s H) (tr : List (Σ q, Answer q)) :
    Filling d ρ rid ps { s with trace := tr } H := ⟨h.dirty, h.locked, h.val⟩

lemma modifyStock (h : Filling d ρ rid ps s H) (hid : .inventory id ∈ H) (f : Inventory → Inventory) :
    Filling d ρ rid ps (s.modify (.inventory id) f) H where
  dirty k hk := by
    rcases Session.mem_dirty_modify.mp hk with hk | ⟨rfl, -⟩
    · exact h.dirty k hk
    · exact hid
  locked := h.locked
  val := by
    rw [Session.val_modify_of_ne _ _ (by simp)]
    exact h.val

lemma modifyRes (h : Filling d ρ rid ps s H) {f : Reservation → Reservation}
    {qs : List ℕ} (hf : ∀ r : Reservation, (∀ id ∈ r.rows, ∀ p ∈ ps, place d ρ id < p) →
      ∀ id ∈ (f r).rows, ∀ p ∈ qs, place d ρ id < p) :
    Filling d ρ rid qs (s.modify (.reservation rid) f) H where
  dirty k hk := by
    rcases Session.mem_dirty_modify.mp hk with hk | ⟨rfl, -⟩
    · exact h.dirty k hk
    · exact h.locked
  locked := h.locked
  val := by
    obtain ⟨r, hr, hrows⟩ := h.val
    exact ⟨f r, by rw [Session.val_modify_self, hr]; rfl, hf r hrows⟩

/-- A new status of an item. -/
lemma setItem (h : Filling d ρ rid ps s H) (i : ℕ) {f : ReservationItem → ReservationItem}
    (hf : ∀ it, (f it).inventoryId = it.inventoryId) :
    Filling d ρ rid ps (s.modify (.reservation rid) fun r => r.setItem i f) H :=
  h.modifyRes fun r hr => by rwa [(keeps_setItem r i f hf).rows]

/-- A new item, at the place that is next. -/
lemma add (h : Filling d ρ rid (place d ρ id :: ps) s H) (hps : ∀ q ∈ ps, place d ρ id < q)
    {ri : ReservationItem} (hri : ri.inventoryId = id) :
    Filling d ρ rid ps
      (s.modify (.reservation rid) fun r => { r with items := r.items ++ [ri] }) H := by
  refine h.modifyRes fun r hr id' hid' q hq => ?_
  simp only [Reservation.rows, List.map_append, List.map_cons, List.map_nil, List.mem_append,
    List.mem_singleton] at hid'
  rcases hid' with hid' | rfl
  · exact hr id' hid' q (List.mem_cons_of_mem _ hq)
  · rw [hri]
    exact hps q hq

end Filling

lemma wpOrder_callProvider {rid i productId : ℕ} {it : CreateItem} {a : ProviderAdapter}
    {ps : List ℕ} (h : Filling d ρ rid ps s H) (ha : ∀ row, a = .internal row → .inventory row ∈ H)
    {P : LockPost Unit} (hP : ∀ s', Filling d ρ rid ps s' H → P () s' H I) :
    wpOrder (lockDiscipline envs d n ops ρ) env (callProvider rid i it productId a) P
      (fun _ _ _ _ => True) s H I := by
  unfold callProvider
  simp only [Prog.tryCatch_eq, Prog.bind_eq]
  refine wpOrder_tryCatch.mpr ?_
  -- an outage is noted at the item, other exceptions are raised again
  generalize hE : (fun e => wpOrder (lockDiscipline envs d n ops ρ) env _ P
    (fun (_ : PyErr) (_ : Sess) _ _ => True)) = E
  have hE : ∀ e s', Filling d ρ rid ps s' H → E e s' H I := by
    intro e s' h'
    subst hE
    dsimp only
    cases e with
    | providerTimeout exc | providerUnavailable exc =>
      exact ⟨fun r _ _ => Or.inl (keeps_setItem r i _ fun _ => rfl), hP _ (h'.setItem i fun _ => rfl)⟩
    | _ => trivial
  refine wpOrder_bind.mpr (wpOrder_obj (fun product _ _ => ?_) fun e => hE e s h)
  have hheld : ∀ ref s', Filling d ρ rid ps s' H → wpOrder (lockDiscipline envs d n ops ρ) env
      (.modify (.reservation rid) (fun r => r.setItem i fun ri =>
        { ri with providerHoldRef := ref, providerStatus := .held }) (pure ())) P E s' H I :=
    fun ref s' h' =>
      ⟨fun r _ _ => Or.inl (keeps_setItem r i _ fun _ => rfl), hP _ (h'.setItem i fun _ => rfl)⟩
  refine wpOrder_bind.mpr ?_
  cases a with
  | internal row =>
    simp only [ProviderAdapter.holdStock, InternalProviderAdapter.holdStock, Prog.bind_eq]
    refine wpOrder_bind.mpr (wpOrder_obj (fun v _ _ => ?_) fun e => hE e s h)
    split
    · exact hE _ s h
    · exact ⟨fun _ _ _ => Or.inl rfl, hheld none _ (h.modifyStock (ha row rfl) _)⟩
  | external e =>
    exact wpOrder_quiet quiet_callWith (fun ref tr => hheld ref _ (h.ask tr)) fun e tr =>
      hE e _ (h.ask tr)

lemma wpOrder_holdItems {rid i : ℕ} {items : List CreateItem} {m : InventoryMap} (hI : rid ∈ I)
    (hasc : (items.map fun it => ρ it.productId).Pairwise (· < ·)) (hm : Placed d ρ m)
    (hmH : ∀ p id, m p = some id → .inventory id ∈ H)
    (h : Filling d ρ rid (items.map fun it => ρ it.productId) s H) {P : LockPost Unit}
    (hP : ∀ s', Filling d ρ rid [] s' H → P () s' H I) :
    wpOrder (lockDiscipline envs d n ops ρ) env (holdItems rid items i m) P (fun _ _ _ _ => True)
      s H I := by
  induction items generalizing i s with
  | nil => exact hP s h
  | cons it items ih =>
    rw [List.map_cons, List.pairwise_cons] at hasc
    simp only [holdItems, Prog.bind_eq]
    refine wpOrder_bind.mpr (wpOrder_item fun id hid => ?_)
    have hplace := hm _ _ hid
    rw [List.map_cons, ← hplace] at h
    refine wpOrder_bind.mpr (wpOrder_obj (fun inv _ _ => ?_) fun _ => trivial)
    have hnext : ∀ q ∈ items.map fun it => ρ it.productId, place d ρ id < q := by
      rw [hplace]
      exact hasc.1
    refine wpOrder_bind.mpr ⟨fun r hr hsound => Or.inr ⟨⟨rid, hI, rfl⟩, ?_, hsound.2⟩, ?_⟩
    · obtain ⟨r', hr', hrows⟩ := h.val
      obtain rfl : r' = r := Option.some.inj (hr'.symm.trans hr)
      show List.Pairwise _ (List.map _ (r'.items ++ [_]))
      rw [List.map_append, List.pairwise_append]
      refine ⟨hsound.1, List.pairwise_singleton _ _, fun j hj k hk => ?_⟩
      obtain rfl : k = id := by simpa using hk
      exact hrows j hj _ (by simp)
    have h₁ := h.add hnext
      (show (⟨it.productId, id, inv.providerId, it.qty, none, .pending, none⟩ :
        ReservationItem).inventoryId = id from rfl)
    refine wpOrder_bind.mpr (wpOrder_flush_locked h₁.dirty fun s₂ hs₂ hv₂ => ?_)
    have h₂ : Filling d ρ rid (items.map fun it => ρ it.productId) s₂ H :=
      ⟨by simp [hs₂], h₁.locked, by rw [hv₂]; exact h₁.val⟩
    refine wpOrder_bind.mpr (wpOrder_obj (fun provider _ _ => ?_) fun _ => trivial)
    refine wpOrder_bind.mpr (wpOrder_ofExcept.mpr ?_)
    rcases ha : ProviderRegistry.resolve provider (some id) with e | a
    · trivial
    refine wpOrder_bind.mpr (wpOrder_callProvider h₂ (fun row hrow => ?_) fun s₃ h₃ =>
      ih hasc.2 h₃)
    -- the internal adapter works on the row of the item
    subst hrow
    unfold ProviderRegistry.resolve at ha
    split at ha
    · cases ha
    · next hrow =>
      cases ha
      cases hrow
      exact hmH _ _ hid
    · rcases hnew : ExternalHttpProviderAdapter.new provider with e | a <;>
        simp [hnew, bind, Except.bind] at ha
      cases ha

lemma wpOrder_create {t : T} {userId : String} {items : List CreateItem}
    (hasc : (items.map fun it => ρ it.productId).Pairwise (· < ·))
    (hnew : ∀ x, Targeted ops x → n ≤ x →
      Spared envs ops (envs t (.now 0) + minutes cfg.reservationTtlMinutes)) :
    wpOrder (lockDiscipline envs d n ops ρ) (envs t) (create cfg userId items)
      (fun _ s H I => (lockDiscipline envs d n ops ρ).Mays H I s.dirty) (fun _ _ _ _ => True)
      Session.init ∅ ∅ := by
  unfold create
  simp only [Prog.bind_eq]
  have hempty : Placed d ρ .empty := fun _ _ h => by cases h
  refine wpOrder_bind.mpr (wpOrder_preflight hempty rfl fun m s₁ hs₁ hm => ?_)
  refine wpOrder_bind.mpr (wpOrder_lockRows hasc hm hempty (fun _ _ h => by cases h) hs₁
    (ahead_empty _ _) fun m' s₂ H₂ hs₂ hm' hmH => ?_)
  refine wpOrder_bind.mpr (wpOrder_reserve hmH (by simp [hs₂]) fun s₃ hs₃ => ?_)
  intro rid hrid hobj
  have hI : rid ∈ (insert rid ∅ : Set ℕ) := Set.mem_insert _ _
  refine ⟨Or.inl ⟨⟨rid, hI, rfl⟩, hobj⟩, ⟨List.Pairwise.nil, fun hx _ => hnew rid hx hrid⟩, ?_⟩
  -- the reservation is new, so nobody else has its lock
  have hown : (lockDiscipline envs d n ops ρ).May H₂ (insert rid ∅) (.reservation rid) :=
    Or.inr (Or.inl ⟨rid, hI, rfl⟩)
  refine wpOrder_bind.mpr (wpOrder_flush (Discipline.mays_of_mem_or hown fun k hk =>
    (Session.mem_dirty_insert.mp hk).imp_left (hs₃ k)) fun s₄ hs₄ hv₄ => ?_)
  refine wpOrder_bind.mpr (wpOrder_holdItems hI hasc hm' (fun p id h => Or.inr (hmH p id h))
    ⟨by simp [hs₄], Or.inl (Session.mem_dirty_insert.mpr (Or.inr rfl)), ?_⟩ fun s₅ h₅ => ?_)
  · rw [hv₄, Session.val_insert_self]
    exact ⟨_, rfl, fun _ h => by cases h⟩
  refine wpOrder_bind.mpr (wpOrder_flush_locked h₅.dirty fun s₆ hs₆ _ => ?_)
  refine wpOrder_bind.mpr (wpOrder_obj (fun r _ _ => ?_) fun _ => trivial)
  show Discipline.Mays _ _ _ s₆.dirty
  rw [hs₆]
  trivial

/-- Every call of an orderly set keeps the discipline. -/
lemma Orderly.keeps (h : Orderly cfg envs d n ops ρ) (t : T) :
    wpOrder (lockDiscipline envs d n ops ρ) (envs t) ((ops t).transaction cfg)
      (fun _ _ _ _ => True) (fun _ _ _ _ => True) Session.init ∅ ∅ := by
  refine wpOrder_commit ?_
  have hbind : ∀ {α β : Type} {p : Svc α} {f : α → Svc β}, (∀ a, ∃ b, f a = .pure b) →
      wpOrder (lockDiscipline envs d n ops ρ) (envs t) p
        (fun _ s H I => (lockDiscipline envs d n ops ρ).Mays H I s.dirty) (fun _ _ _ _ => True)
        Session.init ∅ ∅ →
      wpOrder (lockDiscipline envs d n ops ρ) (envs t) (p.bind f)
        (fun _ s H I => (lockDiscipline envs d n ops ρ).Mays H I s.dirty) (fun _ _ _ _ => True)
        Session.init ∅ ∅ := by
    intro α β p f hf hp
    refine wpOrder_bind.mpr (wpOrder_mono (fun a s H I hm => ?_) (fun _ _ _ _ h => h) hp)
    obtain ⟨b, hb⟩ := hf a
    rw [hb]
    exact hm
  have htarget : ∀ x, (ops t).target = some x → Targeted ops x := fun x hx => ⟨t, hx⟩
  rcases hop : ops t with ⟨userId, items⟩ | x | x | limit | ⟨x, outcome⟩
  · refine hbind (fun r => ⟨_, rfl⟩) (wpOrder_create ?_ fun x hx hn =>
      h.spared_new x t userId items hx hn hop)
    rw [List.pairwise_map]
    exact h.requests t userId items hop
  · exact hbind (fun r => ⟨_, rfl⟩) (wpOrder_confirm (htarget x (by rw [hop]; rfl)))
  · exact hbind (fun r => ⟨_, rfl⟩) (wpOrder_cancel (htarget x (by rw [hop]; rfl)))
  · exact hbind (fun r => ⟨_, rfl⟩) (wpOrder_expireBatch hop (h.limits t limit hop))
  · have hx := htarget x (by rw [hop]; rfl)
    refine hbind (fun r => ⟨_, rfl⟩) ?_
    cases outcome with
    | success => exact hbind (fun r => ⟨_, rfl⟩) (wpOrder_confirm hx)
    | failed => exact hbind (fun r => ⟨_, rfl⟩) (wpOrder_cancel hx)

end Programs

/-- Orderly calls never wait for each other in a cycle, whatever the order of their statements. -/
theorem never_deadlocked {T : Type} [DecidableEq T] {iso : Isolation} {cfg : Settings}
    {env : T → Env} {d : Db} {n : ℕ} {ops : T → Op} {ρ : ℕ → ℕ} {c : System T}
    (hd : ∀ x, n ≤ x → d.reservations.get x = none) (h : Orderly cfg env d n ops ρ)
    (hc : Reachable iso env (opening cfg d n ops) c) : ¬c.Deadlock := by
  refine not_deadlock_of_wpOrder (L := lockDiscipline env d n ops ρ) (fun k v hv => ?_) le_rfl hd
    h.keeps hc
  cases k with
  | inventory id =>
    show (d.inventory.get id).map Inventory.productId = some v.productId
    rw [show d.inventory.get id = some v from hv]
    rfl
  | reservation x => exact ⟨h.stored x v hv, fun hx => h.spared x v hx hv⟩
  | _ => trivial

/-- Two requests for lamps and rugs, a cancellation of the first reservation, and a sweep. -/
def lampsThenRugs : Fin 4 → Op
  | 0 => .create "ada" [⟨2, 1⟩, ⟨3, 1⟩]
  | 1 => .create "bob" [⟨2, 1⟩, ⟨3, 1⟩]
  | 2 => .cancel 1
  | 3 => .expireBatch 1

lemma lampsThenRugs_orderly : Orderly quarter (fun _ => calm 0) shop 1 lampsThenRugs id where
  requests t userId items h := by
    match t with
    | 0 | 1 =>
      cases h
      decide
    | 2 | 3 => cases h
  stored x r hr := by cases hr
  limits t limit h := by
    match t with
    | 3 =>
      cases h
      exact le_rfl
    | 0 | 1 | 2 => cases h
  spared x r _ hr := by cases hr
  spared_new _ _ _ _ _ _ _ _ _ _ := show (0 : ℤ) ≤ 900000000 by decide

/-- The second request waits for the lamps of the first, and the first does not wait for it. -/
theorem never_deadlocked_lampsThenRugs : ∃ c : System (Fin 4), c.Waits 1 0 ∧ ¬c.Deadlock := by
  have hrun : (exec .repeatableRead (fun _ => calm 0) (opening quarter shop 1 lampsThenRugs)
      (List.replicate 8 (.step 0) ++ List.replicate 7 (.step 1))).map
        (fun c => (c.request 1, c.owner (.inventory 2))) = some (some (.inventory 2), some 0) := by
    rfl
  obtain ⟨c, hc, hrun⟩ := Option.map_eq_some_iff.mp hrun
  simp only [Prod.mk.injEq] at hrun
  exact ⟨c, ⟨_, hrun.1, hrun.2, by decide⟩, never_deadlocked (fun _ _ => rfl) lampsThenRugs_orderly
    (reachable_of_exec .init hc)⟩

/-! ### Deadlocks of calls that are not orderly -/

lemma deadlock_of_exec {iso : Isolation} {env : Bool → Env} {c₀ : System Bool}
    {as : List (Act Bool)} {j k : RowKey}
    (h : (exec iso env c₀ as).map (fun c => (c.request true, c.owner j, c.request false, c.owner k)) =
      some (some j, some false, some k, some true)) : ∃ c, Reachable iso env c₀ c ∧ c.Deadlock := by
  obtain ⟨c, hc, h⟩ := Option.map_eq_some_iff.mp h
  simp only [Prod.mk.injEq] at h
  exact ⟨c, reachable_of_exec .init hc, Conf.deadlock_of_owner (by decide) h.1 h.2.1 h.2.2.1 h.2.2.2⟩

/-- One request for lamps and rugs, one for rugs and lamps. -/
def crossing (t : Bool) : Op :=
  if t then .create "ada" [⟨2, 1⟩, ⟨3, 1⟩] else .create "bob" [⟨3, 1⟩, ⟨2, 1⟩]

/-- Each request has locked the row of its first item. -/
lemma deadlock_of_crossing : ∃ c : System Bool,
    Reachable .repeatableRead noon (opening quarter shop 1 crossing) c ∧ c.Deadlock := by
  have hrun : (exec .repeatableRead noon (opening quarter shop 1 crossing)
      (List.replicate 8 (.step true) ++ List.replicate 8 (.step false))).map
        (fun c => (c.request true, c.owner (.inventory 3), c.request false, c.owner (.inventory 2))) =
      some (some (.inventory 3), some false, some (.inventory 2), some true) := by
    rfl
  exact deadlock_of_exec hrun

/-- Lamps and rugs, each in a reservation of its own. -/
def lampsRugsRugsLamps : List ServiceCall :=
  [⟨.create "ada" [⟨2, 1⟩], calm 0⟩, ⟨.create "ada" [⟨3, 1⟩], calm 0⟩,
    ⟨.create "bob" [⟨3, 1⟩], calm 0⟩, ⟨.create "bob" [⟨2, 1⟩], calm 0⟩]

/-- Both clocks are past the expiry. -/
def afterExpiry : Bool → Env := fun _ => calm 900000001

/-- Sweeps of two reservations may meet their rows in different orders. -/
lemma deadlock_of_sweeps : ∃ c : System Bool, Reachable .repeatableRead afterExpiry
    (opening quarter (run quarter shop lampsRugsRugsLamps) 5 fun _ => .expireBatch 2) c ∧
    c.Deadlock := by
  have hrun : (exec .repeatableRead afterExpiry
      (opening quarter (run quarter shop lampsRugsRugsLamps) 5 fun _ => .expireBatch 2)
      (List.replicate 12 (.step true) ++ List.replicate 12 (.step false))).map
        (fun c => (c.request true, c.owner (.inventory 3), c.request false, c.owner (.inventory 2))) =
      some (some (.inventory 3), some false, some (.inventory 2), some true) := by
    rfl
  exact deadlock_of_exec hrun

/-- A payment, and a sweep. -/
def payAndSweep (t : Bool) : Op := if t then .confirm 1 else .expireBatch 1

/-- The payment comes before the expiry, the sweep after it. -/
def aroundExpiry (t : Bool) : Env := calm (if t then 5 else 900000001)

/-- A sweep locks the reservation before the lamps, a payment the lamps before the reservation. -/
lemma deadlock_of_payment : ∃ c : System Bool, Reachable .repeatableRead aroundExpiry
    (opening quarter (run quarter shop lamps) 2 payAndSweep) c ∧ c.Deadlock := by
  have hrun : (exec .repeatableRead aroundExpiry
      (opening quarter (run quarter shop lamps) 2 payAndSweep)
      (List.replicate 13 (.step true) ++ List.replicate 5 (.step false))).map
        (fun c => (c.request true, c.owner (.reservation 1), c.request false,
          c.owner (.inventory 2))) =
      some (some (.reservation 1), some false, some (.inventory 2), some true) := by
    rfl
  exact deadlock_of_exec hrun

/-- Requests with distinct products in opposite orders, sweeps of two reservations, and a payment
beside a sweep: each pair reaches a deadlock. -/
theorem deadlocked : (∀ t, (crossing t).Valid) ∧
    (∃ c : System Bool,
      Reachable .repeatableRead noon (opening quarter shop 1 crossing) c ∧ c.Deadlock) ∧
    (∃ c : System Bool, Reachable .repeatableRead afterExpiry
      (opening quarter (run quarter shop lampsRugsRugsLamps) 5 fun _ => .expireBatch 2) c ∧
      c.Deadlock) ∧
    ∃ c : System Bool, Reachable .repeatableRead aroundExpiry
      (opening quarter (run quarter shop lamps) 2 payAndSweep) c ∧ c.Deadlock :=
  ⟨by decide, deadlock_of_crossing, deadlock_of_sweeps, deadlock_of_payment⟩

end InventoryReservation
