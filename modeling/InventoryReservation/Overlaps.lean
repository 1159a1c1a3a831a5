/-
# Settlements and syncs whose rows are out of date

A confirmation, a cancellation or a sync loads inventory rows before it locks them, and others may
change their counters in between.  What counts is what the job does to a counter: one that it
leaves alone may be out of date, one that it counts down must be as it was loaded, and one that
a sync assigns must be as loaded or get another value than the one loaded, because an `UPDATE`
leaves a column alone that has not changed.
-/
import InventoryReservation.Jobs
import InventoryReservation.RowTxn.LaggingRuns

namespace InventoryReservation

open RowTxn ReservationService InventoryService InventoryRepository

variable {cfg : Settings} {b d d' : Db} {α : Type}

/-- The counters of an inventory row. -/
def Inventory.counters (v : Inventory) : ℤ × ℤ := (v.qtyAvailable, v.qtyReserved)

/-! ### What a job does to a counter -/

/-- A counter of the rows that a job changes: it is left alone, assigned, or counted up or down. -/
inductive Use
  | left
  | assigned
  | counted
deriving DecidableEq

namespace Use

/-- The changes that lead from `b` to `c` lead from `x` to `y`. -/
def Moves (b c x y : ℤ) : Use → Prop
  | left => c = b ∧ y = x
  | assigned => c = b ∧ y = x ∨ c = y
  | counted => b = x → c = y

/-- A counter that was loaded as `b` and is now `c` does to the stored `r` what it should. -/
def Fits (b c r : ℤ) : Use → Prop
  | left => True
  | assigned => c = b → r = b
  | counted => r = b

instance (b c r : ℤ) : (u : Use) → Decidable (u.Fits b c r)
  | left => inferInstanceAs (Decidable True)
  | assigned => inferInstanceAs (Decidable (c = b → r = b))
  | counted => inferInstanceAs (Decidable (r = b))

variable {u : Use} {x y r c : ℤ}

lemma moves_load {b : ℤ} : u.Moves b b x x := by
  cases u <;> simp [Moves]

lemma fits_self : u.Fits r r r := by
  cases u <;> simp [Fits]

lemma fits_of_base {b : ℤ} (h : u.Fits b b r) : u.Fits b c r := by
  cases u <;> simp_all [Fits]

lemma fits_col {b : ℤ} (h : u.Fits b c r) : u.Fits c c (col b c r) := by
  cases u <;> simp only [Fits, col] at h ⊢ <;> split <;> simp_all

lemma col_eq {b : ℤ} (h : u.Fits b c r) (hm : u.Moves b c r y) : col b c r = y := by
  cases u <;> simp only [Fits, Moves, col] at h hm ⊢ <;> split <;> grind

end Use

namespace Step

/-- What a job does to the available and to the reserved quantity. -/
def uses : Step → Use × Use
  | .call ⟨.confirm _, _⟩ => (.counted, .counted)
  | .call _ => (.left, .counted)
  | .sync _ _ => (.assigned, .left)

/-- An inventory row that a job has loaded as `b` and changed to `c` may be stored as `r`. -/
def Fits (s : Step) (b c r : Inventory) : Prop :=
  s.uses.1.Fits b.qtyAvailable c.qtyAvailable r.qtyAvailable ∧
    s.uses.2.Fits b.qtyReserved c.qtyReserved r.qtyReserved

instance (s : Step) (b c r : Inventory) : Decidable (s.Fits b c r) :=
  inferInstanceAs (Decidable (_ ∧ _))

end Step

/-! ### Rows that are out of date -/

/-- What a job takes from a row that it has loaded and not locked: of an inventory row, the columns
that nothing changes. -/
def kinRows : (k : RowKey) → RowOf k → RowOf k → Prop
  | .inventory _ => fun v w => v.ident = w.ident
  | .product _ => fun v w => v = w
  | .provider _ => fun v w => v = w
  | .reservation _ => fun v w => v = w
  | .order _ => fun v w => v = w

/-- Stored rows that differ in nothing but the time of the last sync. -/
def alikeRows : (k : RowKey) → RowOf k → RowOf k → Prop
  | .inventory _ => fun v w => v.ident = w.ident ∧ v.counters = w.counters
  | .product _ => fun v w => v = w
  | .provider _ => fun v w => v = w
  | .reservation _ => fun v w => v = w
  | .order _ => fun v w => v = w

def likeness : Likeness RowKey RowOf where
  kin := kinRows
  alike := alikeRows
  alike_refl k v := by cases k <;> first | rfl | exact ⟨rfl, rfl⟩
  kin_of_alike k v w h := by cases k <;> first | exact h | exact h.1

lemma rel_eq {r r' : Option α} : Option.Rel (fun v w => v = w) r r' ↔ r = r' := by
  cases r <;> cases r' <;> simp

lemma rel_ident {r r' : Option Inventory} :
    Option.Rel (fun v w => v.ident = w.ident) r r' ↔ r.map Inventory.ident = r'.map Inventory.ident := by
  cases r <;> cases r' <;> simp

/-- What databases that a job does not tell apart have in common. -/
lemma akin_iff : likeness.Akin d d' ↔
    (∀ k, (d.inventory.get k).map Inventory.ident = (d'.inventory.get k).map Inventory.ident) ∧
      d.products.get = d'.products.get ∧ d.providers.get = d'.providers.get ∧
      d.reservations.get = d'.reservations.get ∧ d.orders.get = d'.orders.get := by
  constructor
  · intro h
    exact ⟨fun k => rel_ident.mp (h (.inventory k)), funext fun k => rel_eq.mp (h (.product k)),
      funext fun k => rel_eq.mp (h (.provider k)), funext fun k => rel_eq.mp (h (.reservation k)),
      funext fun k => rel_eq.mp (h (.order k))⟩
  · rintro ⟨hi, hp, hv, hr, ho⟩ k
    cases k with
    | inventory k => exact rel_ident.mpr (hi k)
    | product k => exact rel_eq.mpr (congrFun hp k)
    | provider k => exact rel_eq.mpr (congrFun hv k)
    | reservation k => exact rel_eq.mpr (congrFun hr k)
    | order k => exact rel_eq.mpr (congrFun ho k)

namespace Step

variable {s : Step}

/-- The rows that the plain reads of a job load. -/
def Loads (s : Step) : RowKey → Prop
  | .reservation x => s.target = some x
  | .order _ => False
  | _ => True

/-- What the assignments of a job do to a row. -/
def Moves (s : Step) : (k : RowKey) → (b c x y : RowOf k) → Prop
  | .inventory _ => fun b c x y => (c.ident = b.ident ∧ x.ident = b.ident ∧ y.ident = b.ident) ∧
      s.uses.1.Moves b.qtyAvailable c.qtyAvailable x.qtyAvailable y.qtyAvailable ∧
      s.uses.2.Moves b.qtyReserved c.qtyReserved x.qtyReserved y.qtyReserved
  | .product _ => fun b c x y => b = x ∧ c = y
  | .provider _ => fun b c x y => b = x ∧ c = y
  | .reservation _ => fun b c x y => b = x ∧ c = y
  | .order _ => fun b c x y => b = x ∧ c = y

/-- Which values have to be up to date. -/
def FitsRow (s : Step) : (k : RowKey) → (b c r : RowOf k) → Prop
  | .inventory _ => s.Fits
  | _ => fun _ _ _ => True

lemma kin_of_sees (hd : s.Sees b d) (hd' : s.Sees b d') (k : RowKey) (hk : s.Loads k) :
    Option.Rel (kinRows k) (RowStore.row d k) (RowStore.row d' k) := by
  cases k with
  | inventory k => exact rel_ident.mpr ((hd.static.stock k).trans (hd'.static.stock k).symm)
  | product k =>
    exact rel_eq.mpr (congrFun (hd.static.products.trans hd'.static.products.symm) k)
  | provider k =>
    exact rel_eq.mpr (congrFun (hd.static.providers.trans hd'.static.providers.symm) k)
  | reservation x => exact rel_eq.mpr ((hd.target x hk).trans (hd'.target x hk).symm)
  | order x => exact hk.elim

lemma sees_of_kin (hd : s.Sees b d')
    (h : ∀ k, s.Loads k → Option.Rel (kinRows k) (RowStore.row d k) (RowStore.row d' k)) :
    s.Sees b d where
  static := {
    products := (funext fun k => rel_eq.mp (h (.product k) trivial)).trans hd.static.products
    providers := (funext fun k => rel_eq.mp (h (.provider k) trivial)).trans hd.static.providers
    stock := fun k => (rel_ident.mp (h (.inventory k) trivial)).trans (hd.static.stock k) }
  target x hx := (rel_eq.mp (h (.reservation x) hx)).trans (hd.target x hx)

lemma alike_merge {k : RowKey} {v c r x y : RowOf k} (hf : s.FitsRow k v c r)
    (ha : alikeRows k r x) (hm : s.Moves k v c x y) : alikeRows k (mergeRow k v c r) y := by
  cases k with
  | inventory k =>
    obtain ⟨⟨hc, hx, hy⟩, hav, hres⟩ := hm
    obtain ⟨hi, hcount⟩ := ha
    -- the stored counters are those that the other session has loaded
    obtain ⟨h1, h2⟩ : r.qtyAvailable = x.qtyAvailable ∧ r.qtyReserved = x.qtyReserved :=
      Prod.mk.inj hcount
    rw [← h1] at hav
    rw [← h2] at hres
    refine ⟨?_, Prod.ext (Use.col_eq hf.1 hav) (Use.col_eq hf.2 hres)⟩
    simp only [Inventory.ident, Prod.mk.injEq] at hc hx hy hi
    simp only [mergeRow, Inventory.merge, Inventory.ident, col, hc, if_true, Prod.mk.injEq]
    exact ⟨by rw [hi.1, hx.1, hy.1], by rw [hi.2, hx.2, hy.2]⟩
  | _ =>
    obtain ⟨rfl, rfl⟩ := hm
    obtain rfl : r = v := ha
    exact RowStore.merge_base (D := Db) _ _ _

/-- How a job uses the rows that it loads out of date. -/
def lag (b : Db) (s : Step) : Lag Db likeness where
  seen := s.Sees b
  loose := s.Loads
  moves := s.Moves
  fits := s.FitsRow
  eq_of_kin k hk v w h := by
    cases k with
    | inventory k => exact absurd trivial hk
    | _ => exact h
  kin_of_seen _ _ hd he k hk := kin_of_sees hd he k hk
  seen_of_kin _ _ he h := sees_of_kin he h
  mix d e hd he := by
    refine ⟨{ d with products := e.products, providers := e.providers, inventory := e.inventory },
      fun k hk => ?_, fun k hk => ?_⟩
    · cases k with
      | reservation x => exact (hd.target x hk).trans (he.target x hk).symm
      | order x => exact hk.elim
      | _ => rfl
    · cases k with
      | reservation x => rfl
      | order x => rfl
      | _ => exact absurd trivial hk
  moves_load k _ v x h := by
    cases k with
    | inventory k => exact ⟨⟨rfl, h.symm, h.symm⟩, Use.moves_load, Use.moves_load⟩
    | _ => exact ⟨h, h⟩
  kin_of_moves k _ v c x y h := by
    cases k with
    | inventory k => exact h.1.1.trans h.1.2.2.symm
    | _ => exact h.2
  fits_self k _ r := by
    cases k with
    | inventory k => exact ⟨Use.fits_self, Use.fits_self⟩
    | _ => trivial
  fits_of_base k _ v c r h := by
    cases k with
    | inventory k => exact ⟨Use.fits_of_base h.1, Use.fits_of_base h.2⟩
    | _ => trivial
  fits_merge k _ v c r h := by
    cases k with
    | inventory k => exact ⟨Use.fits_col h.1, Use.fits_col h.2⟩
    | _ => trivial
  alike_merge _ _ _ _ _ _ _ hf ha hm := alike_merge hf ha hm

end Step

/-! ### The jobs do not depend on what is out of date -/

section Blind

variable {s : Step} {x : ℕ}

/-- What is loaded of the inventory rows is decided by the columns that nothing changes. -/
lemma idents_congr
    (h : ∀ k, (d.inventory.get k).map Inventory.ident = (d'.inventory.get k).map Inventory.ident)
    (p : ℕ × ℕ → Bool) :
    (d.inventory.rows.filter fun r => p r.2.ident).map (fun r => (r.1, r.2.ident)) =
      (d'.inventory.rows.filter fun r => p r.2.ident).map fun r => (r.1, r.2.ident) := by
  have hall := congrArg (List.filter fun q : ℕ × ℕ × ℕ => p q.2) (Table.map_rows_congr h)
  rwa [List.filter_map, List.filter_map] at hall

lemma itemKeys_congr (h : likeness.Akin d d') (it : ReservationItem) :
    ReservationRepository.itemKeys d it = ReservationRepository.itemKeys d' it := by
  have hids := congrArg (List.map fun q : ℕ × ℕ × ℕ => RowKey.inventory q.1)
    (idents_congr (akin_iff.mp h).1 fun q => q.1 = it.productId || q.2 = it.providerId)
  rw [List.map_map, List.map_map] at hids
  exact congrArg (fun l => RowKey.product it.productId :: .provider it.providerId :: l) hids

lemma loads_itemKeys {d : Db} {it : ReservationItem} {k : RowKey}
    (hk : k ∈ ReservationRepository.itemKeys d it) : s.Loads k := by
  simp only [ReservationRepository.itemKeys, List.mem_cons, List.mem_map] at hk
  rcases hk with rfl | rfl | ⟨r, -, rfl⟩ <;> trivial

/-- The attributes of an object whose row is not an inventory row. -/
lemma blind_obj (k : RowKey) (hk : ∀ v w, kinRows k v w → v = w) :
    (obj k).Blind (s.lag b) := by
  refine ⟨fun v w h => ?_, fun v => by cases v <;> trivial⟩
  cases h with
  | some h => rw [hk _ _ h]
  | none => rfl

lemma moves_reservation {f : Reservation → Reservation} (v c y z : Reservation)
    (h : s.Moves (.reservation x) v c y z) : s.Moves (.reservation x) v (f c) y (f z) :=
  ⟨h.1, congrArg f h.2⟩

lemma blind_callHold {method : Call → String → ProviderAdapter → Svc Bool}
    (hm : ∀ call ref a, (method call ref a).Blind (s.lag b)) (nonFatal : PyErr → Bool) (i : ℕ)
    (it : ReservationItem) : (callHold method nonFatal x i it).Blind (s.lag b) := by
  unfold callHold
  split
  · refine (blind_obj (.provider it.providerId) fun _ _ h => h).bind fun p => (Prog.Blind.ofExcept _).bind fun a => ?_
    refine Prog.Blind.tryCatch ((hm _ _ a).bind fun _ => trivial) fun e => ?_
    split <;> trivial
  · trivial

lemma blind_callWith {a : ExternalHttpProviderAdapter} {cap : String} {call : Call} {r : Request}
    {reply : HttpOutcome → Except PyErr α} : (a.callWith cap call r reply).Blind (s.lag b) :=
  (Prog.Blind.ofExcept _).bind fun _ _ => Prog.Blind.ofExcept _

lemma blind_confirmHold (i : ℕ) (it : ReservationItem) :
    (confirmHold x i it).Blind (s.lag b) := by
  refine blind_callHold (fun call ref a => ?_) _ i it
  cases a with
  | internal row => trivial
  | external a => exact blind_callWith

lemma blind_releaseHold (i : ℕ) (it : ReservationItem) :
    (releaseHold x i it).Blind (s.lag b) := by
  refine blind_callHold (fun call ref a => ?_) _ i it
  cases a with
  | internal row => trivial
  | external a => exact blind_callWith

lemma blind_settleItems {skip : ReservationItem → Bool}
    {step : ReservationItem → Inventory → Inventory} {call : ℕ → ℕ → ReservationItem → Svc Unit}
    (hstep : ∀ it k v c y z, s.Moves (.inventory k) v c y z →
      s.Moves (.inventory k) v (step it c) y (step it z))
    (hcall : ∀ i it, (call x i it).Blind (s.lag b)) (status : ProviderItemStatus)
    (items : List ReservationItem) (i : ℕ) :
    (settleItems skip step call status x items i).Blind (s.lag b) := by
  induction items generalizing i with
  | nil => trivial
  | cons it items ih =>
    rw [settleItems]
    split
    · exact ih (i + 1)
    have hcont : ((call x i it).bind fun _ =>
        .modify (.reservation x) (fun r => r.setItem i fun ri => { ri with providerStatus := status })
          (settleItems skip step call status x items (i + 1))).Blind (s.lag b) :=
      (hcall i it).bind fun _ => ⟨fun _ => moves_reservation (s := s), ih (i + 1)⟩
    refine ⟨trivial, fun v w h => ?_, fun v => ?_⟩
    · cases h <;> rfl
    · cases v with
      | none => exact hcont
      | some v => exact ⟨fun _ => hstep it _, hcont⟩

lemma blind_getWithItems (hx : s.target = some x) :
    (ReservationRepository.getWithItems x).Blind (s.lag b) := by
  refine ⟨fun d d' h => ⟨rfl, ?_⟩, fun d => ⟨fun k hk => ?_, ?_⟩⟩
  · simp only [(akin_iff.mp h).2.2.2.1]
  · rw [List.mem_singleton.mp hk]
    exact hx
  · rcases hr : d.reservations.get x with _ | r
    · simp only [hr]
      trivial
    · simp only [hr]
      refine (blind_obj (.reservation x) fun _ _ h => h).bind fun r => ?_
      refine ⟨fun d d' h => ⟨?_, rfl⟩, fun d => ⟨?_, trivial⟩⟩
      · simp only [funext (itemKeys_congr h)]
      · intro k hk
        obtain ⟨it, -, hk⟩ := List.mem_flatMap.mp hk
        exact loads_itemKeys hk

lemma blind_flush : flush.Blind (s.lag b) := by
  intro ok
  cases ok <;> trivial

/-- Both counters are counted down. -/
lemma moves_consume (hs : s.uses = (.counted, .counted)) (it : ReservationItem) (k : ℕ)
    (v c y z : Inventory) (h : s.Moves (.inventory k) v c y z) :
    s.Moves (.inventory k) v (consume it c) y (consume it z) := by
  obtain ⟨hi, h1, h2⟩ := h
  rw [hs] at h1 h2
  refine ⟨hi, ?_, ?_⟩ <;> rw [hs] <;> intro heq
  · exact congrArg (· - it.qtyRequested) (h1 heq)
  · exact congrArg (· - it.qtyRequested) (h2 heq)

/-- The reserved quantity is counted down. -/
lemma moves_release (hs : s.uses = (.left, .counted)) (clamp : ℤ → ℤ) (it : ReservationItem)
    (k : ℕ) (v c y z : Inventory) (h : s.Moves (.inventory k) v c y z) :
    s.Moves (.inventory k) v (release clamp it c) y (release clamp it z) := by
  obtain ⟨hi, h1, h2⟩ := h
  rw [hs] at h1 h2
  refine ⟨hi, ?_, ?_⟩ <;> rw [hs]
  · exact h1
  · intro heq
    exact congrArg (fun a => clamp (a - it.qtyRequested)) (h2 heq)

lemma blind_confirm (hx : s.target = some x) (hs : s.uses = (.counted, .counted)) :
    (confirm cfg x).Blind (s.lag b) := by
  refine (blind_getWithItems hx).bind fun r => ?_
  rcases r with _ | r
  · trivial
  dsimp only
  split
  · trivial
  intro now
  dsimp only
  split
  · trivial
  · trivial
  refine ⟨fun d d' h => ⟨rfl, ?_⟩, fun d => ⟨by simp, ?_⟩⟩
  · simp only [(akin_iff.mp h).2.2.2.2]
  rcases ho : d.orders.get x with _ | o
  rotate_left
  · simp only [ho]
    trivial
  simp only [ho]
  refine (blind_settleItems (moves_consume hs) blind_confirmHold _ _ _).bind fun _ => ?_
  refine ⟨fun _ => moves_reservation (s := s), id, ?_⟩
  exact blind_flush.bind fun _ => blind_obj (.order x) fun _ _ h => h

lemma blind_cancel {clamp : ℤ → ℤ} (hx : s.target = some x) (hs : s.uses = (.left, .counted)) :
    (cancelBy clamp x).Blind (s.lag b) := by
  refine (blind_getWithItems hx).bind fun r => ?_
  rcases r with _ | r
  · trivial
  dsimp only
  split
  · trivial
  split
  · trivial
  refine (blind_settleItems (moves_release hs clamp) blind_releaseHold _ _ _).bind fun _ => ?_
  exact ⟨fun _ => moves_reservation (s := s), trivial⟩

lemma blind_objects (ks : List RowKey) :
    (ReservationRepository.objects ks).Blind (s.lag b) := by
  induction ks with
  | nil => trivial
  | cons k ks ih =>
    cases k with
    | reservation x =>
      exact (blind_obj (.reservation x) fun _ _ h => h).bind fun r => ih.bind fun rs => trivial
    | _ => trivial

lemma blind_expireAll {clamp : ℤ → ℤ} (hs : s.uses = (.left, .counted))
    (rs : List (ℕ × Reservation)) : (expireAllBy clamp rs).Blind (s.lag b) := by
  induction rs with
  | nil => trivial
  | cons r rs ih =>
    refine (blind_settleItems (moves_release hs clamp) blind_releaseHold _ _ _).bind fun _ => ?_
    exact ⟨fun _ => moves_reservation (s := s), ih⟩

lemma expiredPending_congr (h : likeness.Akin d d') (now : ℤ) :
    ReservationRepository.expiredPending d now = ReservationRepository.expiredPending d' now := by
  have hrows : d.reservations.rows = d'.reservations.rows := by
    have hall := Table.map_rows_congr (g := id)
      fun k => congrArg (Option.map id) (congrFun (akin_iff.mp h).2.2.2.1 k)
    simpa using hall
  rw [ReservationRepository.expiredPending, hrows, ReservationRepository.expiredPending]

lemma blind_getExpiredPending (hx : s.target = none) (limit : ℕ) :
    (ReservationRepository.getExpiredPending limit).Blind (s.lag b) := by
  refine fun now order => ⟨fun d d' h => by simp only [expiredPending_congr h], fun d k hk hl => ?_,
    fun ks => (blind_objects ks).bind fun rs => ⟨fun d d' h => ⟨?_, rfl⟩, fun d => ⟨?_, trivial⟩⟩⟩
  · obtain ⟨y, -, rfl⟩ := List.mem_map.mp hk
    have hl : s.target = some y := hl
    rw [hx] at hl
    cases hl
  · simp only [funext (itemKeys_congr h)]
  · intro k hk
    obtain ⟨r, -, hk⟩ := List.mem_flatMap.mp hk
    obtain ⟨it, -, hk⟩ := List.mem_flatMap.mp hk
    exact loads_itemKeys hk

lemma blind_expireBatch {clamp : ℤ → ℤ} (hx : s.target = none) (hs : s.uses = (.left, .counted))
    (limit : ℕ) : (expireBatchBy clamp limit).Blind (s.lag b) :=
  (blind_getExpiredPending hx limit).bind fun rs => (blind_expireAll hs rs).bind fun _ => trivial

lemma providerKeys_congr (h : likeness.Akin d d') (pid : ℕ) :
    providerKeys d pid = providerKeys d' pid := by
  have hids := congrArg (List.flatMap fun q : ℕ × ℕ × ℕ =>
    [RowKey.inventory q.1, .product q.2.1]) (idents_congr (akin_iff.mp h).1 fun q => q.2 = pid)
  rw [List.flatMap_map, List.flatMap_map] at hids
  exact congrArg (RowKey.provider pid :: ·) hids

lemma rowKeys_congr (h : likeness.Akin d d') (id : ℕ) : rowKeys d id = rowKeys d' id := by
  have hk := (akin_iff.mp h).1 id
  unfold rowKeys
  rcases hv : d.inventory.get id with _ | v <;> rcases hw : d'.inventory.get id with _ | w <;>
    simp_all [Inventory.ident]

lemma loads_rowKeys {d : Db} {id : ℕ} {k : RowKey} (hk : k ∈ rowKeys d id) : s.Loads k := by
  unfold rowKeys at hk
  split at hk
  · cases hk
  · simp only [List.mem_cons, List.not_mem_nil, or_false] at hk
    rcases hk with rfl | rfl | rfl <;> trivial

lemma blind_getAllByProvider (pid : ℕ) : (getAllByProvider pid).Blind (s.lag b) := by
  have hids : ∀ {d d' : Db}, likeness.Akin d d' →
      ((d.inventory.rows.filter fun r => r.2.providerId = pid).map Prod.fst) =
        (d'.inventory.rows.filter fun r => r.2.providerId = pid).map Prod.fst := fun h => by
    have hids := congrArg (List.map fun q : ℕ × ℕ × ℕ => q.1)
      (idents_congr (akin_iff.mp h).1 fun q => q.2 = pid)
    rwa [List.map_map, List.map_map] at hids
  refine ⟨fun d d' h => ⟨?_, ?_⟩, fun d => ⟨fun k hk => ?_, trivial⟩⟩
  · have hkeys := congrArg (List.flatMap (rowKeys d)) (hids h)
    rw [List.flatMap_map, List.flatMap_map] at hkeys
    simpa only [funext (rowKeys_congr h)] using hkeys
  · simp only [hids h]
  · obtain ⟨r, -, hk⟩ := List.mem_flatMap.mp hk
    exact loads_rowKeys hk

/-- The available quantity is assigned. -/
lemma moves_assign (hs : s.uses = (.assigned, .left)) (qty now : ℤ) (k : ℕ) (v c y z : Inventory)
    (h : s.Moves (.inventory k) v c y z) :
    s.Moves (.inventory k) v { c with qtyAvailable := qty, lastSyncedAt := some now } y
      { z with qtyAvailable := qty, lastSyncedAt := some now } := by
  obtain ⟨hi, -, h2⟩ := h
  rw [hs] at h2
  refine ⟨hi, ?_, ?_⟩ <;> rw [hs]
  · exact Or.inr rfl
  · exact h2

/-- Without an inventory row, only external providers have an adapter. -/
lemma resolve_none {p : InventoryProvider} {a : ProviderAdapter}
    (h : ProviderRegistry.resolve p none = .ok a) : ∃ e, a = .external e := by
  unfold ProviderRegistry.resolve at h
  split at h
  · cases h
  · next hrow =>
    cases hrow
  · rcases he : ExternalHttpProviderAdapter.new p with e | e <;> rw [he] at h <;> cases h
    exact ⟨e, rfl⟩

lemma blind_syncRows (hs : s.uses = (.assigned, .left)) (p : InventoryProvider) (ids : List ℕ)
    (report : SyncReport) (fits : Bool) : (syncRows p ids report fits).Blind (s.lag b) := by
  induction ids generalizing report fits with
  | nil => trivial
  | cons id ids ih =>
    rw [syncRows]
    refine ⟨fun v w h => ?_, fun v => ?_⟩
    · cases h with
      | none => rfl
      | some h =>
        have hp : _ = _ := congrArg Prod.fst h
        simp only [Inventory.ident] at hp
        simp only [Prog.pure_eq, Prog.pure_bind]
        rw [hp]
    · rcases v with _ | row
      · trivial
      refine ⟨fun v w h => ?_, fun v => ?_⟩
      · cases h with
        | some h => rw [h]
        | none => rfl
      dsimp only
      split
      · exact ih report fits
      · exact ih report fits
      refine Prog.Blind.ofExcept_bind fun a ha => ?_
      -- the adapter of an internal provider would look into the row
      obtain ⟨a, rfl⟩ := resolve_none ha
      refine Prog.Blind.bind ?_ fun next => ih next.1 next.2
      refine Prog.Blind.tryCatch ?_ fun e => ?_
      · exact fun out => (Prog.Blind.ofExcept _).bind fun qty now =>
          ⟨fun _ => moves_assign hs qty now id, trivial⟩
      · cases e <;> trivial

lemma blind_sync (hs : s.uses = (.assigned, .left)) (pid : ℕ) :
    (syncFromProvider pid).Blind (s.lag b) := by
  refine ⟨fun d d' h => ⟨providerKeys_congr h pid, ?_⟩, fun d => ⟨fun k hk => ?_, ?_⟩⟩
  · simp only [(akin_iff.mp h).2.2.1]
  · simp only [providerKeys, List.mem_cons, List.mem_flatMap, List.not_mem_nil, or_false] at hk
    rcases hk with rfl | ⟨r, -, rfl | rfl⟩ <;> trivial
  rcases hp : d.providers.get pid with _ | p
  · simp only [hp]
    trivial
  simp only [hp]
  refine (blind_obj (.provider pid) fun _ _ h => h).bind fun provider => ?_
  split
  · trivial
  split
  · trivial
  refine (blind_getAllByProvider pid).bind fun rows => ?_
  refine (blind_syncRows hs _ rows _ _).bind fun next => blind_flush.bind fun _ => ?_
  split <;> trivial

/-- No job depends on what may be out of date. -/
lemma Step.Settling.blind (h : s.Settling) : (s.transaction cfg).Blind (s.lag b) := by
  refine Prog.Blind.commit PyErr.integrityError ?_
  cases h with
  | confirm x env =>
    refine Prog.Blind.bind ?_ fun _ => trivial
    exact Prog.Blind.bind (blind_confirm rfl rfl) fun _ => trivial
  | cancel x env =>
    refine Prog.Blind.bind ?_ fun _ => trivial
    exact Prog.Blind.bind (blind_cancel rfl rfl) fun _ => trivial
  | sweep limit env =>
    refine Prog.Blind.bind ?_ fun _ => trivial
    exact Prog.Blind.bind (blind_expireBatch rfl rfl limit) fun _ => trivial
  | sync pid env => exact (blind_sync rfl pid).bind fun _ => trivial

end Blind

/-! ### Runs whose counters fit -/

section Run

variable {T : Type} [DecidableEq T] {jobs : T → Step} {log : List (Commit T RowKey JobReply)}
  {c : JobSystem T}

/-- Every lock that a job newly takes on an inventory row that it has loaded is granted while the
counters are up to date that the job needs up to date. -/
def CountersFit (jobs : T → Step) (c : JobSystem T) : Act T → Prop
  | .step t => ∀ p, c.phase t = .running p → ∀ k, .inventory k ∈ granted c t p →
      c.owner (.inventory k) = none → ∀ b o r, (c.sess t).objs (.inventory k) = some ⟨some b, o⟩ →
        c.db.inventory.get k = some r → (jobs t).Fits b o r
  | .abort _ => True

/-- `CountersFit`, as a test. -/
def countersFit (jobs : T → Step) (c : JobSystem T) : Act T → Bool
  | .step t =>
    match c.phase t with
    | .running p => (granted c t p).all fun
      | .inventory k =>
        (c.owner (.inventory k)).isSome ||
          match (c.sess t).objs (.inventory k), c.db.inventory.get k with
          | some ⟨some b, o⟩, some r => decide ((jobs t).Fits b o r)
          | _, _ => true
      | _ => true
    | _ => true
  | .abort _ => true

lemma countersFit_of_test {a : Act T} (h : countersFit jobs c a = true) : CountersFit jobs c a := by
  cases a with
  | abort t => trivial
  | step t =>
    intro p hp k hk hn b o r ho hr
    simp only [countersFit, hp, List.all_eq_true] at h
    simpa [hn, ho, hr] using h _ hk

lemma inTime_of_countersFit {a : Act T} (h : CountersFit jobs c a) :
    InTime (fun t => (jobs t).lag b) c a := by
  cases a with
  | abort t => trivial
  | step t =>
    intro p hp k hk _ hn v o r ho hr
    cases k with
    | inventory k => exact h p hp k hk hn v o r ho hr
    | _ => trivial

/-- What jobs leave that work on reservations of their own, up to the times of the syncs, if their
counters fit. -/
theorem working_of_run {iso : Isolation} {n : ℕ} (hb : Consistent b) (hs : ∀ t, (jobs t).Settling)
    (hap : Apart jobs log) (hnd : (log.map Commit.tid).Nodup)
    (hr : RunWhile iso (fun t => (jobs t).env) (CountersFit jobs) (starting cfg b n jobs) c)
    (hc : c.log <+: log) : ∃ d, likeness.Near c.db d ∧ Working cfg b jobs log c.log d :=
  invariant_of_run_inTime (L := fun t => (jobs t).lag b) (C := (· <+: log))
    (fun h cm hcm => (List.prefix_append h [cm]).trans hcm)
    (fun t l d _ hw ht => hw.worked.sees hap ht) ⟨.init hb, by simp⟩ (fun t => (hs t).blind)
    (fun t => Step.Settling.working hs hnd t) (hr.mono fun _ _ => inTime_of_countersFit) hc

lemma reservations_of_near (h : likeness.Near d d') : d.reservations.get = d'.reservations.get :=
  (akin_iff.mp h.akin).2.2.2.1

lemma counters_of_near (h : likeness.Near d d') (k : ℕ) :
    (d.inventory.get k).map Inventory.counters = (d'.inventory.get k).map Inventory.counters := by
  have hk := h (.inventory k)
  rw [Db.row_inventory, Db.row_inventory] at hk
  rcases hv : d.inventory.get k with _ | v <;> rcases hw : d'.inventory.get k with _ | w <;>
    simp only [hv, hw, Option.not_rel_none_some, Option.not_rel_some_none,
      Option.rel_some_some] at hk
  · rfl
  · exact congrArg some hk.2

end Run

end InventoryReservation
