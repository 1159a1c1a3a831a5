/-
# Sweeps of several replicas

Any number of sweeps run at the same time.  A sweep meets reservation rows in a locking read
only, so its objects of them are the committed rows.  What it does to inventory rows does not
matter here: a row may be as it was loaded before the lock.
-/
import InventoryReservation.RowTxn.LockedLoads
import InventoryReservation.Sweeps
import Mathlib.Data.Set.Card

namespace InventoryReservation

open RowTxn ReservationService

variable {R : Rely Db RowKey} {env : Env} {Δ : Change} {s : Sess} {H : Held RowOf} {α : Type}
  {clamp : ℤ → ℤ} {rs : List (ℕ × Reservation)}

/-- A key of the reservation table. -/
def RowKey.IsReservation (k : RowKey) : Prop := ∃ x, k = .reservation x

/-! ### A sweep reads reservations under their locks only -/

lemma not_isReservation_of_mem_itemKeys {d : Db} {it : ReservationItem} {k : RowKey}
    (h : k ∈ ReservationRepository.itemKeys d it) : ¬k.IsReservation := by
  rintro ⟨x, rfl⟩
  simp [ReservationRepository.itemKeys] at h

lemma loadsLocked_obj (k : RowKey) : (obj k).LoadsLocked RowKey.IsReservation := by
  intro v
  cases v <;> trivial

lemma loadsLocked_objects (ks : List RowKey) :
    (ReservationRepository.objects ks).LoadsLocked RowKey.IsReservation := by
  induction ks with
  | nil => trivial
  | cons k ks ih =>
    cases k with
    | reservation x =>
      exact (loadsLocked_obj _).bind fun r => ih.bind fun rs => trivial
    | _ => trivial

lemma loadsLocked_releaseHold (x i : ℕ) (it : ReservationItem) :
    (releaseHold x i it).LoadsLocked RowKey.IsReservation := by
  unfold releaseHold callHold
  split
  · refine (loadsLocked_obj _).bind fun p => ?_
    refine (Prog.LoadsLocked.ofExcept _).bind fun a => ?_
    refine Prog.LoadsLocked.tryCatch (Prog.LoadsLocked.bind ?_ fun _ => trivial) fun e => ?_
    · cases a with
      | internal row => trivial
      | external a =>
        exact (Prog.LoadsLocked.ofExcept _).bind fun _ => fun _ => Prog.LoadsLocked.ofExcept _
    · split <;> trivial
  · trivial

lemma loadsLocked_releaseItems (x : ℕ) (items : List ReservationItem) (i : ℕ) :
    (releaseItemsBy clamp x items i).LoadsLocked RowKey.IsReservation := by
  induction items generalizing i with
  | nil => trivial
  | cons it items ih =>
    unfold releaseItemsBy
    rw [settleItems]
    split
    · exact ih (i + 1)
    · intro v
      cases v <;> exact (loadsLocked_releaseHold x i it).bind fun _ => ih (i + 1)

lemma loadsLocked_expireAll (rs : List (ℕ × Reservation)) :
    (expireAllBy clamp rs).LoadsLocked RowKey.IsReservation := by
  induction rs with
  | nil => trivial
  | cons r rs ih => exact (loadsLocked_releaseItems r.1 r.2.items 0).bind fun _ => ih

lemma loadsLocked_expireBatch (limit : ℕ) :
    (expireBatchBy clamp limit).LoadsLocked RowKey.IsReservation := by
  intro now order ks
  refine ((loadsLocked_objects ks).bind fun rs => ?_).bind fun rs => ?_
  · refine fun d => ⟨fun k hk => ?_, trivial⟩
    obtain ⟨r, -, hk⟩ := List.mem_flatMap.mp hk
    obtain ⟨it, -, hk⟩ := List.mem_flatMap.mp hk
    exact not_isReservation_of_mem_itemKeys hk
  · exact (loadsLocked_expireAll rs).bind fun _ => trivial

/-! ### What a sweep prepares for the reservations -/

/-- The session has prepared the reservations of the change; it changes inventory rows under
their locks. -/
structure Claimed (Δ : Change) (s : Sess) (H : Held RowOf) : Prop where
  res : ∀ x, (s.cell H (.reservation x)).Prepares (Δ.res x)
  stock : ∀ k, .inventory k ∈ s.dirty → H (.inventory k) ≠ none

namespace Claimed

lemma asked (h : Claimed Δ s H) (env : Env) (qs : List Query) : Claimed Δ (s.asked env qs) H :=
  ⟨h.res, h.stock⟩

/-- Only the reservations of the change matter. -/
lemma congr {Δ' : Change} (h : Claimed Δ s H) (hres : Δ'.res = Δ.res) : Claimed Δ' s H :=
  ⟨by rw [hres]; exact h.res, h.stock⟩

lemma load (h : Claimed Δ s H) (ks : List RowKey) (d : Db) : Claimed Δ (s.load ks d) H :=
  ⟨fun x => (h.res x).load ks d, by simpa using h.stock⟩

lemma modifyRes (h : Claimed Δ s H) {x : ℕ} {b : Option Reservation} {c : Reservation}
    (hx : Δ.res x = some (b, c)) (f : Reservation → Reservation) :
    Claimed (Δ.setRes x b (f c)) (s.modify (.reservation x) f) H where
  res y := by
    by_cases hy : y = x
    · subst hy
      have := h.res y
      rw [hx] at this
      simpa using this.modify f
    · rw [Session.cell_modify_of_ne _ (by simp [hy]), Change.setRes_res_of_ne _ _ _ hy]
      exact h.res y
  stock k hk := h.stock k (by simpa [Session.mem_dirty_modify] using hk)

lemma modifyStock (h : Claimed Δ s H) {k : ℕ} (hk : H (.inventory k) ≠ none)
    (f : Inventory → Inventory) : Claimed Δ (s.modify (.inventory k) f) H where
  res x := by
    rw [Session.cell_modify_of_ne _ (by simp)]
    exact h.res x
  stock j hj := by
    rcases Session.mem_dirty_modify.mp hj with hj | ⟨hj, -⟩
    · exact h.stock j hj
    · cases hj
      exact hk

/-- The rule for the lock of an inventory row; nothing is known of the row. -/
lemma lock (h : Claimed Δ s H) {k : ℕ} {c : Option Inventory → Svc α}
    {P : α → Sess → Held RowOf → Prop} {E : PyErr → Sess → Held RowOf → Prop}
    (hc : ∀ v s' H', Claimed Δ s' H' → (v ≠ none → H' (.inventory k) ≠ none) →
      wp R env (c v) P E s' H') : wp R env (.lock (.inventory k) c) P E s H := by
  refine ⟨fun hn hd => h.stock k hd hn, fun d _ _ => ?_⟩
  rcases hr : RowStore.row (s.own d) (.inventory k) with _ | v
  · rw [Session.select1_of_none hr, hr]
    exact hc none s H h (absurd rfl)
  · rw [Session.select1_of_some hr, hr]
    simp only [Option.isSome_some, if_true]
    refine hc _ _ _ ⟨fun x => ?_, fun j hj => ?_⟩ fun _ => by simp [Held.hold]
    · rw [Session.cell_hold_of_ne _ _ (by simp)]
      exact h.res x
    · by_cases hjk : j = k
      · subst hjk
        simp [Held.hold]
      · rw [Held.hold, Function.update_of_ne (by simp [hjk])]
        exact h.stock j (by simpa using hj)

end Claimed

/-! ### The loops -/

lemma wp_claimHold (h : Claimed Δ s H) {x i : ℕ} {it : ReservationItem}
    {P : Unit → Sess → Held RowOf → Prop} (hP : ∀ s', Claimed Δ s' H → P () s' H) :
    wp R env (releaseHold x i it) P (fun _ _ _ => True) s H := by
  refine callHold_talks (ProviderAdapter.releaseHold_talks env) rfl ?_
  unfold Talk.Answered
  split
  · exact hP _ (h.asked env _)
  · trivial

/-- The loop over the items of a reservation. -/
lemma wp_claimItems {items : List ReservationItem} (pre : List ReservationItem) {x : ℕ}
    {b : Option Reservation} {c : Reservation} (h : Claimed Δ s H) (hx : Δ.res x = some (b, c))
    (hc : c.items = pre ++ items) {P : Unit → Sess → Held RowOf → Prop}
    (hP : ∀ s' H', Claimed (Δ.setRes x b
      { c with items := pre ++ items.map (settled isDone .released) }) s' H' → P () s' H') :
    wp R env (releaseItemsBy clamp x items pre.length) P (fun _ _ _ => True) s H := by
  induction items generalizing pre Δ c s H with
  | nil =>
    refine hP s H (h.congr ?_)
    rw [List.map_nil, ← hc, Change.setRes_self hx]
  | cons it items ih =>
    -- the rest of the loop, from a state in which the first item is done
    have hrest : ∀ (Δ' : Change) (c' : Reservation) (it' : ReservationItem) (s' : Sess) H',
        Claimed Δ' s' H' → Δ'.res x = some (b, c') → c'.items = pre ++ it' :: items →
        (∀ s'' H'', Claimed (Δ'.setRes x b
          { c' with items := pre ++ it' :: items.map (settled isDone .released) }) s'' H'' →
          P () s'' H'') →
        wp R env (releaseItemsBy clamp x items (pre.length + 1)) P (fun _ _ _ => True) s' H' := by
      intro Δ' c' it' s' H' h' hx' hc' hP'
      rw [show pre.length + 1 = (pre ++ [it']).length by simp]
      exact ih (pre ++ [it']) h' hx' (by simp [hc']) (by simpa using hP')
    unfold releaseItemsBy
    rw [settleItems]
    by_cases hskip : isDone it
    · rw [if_pos hskip]
      refine hrest Δ c it s H h hx hc fun s' H' h' => hP s' H' ?_
      simpa [settled, hskip] using h'
    · rw [if_neg hskip]
      -- the call and the new status
      have hcont : ∀ (s' : Sess) H', Claimed Δ s' H' →
          wp R env ((releaseHold x pre.length it).bind fun _ =>
            .modify (.reservation x) (fun r => r.setItem pre.length fun ri =>
              { ri with providerStatus := .released })
              (releaseItemsBy clamp x items (pre.length + 1))) P (fun _ _ _ => True) s' H' := by
        intro s' H' h'
        rw [wp_bind]
        refine wp_claimHold h' fun s'' h'' => ?_
        have hm := h''.modifyRes hx fun r =>
          r.setItem pre.length fun ri => { ri with providerStatus := .released }
        rw [setItem_append hc] at hm
        refine hrest _ { c with items := pre ++ { it with providerStatus := .released } :: items }
          _ _ H' hm (by simp) rfl fun s₁ H₁ h₁ => hP s₁ H₁ ?_
        simpa [settled, hskip] using h₁
      refine h.lock fun v s' H' h' hv => ?_
      cases v with
      | none => exact hcont s' H' h'
      | some v => exact hcont _ H' (h'.modifyStock (hv (by simp)) _)

/-- The loop over the reservations of a sweep. -/
lemma wp_claimAll (h : Claimed Δ s H) (hx : ∀ r ∈ rs, Δ.res r.1 = some (some r.2, r.2))
    (hnd : (rs.map Prod.fst).Nodup) {P : Unit → Sess → Held RowOf → Prop}
    (hP : ∀ s' H', Claimed (rs.foldl (releaseStep clamp .expired) Δ) s' H' → P () s' H') :
    wp R env (expireAllBy clamp rs) P (fun _ _ _ => True) s H := by
  induction rs generalizing Δ s H with
  | nil => exact hP s H h
  | cons r rs ih =>
    obtain ⟨x, r⟩ := r
    rw [List.map_cons, List.nodup_cons] at hnd
    rw [expireAllBy, Prog.bind_eq, wp_bind]
    refine wp_claimItems [] h (hx (x, r) (by simp)) rfl fun s' H' h' => ?_
    have hm := h'.modifyRes (Change.setRes_res_self _ _ _ _) fun r => { r with status := .expired }
    rw [Change.setRes_setRes] at hm
    have hm' : Claimed (releaseStep clamp .expired Δ (x, r)) _ H' := hm.congr rfl
    refine ih hm' (fun r' hr' => ?_) hnd.2 hP
    rw [releaseStep, Change.setRes_res_of_ne]
    · exact hx r' (by simp [hr'])
    · intro hne
      exact hnd.1 (List.mem_map.mpr ⟨r', hr', hne⟩)

/-- What a sweep prepares, whatever happens to the inventory rows meanwhile. -/
theorem expire_claims (limit : ℕ) :
    wp R env (expireBatchBy clamp limit)
      (fun n s H => ∃ rs : List (ℕ × Reservation), n = rs.length ∧ (rs.map Prod.fst).Nodup ∧
        (∀ r ∈ rs, r.2.status = .pending) ∧ Claimed (releaseChange clamp .expired rs) s H)
      (fun _ _ _ => True) Session.init fun _ => none := by
  unfold expireBatchBy ReservationRepository.getExpiredPending
  simp only [Prog.bind_eq, Prog.bind]
  rw [wp, wp]
  generalize hs₀ : ((Session.init : Sess).log (.now 0) (env (.now 0))).log .scan (env .scan) = s₀
  have hown : ∀ d : Db, s₀.own d = d := by
    intro d
    rw [← hs₀]
    rfl
  intro d hd
  refine ⟨fun k _ _ => by rw [← hs₀]; exact List.not_mem_nil, fun free _ _ => ?_⟩
  rw [hown]
  have hpick : s₀.pick (fun d => (visit (env .scan) (ReservationRepository.expiredPending d
      (env (.now 0)))).map RowKey.reservation) limit d free = expiredBatch env limit free d := by
    rw [Session.pick, hown]
    rfl
  rw [hpick]
  obtain ⟨rs, hrs, hrow⟩ := exists_rows fun k (hk : k ∈ expiredBatch env limit free d) => by
    obtain ⟨x, r, hx, hr, -⟩ := of_mem_expiredBatch hk
    exact ⟨x, r, hx, hr⟩
  have hnd := nodup_of_batch hrs
  have h : Claimed (loadedChange rs) (s₀.load (rs.map fun r => .reservation r.1) d)
      (Held.holdAll (fun _ => none) (rs.map fun r => .reservation r.1) d) := by
    refine ⟨fun x => prepares_holdAll hnd hrow (by rw [← hs₀]; rfl) ?_, fun k hk => ?_⟩
    · rw [← hs₀]
      simp [Cell.Prepares, Cell.Touched, Session.cell, Session.init, Session.log]
    · rw [Session.load_dirty, ← hs₀] at hk
      cases hk
  rw [← hrs, wp_bind, wp_bind]
  refine wp_objects (fun r hr => ?_) ?_
  · have := h.res r.1
    rw [loadedChange_res_of_mem hnd hr] at this
    exact this.1
  intro d' hd'
  refine wp_bind.mpr ?_
  refine wp_claimAll (h.load _ _) (fun r hr => loadedChange_res_of_mem hnd hr) hnd
    fun s' H' h' => ⟨rs, rfl, hnd, fun r hr => (expired_of_mem hrs hrow hr).2.1, h'⟩

/-! ### What the sweeps commit -/

variable {T : Type} {d d' d₀ : Db} {x : ℕ}

def RowKey.reservation? : RowKey → Option ℕ
  | .reservation x => some x
  | _ => none

/-- The reservations that a commit has written. -/
def expiredBy (cm : Commit T RowKey Reply) : Finset ℕ :=
  (cm.wrote.filterMap RowKey.reservation?).toFinset

lemma mem_expiredBy {cm : Commit T RowKey Reply} : x ∈ expiredBy cm ↔ .reservation x ∈ cm.wrote := by
  simp only [expiredBy, List.mem_toFinset, List.mem_filterMap]
  constructor
  · rintro ⟨k, hk, hx⟩
    cases k <;> simp_all [RowKey.reservation?]
  · intro h
    exact ⟨_, h, rfl⟩

/-- The sweeps in the log share no reservation and count what they have expired; the other
reservations are as in `d₀`. -/
structure Shared (d₀ : Db) (log : List (Commit T RowKey Reply)) (d : Db) : Prop where
  disjoint : log.Pairwise fun a b => Disjoint (expiredBy a) (expiredBy b)
  counted : ∀ cm ∈ log, cm.result = .count (expiredBy cm).card
  expired : ∀ cm ∈ log, ∀ x ∈ expiredBy cm, ∃ r, d₀.reservations.get x = some r ∧
    r.status = .pending ∧ d.reservations.get x = some (r.released .expired)
  kept : ∀ x, (∀ cm ∈ log, x ∉ expiredBy cm) → d.reservations.get x = d₀.reservations.get x

/-- A sweep that commits its claims. -/
lemma Shared.commit {log : List (Commit T RowKey Reply)} {t : T} {ws : List RowKey}
    (h : Shared d₀ log d) (hnd : (rs.map Prod.fst).Nodup) (hst : ∀ r ∈ rs, r.2.status = .pending)
    (hc : Claimed (releaseChange clamp .expired rs) s H)
    (hs : Settled RowKey.IsReservation s H d d' ws)
    (hkept : ∀ k, k ∉ ws → RowStore.row d' k = RowStore.row d k) :
    Shared d₀ (log ++ [⟨t, .count rs.length, ws⟩]) d' := by
  have hrow : ∀ r ∈ rs, d.reservations.get r.1 = some r.2 ∧
      d'.reservations.get r.1 = some (r.2.released .expired) := by
    intro r hr
    have := hc.res r.1
    rw [releaseChange_res_of_mem hnd hr] at this
    exact this.settled hs ⟨r.1, rfl⟩ (released_ne (hst r hr) (by simp))
  -- the rows that the commit has written are the ones of the batch
  have hmem : expiredBy (⟨t, .count rs.length, ws⟩ : Commit T RowKey Reply) =
      (rs.map Prod.fst).toFinset := by
    ext x
    rw [mem_expiredBy, List.mem_toFinset]
    constructor
    · intro hx
      by_contra hn
      have := hc.res x
      rw [releaseChange_res_of_not_mem hn] at this
      exact this (hs.wrote _ hx)
    · intro hx
      obtain ⟨r, hr, rfl⟩ := List.mem_map.mp hx
      by_contra hn
      have := hkept _ hn
      simp only [Db.row_reservation, (hrow r hr).1, (hrow r hr).2] at this
      exact released_ne (hst r hr) (by simp) this.symm
  -- none of them was expired before
  have hnew : ∀ cm ∈ log, ∀ x ∈ expiredBy cm, x ∉ rs.map Prod.fst := by
    intro cm hcm x hx hxr
    obtain ⟨r, hr, rfl⟩ := List.mem_map.mp hxr
    obtain ⟨r₀, -, -, hr₀⟩ := h.expired cm hcm r.1 hx
    have hst' := hst r hr
    rw [(hrow r hr).1] at hr₀
    rw [Option.some.inj hr₀] at hst'
    cases hst'
  have hother : ∀ x, x ∉ rs.map Prod.fst → d'.reservations.get x = d.reservations.get x := by
    intro x hx
    refine hkept (.reservation x) fun hw => hx ?_
    rw [← List.mem_toFinset, ← hmem, mem_expiredBy]
    exact hw
  constructor
  · refine List.pairwise_append.mpr ⟨h.disjoint, List.pairwise_singleton _ _, fun a ha b hb => ?_⟩
    rw [List.mem_singleton.mp hb, hmem, Finset.disjoint_left]
    intro x hx hxr
    exact hnew a ha x hx (List.mem_toFinset.mp hxr)
  · intro cm hcm
    rcases List.mem_append.mp hcm with hcm | hcm
    · exact h.counted cm hcm
    · rw [List.mem_singleton.mp hcm, hmem, List.toFinset_card_of_nodup hnd, List.length_map]
  · intro cm hcm x hx
    rcases List.mem_append.mp hcm with hcm | hcm
    · rw [hother x (hnew cm hcm x hx)]
      exact h.expired cm hcm x hx
    · rw [List.mem_singleton.mp hcm, hmem, List.mem_toFinset] at hx
      obtain ⟨r, hr, rfl⟩ := List.mem_map.mp hx
      refine ⟨r.2, ?_, hst r hr, (hrow r hr).2⟩
      rw [← h.kept r.1 fun cm hcm hx' => hnew cm hcm r.1 hx' hx]
      exact (hrow r hr).1
  · intro x hx
    rw [hother x, h.kept x fun cm hcm => hx cm (by simp [hcm])]
    have := hx ⟨t, .count rs.length, ws⟩ (by simp)
    rwa [hmem, List.mem_toFinset] at this

/-- Sweeps that run at the same time. -/
def sweeps (cfg : Settings) (limit : T → ℕ) (t : T) : Svc Reply :=
  (Op.expireBatch (limit t)).transaction cfg

lemma sweep_verified (cfg : Settings) (limit : T → ℕ) (env : T → Env) (t : T) :
    Verified (Shared d₀) RowKey.IsReservation (env t) t (sweeps cfg limit t) := by
  refine verified_wrote ?_
  show wp _ _ ((expireBatchBy (max 0) (limit t)).bind fun n => .pure (Reply.count n)) _ _ _ _
  rw [wp_bind]
  refine wp_mono (fun n s H hP => ?_) (fun _ _ _ h => h) (expire_claims (limit t))
  obtain ⟨rs, rfl, hnd, hst, hc⟩ := hP
  intro log d d' ws hI _ hs hkept
  exact hI.commit hnd hst hc hs hkept

variable [DecidableEq T]

theorem shared_of_reachable {iso : Isolation} {cfg : Settings} {limit : T → ℕ} {env : T → Env}
    {n : ℕ} {c : Conf T Db RowKey RowOf Query Answer PyErr Reply}
    (h : Reachable iso env (Conf.init d₀ n (sweeps cfg limit)) c) : Shared d₀ c.log c.db := by
  have hp : ∀ t, (sweeps cfg limit t).LoadsLocked RowKey.IsReservation := by
    intro t
    refine Prog.LoadsLocked.commit _ ((loadsLocked_expireBatch (limit t)).bind fun n => ?_)
    trivial
  exact invariant_of_run ⟨.nil, by simp, by simp, fun _ _ => rfl⟩ (sweep_verified cfg limit env)
    (run_of_reachable hp h).1

/-! ### What becomes of the reservations -/

/-- The reservations that are pending in `d` and expired in `d'`. -/
def becameExpired (d d' : Db) : Set ℕ :=
  {x | (∃ r, d.reservations.get x = some r ∧ r.status = .pending) ∧
    ∃ r, d'.reservations.get x = some r ∧ r.status = .expired}

/-- The items that are released in `d'` and not in `d`, each with its reservation. -/
def markedReleased (d d' : Db) : Set (ℕ × ℕ) :=
  {p | (∃ r it, d.reservations.get p.1 = some r ∧ r.items[p.2]? = some it ∧
      it.providerStatus ≠ .released) ∧
    ∃ r it, d'.reservations.get p.1 = some r ∧ r.items[p.2]? = some it ∧
      it.providerStatus = .released}

/-- The number that a sweep returns. -/
def Reply.number : Reply → ℕ
  | .count n => n
  | _ => 0

/-- What the commits have returned, in all. -/
def totalCount (log : List (Commit T RowKey Reply)) : ℕ := (log.map fun cm => cm.result.number).sum

namespace Shared

omit [DecidableEq T]

variable {log new : List (Commit T RowKey Reply)}

lemma mem_becameExpired (h : Shared d₀ log d) (h' : Shared d₀ (log ++ new) d') :
    x ∈ becameExpired d d' ↔ ∃ cm ∈ new, x ∈ expiredBy cm := by
  constructor
  · rintro ⟨⟨r, hr, hst⟩, r', hr', hst'⟩
    by_contra hn
    simp only [not_exists, not_and] at hn
    by_cases hx : ∃ cm ∈ log, x ∈ expiredBy cm
    · obtain ⟨cm, hcm, hx⟩ := hx
      obtain ⟨r₀, -, -, hr₀⟩ := h.expired cm hcm x hx
      rw [hr] at hr₀
      rw [Option.some.inj hr₀] at hst
      cases hst
    · simp only [not_exists, not_and] at hx
      rw [h.kept x hx] at hr
      rw [h'.kept x fun cm hcm => (List.mem_append.mp hcm).elim (hx cm) (hn cm), hr] at hr'
      rw [← Option.some.inj hr', hst] at hst'
      cases hst'
  · rintro ⟨cm, hcm, hx⟩
    obtain ⟨r, hr, hst, hr'⟩ := h'.expired cm (by simp [hcm]) x hx
    refine ⟨⟨r, ?_, hst⟩, _, hr', rfl⟩
    rw [h.kept x fun cm' hcm' hx' => ?_]
    · exact hr
    · have := (List.pairwise_append.mp h'.disjoint).2.2 cm' hcm' cm hcm
      exact Finset.disjoint_left.mp this hx' hx

/-- A row changes only by the commit that expires it. -/
lemma get_eq (h : Shared d₀ log d) (h' : Shared d₀ (log ++ new) d')
    (hx : x ∉ becameExpired d d') : d'.reservations.get x = d.reservations.get x := by
  rw [h.mem_becameExpired h'] at hx
  simp only [not_exists, not_and] at hx
  by_cases hl : ∃ cm ∈ log, x ∈ expiredBy cm
  · obtain ⟨cm, hcm, hl⟩ := hl
    obtain ⟨r, hr, -, hd⟩ := h.expired cm hcm x hl
    obtain ⟨r', hr', -, hd'⟩ := h'.expired cm (by simp [hcm]) x hl
    rw [hr] at hr'
    cases hr'
    rw [hd, hd']
  · simp only [not_exists, not_and] at hl
    rw [h.kept x hl, h'.kept x fun cm hcm => (List.mem_append.mp hcm).elim (hl cm) (hx cm)]

lemma fst_mem_of_markedReleased (h : Shared d₀ log d) (h' : Shared d₀ (log ++ new) d')
    {p : ℕ × ℕ} (hp : p ∈ markedReleased d d') : p.1 ∈ becameExpired d d' := by
  by_contra hn
  obtain ⟨⟨r, it, hr, hit, hst⟩, r', it', hr', hit', hst'⟩ := hp
  rw [h.get_eq h' hn, hr] at hr'
  cases hr'
  rw [hit] at hit'
  cases hit'
  exact hst hst'

/-- The counts add up. -/
lemma totalCount_eq (h : Shared d₀ log d) (h' : Shared d₀ (log ++ new) d') :
    totalCount new = (becameExpired d d').ncard := by
  have hset : becameExpired d d' = {x | ∃ cm ∈ new, x ∈ expiredBy cm} := by
    ext x
    exact h.mem_becameExpired h'
  rw [hset]
  have hdis := (List.pairwise_append.mp h'.disjoint).2.1
  have hcount : ∀ cm ∈ new, cm.result = .count (expiredBy cm).card := fun cm hcm =>
    h'.counted cm (by simp [hcm])
  clear hset h h'
  induction new with
  | nil => simp [totalCount]
  | cons cm new ih =>
    rw [List.pairwise_cons] at hdis
    have hu : {x | ∃ cm' ∈ cm :: new, x ∈ expiredBy cm'} =
        ↑(expiredBy cm) ∪ {x | ∃ cm' ∈ new, x ∈ expiredBy cm'} := by
      ext x
      simp
    have hfin : {x | ∃ cm' ∈ new, x ∈ expiredBy cm'}.Finite := by
      have : {x | ∃ cm' ∈ new, x ∈ expiredBy cm'} = ⋃ cm' ∈ new, ↑(expiredBy cm') := by
        ext x
        simp
      rw [this]
      exact (List.finite_toSet new).biUnion fun cm' _ => Finset.finite_toSet _
    rw [hu, Set.ncard_union_eq ?_ (Finset.finite_toSet _) hfin, Set.ncard_coe_finset,
      ← ih hdis.2 fun cm' hcm' => hcount cm' (List.mem_cons_of_mem _ hcm')]
    · simp [totalCount, Reply.number, hcount cm (by simp)]
    · rw [Set.disjoint_left]
      rintro x hx ⟨cm', hcm', hx'⟩
      exact Finset.disjoint_left.mp (hdis.1 cm' hcm') hx hx'

end Shared

/-- Sweeps that run at the same time expire different reservations and release different items,
and what they return adds up to the number of reservations that have become expired. -/
theorem replicas_disjoint (iso : Isolation) (cfg : Settings) (limit : T → ℕ) (env : T → Env)
    (d : Db) (n : ℕ) {c : Conf T Db RowKey RowOf Query Answer PyErr Reply}
    (h : Reachable iso env (Conf.init d n (sweeps cfg limit)) c) :
    totalCount c.log = (becameExpired d c.db).ncard ∧
      ∀ a c₁, act iso env c a = some c₁ →
        (∃ new, c₁.log = c.log ++ new ∧ new.length ≤ 1 ∧
          totalCount new = (becameExpired c.db c₁.db).ncard) ∧
        ∀ c₂ b c₃, Reachable iso env c₁ c₂ → act iso env c₂ b = some c₃ →
          (∀ x ∈ becameExpired c.db c₁.db, x ∉ becameExpired c₂.db c₃.db) ∧
            ∀ p ∈ markedReleased c.db c₁.db, p ∉ markedReleased c₂.db c₃.db := by
  have hc := shared_of_reachable h
  refine ⟨(show Shared d [] d from ⟨.nil, by simp, by simp, fun _ _ => rfl⟩).totalCount_eq hc,
    fun a c₁ ha => ?_⟩
  have hr₁ := h.act ha (upToDate_false a)
  have hc₁ := shared_of_reachable hr₁
  obtain ⟨new₁, hnew₁, hlen⟩ := log_of_act ha
  rw [hnew₁] at hc₁
  refine ⟨⟨new₁, hnew₁, hlen, hc.totalCount_eq hc₁⟩, fun c₂ b c₃ h₂ hb => ?_⟩
  have hr₂ := hr₁.trans h₂
  have hc₂ := shared_of_reachable hr₂
  have hc₃ := shared_of_reachable (hr₂.act hb (upToDate_false b))
  obtain ⟨new₂, hnew₂⟩ := log_of_run h₂
  obtain ⟨new₃, hnew₃, -⟩ := log_of_act hb
  rw [hnew₂, hnew₁] at hc₂
  rw [hnew₃, hnew₂, hnew₁] at hc₃
  have hdis : ∀ x ∈ becameExpired c.db c₁.db, x ∉ becameExpired c₂.db c₃.db := by
    intro x hx hx'
    obtain ⟨cm, hcm, hx⟩ := (hc.mem_becameExpired hc₁).mp hx
    obtain ⟨cm', hcm', hx'⟩ := (hc₂.mem_becameExpired hc₃).mp hx'
    have := (List.pairwise_append.mp hc₃.disjoint).2.2 cm (by simp [hcm]) cm' hcm'
    exact Finset.disjoint_left.mp this hx hx'
  refine ⟨hdis, fun p hp hp' => ?_⟩
  exact hdis p.1 (hc.fst_mem_of_markedReleased hc₁ hp) (hc₂.fst_mem_of_markedReleased hc₃ hp')

/-- One sweep takes one reservation at most, the other two. -/
def oneAndTwo (t : Bool) : ℕ := if t then 1 else 2

/-- Two sweeps of three overdue reservations. -/
def twoReplicas : Conf Bool Db RowKey RowOf Query Answer PyErr Reply :=
  .init (run quarter shop threeLamps) 4 (sweeps quarter oneAndTwo)

def late : Bool → Env := fun _ => calm 1000000000

/-- Both sweeps have chosen their reservations, and the first is about to commit. -/
def bothChosen : List (Act Bool) :=
  List.replicate 4 (.step true) ++ List.replicate 4 (.step false) ++ List.replicate 10 (.step true)

/-- The statuses of the three reservations. -/
def statuses (d : Db) : List (Option ReservationStatus) :=
  [1, 2, 3].map fun x => (d.reservations.get x).map Reservation.status

lemma mem_becameExpired_of_statuses
    (h : (d.reservations.get x).map Reservation.status = some .pending)
    (h' : (d'.reservations.get x).map Reservation.status = some .expired) :
    x ∈ becameExpired d d' := by
  obtain ⟨r, hr, hst⟩ := Option.map_eq_some_iff.mp h
  obtain ⟨r', hr', hst'⟩ := Option.map_eq_some_iff.mp h'
  exact ⟨⟨r, hr, hst⟩, r', hr', hst'⟩

theorem replicas_disjoint_lamps : ∃ c c₁ c₂ c₃ : Conf Bool Db RowKey RowOf Query Answer PyErr Reply,
    Reachable .repeatableRead late twoReplicas c ∧
      act .repeatableRead late c (.step true) = some c₁ ∧
      Reachable .repeatableRead late c₁ c₂ ∧
      act .repeatableRead late c₂ (.step false) = some c₃ ∧
      1 ∈ becameExpired c.db c₁.db ∧ 2 ∈ becameExpired c₂.db c₃.db ∧
      3 ∈ becameExpired c₂.db c₃.db ∧ totalCount c₃.log = 3 ∧
      totalCount c.log = (becameExpired (run quarter shop threeLamps) c.db).ncard ∧
      (∀ x ∈ becameExpired c.db c₁.db, x ∉ becameExpired c₂.db c₃.db) ∧
      ∀ p ∈ markedReleased c.db c₁.db, p ∉ markedReleased c₂.db c₃.db := by
  have hrun : ((exec .repeatableRead late twoReplicas bothChosen).bind fun c =>
      (act .repeatableRead late c (.step true)).bind fun c₁ =>
      (exec .repeatableRead late c₁ (List.replicate 18 (.step false))).bind fun c₂ =>
      (act .repeatableRead late c₂ (.step false)).map fun c₃ =>
        (statuses c.db, statuses c₁.db, statuses c₂.db, statuses c₃.db, totalCount c₃.log)) =
      some ([some .pending, some .pending, some .pending],
        [some .expired, some .pending, some .pending],
        [some .expired, some .pending, some .pending],
        [some .expired, some .expired, some .expired], 3) := by
    rfl
  obtain ⟨c, hc, hrun⟩ := Option.bind_eq_some_iff.mp hrun
  obtain ⟨c₁, hc₁, hrun⟩ := Option.bind_eq_some_iff.mp hrun
  obtain ⟨c₂, hc₂, hrun⟩ := Option.bind_eq_some_iff.mp hrun
  obtain ⟨c₃, hc₃, hrun⟩ := Option.map_eq_some_iff.mp hrun
  simp only [statuses, List.map_cons, List.map_nil, Prod.mk.injEq, List.cons.injEq, and_true]
    at hrun
  obtain ⟨⟨h1, -⟩, ⟨h1', -⟩, ⟨-, h2, h3⟩, ⟨-, h2', h3'⟩, hcount⟩ := hrun
  have hr := reachable_of_exec (.init : Reachable .repeatableRead late twoReplicas _) hc
  have hr' := reachable_of_exec (.init : Reachable .repeatableRead late c₁ _) hc₂
  have h := replicas_disjoint .repeatableRead quarter oneAndTwo late (run quarter shop threeLamps) 4 hr
  obtain ⟨-, hdis⟩ := h.2 _ _ hc₁
  obtain ⟨hexp, hrel⟩ := hdis _ _ _ hr' hc₃
  exact ⟨c, c₁, c₂, c₃, hr, hc₁, hr', hc₃, mem_becameExpired_of_statuses h1 h1',
    mem_becameExpired_of_statuses h2 h2', mem_becameExpired_of_statuses h3 h3', hcount, h.1,
    hexp, hrel⟩

end InventoryReservation
