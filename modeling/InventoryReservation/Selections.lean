/-
# The reservations that sweeps select

A sweep selects reservations with `FOR UPDATE SKIP LOCKED` and then works on those only.  In the
order of their selections, each sweep of a run takes the first reservations that are due, that no
confirmation or cancellation works on, and that no earlier selection has taken.
-/
import InventoryReservation.Overlaps
import InventoryReservation.Deadlock
import InventoryReservation.RowTxn.Footprint

namespace InventoryReservation

open RowTxn ReservationService InventoryService InventoryRepository

variable {T : Type} {cfg : Settings} {b d d' : Db} {env : Env} {α : Type}

/-! ### The reservations that are due -/

/-- The pending reservations past their expiry, in the order in which they are visited. -/
def due (env : Env) (d : Db) : List ℕ :=
  (visit (env .scan) (ReservationRepository.expiredPending d (env (.now 0)))).dedup

lemma mem_due {x : ℕ} : x ∈ due env d ↔
    ∃ r, d.reservations.get x = some r ∧ r.status = .pending ∧ r.expiresAt < env (.now 0) := by
  rw [due, List.mem_dedup, mem_visit, ReservationRepository.mem_expiredPending]

lemma filter_dedup (p : ℕ → Bool) (l : List ℕ) : (l.filter p).dedup = l.dedup.filter p := by
  induction l with
  | nil => rfl
  | cons a l ih =>
    by_cases hp : p a = true
    · rw [List.filter_cons, if_pos hp]
      by_cases ha : a ∈ l
      · rw [List.dedup_cons_of_mem (by simp [ha, hp]), ih, List.dedup_cons_of_mem ha]
      · rw [List.dedup_cons_of_notMem (by simp [ha]), ih, List.dedup_cons_of_notMem ha,
          List.filter_cons, if_pos hp]
    · rw [List.filter_cons, if_neg hp, ih]
      by_cases ha : a ∈ l
      · rw [List.dedup_cons_of_mem ha]
      · rw [List.dedup_cons_of_notMem ha, List.filter_cons, if_neg hp]

lemma visit_filter (p : ℕ → Bool) (order ids : List ℕ) :
    visit order (ids.filter p) = (visit order ids).filter p := by
  simp only [visit, List.filter_append, List.filter_filter, List.mem_filter]
  congr 1 <;> exact List.filter_congr fun x _ => by simp [Bool.and_comm]

/-- What is due after some reservations were settled and the others left as they were. -/
lemma due_filter (p : ℕ → Bool)
    (hleft : ∀ x, p x = true → d.reservations.get x = b.reservations.get x)
    (hgone : ∀ x, p x = false → ∀ r, d.reservations.get x = some r → r.status ≠ .pending) :
    due env d = (due env b).filter p := by
  have hids : ReservationRepository.expiredPending d (env (.now 0)) =
      (ReservationRepository.expiredPending b (env (.now 0))).filter p := by
    refine (d.reservations.pairwise_ids _).eq_of_mem_iff
      ((b.reservations.pairwise_ids _).sublist List.filter_sublist) fun x => ?_
    show x ∈ ReservationRepository.expiredPending d (env (.now 0)) ↔ _
    rw [List.mem_filter, ReservationRepository.mem_expiredPending,
      ReservationRepository.mem_expiredPending]
    rcases hx : p x with _ | _
    · simpa using fun r hr hst => absurd hst (hgone x hx r hr)
    · simp [hleft x hx]
  rw [due, hids, visit_filter, filter_dedup, due]

lemma RowKey.reservation_injective : Function.Injective RowKey.reservation := fun _ _ h => by
  cases h
  rfl

lemma expiredBatch_eq (env : Env) (limit : ℕ) (free : RowKey → Bool) (d : Db) :
    expiredBatch env limit free d =
      (((due env d).filter fun x => free (.reservation x)).take limit).map .reservation := by
  rw [expiredBatch, List.dedup_map_of_injective RowKey.reservation_injective, List.filter_map,
    ← List.map_take]
  congr 2
  refine List.filter_congr fun x hx => ?_
  obtain ⟨r, hr, -⟩ := mem_due.mp hx
  simp [Db.row_reservation, hr]

/-- The first elements are the same without elements that are not among them. -/
lemma take_filter (p : ℕ → Bool) (l : List ℕ) (n : ℕ) (h : ∀ x ∈ l.take n, p x = true) :
    (l.filter p).take n = l.take n := by
  induction l generalizing n with
  | nil => simp
  | cons x l ih =>
    cases n with
    | zero => simp
    | succ n =>
      rw [List.filter_cons, if_pos (h x (by simp)), List.take_succ_cons, List.take_succ_cons,
        ih n fun y hy => h y (by simp [hy])]

/-! ### The footprints of the jobs -/

section Within

variable {G : RowKey → Prop} {x : ℕ}

lemma within_settleItems (hG : ∀ k, G (.inventory k)) (hx : G (.reservation x))
    {skip : ReservationItem → Bool} {step : ReservationItem → Inventory → Inventory}
    {call : ℕ → ℕ → ReservationItem → Svc Unit} (hcall : ∀ i it, (call x i it).Quiet)
    (status : ProviderItemStatus) (items : List ReservationItem) (i : ℕ) :
    (settleItems skip step call status x items i).Within G fun _ => True := by
  induction items generalizing i with
  | nil => trivial
  | cons it items ih =>
    rw [settleItems]
    split
    · exact ih (i + 1)
    simp only [Prog.bind_eq, getByIdForUpdate, Prog.bind]
    refine ⟨hG _, fun v => ?_⟩
    have hcont : ((call x i it).bind fun _ =>
        .modify (.reservation x) (fun r => r.setItem i fun ri => { ri with providerStatus := status })
          (settleItems skip step call status x items (i + 1))).Within G fun _ => True :=
      (Prog.Within.of_quiet (hcall i it)).bind fun _ _ => ⟨hx, ih (i + 1)⟩
    cases v with
    | none => exact hcont
    | some v => exact ⟨hG _, hcont⟩

lemma within_getWithItems (x : ℕ) :
    (ReservationRepository.getWithItems x).Within G fun _ => True := by
  intro d
  rcases hr : d.reservations.get x with _ | r
  · simp only [hr]
    trivial
  · simp only [hr]
    exact (Prog.Within.of_quiet (quiet_obj _)).bind fun _ _ _ => trivial

lemma within_flush : flush.Within G fun _ => True := by
  intro ok
  cases ok <;> trivial

lemma within_confirm (hG : ∀ k, G (.inventory k)) (hx : G (.reservation x)) (ho : G (.order x)) :
    (confirm cfg x).Within G fun _ => True := by
  unfold confirm
  refine (within_getWithItems x).bind fun r _ => ?_
  rcases r with _ | r
  · trivial
  dsimp only
  split
  · trivial
  intro now
  dsimp only
  split
  · trivial
  · trivial
  intro d
  rcases hd : d.orders.get x with _ | o
  rotate_left
  · simp only [hd]
    trivial
  simp only [hd]
  refine (within_settleItems hG hx (quiet_confirmHold x) _ _ _).bind fun _ _ => ⟨hx, ho, ?_⟩
  exact within_flush.bind fun _ _ => .of_quiet (quiet_obj _)

lemma within_cancel {clamp : ℤ → ℤ} (hG : ∀ k, G (.inventory k)) (hx : G (.reservation x)) :
    (cancelBy clamp x).Within G fun _ => True := by
  unfold cancelBy
  refine (within_getWithItems x).bind fun r _ => ?_
  rcases r with _ | r
  · trivial
  dsimp only
  split
  · trivial
  split
  · trivial
  exact (within_settleItems hG hx (quiet_releaseHold x) _ _ _).bind fun _ _ => ⟨hx, trivial⟩

lemma quiet_checkStock {a : ProviderAdapter} {call : Call} {sku : String} :
    (a.checkStock call sku).Quiet := by
  cases a with
  | internal row => exact (quiet_obj _).bind fun _ => trivial
  | external a => exact fun out => Prog.Quiet.ofExcept _

lemma within_syncRows (hG : ∀ k, G (.inventory k)) (p : InventoryProvider) (ids : List ℕ)
    (report : SyncReport) (fits : Bool) :
    (syncRows p ids report fits).Within G fun _ => True := by
  induction ids generalizing report fits with
  | nil => trivial
  | cons id ids ih =>
    rw [syncRows]
    refine (Prog.Within.of_quiet (quiet_obj _)).bind fun row _ => fun prod => ?_
    dsimp only
    split
    · exact ih report fits
    · exact ih report fits
    refine (Prog.Within.of_quiet (Prog.Quiet.ofExcept _)).bind fun a _ => ?_
    refine Prog.Within.bind (P := fun _ => True) ?_ fun next _ => ih next.1 next.2
    refine Prog.Within.tryCatch ?_ fun e => ?_
    · exact (Prog.Within.of_quiet quiet_checkStock).bind fun qty _ => fun now => ⟨hG _, trivial⟩
    · cases e <;> trivial

lemma within_sync (hG : ∀ k, G (.inventory k)) (pid : ℕ) :
    (syncFromProvider pid).Within G fun _ => True := by
  intro d
  rcases hp : d.providers.get pid with _ | p
  · simp only [hp]
    trivial
  simp only [hp]
  refine (Prog.Within.of_quiet (quiet_obj _)).bind fun provider _ => ?_
  split
  · trivial
  split
  · trivial
  refine Prog.Within.bind (P := fun _ => True) (fun _ => trivial) fun rows _ => ?_
  refine (within_syncRows hG _ rows _ _).bind fun next _ => within_flush.bind fun _ _ => ?_
  split <;> trivial

/-- The footprint of a confirmation, a cancellation or a sync: of the reservations, the one that it
is about. -/
lemma Step.Settling.within {s : Step} (h : s.Settling) (hs : s.limit = none) :
    (s.transaction cfg).Within (fun k => ∀ x, k = .reservation x → s.target = some x)
      fun _ => True := by
  refine Prog.Within.commit PyErr.integrityError ?_
  cases h with
  | confirm x env =>
    refine Prog.Within.bind (P := fun _ => True) ?_ fun _ _ => trivial
    refine Prog.Within.bind (P := fun _ => True) ?_ fun _ _ => trivial
    exact within_confirm (fun _ _ h => by cases h) (fun _ h => by cases h; rfl) fun _ h => by cases h
  | cancel x env =>
    refine Prog.Within.bind (P := fun _ => True) ?_ fun _ _ => trivial
    refine Prog.Within.bind (P := fun _ => True) ?_ fun _ _ => trivial
    exact within_cancel (fun _ _ h => by cases h) fun _ h => by cases h; rfl
  | sweep limit env => cases hs
  | sync pid env =>
    refine Prog.Within.bind (P := fun _ => True) ?_ fun _ _ => trivial
    exact within_sync (fun _ _ h => by cases h) pid

/-- The objects that a sweep loops over are those of the rows that it has selected. -/
lemma within_objects (ks : List RowKey) :
    (ReservationRepository.objects ks).Within G fun rs => (∀ r ∈ rs, .reservation r.1 ∈ ks) ∧
      ((∀ k ∈ ks, ∃ x, k = .reservation x) → rs.length = ks.length) := by
  induction ks with
  | nil => exact ⟨by simp, fun _ => rfl⟩
  | cons k ks ih =>
    cases k with
    | reservation x =>
      rw [ReservationRepository.objects]
      refine (Prog.Within.of_quiet (quiet_obj _)).bind fun r _ => ?_
      refine ih.bind fun rs hrs => ?_
      obtain ⟨hmem, hlen⟩ := hrs
      refine ⟨fun r hr => ?_, fun hks => ?_⟩
      · rcases List.mem_cons.mp hr with rfl | hr
        · exact List.mem_cons_self
        · exact List.mem_cons_of_mem _ (hmem r hr)
      · rw [List.length_cons, List.length_cons, hlen fun k hk => hks k (List.mem_cons_of_mem _ hk)]
    | _ =>
      refine ⟨by simp, fun h => ?_⟩
      obtain ⟨x, hx⟩ := h _ List.mem_cons_self
      cases hx

lemma within_expireAll {clamp : ℤ → ℤ} (hG : ∀ k, G (.inventory k)) {rs : List (ℕ × Reservation)}
    (hrs : ∀ r ∈ rs, G (.reservation r.1)) : (expireAllBy clamp rs).Within G fun _ => True := by
  induction rs with
  | nil => trivial
  | cons r rs ih =>
    obtain ⟨x, r⟩ := r
    have hx : G (.reservation x) := hrs (x, r) List.mem_cons_self
    refine (within_settleItems hG hx (quiet_releaseHold x) _ _ _).bind fun _ _ => ⟨hx, ?_⟩
    exact ih fun r hr => hrs r (List.mem_cons_of_mem _ hr)

end Within

/-- The rows that a sweep may take. -/
def wanted (env : Env) (d : Db) : List RowKey :=
  (visit (env .scan) (ReservationRepository.expiredPending d (env (.now 0)))).map .reservation

/-- The footprint of a sweep that has selected the rows `l`: of the reservations, these only. -/
def OfRows (l : List RowKey) (k : RowKey) : Prop := ∀ x, k = .reservation x → k ∈ l

/-- The answer of a sweep that has selected the rows `l`: their number. -/
def CountOf (l : List RowKey) (a : JobReply) : Prop :=
  (∀ k ∈ l, ∃ x, k = .reservation x) → a = .inl (.count l.length)

/-- A sweep selects its rows first. -/
lemma selects_sweep {s : Step} {limit : ℕ} (hs : s.limit = some limit) :
    (s.transaction cfg).Selects s.env (wanted s.env) limit OfRows CountOf := by
  rw [Step.eq_of_limit hs]
  refine Prog.Selects.commit PyErr.integrityError ?_
  refine Prog.Selects.bind (P := fun l a => (∀ k ∈ l, ∃ x, k = .reservation x) →
    a = .count l.length) ?_ fun l a ha h => congrArg Sum.inl (ha h)
  refine Prog.Selects.bind (P := fun l n => (∀ k ∈ l, ∃ x, k = .reservation x) →
    n = l.length) ?_ fun l n hn h => congrArg Reply.count (hn h)
  refine Prog.Selects.bind (P := fun l rs => (∀ r ∈ rs, .reservation r.1 ∈ l) ∧
    ((∀ k ∈ l, ∃ x, k = .reservation x) → rs.length = l.length)) ?_ fun l rs ⟨hmem, hlen⟩ => ?_
  · refine ⟨rfl, rfl, fun l => ?_⟩
    exact (within_objects l).bind fun rs hrs _ => hrs
  · refine (within_expireAll (fun _ _ h => by cases h) fun r hr x hx => ?_).bind fun _ _ => hlen
    exact hmem r hr

/-! ### Selections in a run -/

section Run

variable {jobs : T → Step} {p : ℕ → Bool} {c c' : JobSystem T} {picks : List (T × List ℕ)}
  {log : List (Commit T RowKey JobReply)} {t : T} {l : List ℕ} {x n : ℕ}

/-- What the sweeps have selected, in their order.  Of the reservations with `p`, the ones that a
sweep has found are those that are due and that no earlier selection has taken. -/
inductive Selected (jobs : T → Step) (b : Db) (p : ℕ → Bool) : List (T × List ℕ) → Prop
  | nil : Selected jobs b p []
  | snoc {picks : List (T × List ℕ)} {t : T} {n : ℕ} {found : List ℕ} (h : Selected jobs b p picks)
      (ht : (jobs t).limit = some n)
      (hfound : found.filter p =
        (due (jobs t).env b).filter fun x => p x && picks.all fun s => x ∉ s.2) :
      Selected jobs b p (picks ++ [(t, found.take n)])

/-- The jobs keep to their footprints, and the sweeps to what they have selected. -/
structure Selections (jobs : T → Step) (b : Db) (p : ℕ → Bool) (c : JobSystem T)
    (picks : List (T × List ℕ)) : Prop where
  once : (picks.map Prod.fst).Nodup
  settling : ∀ t, (jobs t).limit = none →
    c.Keeps (fun k => ∀ x, k = .reservation x → (jobs t).target = some x) (fun _ => True) [] t
  waiting : ∀ t n, (jobs t).limit = some n → t ∉ picks.map Prod.fst →
    c.Selecting (jobs t).env (wanted (jobs t).env) n OfRows CountOf t
  picked : ∀ s ∈ picks, (jobs s.1).limit ≠ none ∧ c.Keeps (OfRows (s.2.map .reservation))
    (CountOf (s.2.map .reservation)) (s.2.map .reservation) s.1
  selected : Selected jobs b p picks

/-- A sweep that has counted all its rows has written all of them. -/
lemma Step.Committed.all_written {s : Step} {a : JobReply} {ws : List RowKey}
    (h : s.Committed cfg b a ws) (hs : s.limit = some n)
    (hws : ∀ k ∈ ws, OfRows (l.map .reservation) k) (ha : CountOf (l.map .reservation) a) (hx : x ∈ l) :
    .reservation x ∈ ws := by
  obtain ⟨Δ, hret, hwrote⟩ := h
  rw [Step.eq_of_limit hs] at hret
  obtain ⟨m, tr, rfl, hexp⟩ := Step.returns_sweep hret
  have hm := ha (by simp)
  cases hexp with
  | @mk d free rs hd hfree hrs hrow =>
    have hrsnd := nodup_of_batch hrs
    have hmem : ∀ y, .reservation y ∈ ws ↔ y ∈ rs.map Prod.fst := fun y => by
      rw [hwrote]
      simp only [Option.some.injEq, exists_eq_left']
      exact releaseChange_res_ne_none hrsnd
    have hsub : rs.map Prod.fst ⊆ l := fun y hy => by
      simpa using hws _ ((hmem y).mpr hy) y rfl
    have hlen : l.length ≤ (rs.map Prod.fst).length := by
      simp only [Sum.inl.injEq, Reply.count.injEq, List.length_map] at hm
      simp [hm]
    exact (hmem x).mpr (((List.subperm_of_subset hrsnd hsub).perm_of_length_le hlen).mem_iff.mpr hx)

namespace Selections

/-- The reservations that a job has locked. -/
lemma owner (h : Selections jobs b p c picks) (ho : c.owner (.reservation x) = some t) :
    (jobs t).target = some x ∨ ∃ s ∈ picks, s.1 = t ∧ x ∈ s.2 := by
  rcases hl : (jobs t).limit with _ | n
  · exact Or.inl ((h.settling t hl).confined.owned _ ho x rfl)
  by_cases ht : t ∈ picks.map Prod.fst
  · obtain ⟨s, hs, rfl⟩ := List.mem_map.mp ht
    exact Or.inr ⟨s, hs, rfl, by simpa using (h.picked s hs).2.confined.owned _ ho x rfl⟩
  · exact ((h.waiting t n hl ht).confined.owned _ ho).elim

/-- The reservations that a job has written. -/
lemma wrote (h : Selections jobs b p c picks) {cm : Commit T RowKey JobReply} (hcm : cm ∈ c.log)
    (hx : .reservation x ∈ cm.wrote) :
    (jobs cm.tid).target = some x ∨ ∃ s ∈ picks, s.1 = cm.tid ∧ x ∈ s.2 := by
  rcases hl : (jobs cm.tid).limit with _ | n
  · exact Or.inl (((h.settling _ hl).committed cm hcm rfl).2 _ hx x rfl)
  by_cases ht : cm.tid ∈ picks.map Prod.fst
  · obtain ⟨s, hs, hst⟩ := List.mem_map.mp ht
    exact Or.inr ⟨s, hs, hst, by simpa using ((h.picked s hs).2.committed cm hcm hst.symm).2 _ hx x rfl⟩
  · exact absurd rfl ((h.waiting _ n hl ht).uncommitted cm hcm)

/-- A reservation that a sweep has selected is locked, or written. -/
lemma taken [DecidableEq T] {iso : Isolation} {m : ℕ} (h : Selections jobs b p c picks)
    (hw : Working cfg b jobs log c.log d)
    (hr : RunWhile iso (fun t => (jobs t).env) (CountersFit jobs) (starting cfg b m jobs) c)
    (hend : ∀ t e, c.phase t ≠ .rolledBack e) {s : T × List ℕ} (hs : s ∈ picks) (hx : x ∈ s.2) :
    (∃ q, c.phase s.1 = .running q ∧ c.owner (.reservation x) = some s.1) ∨
      ∃ cm ∈ c.log, cm.tid = s.1 ∧ .reservation x ∈ cm.wrote := by
  obtain ⟨hl, hk⟩ := h.picked s hs
  rcases hp : c.phase s.1 with q | a | e
  · exact Or.inl ⟨q, rfl, (hk.running q hp).2 _ (List.mem_map_of_mem hx)⟩
  · obtain ⟨cm, hcm, htid⟩ := List.mem_map.mp (((order_of_run hr.reachable).2 s.1).mpr ⟨a, hp⟩)
    obtain ⟨n, hn⟩ := Option.ne_none_iff_exists'.mp hl
    obtain ⟨hcount, hwrote⟩ := hk.committed cm hcm htid
    exact Or.inr ⟨cm, hcm, htid, (hw.committed cm hcm).all_written (htid ▸ hn) hwrote hcount hx⟩
  · exact absurd hp (hend _ e)

/-- What a sweep finds, of the reservations that no confirmation or cancellation works on. -/
lemma found [DecidableEq T] {iso : Isolation} {m : ℕ} (h : Selections jobs b p c picks)
    (hp : ∀ x, p x = true ↔ ∀ t, (jobs t).target ≠ some x) (hnd : (log.map Commit.tid).Nodup)
    (hw : Working cfg b jobs log c.log d) (hres : c.db.reservations.get = d.reservations.get)
    (hlog : c.log <+: log)
    (hr : RunWhile iso (fun t => (jobs t).env) (CountersFit jobs) (starting cfg b m jobs) c)
    (hend : ∀ t e, c.phase t ≠ .rolledBack e) (hnew : t ∉ picks.map Prod.fst) :
    ((due (jobs t).env c.db).filter fun x => c.free t (.reservation x)).filter p =
      (due (jobs t).env b).filter fun x => p x && picks.all fun s => x ∉ s.2 := by
  classical
  -- a reservation that a committed job works on is not due
  have hdue : due (jobs t).env c.db =
      (due (jobs t).env b).filter fun x =>
        decide (∀ u ∈ c.log.map Commit.tid, ¬WorksOn jobs log u x) := by
    refine due_filter _ (fun x hx => ?_) fun x hx r hr => ?_
    · rw [hres]
      exact hw.worked.left x (of_decide_eq_true hx)
    rw [hres] at hr
    have := of_decide_eq_false hx
    simp only [not_forall, not_not] at this
    obtain ⟨u, hu, hwk⟩ := this
    exact hw.worked.gone u hu x hwk r hr
  rw [hdue, List.filter_filter, List.filter_filter]
  refine List.filter_congr fun x _ => ?_
  rcases hpx : p x with _ | _
  · simp
  have hpx := (hp x).mp hpx
  rw [Bool.eq_iff_iff]
  simp only [Bool.true_and, Bool.and_eq_true, decide_eq_true_eq, List.all_eq_true]
  constructor
  · rintro ⟨hfree, hleft⟩ s hs hx
    rcases h.taken hw hr hend hs hx with ⟨-, -, ho⟩ | ⟨cm, hcm, htid, hwr⟩
    · have hne : s.1 ≠ t := fun hst => hnew (List.mem_map.mpr ⟨s, hs, hst⟩)
      rcases free_iff.mp hfree with hn | hn
      · rw [hn] at ho
        cases ho
      · rw [hn] at ho
        exact hne (Option.some.inj ho).symm
    · exact hleft cm.tid (List.mem_map_of_mem hcm)
        ((worksOn_iff hnd (hlog.subset hcm) x).mpr (Or.inr hwr))
  · intro hall
    refine ⟨free_iff.mpr ?_, fun u hu hwk => ?_⟩
    · rcases ho : c.owner (.reservation x) with _ | u
      · exact Or.inl rfl
      · rcases h.owner ho with htar | ⟨s, hs, -, hx⟩
        · exact absurd htar (hpx u)
        · exact absurd hx (hall s hs)
    · obtain ⟨cm, hcm, rfl⟩ := List.mem_map.mp hu
      rcases (worksOn_iff hnd (hlog.subset hcm) x).mp hwk with htar | hwr
      · exact hpx _ htar
      · rcases h.wrote hcm hwr with htar | ⟨s, hs, -, hx⟩
        · exact hpx _ htar
        · exact hall s hs hx

lemma init {m : ℕ} (hs : ∀ t, (jobs t).Settling) :
    Selections jobs b p (starting cfg b m jobs) [] where
  once := List.nodup_nil
  settling t ht := by
    refine ⟨⟨by simp [starting, Conf.init], by simp [starting, Conf.init, Session.init],
      by simp [starting, Conf.init, Session.init]⟩, fun q hq => ?_, by simp [starting, Conf.init]⟩
    cases hq
    exact ⟨(hs t).within ht, by simp⟩
  waiting t n ht _ := by
    refine ⟨⟨by simp [starting, Conf.init], by simp [starting, Conf.init, Session.init],
      by simp [starting, Conf.init, Session.init]⟩, ⟨_, rfl, selects_sweep ht⟩,
      by simp [starting, Conf.init]⟩
  picked _ hs := by cases hs
  selected := .nil

section Act

variable [DecidableEq T] {iso : Isolation} {a : Act T}

/-- An action of the job `t`; if it still has to select its rows, it has not done so. -/
lemma act (h : Selections jobs b p c picks)
    (ha : RowTxn.act iso (fun t => (jobs t).env) c a = some c')
    (hothers : ∀ u, u ≠ t → c'.phase u = c.phase u ∧ c'.sess u = c.sess u ∧
      ∀ k, c'.owner k = some u ↔ c.owner k = some u)
    (hlog : ∀ cm ∈ c'.log, cm ∈ c.log ∨ cm.tid = t)
    (hsel : ∀ n, (jobs t).limit = some n → t ∉ picks.map Prod.fst →
      c'.Selecting (jobs t).env (wanted (jobs t).env) n OfRows CountOf t) :
    Selections jobs b p c' picks where
  once := h.once
  settling u hu := (h.settling u hu).act ha
  waiting u n hu hnew := by
    by_cases hut : u = t
    · subst hut
      exact hsel n hu hnew
    · obtain ⟨hphase, hsess, howner⟩ := hothers u hut
      exact (h.waiting u n hu hnew).frame hphase hsess howner
        fun cm hcm => (hlog cm hcm).imp_right fun htid hu => hut (hu.symm.trans htid)
  picked s hs := ⟨(h.picked s hs).1, (h.picked s hs).2.act ha⟩
  selected := h.selected

/-- The job `t` selects the rows that it works on. -/
lemma select {found : List ℕ} (h : Selections jobs b p c picks)
    (ha : RowTxn.act iso (fun t => (jobs t).env) c a = some c')
    (hothers : ∀ u, u ≠ t → c'.phase u = c.phase u ∧ c'.sess u = c.sess u ∧
      ∀ k, c'.owner k = some u ↔ c.owner k = some u)
    (hlog : ∀ cm ∈ c'.log, cm ∈ c.log ∨ cm.tid = t) (ht : (jobs t).limit = some n)
    (hnew : t ∉ picks.map Prod.fst)
    (hfound : found.filter p =
      (due (jobs t).env b).filter fun x => p x && picks.all fun s => x ∉ s.2)
    (hk : c'.Keeps (OfRows ((found.take n).map .reservation))
      (CountOf ((found.take n).map .reservation)) ((found.take n).map .reservation) t) :
    Selections jobs b p c' (picks ++ [(t, found.take n)]) where
  once := by
    rw [List.map_append]
    exact h.once.append (List.nodup_singleton t) (by simpa using hnew)
  settling u hu := (h.settling u hu).act ha
  waiting u m hu hout := by
    simp only [List.map_append, List.mem_append, not_or, List.map_singleton,
      List.mem_singleton] at hout
    obtain ⟨hphase, hsess, howner⟩ := hothers u hout.2
    exact (h.waiting u m hu hout.1).frame hphase hsess howner
      fun cm hcm => (hlog cm hcm).imp_right fun htid hu => hout.2 (hu.symm.trans htid)
  picked s hs := by
    rcases List.mem_append.mp hs with hs | hs
    · exact ⟨(h.picked s hs).1, (h.picked s hs).2.act ha⟩
    · rw [List.mem_singleton.mp hs]
      exact ⟨by simp [ht], hk⟩
  selected := h.selected.snoc ht hfound

end Act

end Selections

/-- In a run without failures, what the sweeps select. -/
theorem selections_of_run [DecidableEq T] {iso : Isolation} {m : ℕ} (hb : Consistent b)
    (hs : ∀ t, (jobs t).Settling) (hap : Apart jobs log) (hnd : (log.map Commit.tid).Nodup)
    (hp : ∀ x, p x = true ↔ ∀ t, (jobs t).target ≠ some x)
    (hr : RunWhile iso (fun t => (jobs t).env) (CountersFit jobs) (starting cfg b m jobs) c)
    (hlog : c.log <+: log) (hend : ∀ t e, c.phase t ≠ .rolledBack e) :
    ∃ picks, Selections jobs b p c picks := by
  induction hr with
  | init => exact ⟨[], .init hs⟩
  | @act c c' a hr ha hg ih =>
    obtain ⟨t, hat, ⟨q, hq⟩, hothers, hnew⟩ := act_others ha
    obtain ⟨new, hlog', -⟩ := log_of_act ha
    have hlog : c.log <+: log := (hlog' ▸ List.prefix_append c.log new).trans hlog
    have hend' : ∀ u e, c.phase u ≠ .rolledBack e := by
      intro u e hu
      by_cases hut : u = t
      · rw [hut, hq] at hu
        cases hu
      · exact hend u e ((hothers u hut).1.trans hu)
    obtain ⟨picks, h⟩ := ih hlog hend'
    by_cases hsel : ∃ n, (jobs t).limit = some n ∧ t ∉ picks.map Prod.fst
    · obtain ⟨n, ht, hout⟩ := hsel
      have hwait := h.waiting t n ht hout
      rcases hat with rfl | rfl
      · rcases hwait.step (fun _ k hk _ _ => hk) ha with hwait' | ⟨-, hk⟩
        · exact ⟨picks, h.act ha hothers hnew fun n' ht' _ => by
            rw [ht] at ht'
            cases ht'
            exact hwait'⟩
        · obtain ⟨d, hnear, hw⟩ := working_of_run hb hs hap hnd hr hlog
          have hpick : (c.sess t).pick (wanted (jobs t).env) n c.db (c.free t) =
              (((due (jobs t).env c.db).filter fun x => c.free t (.reservation x)).take n).map
                .reservation :=
            hwait.pick_eq.trans (expiredBatch_eq _ _ _ _)
          rw [hpick] at hk
          exact ⟨_, h.select ha hothers hnew ht hout (h.found hp hnd hw (reservations_of_near hnear) hlog hr hend' hout) hk⟩
      · simp only [RowTxn.act, hq, Option.some.injEq] at ha
        subst ha
        exact absurd (by simp [Conf.finish]) (hend t none)
    · exact ⟨picks, h.act ha hothers hnew fun n ht hout => absurd ⟨n, ht, hout⟩ hsel⟩

end Run

end InventoryReservation
