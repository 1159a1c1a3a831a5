/-
# Settlements and syncs that run at the same time

Confirmations, cancellations, sweeps and syncs share inventory rows.  If the counters that a job
needs up to date are so when it locks a row, the counters end as in a serial order: first the jobs
that are not sweeps, as they have committed, then the sweeps, as they have selected their
reservations.  A confirmation or a cancellation loads the inventory rows with its reservation,
before it locks them; it may then subtract from a value that is out of date.
-/
import InventoryReservation.Selections
import Mathlib.Data.List.Permutation

namespace InventoryReservation

open RowTxn ReservationService InventoryService

variable {T : Type} {cfg : Settings} {b d d' : Db} {jobs : T → Step} {p : ℕ → Bool} {t : T}
  {log : List (Commit T RowKey JobReply)} {picks : List (T × List ℕ)}

/-! ### What the jobs leave -/

namespace Worked

variable {avail : T → ℕ → ℤ → ℤ} {works : T → ℕ → Prop} {ts ts' : List T}

/-- A reservation counts for nothing once a job has worked on it. -/
lemma pending_eq (h : Worked b avail works ts d) (h' : Worked b avail works ts' d')
    (hmem : ∀ t, t ∈ ts ↔ t ∈ ts') (k x : ℕ) :
    (d.reservations.get x).elim 0 (Reservation.unitsIn .pending k) =
      (d'.reservations.get x).elim 0 (Reservation.unitsIn .pending k) := by
  have hzero : ∀ {d : Db}, (∀ r, d.reservations.get x = some r → r.status ≠ .pending) →
      (d.reservations.get x).elim 0 (Reservation.unitsIn .pending k) = 0 := by
    intro d hd
    rcases hr : d.reservations.get x with _ | r
    · rfl
    · simp [Reservation.unitsIn, hd r hr]
  by_cases hx : ∃ t ∈ ts, works t x
  · obtain ⟨t, ht, hw⟩ := hx
    rw [hzero (h.gone t ht x hw), hzero (h'.gone t ((hmem t).mp ht) x hw)]
  · have hout : ∀ t ∈ ts, ¬works t x := fun t ht hw => hx ⟨t, ht, hw⟩
    rw [h.left x hout, h'.left x fun t ht => hout t ((hmem t).mpr ht)]

/-- The counters depend on which jobs have run and on the order of those that change the available
stock. -/
theorem counters_eq (h : Worked b avail works ts d) (h' : Worked b avail works ts' d')
    (hmem : ∀ t, t ∈ ts ↔ t ∈ ts')
    (hav : ∀ k a, ts.foldl (fun a t => avail t k a) a = ts'.foldl (fun a t => avail t k a) a)
    (k : ℕ) : (d.inventory.get k).map Inventory.counters =
      (d'.inventory.get k).map Inventory.counters := by
  have hstock : (d.inventory.get k).map Inventory.qtyAvailable =
      (d'.inventory.get k).map Inventory.qtyAvailable := by
    rw [h.stock k, h'.stock k]
    simp only [hav]
  have hpend : d.unitsIn .pending k = d'.unitsIn .pending k :=
    Table.sum_congr fun x => h.pending_eq h' hmem k x
  have hint : d.isInternal k = d'.isInternal k :=
    (h.static.isInternal k).trans (h'.static.isInternal k).symm
  rcases hv : d.inventory.get k with _ | v <;> rcases hv' : d'.inventory.get k with _ | v' <;>
    simp only [hv, hv', Option.map_none, Option.map_some, reduceCtorEq] at hstock
  · rfl
  · have hres := h.sound.backed k v hv
    have hres' := h'.sound.backed k v' hv'
    rw [hpend, hint, h.units, ← h'.units, ← hres'] at hres
    simp [Inventory.counters, Option.some.inj hstock, hres]

end Worked

/-! ### The serial order -/

/-- The log of jobs that have all committed, each on reservations of its own. -/
structure Finished (cfg : Settings) (b : Db) (jobs : T → Step)
    (log : List (Commit T RowKey JobReply)) : Prop where
  settling : ∀ t, (jobs t).Settling
  apart : Apart jobs log
  once : (log.map Commit.tid).Nodup
  all : ∀ t, ∃ cm ∈ log, cm.tid = t
  committed : ∀ cm ∈ log, (jobs cm.tid).Committed cfg b cm.result cm.wrote

/-- The state in a serial run after the turns of `ts`. -/
abbrev Turns (b : Db) (jobs : T → Step) (log : List (Commit T RowKey JobReply)) (ts : List T)
    (d : Db) : Prop :=
  Worked b (fun t k a => (jobs t).avail b k a) (WorksOn jobs log) ts d

namespace Finished

variable {ts : List T}

/-- Of the jobs that are not sweeps, each works on the reservation that it is about. -/
lemma worksOn_iff_target (h : Finished cfg b jobs log) (hl : (jobs t).limit = none) (x : ℕ) :
    WorksOn jobs log t x ↔ (jobs t).target = some x := by
  obtain ⟨cm, hcm, rfl⟩ := h.all t
  obtain ⟨Δ, hret, hwrote⟩ := h.committed cm hcm
  rw [worksOn_iff h.once hcm x, hwrote]
  refine ⟨?_, Or.inl⟩
  rintro (hx | ⟨δ, rfl, hx⟩)
  · exact hx
  · exact (h.settling _).target_of_res hl hret hx

/-- The turn of one job: in a serial run it works on the same reservations. -/
lemma turn (h : Finished cfg b jobs log) (hd : Turns b jobs log ts d) (hnew : t ∉ ts)
    (hxs : ∀ a Δ, (jobs t).Returns cfg b (Rely.solo d) a Δ → ∀ y,
      WorksOn jobs log t y ↔ (jobs t).target = some y ∨ ∃ δ, Δ = some δ ∧ δ.res y ≠ none) :
    Turns b jobs log (ts ++ [t]) ((jobs t).serve cfg d) := by
  have hsees := hd.sees h.apart hnew
  have hsolo : ∀ d₁, (Rely.solo (K := RowKey) d).seen d₁ → (jobs t).Sees b d₁ := by
    rintro d₁ rfl
    exact hsees
  rcases (h.settling t).serves cfg hd.static with ⟨a, Δ, ws, hret, heff⟩ | ⟨e, he, -⟩
  · exact hd.step ((h.settling t).effected hret hsolo hsees heff (hxs a Δ hret))
  · -- the job has not raised beside the others
    obtain ⟨cm, hcm, rfl⟩ := h.all t
    obtain ⟨Δ, hret, -⟩ := h.committed cm hcm
    exact ((h.settling _).not_raises hret (fun _ hd => hd) hsees hd.sound.coherent he).elim

/-- The turns of jobs that are not sweeps. -/
lemma settlings (h : Finished cfg b jobs log) (ts us : List T) (hus : (ts ++ us).Nodup)
    (hlim : ∀ u ∈ us, (jobs u).limit = none) (hd : Turns b jobs log ts d) :
    Turns b jobs log (ts ++ us) (runSteps cfg d (us.map jobs)) := by
  induction us generalizing ts d with
  | nil =>
    rw [List.append_nil]
    exact hd
  | cons u us ih =>
    have hnew : u ∉ ts := fun hu => List.disjoint_of_nodup_append hus hu List.mem_cons_self
    have hl := hlim u List.mem_cons_self
    have hturn := h.turn hd hnew fun a Δ hret y => by
      rw [h.worksOn_iff_target hl]
      refine ⟨Or.inl, ?_⟩
      rintro (hy | ⟨δ, rfl, hy⟩)
      · exact hy
      · exact (h.settling u).target_of_res hl hret hy
    rw [List.append_cons] at hus ⊢
    exact ih _ hus (fun v hv => hlim v (List.mem_cons_of_mem _ hv)) hturn

/-- What is due after the jobs `ts`, if these are all jobs but the sweeps and some sweeps. -/
lemma due_eq (h : Finished cfg b jobs log) (hp : ∀ x, p x = true ↔ ∀ t, (jobs t).target ≠ some x)
    (hts : ∀ t, t ∈ ts ↔ (jobs t).limit = none)
    (hworks : ∀ s ∈ picks, ∀ x, WorksOn jobs log s.1 x ↔ x ∈ s.2) (env : Env)
    (hd : Turns b jobs log (ts ++ picks.map Prod.fst) d) :
    due env d = (due env b).filter fun x => p x && picks.all fun s => x ∉ s.2 := by
  have hiff : ∀ x, (p x && picks.all fun s => x ∉ s.2) = true ↔
      ∀ u ∈ ts ++ picks.map Prod.fst, ¬WorksOn jobs log u x := by
    intro x
    simp only [Bool.and_eq_true, hp, List.all_eq_true, decide_eq_true_eq]
    constructor
    · rintro ⟨htar, hall⟩ u hu hw
      rcases List.mem_append.mp hu with hu | hu
      · exact htar u ((h.worksOn_iff_target ((hts u).mp hu) x).mp hw)
      · obtain ⟨s, hs, rfl⟩ := List.mem_map.mp hu
        exact hall s hs ((hworks s hs x).mp hw)
    · refine fun hout => ⟨fun u hu => ?_, fun s hs hx => ?_⟩
      · have hl := (h.settling u).limit_of_target hu
        exact hout u (List.mem_append_left _ ((hts u).mpr hl)) (Or.inl hu)
      · exact hout s.1 (List.mem_append_right _ (List.mem_map_of_mem hs)) ((hworks s hs x).mpr hx)
  refine due_filter _ (fun x hx => hd.left x ((hiff x).mp hx)) fun x hx r hr => ?_
  have hnot := mt (hiff x).mpr (Bool.eq_false_iff.mp hx)
  simp only [not_forall, not_not] at hnot
  obtain ⟨u, hu, hw⟩ := hnot
  exact hd.gone u hu x hw r hr

/-- The turns of the sweeps, in the order of their selections. -/
lemma sweeps (h : Finished cfg b jobs log) (hp : ∀ x, p x = true ↔ ∀ t, (jobs t).target ≠ some x)
    (hts : ∀ t, t ∈ ts ↔ (jobs t).limit = none) (hd : Turns b jobs log ts d)
    (hsel : Selected jobs b p picks) (honce : (picks.map Prod.fst).Nodup)
    (hworks : ∀ s ∈ picks, ∀ x, WorksOn jobs log s.1 x ↔ x ∈ s.2) :
    Turns b jobs log (ts ++ picks.map Prod.fst)
      (runSteps cfg d ((picks.map Prod.fst).map jobs)) := by
  induction hsel with
  | nil =>
    rw [List.map_nil, List.append_nil]
    exact hd
  | @snoc picks t n found hsel ht hfound ih =>
    rw [List.map_append, List.map_singleton] at honce ⊢
    have hin : ∀ s ∈ picks, ∀ x, WorksOn jobs log s.1 x ↔ x ∈ s.2 := fun s hm =>
      hworks s (List.mem_append_left _ hm)
    have hturns := ih (List.Nodup.of_append_left honce) hin
    have hnew : t ∉ ts ++ picks.map Prod.fst := by
      intro hm
      rcases List.mem_append.mp hm with hm | hm
      · rw [(hts t).mp hm] at ht
        cases ht
      · exact List.disjoint_of_nodup_append honce hm (List.mem_singleton_self t)
    have hmine : ∀ x, WorksOn jobs log t x ↔ x ∈ found.take n :=
      hworks (t, found.take n) (by simp)
    have htarget : ∀ x, (jobs t).target ≠ some x := fun x hx => by
      rw [(h.settling t).limit_of_target hx] at ht
      cases ht
    -- nobody is about a reservation that the sweep has selected
    have hfree : ∀ x ∈ found.take n, p x = true := fun x hx => (hp x).mpr fun u hu => by
      obtain rfl := h.apart u t x (Or.inl hu) ((hmine x).mpr hx)
      exact htarget x hu
    have hdue := h.due_eq hp hts hin (jobs t).env hturns
    rw [← hfound] at hdue
    have hturn := h.turn hturns hnew fun a Δ hret y => by
      rw [Step.eq_of_limit ht] at hret
      obtain ⟨m, tr, rfl, hexp⟩ := Step.returns_sweep hret
      cases hexp with
      | @mk d₁ free rs hd₁ hfree₁ hrs hrow =>
        have hrsnd := nodup_of_batch hrs
        rw [seen_solo hd₁, show _ = _ from hfree₁, expiredBatch_eq, List.filter_true, hdue,
          take_filter p found n hfree] at hrs
        have hbatch : rs.map Prod.fst = found.take n :=
          RowKey.reservation_injective.list_map (by rw [List.map_map]; exact hrs)
        rw [hmine, ← hbatch]
        simp only [htarget, false_or, Option.some.injEq, exists_eq_left']
        exact (releaseChange_res_ne_none hrsnd).symm
    rw [List.map_append, ← List.append_assoc, runSteps, List.foldl_append]
    exact hturn

end Finished

/-! ### All orders of the steps -/

/-- Sweeps leave the available quantities alone. -/
lemma Step.avail_of_limit {s : Step} {n : ℕ} (h : s.limit = some n) (k : ℕ) (a : ℤ) :
    s.avail b k a = a := by
  rw [eq_of_limit h]
  rfl

/-- Sweeps do not matter for the available quantities, wherever they stand. -/
lemma avail_order {ts us : List T} (hus : ∀ u ∈ us, (jobs u).limit ≠ none) (k : ℕ) (a : ℤ) :
    ts.foldl (fun a t => (jobs t).avail b k a) a =
      (ts.filter (fun t => (jobs t).limit.isNone) ++ us).foldl (fun a t => (jobs t).avail b k a) a := by
  have hout : ∀ a, us.foldl (fun a t => (jobs t).avail b k a) a = a := by
    induction us with
    | nil => exact fun _ => rfl
    | cons u us ih =>
      intro a
      obtain ⟨m, hm⟩ := Option.ne_none_iff_exists'.mp (hus u List.mem_cons_self)
      rw [List.foldl_cons, Step.avail_of_limit hm]
      exact ih (fun v hv => hus v (List.mem_cons_of_mem _ hv)) a
  rw [List.foldl_append, hout, List.foldl_filter]
  congr 1
  funext a t
  rcases hl : (jobs t).limit with _ | m
  · rfl
  · exact Step.avail_of_limit hl k a

section Run

variable [DecidableEq T] {iso : Isolation} {n : ℕ} {c : JobSystem T}

/-- A sweep that has committed works on what it has selected. -/
lemma Selections.worksOn_iff (h : Selections jobs b p c picks) (hf : Finished cfg b jobs c.log)
    (hw : Working cfg b jobs c.log c.log d)
    (hr : RunWhile iso (fun t => (jobs t).env) (CountersFit jobs) (starting cfg b n jobs) c)
    (hend : ∀ t, ∃ a, c.phase t = .committed a) {s : T × List ℕ} (hs : s ∈ picks) (x : ℕ) :
    WorksOn jobs c.log s.1 x ↔ x ∈ s.2 := by
  constructor
  · intro hx
    obtain ⟨cm, hcm, hcs⟩ := hf.all s.1
    rw [← hcs, InventoryReservation.worksOn_iff hf.once hcm] at hx
    have htar : (jobs cm.tid).target ≠ some x := fun htar =>
      (h.picked s hs).1 (hcs ▸ (hf.settling _).limit_of_target htar)
    rcases hx with htar' | hx
    · exact absurd htar' htar
    · rcases h.wrote hcm hx with htar' | ⟨s', hs', hcs', hx'⟩
      · exact absurd htar' htar
      · rwa [← List.inj_on_of_nodup_map h.once hs' hs (hcs'.trans hcs)]
  · intro hx
    have hroll : ∀ t e, c.phase t ≠ .rolledBack e := fun t e ht => by
      obtain ⟨a, ha⟩ := hend t
      rw [ht] at ha
      cases ha
    rcases h.taken hw hr hroll hs hx with ⟨q, hq, -⟩ | hwrote
    · obtain ⟨a, ha⟩ := hend s.1
      rw [hq] at ha
      cases ha
    · exact Or.inr hwrote

/-- Once all jobs have committed, all sweeps have selected. -/
lemma Selections.mem_picks (h : Selections jobs b p c picks)
    (hend : ∀ t, ∃ a, c.phase t = .committed a) (t : T) :
    t ∈ picks.map Prod.fst ↔ (jobs t).limit ≠ none := by
  constructor
  · intro ht
    obtain ⟨s, hs, rfl⟩ := List.mem_map.mp ht
    exact (h.picked s hs).1
  · intro ht
    obtain ⟨m, hm⟩ := Option.ne_none_iff_exists'.mp ht
    by_contra hnew
    obtain ⟨q, hq, -⟩ := (h.waiting t m hm hnew).program
    obtain ⟨a, ha⟩ := hend t
    rw [hq] at ha
    cases ha

/-- If their counters fit, confirmations, cancellations, sweeps and syncs that work on different
reservations leave the counters of a serial order. -/
theorem settlements_serial (iso : Isolation) (cfg : Settings) (n : ℕ) {steps : List Step}
    (h0 : Blank d) (hu : Unreserved d) (hv : ∀ s ∈ steps, s.Valid) (hs : ∀ t, (jobs t).Settling)
    (hr : RunWhile iso (fun t => (jobs t).env) (CountersFit jobs)
      (starting cfg (runSteps cfg d steps) n jobs) c)
    (hall : ∀ t, t ∈ c.order) (hap : Apart jobs c.log) :
    ∃ order : List T, order.Perm c.order ∧ ∀ k, (c.db.inventory.get k).map Inventory.counters =
      ((runSteps cfg (runSteps cfg d steps) (order.map jobs)).inventory.get k).map
        Inventory.counters := by
  classical
  have hb : Consistent (runSteps cfg d steps) := consistent_of_steps (h0.consistent hu) hv
  obtain ⟨hnd, hmem⟩ := order_of_run hr.reachable
  have hend : ∀ t, ∃ a, c.phase t = .committed a := fun t => (hmem t).mp (hall t)
  obtain ⟨d', hnear, hw⟩ := working_of_run hb hs hap hnd hr (List.prefix_refl _)
  have hf : Finished cfg (runSteps cfg d steps) jobs c.log :=
    ⟨hs, hap, hnd, fun t => List.mem_map.mp (hall t), hw.committed⟩
  have hp : ∀ x, decide (∀ t, (jobs t).target ≠ some x) = true ↔ ∀ t, (jobs t).target ≠ some x :=
    fun x => decide_eq_true_iff
  obtain ⟨picks, hsel⟩ := selections_of_run hb hs hap hnd hp hr (List.prefix_refl _) fun t e ht => by
    obtain ⟨a, ha⟩ := hend t
    rw [ht] at ha
    cases ha
  have hpicks := hsel.mem_picks hend
  have hlim : ∀ t, t ∈ c.order.filter (fun t => (jobs t).limit.isNone) ↔ (jobs t).limit = none := by
    simp [hall]
  -- first the jobs that are not sweeps, then the sweeps
  have hfirst := hf.settlings [] (c.order.filter fun t => (jobs t).limit.isNone)
    (hnd.filter _) (fun t ht => (hlim t).mp ht) (.init hb)
  have hturns := hf.sweeps hp hlim hfirst hsel.selected hsel.once fun s hs x =>
    hsel.worksOn_iff hf hw hr hend hs x
  have hperm : (c.order.filter (fun t => (jobs t).limit.isNone) ++ picks.map Prod.fst).Perm
      c.order := by
    refine (List.perm_ext_iff_of_nodup ((hnd.filter _).append hsel.once fun t ht ht' => ?_) hnd).mpr
      fun t => ?_
    · exact (hpicks t).mp ht' ((hlim t).mp ht)
    · rw [List.mem_append, hlim, hpicks]
      simp [hall, em]
  refine ⟨_, hperm, fun k => (counters_of_near hnear k).trans ?_⟩
  rw [List.map_append, runSteps, List.foldl_append]
  exact hw.worked.counters_eq hturns (fun t => hperm.mem_iff.symm)
    (fun k a => avail_order (fun u hu => (hpicks u).mp hu) k a) k

end Run

/-! ### Three jobs on one row, two confirmations -/

lemma worksOn_map (jobs : T → Step) (log : List (Commit T RowKey JobReply)) (t : T) (x : ℕ) :
    WorksOn jobs log t x ↔ (jobs t).target = some x ∨
      ∃ w ∈ log.map fun cm => (cm.tid, cm.wrote), w.1 = t ∧ .reservation x ∈ w.2 := by
  simp [WorksOn]

/-- Lamps are reserved twice. -/
def lampsTwice : List Step :=
  [.call ⟨.create "ada" [⟨2, 3⟩], calm 0⟩, .call ⟨.create "bob" [⟨2, 2⟩], calm 0⟩]

/-- The reservations have expired, and the second one is visited first. -/
def secondFirst : Env
  | .scan => [2]
  | q => calm 900000001 q

inductive LampJob
  | sync
  | cancel
  | sweep
deriving DecidableEq

/-- The partner has seven of everything, the first reservation is cancelled, and a sweep takes the
second one. -/
def LampJob.step : LampJob → Step
  | sync => .sync 2 (replying (inStock 7) 5)
  | cancel => .call ⟨.cancel 1, calm 5⟩
  | sweep => .call ⟨.expireBatch 1, secondFirst⟩

/-- The cancellation and the sweep change the row of the lamps after the sync has loaded it and
before the sync sends its changes. -/
def settledInSync : List (Act LampJob) :=
  List.replicate 13 (.step .sync) ++ List.replicate 3 (.step .sweep) ++
    List.replicate 13 (.step .cancel) ++ List.replicate 12 (.step .sweep) ++
    List.replicate 5 (.step .sync)

theorem settlements_serial_lamps : ∃ c : JobSystem LampJob, c.order = [.cancel, .sweep, .sync] ∧
    (c.db.inventory.get 2).map Inventory.counters = some (7, 0) ∧
    ∃ order : List LampJob, order.Perm c.order ∧ ∀ k,
      (c.db.inventory.get k).map Inventory.counters =
        ((runSteps quarter (runSteps quarter shop lampsTwice)
          (order.map LampJob.step)).inventory.get k).map Inventory.counters := by
  have hrun : (replayIf (countersFit LampJob.step) .repeatableRead (fun t => t.step.env)
      (starting quarter (runSteps quarter shop lampsTwice) 3 LampJob.step) settledInSync).map
        (fun c => (c.log.map (fun cm => (cm.tid, cm.wrote)),
          (c.db.inventory.get 2).map Inventory.counters)) =
      some ([(.cancel, [.inventory 2, .reservation 1]), (.sweep, [.inventory 2, .reservation 2]),
        (.sync, [.inventory 2, .inventory 3])], some (7, 0)) := by
    rfl
  obtain ⟨c, hc, hrun⟩ := Option.map_eq_some_iff.mp hrun
  simp only [Prod.mk.injEq] at hrun
  obtain ⟨hlog, hrow⟩ := hrun
  have horder : c.order = [.cancel, .sweep, .sync] := by
    have := congrArg (List.map Prod.fst) hlog
    rwa [List.map_map] at this
  have h := runWhile_of_replay (C := CountersFit LampJob.step)
    (fun _ _ => countersFit_of_test) .init hc
  refine ⟨c, horder, hrow, settlements_serial .repeatableRead quarter 3 shop_blank shop_unreserved
    ?_ ?_ h (fun t => ?_) fun t u x ht hu => ?_⟩
  · intro s hs
    rcases List.mem_cons.mp hs with rfl | hs
    · exact ⟨by decide, by decide⟩
    · rw [List.mem_singleton.mp hs]
      exact ⟨by decide, by decide⟩
  · intro t
    cases t with
    | sync => exact .sync 2 _
    | cancel => exact .cancel 1 _
    | sweep => exact .sweep 1 _
  · rw [horder]
    cases t <;> decide
  · rw [worksOn_map, hlog] at ht hu
    cases t <;> cases u <;>
      first | rfl | (simp [LampJob.step, Step.target] at ht hu; try omega)

/-- Both reservations are paid. -/
def payBoth (t : Bool) : Step := .call ⟨.confirm (if t then 1 else 2), calm 5⟩

/-- The second payment commits after the first one has loaded its reservation, and with it the row
of the lamps. -/
def paymentBetween : List (Act Bool) :=
  List.replicate 4 (.step true) ++ List.replicate 19 (.step false) ++ List.replicate 15 (.step true)

/-- Five lamps are sold and three leave the stock: the first payment subtracts from the counters that
it has loaded before the second one. -/
theorem settlement_lost : Blank shop ∧ Unreserved shop ∧ (∀ s ∈ lampsTwice, s.Valid) ∧
    (∀ t, (payBoth t).Settling) ∧ ∃ c : JobSystem Bool,
      Reachable .repeatableRead (fun t => (payBoth t).env)
        (starting quarter (runSteps quarter shop lampsTwice) 3 payBoth) c ∧
      (∀ t, t ∈ c.order) ∧ Apart payBoth c.log ∧
      ¬∃ order : List Bool, order.Perm c.order ∧ ∀ k,
        (c.db.inventory.get k).map Inventory.counters =
          ((runSteps quarter (runSteps quarter shop lampsTwice) (order.map payBoth)).inventory.get
            k).map Inventory.counters := by
  have hrun : (exec .repeatableRead (fun t => (payBoth t).env)
      (starting quarter (runSteps quarter shop lampsTwice) 3 payBoth) paymentBetween).map (fun c =>
        (c.log.map (fun cm => (cm.tid, cm.wrote)), (c.db.inventory.get 2).map Inventory.counters)) =
      some ([(false, [.inventory 2, .reservation 2, .order 2]),
        (true, [.inventory 2, .reservation 1, .order 1])], some (7, 2)) := by
    rfl
  obtain ⟨c, hc, hrun⟩ := Option.map_eq_some_iff.mp hrun
  simp only [Prod.mk.injEq] at hrun
  obtain ⟨hlog, hrow⟩ := hrun
  have horder : c.order = [false, true] := by
    have := congrArg (List.map Prod.fst) hlog
    rwa [List.map_map] at this
  refine ⟨shop_blank, shop_unreserved, ?_, fun t => .confirm _ _, c, reachable_of_exec .init hc,
    by simp [horder], fun t u x ht hu => ?_, ?_⟩
  · intro s hs
    rcases List.mem_cons.mp hs with rfl | hs
    · exact ⟨by decide, by decide⟩
    · rw [List.mem_singleton.mp hs]
      exact ⟨by decide, by decide⟩
  · rw [worksOn_map, hlog] at ht hu
    cases t <;> cases u <;> first | rfl | (simp [payBoth, Step.target] at ht hu; omega)
  · rintro ⟨order, hperm, hrows⟩
    -- in either order both payments subtract
    have hserial : ∀ order ∈ [false, true].permutations',
        ((runSteps quarter (runSteps quarter shop lampsTwice) (order.map payBoth)).inventory.get
          2).map Inventory.counters = some (5, 0) := by
      decide +kernel
    have := hrows 2
    rw [hrow, hserial order (List.mem_permutations'.mpr (horder ▸ hperm))] at this
    cases this

end InventoryReservation
