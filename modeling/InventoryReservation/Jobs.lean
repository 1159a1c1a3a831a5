/-
# Settlements and syncs as one kind of job

Confirmations, cancellations, sweeps and syncs that run at the same time.  What a job does to the
stock that is available is a function of the database that all of them start from; what is
reserved follows from the reservations that are still pending.  So the state that some jobs leave
depends on the reservations they have settled and on the order of those that change the available
stock.
-/
import InventoryReservation.SyncPromises
import InventoryReservation.Concurrent
import Mathlib.Data.List.Sort

namespace InventoryReservation

open RowTxn ReservationService InventoryService

variable {cfg : Settings} {b d d' d₀ : Db}

/-! ### What a job does -/

/-- The units of a reservation on a row, if it is pending. -/
def pendingOn (b : Db) (x k : ℕ) : ℤ :=
  (b.reservations.get x).elim 0 (Reservation.unitsIn .pending k)

/-- What a sync of the provider overwrites. -/
def synced (b : Db) (env : Env) (pid : ℕ) (k : ℕ) : Option (ℤ × ℤ) :=
  match b.providers.get pid with
  | none => none
  | some p => if p.type = .external then syncedTo env b p (rowsOf b pid) k else none

/-- What a job does to the available quantity of a row, if all start from `b`. -/
def Step.avail (b : Db) (k : ℕ) (a : ℤ) : Step → ℤ
  | .call ⟨.confirm x, _⟩ | .call ⟨.paymentOutcome x .success, _⟩ => a - pendingOn b x k
  | .call _ => a
  | .sync pid env => ((synced b env pid k).map Prod.fst).getD a

/-- A job that settles the reservations in `xs` leads from `d` to `d'`; `avail` is what it does to
the available quantities. -/
inductive Effected (b : Db) (avail : ℕ → ℤ → ℤ) (xs : ℕ → Prop) (d d' : Db) : Prop
  | confirm {x : ℕ} {r : Reservation} (hr : d.reservations.get x = some r)
      (hst : r.status = .pending) (hxs : ∀ y, xs y ↔ y = x)
      (hav : ∀ k a, avail k a = a - pendingOn b x k) (ha : (confirmChange x r).Applies d d')
  | release {rs : List (ℕ × Reservation)} {status : ReservationStatus}
      (hs : status = .cancelled ∨ status = .expired) (hnd : (rs.map Prod.fst).Nodup)
      (hst : ∀ r ∈ rs, r.2.status = .pending) (hxs : ∀ y, xs y ↔ y ∈ rs.map Prod.fst)
      (hav : ∀ k a, avail k a = a) (ha : (releaseChange (max 0) status rs).Applies d d')
  | noop (hxs : ∀ y, xs y → ∀ r, d.reservations.get y = some r → r.status ≠ .pending)
      (hav : ∀ k a, avail k a = a) (hd : d' = d)
  | sync {f : ℕ → Option (ℤ × ℤ)} (hxs : ∀ y, ¬xs y)
      (hav : ∀ k a, avail k a = ((f k).map Prod.fst).getD a) (ha : (syncChange f).Applies d d')

/-- The state after the jobs `ts`: the reservations that one of them works on are settled, the
others are as in `b`, and the available quantities have gone through the jobs in their order. -/
structure Worked {T : Type} (b : Db) (avail : T → ℕ → ℤ → ℤ) (works : T → ℕ → Prop)
    (ts : List T) (d : Db) : Prop where
  static : Static b d
  sound : Consistent d
  left : ∀ x, (∀ t ∈ ts, ¬works t x) → d.reservations.get x = b.reservations.get x
  gone : ∀ t ∈ ts, ∀ x, works t x → ∀ r, d.reservations.get x = some r → r.status ≠ .pending
  units : ∀ k, d.units k = b.units k
  stock : ∀ k, (d.inventory.get k).map Inventory.qtyAvailable =
    ((b.inventory.get k).map Inventory.qtyAvailable).map fun a => ts.foldl (fun a t => avail t k a) a

namespace Worked

variable {T : Type} {avail : T → ℕ → ℤ → ℤ} {works : T → ℕ → Prop} {ts : List T} {t : T}

lemma init (h : Consistent b) : Worked b avail works [] b where
  static := .refl b
  sound := h
  left _ _ := rfl
  gone _ ht := by cases ht
  units _ := rfl
  stock k := by
    rw [Option.map_map]
    rfl

/-- A reservation that is pending is as it was. -/
lemma of_pending (h : Worked b avail works ts d) {x : ℕ} {r : Reservation}
    (hr : d.reservations.get x = some r) (hst : r.status = .pending) :
    b.reservations.get x = some r := by
  rw [← h.left x fun t ht hx => h.gone t ht x hx r hr hst, hr]

/-- One more job, by what it does to the reservations and to the available quantities. -/
lemma add (h : Worked b avail works ts d) (hd : Static d d') (hs : Consistent d')
    (hout : ∀ x, ¬works t x → d'.reservations.get x = d.reservations.get x)
    (hgone : ∀ x, works t x → ∀ r, d'.reservations.get x = some r → r.status ≠ .pending)
    (hunits : ∀ k, d'.units k = d.units k)
    (hstock : ∀ k, (d'.inventory.get k).map Inventory.qtyAvailable =
      ((d.inventory.get k).map Inventory.qtyAvailable).map (avail t k)) :
    Worked b avail works (ts ++ [t]) d' where
  static := h.static.trans hd
  sound := hs
  left x hx := by
    rw [hout x (hx t (by simp)), h.left x fun u hu => hx u (by simp [hu])]
  gone u hu x hx r hr := by
    by_cases ht : works t x
    · exact hgone x ht r hr
    · rw [hout x ht] at hr
      rcases List.mem_append.mp hu with hu | hu
      · exact h.gone u hu x hx r hr
      · rw [List.mem_singleton.mp hu] at hx
        exact absurd hx ht
  units k := (hunits k).trans (h.units k)
  stock k := by
    rw [hstock k, h.stock k, Option.map_map]
    congr 1
    funext a
    simp

/-- The reservation `x` is confirmed. -/
lemma confirm (h : Worked b avail works ts d) {x : ℕ} {r : Reservation}
    (hr : d.reservations.get x = some r) (hst : r.status = .pending) (hxs : ∀ y, works t y ↔ y = x)
    (hav : ∀ k a, avail t k a = a - pendingOn b x k) (ha : (confirmChange x r).Applies d d') :
    Worked b avail works (ts ++ [t]) d' := by
  have hlaw : (confirmChange x r).Lawful d (max 0) := .confirm hst
  have hpend : pendingOn b x = fun k => qtyOn k r.items := by
    funext k
    simp [pendingOn, h.of_pending hr hst, Reservation.unitsIn, hst]
  refine h.add (hlaw.static ha) (h.sound.applies (.refl d) hlaw ?_ ha) (fun y hy => ?_)
    (fun y hy r' hr' => ?_) (fun k => (units_confirm k hst ha).2.2) fun k => ?_
  · intro y r' hy
    obtain ⟨-, hn, -⟩ := confirmChange_res hy
    cases hn
  · refine ha.res_out y ?_
    rcases hres : (confirmChange x r).res y with _ | ⟨o, r'⟩
    · rfl
    · exact absurd ((hxs y).mpr (confirmChange_res hres).1) hy
  · obtain rfl := (hxs y).mp hy
    rw [(ha.res y (some r) r.confirmed (by simp [confirmChange])).2] at hr'
    cases hr'
    exact fun h => by cases h
  · rw [ha.stock k]
    rcases d.inventory.get k with _ | v
    · rfl
    · have hstock : (confirmChange x r).stock k v = consumed r.items k v := rfl
      simp [hstock, consumed_eq, hav, hpend]

/-- The reservations `rs` are released. -/
lemma release (h : Worked b avail works ts d) {rs : List (ℕ × Reservation)}
    {status : ReservationStatus} (hs : status = .cancelled ∨ status = .expired)
    (hnd : (rs.map Prod.fst).Nodup) (hst : ∀ r ∈ rs, r.2.status = .pending)
    (hxs : ∀ y, works t y ↔ y ∈ rs.map Prod.fst) (hav : ∀ k a, avail t k a = a)
    (ha : (releaseChange (max 0) status rs).Applies d d') :
    Worked b avail works (ts ++ [t]) d' := by
  have hlaw : (releaseChange (max 0) status rs).Lawful d (max 0) := .release hs hnd hst
  have hpos : (releaseChange (max 0) status rs).Positive := by
    intro y r' hy
    obtain ⟨_, -, hn, -⟩ := mem_of_releaseChange_res hnd hy
    cases hn
  have hsound := h.sound.applies (.refl d) hlaw hpos ha
  refine h.add (hlaw.static ha) hsound (fun y hy => ?_)
    (fun y hy r' hr' => ?_) (fun k => (units_release k hs hnd hst ha).2.2) fun k => ?_
  · exact ha.res_out y (releaseChange_res_of_not_mem fun hm => hy ((hxs y).mpr hm))
  · obtain ⟨⟨z, r⟩, hr, rfl⟩ := List.mem_map.mp ((hxs y).mp hy)
    rw [(ha.res z _ _ (releaseChange_res_of_mem hnd hr)).2] at hr'
    cases hr'
    rcases hs with rfl | rfl <;> exact fun h => by cases h
  · rw [ha.stock k]
    rcases hv : d.inventory.get k with _ | v
    · rfl
    · have hstock := (h.sound.backed.release_stock h.sound.coherent h.sound.positive
        hsound.positive hs hnd hst ha clamps_max hv).2
      simp [hstock, hav]

/-- The available quantities of some rows are overwritten. -/
lemma sync (h : Worked b avail works ts d) {f : ℕ → Option (ℤ × ℤ)} (hxs : ∀ y, ¬works t y)
    (hav : ∀ k a, avail t k a = ((f k).map Prod.fst).getD a) (ha : (syncChange f).Applies d d') :
    Worked b avail works (ts ++ [t]) d' := by
  refine h.add (static_of_sync ha) (h.sound.sync ha)
    (fun y _ => reservations_of_sync ha y) (fun y hy => absurd hy (hxs y))
    (fun k => sum_of_sync ha _) fun k => ?_
  rw [ha.stock k]
  rcases d.inventory.get k with _ | v
  · rfl
  · have hstock : (syncChange f).stock k v = v.sync (f k) := rfl
    rcases hk : f k with _ | ⟨qty, now⟩ <;> simp [hstock, hav, hk, Inventory.sync]

theorem step (h : Worked b avail works ts d) (he : Effected b (avail t) (works t) d d') :
    Worked b avail works (ts ++ [t]) d' := by
  cases he with
  | confirm hr hst hxs hav ha => exact h.confirm hr hst hxs hav ha
  | release hs hnd hst hxs hav ha => exact h.release hs hnd hst hxs hav ha
  | noop hxs hav hd =>
    subst hd
    refine h.add (.refl d') h.sound (fun _ _ => rfl) hxs (fun _ => rfl) fun k => ?_
    rcases d'.inventory.get k with _ | v <;> simp [hav]
  | sync hxs hav ha => exact h.sync hxs hav ha

end Worked

/-! ### Jobs as transactions -/

/-- What a job answers. -/
abbrev JobReply : Type := Reply ⊕ SyncReport

namespace Step

def env : Step → Env
  | .call q => q.env
  | .sync _ env => env

def program (cfg : Settings) : Step → Svc JobReply
  | .call q => do
    let a ← q.op.programBy (max 0) cfg
    return .inl a
  | .sync pid _ => do
    let report ← syncFromProvider pid
    return .inr report

def transaction (cfg : Settings) (s : Step) : Svc JobReply := (s.program cfg).commit .integrityError

/-- The reservation that a confirmation or a cancellation is about. -/
def target : Step → Option ℕ
  | .call ⟨.confirm x, _⟩ | .call ⟨.cancel x, _⟩ => some x
  | _ => none

/-- The reservations that a sweep selects at most, for a job that is a sweep. -/
def limit : Step → Option ℕ
  | .call ⟨.expireBatch limit, _⟩ => some limit
  | _ => none

lemma eq_of_limit {s : Step} {n : ℕ} (h : s.limit = some n) :
    s = .call ⟨.expireBatch n, s.env⟩ := by
  unfold limit at h
  split at h
  · cases h
    rfl
  · cases h

/-- A confirmation, a cancellation, a sweep or a sync. -/
inductive Settling : Step → Prop
  | confirm (x : ℕ) (env : Env) : Settling (.call ⟨.confirm x, env⟩)
  | cancel (x : ℕ) (env : Env) : Settling (.call ⟨.cancel x, env⟩)
  | sweep (limit : ℕ) (env : Env) : Settling (.call ⟨.expireBatch limit, env⟩)
  | sync (pid : ℕ) (env : Env) : Settling (.sync pid env)

/-- What a job answers and changes. -/
def Returns (cfg : Settings) (b : Db) (R : Rely Db RowKey) : Step → JobReply → Option Change → Prop
  | .call q, .inl a, Δ => ∃ tr, q.op.Returns (max 0) cfg q.env b R a tr Δ
  | .sync pid env, .inr report, Δ => ∃ f, Syncs env b R.seen pid report f ∧ Δ = some (syncChange f)
  | _, _, _ => False

/-- What a job raises. -/
def Raises (cfg : Settings) (b : Db) (R : Rely Db RowKey) : Step → PyErr → Prop
  | .call q, e => ∃ tr, q.op.Raises cfg q.env b R e tr
  | .sync pid env, e => SyncRaises env b R.seen pid e

variable {s : Step} {R : Rely Db RowKey}

lemma Settling.distinct {q : ServiceCall} (h : (Step.call q).Settling) : q.op.Distinct := by
  cases h <;> trivial

/-- The program of a job, against the others. -/
theorem Settling.meets (h : s.Settling) (hR : Steady b R) (cfg : Settings) :
    wp R s.env (s.program cfg) (fun a σ H => ∃ Δ, s.Returns cfg b R a Δ ∧
      ∀ d d' ws, Static b d → Settled R.guard σ H d d' ws → Effect d d' ws Δ ∧ (Δ = none → ws = []))
      (fun _ _ _ => True) Session.init fun _ => none := by
  cases s with
  | call q =>
    rw [program, Prog.bind_eq, wp_bind]
    refine wp_mono (fun a σ H ⟨Δ, hret, hp⟩ => ⟨Δ, ⟨_, hret⟩, fun d d' ws hd hs => ⟨?_, ?_⟩⟩)
      (fun _ _ _ _ => trivial) (q.op.meets hR (max 0) cfg h.distinct)
    · exact hp.effect (fun δ hδ => (hδ ▸ hret : q.op.Returns _ cfg _ b _ a _ (some δ)).proper)
        hR.guard hd hs
    · rintro rfl
      exact hp.wrote_nothing hs
  | sync pid env =>
    rw [program, Prog.bind_eq, wp_bind]
    refine wp_mono (fun a σ H ⟨f, hsync, hs⟩ => ⟨some (syncChange f), ⟨f, hsync, rfl⟩,
      fun d d' ws _ hset => ⟨hs.commits hR.guard hset, fun h => by cases h⟩⟩)
      (fun _ _ _ _ => trivial) (sync_spec hR pid)

/-- A job that runs alone. -/
theorem Settling.serves (h : s.Settling) (cfg : Settings) (hd : Static b d) :
    (∃ a Δ ws, s.Returns cfg b (Rely.solo d) a Δ ∧ Effect d (s.serve cfg d) ws Δ) ∨
      ∃ e, s.Raises cfg b (Rely.solo d) e ∧ s.serve cfg d = d := by
  cases s with
  | call q =>
    rcases Op.transact h.distinct (max 0) cfg q.env hd with ⟨a, Δ, ws, hret, -, heff⟩ | ⟨e, he, -, hdb⟩
    · exact Or.inl ⟨.inl a, Δ, ws, ⟨_, hret⟩, heff⟩
    · exact Or.inr ⟨e, ⟨_, he⟩, hdb⟩
  | sync pid env =>
    rcases sync_transact env hd pid with ⟨report, f, ws, hs, -, hc⟩ | ⟨e, he, -, hdb⟩
    · exact Or.inl ⟨.inr report, some (syncChange f), ws, ⟨f, hs, rfl⟩, hc⟩
    · exact Or.inr ⟨e, he, hdb⟩

/-- What a job may see before its own commit, if no other one works on its reservation. -/
structure Sees (b : Db) (s : Step) (d : Db) : Prop where
  static : Static b d
  target : ∀ x, s.target = some x → d.reservations.get x = b.reservations.get x

end Step

lemma rowsOf_static (hd : Static b d) (pid : ℕ) : rowsOf d pid = rowsOf b pid := by
  refine (d.inventory.pairwise_ids _).eq_of_mem_iff (b.inventory.pairwise_ids _) fun k => ?_
  show k ∈ rowsOf d pid ↔ k ∈ rowsOf b pid
  rw [mem_rowsOf, mem_rowsOf]
  have hk := hd.stock k
  constructor
  · rintro ⟨v, hv, hp⟩
    rw [hv] at hk
    obtain ⟨w, hw, hid⟩ := Option.map_eq_some_iff.mp hk.symm
    exact ⟨w, hw, (congrArg Prod.snd hid).trans hp⟩
  · rintro ⟨w, hw, hp⟩
    rw [hw] at hk
    obtain ⟨v, hv, hid⟩ := Option.map_eq_some_iff.mp hk
    exact ⟨v, hv, (congrArg Prod.snd hid).trans hp⟩

lemma Syncs.eq_synced {env : Env} {seen : Db → Prop} {pid : ℕ} {report : SyncReport}
    {f : ℕ → Option (ℤ × ℤ)} (h : Syncs env b seen pid report f) (hs : ∀ d, seen d → Static b d) :
    f = synced b env pid := by
  funext k
  cases h with
  | rows hd hp _ htype => rw [rowsOf_static (hs _ hd), synced, hp]; simp [htype]
  | internal hp _ htype => rw [synced, hp]; simp [htype]

lemma releaseChange_res_ne_none {clamp : ℤ → ℤ} {status : ReservationStatus}
    {rs : List (ℕ × Reservation)} (hnd : (rs.map Prod.fst).Nodup) {y : ℕ} :
    (releaseChange clamp status rs).res y ≠ none ↔ y ∈ rs.map Prod.fst := by
  constructor
  · intro hy
    by_contra hmem
    exact hy (releaseChange_res_of_not_mem hmem)
  · intro hy
    obtain ⟨⟨z, r⟩, hr, rfl⟩ := List.mem_map.mp hy
    simp [releaseChange_res_of_mem hnd hr]

namespace Step

variable {s : Step} {R R' : Rely Db RowKey} {a : JobReply} {Δ : Option Change} {e : PyErr}

section Results

variable {x limit pid : ℕ} {env : Env}

lemma returns_confirm (h : (Step.call ⟨.confirm x, env⟩).Returns cfg b R a Δ) :
    ∃ o tr, Confirms cfg env b R.seen x o tr Δ := by
  rcases a with a | report
  · obtain ⟨tr, h⟩ := h
    obtain ⟨o, -, h⟩ := Op.Returns.confirm h
    exact ⟨o, tr, h⟩
  · exact h.elim

lemma returns_cancel (h : (Step.call ⟨.cancel x, env⟩).Returns cfg b R a Δ) :
    ∃ tr, Cancels env b R.seen (max 0) x () tr Δ := by
  rcases a with a | report
  · obtain ⟨tr, h⟩ := h
    exact ⟨tr, (Op.Returns.cancel h).2⟩
  · exact h.elim

lemma returns_sweep (h : (Step.call ⟨.expireBatch limit, env⟩).Returns cfg b R a Δ) :
    ∃ n tr, a = .inl (.count n) ∧ Expires env b R (max 0) limit n tr Δ := by
  rcases a with a | report
  · obtain ⟨tr, h⟩ := h
    obtain ⟨n, rfl, h⟩ := Op.Returns.expire h
    exact ⟨n, tr, rfl, h⟩
  · exact h.elim

lemma returns_sync (h : (Step.sync pid env).Returns cfg b R a Δ) :
    ∃ report f, Syncs env b R.seen pid report f ∧ Δ = some (syncChange f) := by
  rcases a with a | report
  · exact h.elim
  · exact ⟨report, h⟩

end Results

lemma Settling.limit_of_target (h : s.Settling) {x : ℕ} (hx : s.target = some x) : s.limit = none := by
  cases h with
  | sweep limit env => cases hx
  | _ => rfl

/-- Only a sweep changes a reservation that it is not about. -/
lemma Settling.target_of_res (h : s.Settling) (hl : s.limit = none) {δ : Change}
    (hret : s.Returns cfg b R a (some δ)) {y : ℕ} (hy : δ.res y ≠ none) : s.target = some y := by
  cases h with
  | confirm x env =>
    obtain ⟨o, tr, hs⟩ := returns_confirm hret
    cases hs
    obtain ⟨bc, hbc⟩ := Option.ne_none_iff_exists'.mp hy
    rw [(confirmChange_res hbc).1]
    rfl
  | cancel x env =>
    obtain ⟨tr, hs⟩ := returns_cancel hret
    cases hs
    by_contra hn
    have hne : y ≠ x := fun hyx => hn (by rw [hyx]; rfl)
    exact hy (releaseChange_res_of_not_mem (by simpa using hne))
  | sweep limit env => cases hl
  | sync pid env =>
    obtain ⟨report, f, -, hδ⟩ := returns_sync hret
    cases hδ
    exact absurd rfl hy

/-- A job does to the database what its reservation and its provider say. -/
theorem Settling.effected (h : s.Settling) (hret : s.Returns cfg b R a Δ)
    (hR : ∀ d, R.seen d → s.Sees b d) (hd : s.Sees b d) {ws : List RowKey}
    (heff : Effect d d' ws Δ) {xs : ℕ → Prop}
    (hxs : ∀ y, xs y ↔ s.target = some y ∨ ∃ δ, Δ = some δ ∧ δ.res y ≠ none) :
    Effected b (fun k a => s.avail b k a) xs d d' := by
  have hsame : ∀ x, s.target = some x → ∀ d₁, R.seen d₁ →
      d₁.reservations.get x = d.reservations.get x :=
    fun x hx d₁ hd₁ => ((hR d₁ hd₁).target x hx).trans (hd.target x hx).symm
  -- a job that works on its own reservation only
  have hone : ∀ {x}, s.limit = none → s.target = some x → ∀ y, xs y ↔ y = x := by
    intro x hl hx y
    rw [hxs, hx]
    constructor
    · rintro (hy | ⟨δ, rfl, hy⟩)
      · exact (Option.some.inj hy).symm
      · exact Option.some.inj ((h.target_of_res hl hret hy).symm.trans hx)
    · rintro rfl
      exact Or.inl rfl
  cases h with
  | confirm x env =>
    obtain ⟨o, tr, hs⟩ := returns_confirm hret
    cases hs with
    | @mk d₁ r hd₁ hr hst =>
      have hc : (confirmChange x r).Commits d d' ws := heff
      rw [hsame x rfl d₁ hd₁] at hr
      exact .confirm hr hst (hone rfl rfl) (fun k a => rfl) hc.toApplies
  | cancel x env =>
    obtain ⟨tr, hs⟩ := returns_cancel hret
    cases hs with
    | @noop d₁ r hd₁ hr hst =>
      rw [hsame x rfl d₁ hd₁] at hr
      refine .noop (fun y hy r' hr' => ?_) (fun k a => rfl) heff
      obtain rfl := (hone rfl rfl y).mp hy
      rw [hr] at hr'
      cases hr'
      rcases hst with hst | hst <;> simp [hst]
    | @release d₁ r hd₁ hr hst =>
      have hc : (releaseChange (max 0) .cancelled [(x, r)]).Commits d d' ws := heff
      exact .release (Or.inl rfl) (by simp) (by simpa using hst) (by simpa using hone rfl rfl)
        (fun k a => rfl) hc.toApplies
  | sweep limit env =>
    obtain ⟨n, tr, rfl, hs⟩ := returns_sweep hret
    cases hs with
    | @mk d₁ free rs hd₁ hfree hrs hrow =>
      have hc : (releaseChange (max 0) .expired rs).Commits d d' ws := heff
      have hnd := nodup_of_batch hrs
      refine .release (Or.inr rfl) hnd (fun r hr => (expired_of_mem hrs hrow hr).2.1) (fun y => ?_)
        (fun k a => rfl) hc.toApplies
      rw [hxs]
      simp only [target, reduceCtorEq, false_or, Option.some.injEq, exists_eq_left']
      exact releaseChange_res_ne_none hnd
  | sync pid env =>
    obtain ⟨report, f, hs, rfl⟩ := returns_sync hret
    have hc : (syncChange f).Commits d d' ws := heff
    refine .sync (fun y hy => ?_) (fun k a => ?_) hc.toApplies
    · have hres : (syncChange f).res y = none := rfl
      simpa [target, hres] using (hxs y).mp hy
    · show ((synced b env pid k).map Prod.fst).getD a = _
      rw [hs.eq_synced fun d hd => (hR d hd).static]

/-- What a job has done once, no later state of the others keeps it from doing. -/
theorem Settling.not_raises (h : s.Settling) (hret : s.Returns cfg b R a Δ)
    (hR : ∀ d, R.seen d → s.Sees b d) (hd : s.Sees b d) (hcoh : Coherent d)
    (hf : s.Raises cfg b (Rely.solo d) e) : False := by
  have hsame : ∀ x, s.target = some x → ∀ d₁, R.seen d₁ →
      d₁.reservations.get x = d.reservations.get x :=
    fun x hx d₁ hd₁ => ((hR d₁ hd₁).target x hx).trans (hd.target x hx).symm
  cases h with
  | confirm x env =>
    obtain ⟨o, tr, hs⟩ := returns_confirm hret
    obtain ⟨tr', hf⟩ := hf
    have hf : ConfirmRaises cfg env b (· = d) x e tr' := hf
    refine hs.not_raises hf (fun d₁ d₂ hd₁ hd₂ => by rw [hsame x rfl d₁ hd₁, hd₂])
      fun d₁ r hd₁ hr hst => ?_
    rw [hd₁] at hr ⊢
    exact ((hcoh.reservation x r hr).pending hst).1
  | cancel x env =>
    obtain ⟨tr, hs⟩ := returns_cancel hret
    obtain ⟨tr', hf⟩ := hf
    have hf : CancelRaises env b (· = d) x e tr' := hf
    exact hs.not_raises hf fun d₁ d₂ hd₁ hd₂ => by rw [hsame x rfl d₁ hd₁, hd₂]
  | sweep limit env =>
    obtain ⟨tr', hf⟩ := hf
    have hf : ExpireRaises env b (Rely.solo d) limit e tr' := hf
    refine not_expireRaises (fun d₁ hd₁ x r hr it hit => ?_) hf
    rw [seen_solo hd₁] at hr
    exact ((hcoh.placed x r hr it hit).static hd.static.symm).releasable
  | sync pid env =>
    obtain ⟨report, f, hs, -⟩ := returns_sync hret
    refine hs.not_raises hf fun d₁ d₂ hd₁ hd₂ => ?_
    rw [show d₂ = d from hd₂, rowsOf_static hd.static, rowsOf_static (hR d₁ hd₁).static]

end Step

/-! ### Jobs that run at the same time -/

lemma Step.Returns.proper {s : Step} {R : Rely Db RowKey} {a : JobReply} {δ : Change}
    (h : s.Returns cfg b R a (some δ)) : δ.Proper := by
  cases s with
  | call q =>
    rcases a with a | report
    · obtain ⟨tr, h⟩ := h
      exact Op.Returns.proper h
    · exact h.elim
  | sync pid env =>
    rcases a with a | report
    · exact h.elim
    · obtain ⟨f, -, hδ⟩ := h
      cases hδ
      exact fun x _ _ hx => by cases hx

/-- The reservations that a transaction writes are those that it changes. -/
lemma wrote_iff {ws : List RowKey} {Δ : Option Change} (heff : Effect d d' ws Δ)
    (hΔ : ∀ δ, Δ = some δ → δ.Proper) (hnone : Δ = none → ws = [])
    (hsame : ∀ k, k ∉ ws → RowStore.row d' k = RowStore.row d k) (x : ℕ) :
    .reservation x ∈ ws ↔ ∃ δ, Δ = some δ ∧ δ.res x ≠ none := by
  rcases Δ with _ | δ
  · simp [hnone rfl]
  · have hc : δ.Commits d d' ws := heff
    simp only [Option.some.injEq, exists_eq_left']
    refine ⟨hc.wrote x, fun hx => ?_⟩
    by_contra hn
    obtain ⟨⟨o, r⟩, hor⟩ := Option.ne_none_iff_exists'.mp hx
    obtain ⟨ho, hr⟩ := hc.res x o r hor
    have hrow : d'.reservations.get x = d.reservations.get x := hsame (.reservation x) hn
    exact hΔ δ rfl x o r hor (by rw [← ho, ← hrow, hr])

/-- What a job has answered and which rows it has written. -/
def Step.Committed (cfg : Settings) (b : Db) (s : Step) (a : JobReply) (ws : List RowKey) : Prop :=
  ∃ Δ, s.Returns cfg b (relyUpon (s.Sees b) fun _ => True) a Δ ∧
    ∀ x, .reservation x ∈ ws ↔ ∃ δ, Δ = some δ ∧ δ.res x ≠ none

section System

variable {T : Type} {jobs : T → Step} {log : List (Commit T RowKey JobReply)} {t : T}

/-- Configurations of jobs. -/
abbrev JobSystem (T : Type) : Type := Conf T Db RowKey RowOf Query Answer PyErr JobReply

/-- No job has started. -/
def starting (cfg : Settings) (d : Db) (n : ℕ) (jobs : T → Step) : JobSystem T :=
  .init d n fun t => (jobs t).transaction cfg

/-- A job works on a reservation: it is about it, or it has written it. -/
def WorksOn (jobs : T → Step) (log : List (Commit T RowKey JobReply)) (t : T) (x : ℕ) : Prop :=
  (jobs t).target = some x ∨ ∃ cm ∈ log, cm.tid = t ∧ .reservation x ∈ cm.wrote

/-- No two jobs work on one reservation. -/
def Apart (jobs : T → Step) (log : List (Commit T RowKey JobReply)) : Prop :=
  ∀ t u x, WorksOn jobs log t x → WorksOn jobs log u x → t = u

/-- The state after the commits `h`, the first ones of `log`. -/
structure Working (cfg : Settings) (b : Db) (jobs : T → Step)
    (log h : List (Commit T RowKey JobReply)) (d : Db) : Prop where
  worked : Worked b (fun t k a => (jobs t).avail b k a) (WorksOn jobs log) (h.map Commit.tid) d
  committed : ∀ cm ∈ h, (jobs cm.tid).Committed cfg b cm.result cm.wrote

/-- A job sees its own reservation as it was, until it commits. -/
lemma Worked.sees {avail : T → ℕ → ℤ → ℤ} {ts : List T}
    (h : Worked b avail (WorksOn jobs log) ts d) (hap : Apart jobs log) (ht : t ∉ ts) :
    (jobs t).Sees b d where
  static := h.static
  target x hx := h.left x fun u hu hw => ht (hap t u x (Or.inl hx) hw ▸ hu)

/-- What a job has written is in its commit. -/
lemma worksOn_iff (hnd : (log.map Commit.tid).Nodup) {cm : Commit T RowKey JobReply}
    (hcm : cm ∈ log) (x : ℕ) :
    WorksOn jobs log cm.tid x ↔ (jobs cm.tid).target = some x ∨ .reservation x ∈ cm.wrote := by
  refine or_congr_right ⟨?_, fun hx => ⟨cm, hcm, rfl, hx⟩⟩
  rintro ⟨cm', hcm', htid, hx⟩
  rwa [← List.inj_on_of_nodup_map hnd hcm' hcm htid]

/-- A job that commits against the others. -/
lemma Step.Settling.working (hs : ∀ t, (jobs t).Settling)
    (hnd : (log.map Commit.tid).Nodup) (t : T) :
    wp (relyUpon ((jobs t).Sees b) fun _ => True) (jobs t).env ((jobs t).transaction cfg)
      (KeepsWhile (· <+: log) (Working cfg b jobs log) (fun _ => True) ((jobs t).Sees b) t)
      (fun _ _ _ => True) Session.init fun _ => none := by
  have hR : Steady b (relyUpon ((jobs t).Sees b) fun _ => True) :=
    ⟨fun d hd => hd.static, fun _ => trivial⟩
  refine keepsWhile_commit .integrityError (wp_mono (fun a σ H hP => ?_) (fun _ _ _ _ => trivial)
    ((hs t).meets hR cfg))
  obtain ⟨Δ, hret, hcom⟩ := hP
  intro l d d' ws hw hlog _ hd hset hsame
  obtain ⟨heff, hnone⟩ := hcom d d' ws hd.static hset
  have hwrote := wrote_iff heff (fun δ hδ => (hδ ▸ hret : (jobs t).Returns cfg b _ a (some δ)).proper)
    hnone hsame
  have hcm : (⟨t, a, ws⟩ : Commit T RowKey JobReply) ∈ log := hlog.subset (by simp)
  refine ⟨?_, fun cm hm => ?_⟩
  · rw [List.map_append, List.map_singleton]
    refine hw.worked.step ((hs t).effected hret (fun _ h => h) hd heff fun y => ?_)
    rw [worksOn_iff hnd hcm y, hwrote]
  · rcases List.mem_append.mp hm with hm | hm
    · exact hw.committed cm hm
    · rw [List.mem_singleton.mp hm]
      exact ⟨Δ, hret, hwrote⟩

end System

end InventoryReservation
