/-
# Rows that are only read under their lock

A program that never meets a row of `guard` in a plain read has an object of such a row only
while it holds the lock.  For these rows the identity map is harmless: every lock is granted up
to date, whatever the order of the actions.
-/
import InventoryReservation.RowTxn.Soundness

namespace RowTxn

variable {T D K : Type} {V : K → Type} {Q : Type} {A : Q → Type} {ε α β : Type}

/-- No plain read of the program loads a row of `guard`. -/
def Prog.LoadsLocked (guard : K → Prop) : Prog D K V Q A ε α → Prop
  | .pure _ => True
  | .raise _ => True
  | .read q c => ∀ d, (∀ k ∈ q d, ¬guard k) ∧ (c d).LoadsLocked guard
  | .lock _ c => ∀ v, (c v).LoadsLocked guard
  | .lockWhere _ _ c => ∀ l, (c l).LoadsLocked guard
  | .get _ c => ∀ v, (c v).LoadsLocked guard
  | .modify _ _ c => c.LoadsLocked guard
  | .insert _ _ c => c.LoadsLocked guard
  | .alloc c => ∀ n, (c n).LoadsLocked guard
  | .flush c => ∀ ok, (c ok).LoadsLocked guard
  | .ask _ c => ∀ a, (c a).LoadsLocked guard

namespace Prog.LoadsLocked

variable {guard : K → Prop}

lemma bind {p : Prog D K V Q A ε α} {f : α → Prog D K V Q A ε β} (hp : p.LoadsLocked guard)
    (hf : ∀ a, (f a).LoadsLocked guard) : (p.bind f).LoadsLocked guard := by
  induction p with
  | pure a => exact hf a
  | raise e => trivial
  | read q c ih => exact fun d => ⟨(hp d).1, ih d (hp d).2⟩
  | modify k g c ih => exact ih hp
  | insert k v c ih => exact ih hp
  | _ => rename_i ih; exact fun a => ih a (hp a)

lemma tryCatch {p : Prog D K V Q A ε α} {h : ε → Prog D K V Q A ε α} (hp : p.LoadsLocked guard)
    (hh : ∀ e, (h e).LoadsLocked guard) : (p.tryCatch h).LoadsLocked guard := by
  induction p with
  | pure a => trivial
  | raise e => exact hh e
  | read q c ih => exact fun d => ⟨(hp d).1, ih d (hp d).2⟩
  | modify k g c ih => exact ih hp
  | insert k v c ih => exact ih hp
  | _ => rename_i ih; exact fun a => ih a (hp a)

lemma ofExcept (x : Except ε α) : (Prog.ofExcept x : Prog D K V Q A ε α).LoadsLocked guard := by
  cases x <;> trivial

lemma commit (err : ε) {p : Prog D K V Q A ε α} (hp : p.LoadsLocked guard) :
    (p.commit err).LoadsLocked guard := by
  refine hp.bind fun a => ?_
  intro ok
  cases ok <;> trivial

end Prog.LoadsLocked

section Steps

variable [DecidableEq T] [DecidableEq K] [RowStore D K V] {iso : Isolation}
  {env : T → (q : Q) → A q} {guard : K → Prop} {c c' : Conf T D K V Q A ε α} {t u : T}
  {p : Prog D K V Q A ε α}

open RowStore

/-- The program and the locks of a transaction: its stored objects of guarded rows are locked. -/
structure LockedAt (guard : K → Prop) (c : Conf T D K V Q A ε α) (t : T)
    (p : Prog D K V Q A ε α) : Prop where
  loads : p.LoadsLocked guard
  owned : ∀ k, guard k → ∀ o b, (c.sess t).objs k = some o → o.base = some b → c.owner k = some t

omit [RowStore D K V] [DecidableEq K] in
/-- The end of a transaction, seen by another one. -/
lemma Conf.finish_others {ph : Phase D K V Q A ε α} {u : T} (hu : u ≠ t) :
    (c.finish t ph).phase u = c.phase u ∧ (c.finish t ph).sess u = c.sess u ∧
      ∀ k, (c.finish t ph).owner k = some u ↔ c.owner k = some u := by
  refine ⟨by simp [Conf.finish, hu], rfl, fun k => ?_⟩
  simp only [Conf.finish]
  split
  · next hk => simp [hk, Ne.symm hu]
  · rfl

/-- A statement does not change the state of the other transactions. -/
lemma stepProg_others (h : stepProg iso env c t p = some c') (hu : u ≠ t) :
    c'.phase u = c.phase u ∧ c'.sess u = c.sess u ∧
      ∀ k, c'.owner k = some u ↔ c.owner k = some u := by
  have hput : ∀ (q : Prog D K V Q A ε α) (s : Session K V Q A) (ks : List K),
      (∀ k ∈ ks, c.free t k = true) →
      ((c.put t q s).take t ks).phase u = c.phase u ∧
        ((c.put t q s).take t ks).sess u = c.sess u ∧
        ∀ k, ((c.put t q s).take t ks).owner k = some u ↔ c.owner k = some u := by
    intro q s ks hks
    refine ⟨by simp [Conf.put, Conf.take, hu], by simp [Conf.put, Conf.take, hu], ?_⟩
    exact owner_take hks hu
  cases p with
  | pure a =>
    cases h
    exact Conf.finish_others hu
  | raise e =>
    cases h
    exact Conf.finish_others hu
  | lock k f =>
    simp only [stepProg] at h
    split at h
    · next hf =>
      cases h
      refine hput _ _ _ fun k' hk' => ?_
      split at hk'
      · rwa [List.mem_singleton.mp hk']
      · cases hk'
    · cases h
  | lockWhere q n f =>
    cases h
    exact hput _ _ _ fun k hk => (Session.of_mem_pick hk).2.2
  | flush f =>
    simp only [stepProg] at h
    split at h
    · cases h
      simp [Conf.put, hu]
    · split at h
      · next k ks _ hf =>
        split at h <;> cases h
        · refine hput _ _ _ fun k' hk' => ?_
          rwa [List.mem_singleton.mp hk']
        · simp [Conf.put, hu]
      · cases h
  | _ =>
    cases h
    simp [Conf.put, hu]

/-- One statement keeps the objects of guarded rows under their locks. -/
lemma LockedAt.step (h : LockedAt guard c t p) (hs : stepProg iso env c t p = some c')
    {q : Prog D K V Q A ε α} (hq : c'.phase t = .running q) : LockedAt guard c' t q := by
  obtain ⟨hl, ho⟩ := h
  -- a statement that takes no lock and keeps the stored values of the objects
  have hput : ∀ (q' : Prog D K V Q A ε α) (s : Session K V Q A), q'.LoadsLocked guard →
      (∀ k o b, guard k → s.objs k = some o → o.base = some b →
        ∃ o', (c.sess t).objs k = some o' ∧ o'.base = some b) →
      LockedAt guard (c.put t q' s) t q' := by
    intro q' s hq' hs'
    refine ⟨hq', fun k hk o b hok hb => ?_⟩
    rw [show (c.put t q' s).sess t = s by simp [Conf.put]] at hok
    obtain ⟨o', ho', hb'⟩ := hs' k o b hk hok hb
    exact ho k hk o' b ho' hb'
  -- a statement that loads rows together with their locks
  have htake : ∀ (q' : Prog D K V Q A ε α) (s : Session K V Q A) (ks : List K),
      q'.LoadsLocked guard →
      (∀ k o b, s.objs k = some o → o.base = some b → k ∉ ks →
        ∃ o', (c.sess t).objs k = some o' ∧ o'.base = some b) →
      LockedAt guard ((c.put t q' s).take t ks) t q' := by
    intro q' s ks hq' hs'
    refine ⟨hq', fun k hk o b hok hb => ?_⟩
    by_cases hmem : k ∈ ks
    · simp [Conf.take, hmem]
    · rw [show ((c.put t q' s).take t ks).sess t = s by simp [Conf.put, Conf.take]] at hok
      obtain ⟨o', ho', hb'⟩ := hs' k o b hok hb hmem
      simpa [Conf.take, Conf.put, hmem] using ho k hk o' b ho' hb'
  have hrun : ∀ {c₁ : Conf T D K V Q A ε α} {q' : Prog D K V Q A ε α},
      some c₁ = some c' → LockedAt guard c₁ t q' → c₁.phase t = .running q' →
      LockedAt guard c' t q := by
    intro c₁ q' heq hat hc₁
    cases heq
    rw [hc₁] at hq
    cases hq
    exact hat
  cases p with
  | pure a =>
    cases hs
    simp [Conf.commit, Conf.finish] at hq
  | raise e =>
    cases hs
    simp [Conf.finish] at hq
  | read rows f =>
    have := hput (f ((c.sess t).own (c.view iso t)))
      ((c.sess t).load (rows ((c.sess t).own (c.view iso t))) ((c.sess t).own (c.view iso t)))
      (hl _).2 fun k o b hk hok hb => by
        rcases Session.objs_load_inv hok with hok | ⟨-, hmem, -⟩
        · exact ⟨o, hok, hb⟩
        · exact absurd hk ((hl _).1 k hmem)
    exact hrun hs ⟨this.loads, this.owned⟩ (by simp [Conf.put])
  | lock k f =>
    simp only [stepProg] at hs
    split at hs
    · refine hrun hs (htake _ _ _ (hl _) ?_) (by simp [Conf.put, Conf.take])
      intro k' o b hok hb hk'
      rcases hr : row ((c.sess t).own c.db) k with _ | v
      · rw [Session.select1_of_none hr] at hok
        exact ⟨o, hok, hb⟩
      · rw [Session.select1_of_some hr] at hok
        rcases Session.objs_load1_inv hok with hok | ⟨-, hkk, -⟩
        · exact ⟨o, hok, hb⟩
        · simp [hr, hkk] at hk'
    · cases hs
  | lockWhere rows n f =>
    refine hrun hs (htake _ _ _ (hl _) ?_) (by simp [Conf.put, Conf.take])
    intro k o b hok hb hk
    rcases Session.objs_load_inv hok with hok | ⟨-, hmem, -⟩
    · exact ⟨o, hok, hb⟩
    · exact absurd hmem hk
  | get k f =>
    exact hrun hs (hput _ _ (hl _) fun _ o _ _ ho hb => ⟨o, ho, hb⟩) (by simp [Conf.put])
  | modify k g f =>
    have hl' : f.LoadsLocked guard := hl
    refine hrun hs (hput _ _ hl' fun k' o b _ hok hb => ?_) (by simp [Conf.put])
    obtain ⟨o', ho', hb'⟩ := Session.base_modify hok
    exact ⟨o', ho', hb'.trans hb⟩
  | insert k v f =>
    have hl' : f.LoadsLocked guard := hl
    refine hrun hs (hput _ _ hl' fun k' o b _ hok hb => ?_) (by simp [Conf.put])
    -- the object of a new row has no stored values
    by_cases hkk : k' = k
    · subst hkk
      obtain rfl : (⟨none, v⟩ : Obj (V k')) = o := by simpa [Session.insert] using hok
      cases hb
    · exact ⟨o, by rwa [Session.objs_insert_of_ne _ _ hkk] at hok, hb⟩
  | alloc f =>
    have := hput (f c.next) (c.sess t) (hl _) fun _ o _ _ ho hb => ⟨o, ho, hb⟩
    exact hrun hs ⟨this.loads, this.owned⟩ (by simp [Conf.put])
  | ask x f =>
    exact hrun hs (hput _ ((c.sess t).log x (env t x)) (hl _)
      fun _ o _ _ ho hb => ⟨o, ho, hb⟩) (by simp [Conf.put])
  | flush f =>
    have hl' : ∀ ok, (f ok).LoadsLocked guard := hl
    simp only [stepProg] at hs
    split at hs
    · exact hrun hs (hput _ _ (hl' _) fun _ o _ _ ho hb => ⟨o, ho, hb⟩) (by simp [Conf.put])
    · next k ks _ =>
      split at hs
      · split at hs
        · next s' hs' =>
          refine hrun hs (htake _ s' _ hl ?_) (by simp [Conf.put, Conf.take])
          intro k' o b hok hb hk'
          obtain ⟨-, -, -, hobjs, -⟩ := flush1_step hs'
          exact ⟨o, by rwa [hobjs k' (by simpa using hk')] at hok, hb⟩
        · exact hrun hs (hput _ _ (hl' _) fun _ o _ _ ho hb => ⟨o, ho, hb⟩) (by simp [Conf.put])
      · cases hs

/-- The objects of guarded rows stay under their locks. -/
lemma LockedAt.act (h : ∀ t p, c.phase t = .running p → LockedAt guard c t p) {a : Act T}
    (ha : act iso env c a = some c') :
    ∀ t p, c'.phase t = .running p → LockedAt guard c' t p := by
  intro u q hq
  cases a with
  | step t =>
    rcases hp : c.phase t with p | b | e <;> simp only [RowTxn.act, hp, reduceCtorEq] at ha
    by_cases hu : u = t
    · subst hu
      exact (h u p hp).step ha hq
    · obtain ⟨hphase, hsess, howner⟩ := stepProg_others ha hu
      rw [hphase] at hq
      refine ⟨(h u q hq).loads, fun k hk o b ho hb => ?_⟩
      rw [hsess] at ho
      exact (howner k).mpr ((h u q hq).owned k hk o b ho hb)
  | abort t =>
    rcases hp : c.phase t with p | b | e <;>
      simp only [RowTxn.act, hp, reduceCtorEq, Option.some.injEq] at ha
    subst ha
    by_cases hu : u = t
    · subst hu
      simp [Conf.finish] at hq
    · rw [show (c.finish t (.rolledBack none)).phase u = c.phase u by simp [Conf.finish, hu]] at hq
      refine ⟨(h u q hq).loads, fun k hk o b ho hb => ?_⟩
      have := (h u q hq).owned k hk o b ho hb
      simp [Conf.finish, this, hu]

/-- If no transaction loads a guarded row without its lock, every run is up to date on them. -/
theorem run_of_reachable {d : D} {n : ℕ} {p : T → Prog D K V Q A ε α}
    (hp : ∀ t, (p t).LoadsLocked guard) (h : Reachable iso env (Conf.init d n p) c) :
    Run iso env guard (Conf.init d n p) c ∧
      ∀ t p, c.phase t = .running p → LockedAt guard c t p := by
  induction h with
  | init =>
    refine ⟨.init, fun t q hq => ?_⟩
    cases hq
    exact ⟨hp t, fun k _ o b ho _ => by simp [Conf.init, Session.init] at ho⟩
  | @act c c' a _ ha _ ih =>
    obtain ⟨hr, hat⟩ := ih
    refine ⟨hr.act ha ?_, LockedAt.act hat ha⟩
    cases a with
    | step t =>
      intro q hq k _ hk hn o b ho hb
      rw [(hat t q hq).owned k hk o b ho hb] at hn
      cases hn
    | abort t => trivial

end Steps

end RowTxn
