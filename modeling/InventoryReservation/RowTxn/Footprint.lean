/-
# Footprints

The rows that a transaction may lock and write, read off its program.  A program with a footprint
keeps to it in every run, whatever the others do.  A program that selects rows with `SKIP LOCKED`
has a footprint only from then on: it asks questions, selects, and keeps to what it has found.
-/
import InventoryReservation.RowTxn.LockedLoads
import InventoryReservation.RowTxn.Waiting

namespace RowTxn

variable {T D K : Type} {V : K → Type} {Q : Type} {A : Q → Type} {ε α β : Type}

/-- The program locks and changes rows in `G` only, selects no rows, and its results are in
`P`. -/
def Prog.Within (G : K → Prop) (P : α → Prop) : Prog D K V Q A ε α → Prop
  | .pure a => P a
  | .raise _ => True
  | .read _ c => ∀ d, (c d).Within G P
  | .lock k c => G k ∧ ∀ v, (c v).Within G P
  | .lockWhere _ _ _ => False
  | .get _ c => ∀ v, (c v).Within G P
  | .modify k _ c => G k ∧ c.Within G P
  | .insert k _ c => G k ∧ c.Within G P
  | .alloc c => ∀ n, (c n).Within G P
  | .flush c => ∀ ok, (c ok).Within G P
  | .ask _ c => ∀ a, (c a).Within G P

namespace Prog.Within

variable {G : K → Prop} {P : α → Prop}

lemma bind {p : Prog D K V Q A ε α} {f : α → Prog D K V Q A ε β} {P' : β → Prop}
    (hp : p.Within G P) (hf : ∀ a, P a → (f a).Within G P') : (p.bind f).Within G P' := by
  induction p with
  | pure a => exact hf a hp
  | raise e => trivial
  | lock k c ih => exact ⟨hp.1, fun v => ih v (hp.2 v)⟩
  | lockWhere q n c ih => exact hp.elim
  | modify k g c ih => exact ⟨hp.1, ih hp.2⟩
  | insert k v c ih => exact ⟨hp.1, ih hp.2⟩
  | _ => rename_i ih; exact fun a => ih a (hp a)

lemma tryCatch {p : Prog D K V Q A ε α} {h : ε → Prog D K V Q A ε α} (hp : p.Within G P)
    (hh : ∀ e, (h e).Within G P) : (p.tryCatch h).Within G P := by
  induction p with
  | pure a => exact hp
  | raise e => exact hh e
  | lock k c ih => exact ⟨hp.1, fun v => ih v (hp.2 v)⟩
  | lockWhere q n c ih => exact hp.elim
  | modify k g c ih => exact ⟨hp.1, ih hp.2⟩
  | insert k v c ih => exact ⟨hp.1, ih hp.2⟩
  | _ => rename_i ih; exact fun a => ih a (hp a)

/-- A program that only reads objects and asks keeps to any footprint. -/
lemma of_quiet {p : Prog D K V Q A ε α} (hp : p.Quiet) : p.Within G fun _ => True := by
  induction p with
  | pure a => trivial
  | raise e => trivial
  | get k c ih => exact fun v => ih v (hp v)
  | ask q c ih => exact fun a => ih a (hp a)
  | _ => exact hp.elim

lemma commit (err : ε) {p : Prog D K V Q A ε α} (hp : p.Within G P) :
    (p.commit err).Within G P := by
  refine hp.bind fun a ha => ?_
  intro ok
  cases ok
  · trivial
  · exact ha

end Prog.Within

/-- The program asks questions, selects the first `n` free rows of `q`, and then keeps to the
footprint `G l` of the rows `l` that it has selected, with results in `P l`. -/
def Prog.Selects (env : (q : Q) → A q) (q : D → List K) (n : ℕ) (G : List K → K → Prop)
    (P : List K → α → Prop) : Prog D K V Q A ε α → Prop
  | .ask q' c => (c (env q')).Selects env q n G P
  | .lockWhere q' n' c => q' = q ∧ n' = n ∧ ∀ l, (c l).Within (G l) (P l)
  | _ => False

lemma Prog.Selects.bind {env : (q : Q) → A q} {q : D → List K} {n : ℕ} {G : List K → K → Prop}
    {P : List K → α → Prop} {P' : List K → β → Prop} {p : Prog D K V Q A ε α}
    {f : α → Prog D K V Q A ε β} (hp : p.Selects env q n G P)
    (hf : ∀ l a, P l a → (f a).Within (G l) (P' l)) : (p.bind f).Selects env q n G P' := by
  induction p with
  | ask q' c ih => exact ih _ hp
  | lockWhere q' n' c ih => exact ⟨hp.1, hp.2.1, fun l => (hp.2.2 l).bind (hf l)⟩
  | _ => exact hp.elim

lemma Prog.Selects.commit {env : (q : Q) → A q} {q : D → List K} {n : ℕ} {G : List K → K → Prop}
    {P : List K → α → Prop} (err : ε) {p : Prog D K V Q A ε α} (hp : p.Selects env q n G P) :
    (p.commit err).Selects env q n G P :=
  hp.bind fun _ _ ha => Prog.Within.commit err (p := .pure _) ha

/-! ### Footprints in a run -/

section Steps

variable [DecidableEq T] [DecidableEq K] [RowStore D K V] {iso : Isolation}
  {env : T → (q : Q) → A q} {c c' : Conf T D K V Q A ε α} {t : T} {p : Prog D K V Q A ε α}
  {G : K → Prop} {P : α → Prop}

open RowStore

omit [DecidableEq T] [DecidableEq K] [RowStore D K V] in
/-- A transaction has locked and changed rows in `G` only. -/
structure Conf.Confined (G : K → Prop) (c : Conf T D K V Q A ε α) (t : T) : Prop where
  owned : ∀ k, c.owner k = some t → G k
  dirty : ∀ k ∈ (c.sess t).dirty, G k
  wrote : ∀ w ∈ (c.sess t).writes, G w.1

namespace Conf.Confined

omit [DecidableEq T] [DecidableEq K] [RowStore D K V] in
/-- The actions of other transactions. -/
lemma frame (h : c.Confined G t) (hsess : c'.sess t = c.sess t)
    (howner : ∀ k, c'.owner k = some t ↔ c.owner k = some t) : c'.Confined G t where
  owned k hk := h.owned k ((howner k).mp hk)
  dirty := by rw [hsess]; exact h.dirty
  wrote := by rw [hsess]; exact h.wrote

end Conf.Confined

variable (c t G P) in
omit [DecidableEq K] [RowStore D K V] in
/-- What a statement of a program with a footprint leaves, unless the transaction ends. -/
structure Prog.Within.Next (c' : Conf T D K V Q A ε α) : Prop where
  log : c'.log = c.log
  confined : c'.Confined G t
  phase : ∃ p, c'.phase = Function.update c.phase t (.running p) ∧ p.Within G P
  keeps : ∀ k, c.owner k = some t → c'.owner k = some t

omit [DecidableEq K] [RowStore D K V] in
/-- A statement that changes the session and takes locks in the footprint. -/
lemma Conf.Confined.next (h : c.Confined G t) {s : Session K V Q A} {q : Prog D K V Q A ε α}
    (hq : q.Within G P) (hlog : c'.log = c.log)
    (hphase : c'.phase = Function.update c.phase t (.running q))
    (hsess : c'.sess t = s) (howner : ∀ k, c'.owner k = c.owner k ∨ c'.owner k = some t ∧ G k)
    (hdirty : ∀ k ∈ s.dirty, k ∈ (c.sess t).dirty ∨ G k)
    (hwrote : ∀ w ∈ s.writes, w ∈ (c.sess t).writes ∨ G w.1) : Prog.Within.Next c t G P c' where
  log := hlog
  confined :=
    ⟨fun k hk => (howner k).elim (fun ho => h.owned k (ho ▸ hk)) And.right,
      fun k hk => (hdirty k (hsess ▸ hk)).elim (h.dirty k) id,
      fun w hw => (hwrote w (hsess ▸ hw)).elim (h.wrote w) id⟩
  phase := ⟨q, hphase, hq⟩
  keeps k hk := (howner k).elim (fun ho => ho.trans hk) And.left

omit [DecidableEq T] in
/-- A locking read leaves the pending changes as they are. -/
lemma Session.select1_pending (s : Session K V Q A) (k : K) (d : D) :
    (s.select1 k d).1.dirty = s.dirty ∧ (s.select1 k d).1.writes = s.writes := by
  rcases hr : row (s.own d) k with _ | v
  · simp [Session.select1_of_none hr]
  · simp [Session.select1_of_some hr]

/-- One statement of a program with a footprint. -/
theorem Prog.Within.stepProg (hp : p.Within G P) (hc : c.Confined G t)
    (hs : stepProg iso env c t p = some c') :
    (∃ a, p = .pure a ∧ P a ∧ c' = c.commit t a) ∨
    (∃ e, c' = c.finish t (.rolledBack (some e))) ∨ Prog.Within.Next c t G P c' := by
  -- a statement that takes no lock
  have hput : ∀ {q : Prog D K V Q A ε α} {s : Session K V Q A} {n : ℕ} {sn : T → Option D},
      q.Within G P → (∀ k ∈ s.dirty, k ∈ (c.sess t).dirty ∨ G k) → s.writes = (c.sess t).writes →
      Prog.Within.Next c t G P { c.put t q s with next := n, snap := sn } := by
    intro q s n sn hq hd hw
    exact hc.next hq rfl rfl (by simp [Conf.put]) (fun _ => Or.inl rfl) hd fun w h => Or.inl (hw ▸ h)
  -- a statement that takes locks
  have htake : ∀ {q : Prog D K V Q A ε α} {s : Session K V Q A} {ks : List K},
      q.Within G P → (∀ k ∈ ks, G k) → (∀ k ∈ s.dirty, k ∈ (c.sess t).dirty) →
      (∀ w ∈ s.writes, w ∈ (c.sess t).writes ∨ G w.1) →
      Prog.Within.Next c t G P ((c.put t q s).take t ks) := by
    intro q s ks hq hks hd hw
    refine hc.next hq rfl rfl (by simp [Conf.put, Conf.take]) (fun k => ?_)
      (fun k h => Or.inl (hd k h)) hw
    simp only [Conf.take, Conf.put]
    split
    · next hk => exact Or.inr ⟨rfl, hks k hk⟩
    · exact Or.inl rfl
  cases p with
  | pure a =>
    cases hs
    exact Or.inl ⟨a, rfl, hp, rfl⟩
  | raise e =>
    cases hs
    exact Or.inr (Or.inl ⟨e, rfl⟩)
  | lockWhere q n f => exact hp.elim
  | lock k f =>
    simp only [RowTxn.stepProg] at hs
    split at hs
    · cases hs
      obtain ⟨hd, hw⟩ := (c.sess t).select1_pending k c.db
      refine Or.inr (Or.inr (htake (hp.2 _) (fun k' hk' => ?_) (by simp [hd])
        fun w h => Or.inl (hw ▸ h)))
      split at hk'
      · rw [List.mem_singleton.mp hk']
        exact hp.1
      · cases hk'
    · cases hs
  | flush f =>
    simp only [RowTxn.stepProg] at hs
    split at hs
    · cases hs
      exact Or.inr (Or.inr (hput (hp true) (fun _ h => Or.inl h) rfl))
    · next k ks hd =>
      have hk : G k := hc.dirty k (by simp [hd])
      split at hs
      · split at hs
        · next s' h1 =>
          cases hs
          obtain ⟨-, -, hdirty, -, hwrote, -⟩ := flush1_step h1
          refine Or.inr (Or.inr (htake (q := .flush f) hp ?_ ?_ ?_))
          · simpa using hk
          · rw [hdirty]
            exact fun _ => List.mem_of_mem_tail
          · exact fun w hw => (hwrote w hw).imp_right fun h => by rwa [h]
        · cases hs
          exact Or.inr (Or.inr (hput (hp false) (fun _ h => Or.inl h) rfl))
      · cases hs
  | read q f =>
    cases hs
    exact Or.inr (Or.inr (hput (hp _) (fun k h => Or.inl (by simpa using h)) (by simp)))
  | get k f =>
    cases hs
    exact Or.inr (Or.inr (hput (hp _) (fun _ h => Or.inl h) rfl))
  | modify k f q =>
    cases hs
    refine Or.inr (Or.inr (hput hp.2 (fun k' hk' => ?_) (by simp)))
    exact (Session.mem_dirty_modify.mp hk').imp_right fun hk => by rw [hk.1]; exact hp.1
  | insert k v q =>
    cases hs
    refine Or.inr (Or.inr (hput hp.2 (fun k' hk' => ?_) rfl))
    exact (Session.mem_dirty_insert.mp hk').imp_right fun hk => by rw [hk]; exact hp.1
  | alloc f =>
    cases hs
    exact Or.inr (Or.inr (hput (hp _) (fun _ h => Or.inl h) rfl))
  | ask q f =>
    cases hs
    exact Or.inr (Or.inr (hput (hp _) (fun _ h => Or.inl h) rfl))

/-- One statement of a program that selects rows: a question, or the selection. -/
theorem Prog.Selects.stepProg {q : D → List K} {n : ℕ} {G : List K → K → Prop}
    {P : List K → α → Prop} (hp : p.Selects (env t) q n G P) (hc : c.Confined (fun _ => False) t)
    (hs : stepProg iso env c t p = some c') :
    (c'.db = c.db ∧ c'.log = c.log ∧ c'.owner = c.owner ∧ c'.Confined (fun _ => False) t ∧
      ∃ p', c'.phase = Function.update c.phase t (.running p') ∧ p'.Selects (env t) q n G P) ∨
    ∃ f : List K → Prog D K V Q A ε α, (∀ l, (f l).Within (G l) (P l)) ∧
      c' = (c.put t (f ((c.sess t).pick q n c.db (c.free t)))
        ((c.sess t).load ((c.sess t).pick q n c.db (c.free t)) c.db)).take t
          ((c.sess t).pick q n c.db (c.free t)) := by
  cases p with
  | ask q' f =>
    cases hs
    exact Or.inl ⟨rfl, rfl, rfl, ⟨hc.owned, by simpa [Conf.put, Session.log] using hc.dirty,
      by simpa [Conf.put, Session.log] using hc.wrote⟩, _, rfl, hp⟩
  | lockWhere q' n' f =>
    obtain ⟨rfl, rfl, hf⟩ := hp
    cases hs
    have hown : (c.sess t).own c.db = c.db := by
      refine Session.own_of_nil (List.eq_nil_iff_forall_not_mem.mpr fun w hw => hc.wrote w hw) _
    rw [hown]
    exact Or.inr ⟨f, hf, rfl⟩
  | _ => exact hp.elim

/-! ### Runs -/

/-- An action changes the state of one transaction, and logs commits of this one only. -/
lemma act_others {a : Act T} (ha : act iso env c a = some c') : ∃ t, (a = .step t ∨ a = .abort t) ∧
    (∃ p, c.phase t = .running p) ∧
    (∀ u, u ≠ t → c'.phase u = c.phase u ∧ c'.sess u = c.sess u ∧
      ∀ k, c'.owner k = some u ↔ c.owner k = some u) ∧
    ∀ cm ∈ c'.log, cm ∈ c.log ∨ cm.tid = t := by
  cases a with
  | step t =>
    rcases hp : c.phase t with p | b | e <;> simp only [act, hp, reduceCtorEq] at ha
    refine ⟨t, Or.inl rfl, ⟨p, hp⟩, fun u hu => stepProg_others ha hu, fun cm hcm => ?_⟩
    rcases stepProg_cases ha with ⟨a, -, rfl⟩ | ⟨e, -, rfl⟩ | ⟨-, hl, -⟩
    · exact (List.mem_append.mp hcm).imp_right fun h => by rw [List.mem_singleton.mp h]
    · exact Or.inl hcm
    · exact Or.inl (hl ▸ hcm)
  | abort t =>
    rcases hp : c.phase t with p | b | e <;>
      simp only [act, hp, reduceCtorEq, Option.some.injEq] at ha
    subst ha
    exact ⟨t, Or.inr rfl, ⟨p, hp⟩, fun u hu => Conf.finish_others hu, fun cm hcm => Or.inl hcm⟩

omit [DecidableEq T] [DecidableEq K] [RowStore D K V] in
/-- A transaction with the footprint `G` and results in `P` that has locked the rows `L`, in a
run. -/
structure Conf.Keeps (G : K → Prop) (P : α → Prop) (L : List K) (c : Conf T D K V Q A ε α)
    (t : T) : Prop where
  confined : c.Confined G t
  running : ∀ p, c.phase t = .running p → p.Within G P ∧ ∀ k ∈ L, c.owner k = some t
  committed : ∀ cm ∈ c.log, cm.tid = t → P cm.result ∧ ∀ k ∈ cm.wrote, G k

namespace Conf.Keeps

variable {L : List K}

omit [RowStore D K V] [DecidableEq K] in
/-- The transaction ends without a commit. -/
lemma finish (h : c.Keeps G P L t) {e : Option ε} : (c.finish t (.rolledBack e)).Keeps G P L t where
  confined := ⟨fun k hk => by simp [Conf.finish] at hk, h.confined.dirty, h.confined.wrote⟩
  running p hp := by simp [Conf.finish] at hp
  committed := h.committed

omit [DecidableEq K] in
lemma commit (h : c.Keeps G P L t) {a : α} (ha : P a) : (c.commit t a).Keeps G P L t where
  confined := ⟨fun k hk => by simp [Conf.commit, Conf.finish] at hk, h.confined.dirty,
    h.confined.wrote⟩
  running p hp := by simp [Conf.commit, Conf.finish] at hp
  committed cm hcm ht := by
    rcases List.mem_append.mp hcm with hcm | hcm
    · exact h.committed cm hcm ht
    · rw [List.mem_singleton.mp hcm]
      refine ⟨ha, fun k hk => ?_⟩
      obtain ⟨w, hw, rfl⟩ := List.mem_map.mp hk
      exact h.confined.wrote w hw

/-- A transaction keeps to its footprint, whoever acts. -/
theorem act (h : c.Keeps G P L t) {a : Act T} (ha : act iso env c a = some c') :
    c'.Keeps G P L t := by
  obtain ⟨u, hau, -, hothers, hlog⟩ := act_others ha
  by_cases hu : t = u
  · subst hu
    rcases hau with rfl | rfl
    · rcases hp : c.phase t with p | b | e <;> simp only [RowTxn.act, hp, reduceCtorEq] at ha
      obtain ⟨hw, hL⟩ := h.running p hp
      rcases hw.stepProg h.confined ha with ⟨a, -, haP, rfl⟩ | ⟨e, rfl⟩ | hn
      · exact h.commit haP
      · exact h.finish
      · obtain ⟨p', hp', hw'⟩ := hn.phase
        refine ⟨hn.confined, fun q hq => ?_, hn.log ▸ h.committed⟩
        rw [hp', Function.update_self] at hq
        cases hq
        exact ⟨hw', fun k hk => hn.keeps k (hL k hk)⟩
    · rcases hp : c.phase t with p | b | e <;>
        simp only [RowTxn.act, hp, reduceCtorEq, Option.some.injEq] at ha
      subst ha
      exact h.finish
  · obtain ⟨hphase, hsess, howner⟩ := hothers t hu
    refine ⟨h.confined.frame hsess howner, fun p hp => ?_, fun cm hcm ht => ?_⟩
    · obtain ⟨hw, hL⟩ := h.running p (hphase ▸ hp)
      exact ⟨hw, fun k hk => (howner k).mpr (hL k hk)⟩
    · rcases hlog cm hcm with hcm | hcm
      · exact h.committed cm hcm ht
      · exact absurd (ht.symm.trans hcm) hu

end Conf.Keeps

omit [DecidableEq T] [DecidableEq K] [RowStore D K V] in
/-- A transaction that has not selected its rows yet, in a run. -/
structure Conf.Selecting (env : (q : Q) → A q) (q : D → List K) (n : ℕ) (G : List K → K → Prop)
    (P : List K → α → Prop) (c : Conf T D K V Q A ε α) (t : T) : Prop where
  confined : c.Confined (fun _ => False) t
  program : ∃ p, c.phase t = .running p ∧ p.Selects env q n G P
  uncommitted : ∀ cm ∈ c.log, cm.tid ≠ t

omit [DecidableEq T] [DecidableEq K] [RowStore D K V] in
/-- The actions of other transactions. -/
lemma Conf.Selecting.frame {e : (q : Q) → A q} {q : D → List K} {n : ℕ} {G : List K → K → Prop}
    {P : List K → α → Prop} (h : c.Selecting e q n G P t) (hphase : c'.phase t = c.phase t)
    (hsess : c'.sess t = c.sess t) (howner : ∀ k, c'.owner k = some t ↔ c.owner k = some t)
    (hlog : ∀ cm ∈ c'.log, cm ∈ c.log ∨ cm.tid ≠ t) : c'.Selecting e q n G P t where
  confined := h.confined.frame hsess howner
  program := by
    obtain ⟨p, hp, hsel⟩ := h.program
    exact ⟨p, hphase.trans hp, hsel⟩
  uncommitted cm hcm := (hlog cm hcm).elim (h.uncommitted cm) id

/-- A transaction goes on to select its rows, or selects them. -/
theorem Conf.Selecting.step {q : D → List K} {n : ℕ} {G : List K → K → Prop}
    {P : List K → α → Prop} (hG : ∀ l, ∀ k ∈ l, G l k) (ha : act iso env c (.step t) = some c')
    (h : c.Selecting (env t) q n G P t) :
    c'.Selecting (env t) q n G P t ∨
      c'.log = c.log ∧ c'.Keeps (G ((c.sess t).pick q n c.db (c.free t)))
        (P ((c.sess t).pick q n c.db (c.free t))) ((c.sess t).pick q n c.db (c.free t)) t := by
  obtain ⟨p, hp, hsel⟩ := h.program
  simp only [act, hp] at ha
  rcases hsel.stepProg h.confined ha with ⟨-, hl, -, hconf, p', hp', hsel'⟩ | ⟨f, hf, rfl⟩
  · refine Or.inl ⟨hconf, ⟨p', by rw [hp', Function.update_self], hsel'⟩, ?_⟩
    rw [hl]
    exact h.uncommitted
  · refine Or.inr ⟨rfl, ?_, fun q' hq' => ?_, fun cm hcm ht => ?_⟩
    · refine ⟨fun k hk => ?_, ?_, ?_⟩
      · simp only [Conf.take, Conf.put] at hk
        split at hk
        · next hmem => exact hG _ k hmem
        · exact (h.confined.owned k hk).elim
      · simp only [Conf.take, Conf.put, Function.update_self, Session.load_dirty]
        exact fun k hk => (h.confined.dirty k hk).elim
      · simp only [Conf.take, Conf.put, Function.update_self, Session.load_writes]
        exact fun w hw => (h.confined.wrote w hw).elim
    · simp only [Conf.take, Conf.put, Function.update_self] at hq'
      cases hq'
      exact ⟨hf _, fun k hk => if_pos hk⟩
    · exact absurd ht (h.uncommitted cm hcm)

/-- A transaction that has not selected its rows works on the committed database. -/
lemma Conf.Selecting.pick_eq {e : (q : Q) → A q} {q : D → List K} {n : ℕ}
    {G : List K → K → Prop} {P : List K → α → Prop} (h : c.Selecting e q n G P t) :
    (c.sess t).pick q n c.db (c.free t) =
      ((q c.db).dedup.filter fun k => (row c.db k).isSome && c.free t k).take n := by
  have hw : (c.sess t).writes = [] :=
    List.eq_nil_iff_forall_not_mem.mpr fun w hw => h.confined.wrote w hw
  rw [Session.pick, Session.own_of_nil hw]

end Steps

end RowTxn
