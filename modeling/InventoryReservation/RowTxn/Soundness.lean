/-
# Invariants of interleaved transactions

An invariant `I h d` relates the commits so far and the committed database.  Every transaction
is verified on its own, by a weakest precondition, against the others: its plain reads may see
any database of `I` from before its commit, and its commit has to keep `I`.  Then `I` holds in
every configuration of every run whose locks are granted up to date.

Where the invariant depends on a condition on the commits, a transaction may rely on it up to
its own commit (`invariant_of_run_while`).
-/
import InventoryReservation.RowTxn.Interleave

namespace RowTxn

variable {T D K : Type} {V : K → Type} {Q : Type} {A : Q → Type} {ε α : Type}

variable [DecidableEq K] [RowStore D K V]

open RowStore

/-- What transaction `t` relies on when the others keep the invariant. -/
def relyOn (I : List (Commit T K α) → D → Prop) (guard : K → Prop) (t : T) : Rely D K where
  seen d := ∃ h, I h d ∧ t ∉ h.map Commit.tid
  free _ := True
  ids _ := True
  guard := guard

omit [DecidableEq K] in
/-- The commit of `t` keeps the invariant. -/
def Keeps (I : List (Commit T K α) → D → Prop) (guard : K → Prop) (t : T) (a : α)
    (s : Session K V Q A) (H : Held V) : Prop :=
  ∀ h d, I h d → t ∉ h.map Commit.tid → (∀ k r, H k = some r → row d k = r) →
    s.Ok D guard H → I (h ++ [⟨t, a, s.writes.map Sigma.fst⟩]) (s.own d)

/-- A transaction that keeps the invariant `I` against the others. -/
def Verified (I : List (Commit T K α) → D → Prop) (guard : K → Prop) (env : (q : Q) → A q)
    (t : T) (p : Prog D K V Q A ε α) : Prop :=
  wp (relyOn I guard t) env p (Keeps I guard t) (fun _ _ _ => True) Session.init fun _ => none

/-- What a transaction relies on that may see the databases of `S`. -/
def relyUpon (S : D → Prop) (guard : K → Prop) : Rely D K where
  seen := S
  free _ := True
  ids _ := True
  guard := guard

omit [DecidableEq K] in
/-- The commit of `t` keeps the invariant `I` if the commits up to this one meet `C`. -/
def KeepsWhile (C : List (Commit T K α) → Prop) (I : List (Commit T K α) → D → Prop)
    (guard : K → Prop) (S : D → Prop) (t : T) (a : α) (s : Session K V Q A) (H : Held V) : Prop :=
  ∀ h d, I h d → C (h ++ [⟨t, a, s.writes.map Sigma.fst⟩]) → t ∉ h.map Commit.tid → S d →
    (∀ k r, H k = some r → row d k = r) → s.Ok D guard H →
    I (h ++ [⟨t, a, s.writes.map Sigma.fst⟩]) (s.own d)

/-- The rule for a transaction: with what it commits, the invariant holds again. -/
theorem keepsWhile_commit {C : List (Commit T K α) → Prop} {I : List (Commit T K α) → D → Prop}
    {guard : K → Prop} {S : D → Prop} {env : (q : Q) → A q} {t : T} {p : Prog D K V Q A ε α}
    (err : ε)
    (h : wp (relyUpon S guard) env p (fun a s H => ∀ h d d' wrote, I h d →
        C (h ++ [⟨t, a, wrote⟩]) → t ∉ h.map Commit.tid → S d → Settled guard s H d d' wrote →
        (∀ k, k ∉ wrote → row d' k = row d k) → I (h ++ [⟨t, a, wrote⟩]) d')
      (fun _ _ _ => True) Session.init fun _ => none) :
    wp (relyUpon S guard) env (p.commit err) (KeepsWhile C I guard S t) (fun _ _ _ => True)
      Session.init fun _ => none := by
  refine wp_commit (wp_mono (fun a s H hP => ⟨?_, fun _ _ _ _ => trivial⟩) (fun _ _ _ _ => trivial) h)
  intro s' H' hfl h d hI hC ht hd hH hok
  refine hP h d _ _ hI hC ht hd (hfl.settled ⟨hd, hH, hok⟩) fun k hk => ?_
  refine Session.row_own_of_not_written d fun w hw hwk => hk ?_
  exact List.mem_map.mpr ⟨w, hw, hwk⟩

/-- The rule for a transaction that keeps the invariant whatever the commits are. -/
theorem verified_wrote {I : List (Commit T K α) → D → Prop} {guard : K → Prop}
    {env : (q : Q) → A q} {t : T} {p : Prog D K V Q A ε α} {err : ε}
    (h : wp (relyOn I guard t) env p (fun a s H => ∀ h d d' wrote, I h d → t ∉ h.map Commit.tid →
        Settled guard s H d d' wrote → (∀ k, k ∉ wrote → row d' k = row d k) →
        I (h ++ [⟨t, a, wrote⟩]) d')
      (fun _ _ _ => True) Session.init fun _ => none) :
    Verified I guard env t (p.commit err) := by
  have hw := keepsWhile_commit (C := fun _ => True) err
    (wp_mono (fun a s H hP h d d' wrote hI _ ht _ => hP h d d' wrote hI ht)
      (fun _ _ _ h => h) h)
  exact wp_mono (fun a s H hk h d hI ht => hk h d hI trivial ht ⟨h, hI, ht⟩) (fun _ _ _ h => h) hw

/-- The rule without the rows that are not written. -/
theorem verified_commit {I : List (Commit T K α) → D → Prop} {guard : K → Prop}
    {env : (q : Q) → A q} {t : T} {p : Prog D K V Q A ε α} {err : ε}
    (h : wp (relyOn I guard t) env p (fun a s H => ∀ h d d' wrote, I h d → t ∉ h.map Commit.tid →
        Settled guard s H d d' wrote → I (h ++ [⟨t, a, wrote⟩]) d')
      (fun _ _ _ => True) Session.init fun _ => none) :
    Verified I guard env t (p.commit err) :=
  verified_wrote (wp_mono (fun _ _ _ hP h d d' wrote hI ht hs _ => hP h d d' wrote hI ht hs)
    (fun _ _ _ h => h) h)

/-! ### The owners of locks -/

section Owners

variable [DecidableEq T] {c c' : Conf T D K V Q A ε α} {t : T} {p : Prog D K V Q A ε α}

omit [DecidableEq K] [RowStore D K V] in
lemma free_iff {k : K} : c.free t k = true ↔ c.owner k = none ∨ c.owner k = some t := by
  simp [Conf.free]

omit [RowStore D K V] in
/-- The rows that a statement locks were free. -/
lemma owner_take {ks : List K} (hf : ∀ k ∈ ks, c.free t k = true) {u : T} (hu : u ≠ t) (k : K) :
    (c.take t ks).owner k = some u ↔ c.owner k = some u := by
  simp only [Conf.take]
  split
  · next hk =>
    rcases free_iff.mp (hf k hk) with hn | ht
    · simp [hn, Ne.symm hu]
    · simp [ht, Ne.symm hu]
  · rfl

omit [DecidableEq K] [RowStore D K V] in
/-- A transaction that ends frees its own locks only. -/
lemma owner_finish (howner : c'.owner = fun k => if c.owner k = some t then none else c.owner k)
    {u : T} (hu : u ≠ t) (k : K) : c'.owner k = some u ↔ c.owner k = some u := by
  rw [howner]
  simp only
  split
  · next hk => simp [hk, Ne.symm hu]
  · rfl

omit [DecidableEq K] [RowStore D K V] in
/-- The owners of locks are running, after a statement that leaves its transaction running. -/
lemma owned_put (h : ∀ k u, c.owner k = some u → ∃ q, c.phase u = .running q)
    (hphase : c'.phase = Function.update c.phase t (.running p))
    (howner : ∀ u, u ≠ t → ∀ k, c'.owner k = some u ↔ c.owner k = some u) (k : K) (u : T)
    (hk : c'.owner k = some u) : ∃ q, c'.phase u = .running q := by
  rw [hphase]
  by_cases hu : u = t
  · subst hu
    exact ⟨p, by simp⟩
  · rw [Function.update_of_ne hu]
    exact h k u ((howner u hu k).mp hk)

omit [DecidableEq K] [RowStore D K V] in
/-- The owners of locks are running, after the end of a transaction. -/
lemma owned_finish (h : ∀ k u, c.owner k = some u → ∃ q, c.phase u = .running q)
    {ph : Phase D K V Q A ε α} (hphase : c'.phase = Function.update c.phase t ph)
    (howner : c'.owner = fun k => if c.owner k = some t then none else c.owner k) (k : K) (u : T)
    (hk : c'.owner k = some u) : ∃ q, c'.phase u = .running q := by
  have hu : u ≠ t := by
    rintro rfl
    rw [howner] at hk
    simp only at hk
    split at hk
    · cases hk
    · next hne => exact hne hk
  rw [hphase, Function.update_of_ne hu]
  exact h k u ((owner_finish howner hu k).mp hk)

end Owners

section Invariant

variable [DecidableEq T] {I : List (Commit T K α) → D → Prop} {guard : K → Prop} {S : T → D → Prop}
  {P : T → α → Session K V Q A → Held V → Prop} {iso : Isolation} {env : T → (q : Q) → A q}
  {c c' : Conf T D K V Q A ε α} {t : T} {p p' : Prog D K V Q A ε α} {H : Held V}

/-- A running transaction is at a program that is verified from its session, with its locks. -/
structure At (S : D → Prop) (guard : K → Prop) (env : (q : Q) → A q)
    (P : α → Session K V Q A → Held V → Prop) (c : Conf T D K V Q A ε α) (t : T)
    (p : Prog D K V Q A ε α) (H : Held V) : Prop where
  wp : wp (relyUpon S guard) env p P (fun _ _ _ => True) (c.sess t) H
  ok : (c.sess t).Ok D guard H
  held : ∀ k r, H k = some r → row c.db k = r
  owner : ∀ k, H k ≠ none ↔ c.owner k = some t
  snap : ∀ d, c.snap t = some d → S d

omit [DecidableEq T] in
/-- The actions of other transactions. -/
lemma At.frame {S : D → Prop} {env : (q : Q) → A q} {P : α → Session K V Q A → Held V → Prop}
    (h : At S guard env P c t p H) (hsess : c'.sess t = c.sess t)
    (hsnap : c'.snap t = c.snap t) (howner : ∀ k, c'.owner k = some t ↔ c.owner k = some t)
    (hdb : ∀ k, c.owner k = some t → row c'.db k = row c.db k) : At S guard env P c' t p H where
  wp := by rw [hsess]; exact h.wp
  ok := by rw [hsess]; exact h.ok
  held k r hr := by
    rw [hdb k ((h.owner k).mp (by simp [hr]))]
    exact h.held k r hr
  owner k := (h.owner k).trans (howner k).symm
  snap := by rw [hsnap]; exact h.snap

variable (S guard env P) in
/-- Every running transaction is verified from where it is. -/
structure Inv (c : Conf T D K V Q A ε α) : Prop where
  running : ∀ t p, c.phase t = .running p → ∃ H, At (S t) guard (env t) (P t) c t p H
  owned : ∀ k t, c.owner k = some t → ∃ p, c.phase t = .running p

namespace Inv

/-- A statement that changes only the transaction's own state and takes free locks. -/
lemma put (h : Inv guard S P env c)
    (hdb : c'.db = c.db) (hphase : c'.phase = Function.update c.phase t (.running p'))
    (hsess : ∀ u, u ≠ t → c'.sess u = c.sess u) (hsnap : ∀ u, u ≠ t → c'.snap u = c.snap u)
    (howner : ∀ u, u ≠ t → ∀ k, c'.owner k = some u ↔ c.owner k = some u)
    (hat : ∃ H, At (S t) guard (env t) (P t) c' t p' H) : Inv guard S P env c' where
  running u q hq := by
    by_cases hu : u = t
    · subst hu
      rw [hphase, Function.update_self] at hq
      cases hq
      exact hat
    · rw [hphase, Function.update_of_ne hu] at hq
      obtain ⟨H, ha⟩ := h.running u q hq
      exact ⟨H, ha.frame (hsess u hu) (hsnap u hu) (howner u hu) fun k _ => by rw [hdb]⟩
  owned := owned_put h.owned hphase howner

/-- A transaction ends; the others see what it has committed under its locks only. -/
lemma finish (h : Inv guard S P env c) {ph : Phase D K V Q A ε α} (hph : ∀ p, ph ≠ .running p)
    (hsess : c'.sess = c.sess) (hsnap : c'.snap = c.snap)
    (hphase : c'.phase = Function.update c.phase t ph)
    (howner : c'.owner = fun k => if c.owner k = some t then none else c.owner k)
    (hdb : ∀ k, c.owner k ≠ some t → row c'.db k = row c.db k) : Inv guard S P env c' where
  running u q hq := by
    by_cases hu : u = t
    · subst hu
      rw [hphase, Function.update_self] at hq
      exact absurd hq (hph q)
    · rw [hphase, Function.update_of_ne hu] at hq
      obtain ⟨H, ha⟩ := h.running u q hq
      exact ⟨H, ha.frame (by rw [hsess]) (by rw [hsnap]) (owner_finish howner hu)
        fun k hk => hdb k (by simp [hk, hu])⟩
  owned := owned_finish h.owned hphase howner

lemma commit (h : Inv guard S P env c) {a : α} (ha : At (S t) guard (env t) (P t) c t (.pure a) H) :
    Inv guard S P env (c.commit t a) := by
  refine h.finish (by simp) rfl rfl rfl rfl fun k hk => ?_
  refine Session.row_own_of_not_written c.db (ha.ok.not_written ?_)
  by_contra hn
  exact hk ((ha.owner k).mp hn)

lemma rollback (h : Inv guard S P env c) (e : Option ε) :
    Inv guard S P env (c.finish t (.rolledBack e)) :=
  h.finish (by simp) rfl rfl rfl rfl fun _ _ => rfl

/-- A statement without locks. -/
lemma own (h : Inv guard S P env c) (ha : At (S t) guard (env t) (P t) c t p H)
    {s : Session K V Q A} {n : ℕ} {sn : T → Option D} (hsn : ∀ u, u ≠ t → sn u = c.snap u)
    (hseen : ∀ d, sn t = some d → S t d)
    (hw : wp (relyUpon (S t) guard) (env t) p' (P t) (fun _ _ _ => True) s H)
    (hok : s.Ok D guard H) :
    Inv guard S P env { c.put t p' s with next := n, snap := sn } := by
  refine h.put rfl rfl (fun u hu => by simp [Conf.put, hu]) hsn (fun _ _ _ => Iff.rfl)
    ⟨H, ?_, ?_, ha.held, ha.owner, hseen⟩
  · simpa [Conf.put] using hw
  · simpa [Conf.put] using hok

/-- A statement that takes the locks of some rows. -/
lemma lock (h : Inv guard S P env c) (ha : At (S t) guard (env t) (P t) c t p H)
    {s : Session K V Q A} {ks : List K} (hf : ∀ k ∈ ks, c.free t k = true)
    (hw : wp (relyUpon (S t) guard) (env t) p' (P t) (fun _ _ _ => True) s (H.holdAll ks c.db))
    (hok : s.Ok D guard (H.holdAll ks c.db)) :
    Inv guard S P env ((c.put t p' s).take t ks) := by
  refine h.put rfl rfl (fun u hu => by simp [Conf.put, Conf.take, hu]) (fun _ _ => rfl)
    (fun u hu => owner_take hf hu) ⟨H.holdAll ks c.db, ?_, ?_, fun k r hr => ?_, fun k => ?_,
      ha.snap⟩
  · simpa [Conf.put, Conf.take] using hw
  · simpa [Conf.put, Conf.take] using hok
  · rw [Held.holdAll_apply] at hr
    split at hr
    · exact Option.some.inj hr
    · exact ha.held k r hr
  · rw [Held.holdAll_apply]
    simp only [Conf.take]
    split
    · simp
    · exact ha.owner k

omit [DecidableEq T] in
lemma seen_view {S : D → Prop} {env : (q : Q) → A q} {P : α → Session K V Q A → Held V → Prop}
    (ha : At S guard env P c t p H) (hnow : S c.db) : S (c.view iso t) := by
  cases iso with
  | readCommitted => exact hnow
  | repeatableRead =>
    rcases hd : c.snap t with _ | d
    · simpa [Conf.view, hd] using hnow
    · simpa [Conf.view, hd] using ha.snap d hd

/-- A lock that is granted is granted up to date. -/
lemma fresh {S : D → Prop} {env : (q : Q) → A q} {P : α → Session K V Q A → Held V → Prop}
    (ha : At S guard env P c t p H) (hp : c.phase t = .running p)
    (hg : UpToDate guard c (.step t)) {k : K} (hk : k ∈ granted c t p)
    (hf : c.free t k = true) : (relyUpon S guard).Fresh (c.sess t) H k c.db := by
  intro hgk hn o b ho hb
  refine hg p hp k hk hgk ?_ o b ho hb
  rcases free_iff.mp hf with hf | hf
  · exact hf
  · exact absurd hn ((ha.owner k).mpr hf)

/-- One statement of a transaction that may see the database keeps the others verified. -/
theorem stepProg (h : Inv guard S P env c) (hp : c.phase t = .running p) (hseen : S t c.db)
    (hg : UpToDate guard c (.step t)) (hs : stepProg iso env c t p = some c') :
    Inv guard S P env c' := by
  obtain ⟨H, ha⟩ := h.running t p hp
  have hnow : (relyUpon (S t) guard).Now (c.sess t) H c.db := ⟨hseen, ha.held, ha.ok⟩
  cases p with
  | pure a =>
    cases hs
    exact h.commit ha
  | raise e =>
    cases hs
    exact h.rollback (some e)
  | read q f =>
    cases hs
    refine h.own ha (fun u hu => by simp [hu]) (fun d hd => ?_)
      (ha.wp _ (seen_view ha hseen)) (ha.ok.load _ _)
    rw [Function.update_self] at hd
    cases hd
    exact seen_view ha hseen
  | lock k f =>
    simp only [RowTxn.stepProg] at hs
    split at hs
    · next hf =>
      cases hs
      -- a new lock is granted while the row is as it was loaded
      have hfr := fresh ha hp hg (show k ∈ granted c t (.lock k f) by simp [granted]) hf
      have hH : H.holdAll (if (row ((c.sess t).own c.db) k).isSome then [k] else []) c.db =
          if (row ((c.sess t).own c.db) k).isSome then H.hold k (row c.db k) else H := by
        split <;> rfl
      refine h.lock ha (fun k' hk' => ?_) ?_ ?_
      · split at hk'
        · rwa [List.mem_singleton.mp hk']
        · cases hk'
      · rw [hH]
        exact ha.wp.2 c.db hnow hfr
      · rw [hH]
        exact ha.ok.lock ha.wp.1 (ha.held k) hfr
    · cases hs
  | lockWhere q n f =>
    cases hs
    obtain ⟨hdirty, hw⟩ := ha.wp c.db hnow
    have hpick := fun k (hk : k ∈ (c.sess t).pick q n c.db (c.free t)) =>
      fresh ha hp hg (show k ∈ granted c t (.lockWhere q n f) from hk) (Session.of_mem_pick hk).2.2
    refine h.lock ha (fun k hk => (Session.of_mem_pick hk).2.2)
      (hw _ trivial hpick) (ha.ok.load_holdAll ?_ ?_ ha.held hpick)
    · exact fun k hk => hdirty k (Session.of_mem_pick hk).1
    · exact fun k hk => (Session.of_mem_pick hk).2.1
  | get k f =>
    cases hs
    exact h.own ha (fun _ _ => rfl) ha.snap ha.wp ha.ok
  | modify k g q =>
    cases hs
    exact h.own ha (fun _ _ => rfl) ha.snap ha.wp (ha.ok.modify k g)
  | insert k v q =>
    cases hs
    exact h.own ha (fun _ _ => rfl) ha.snap ha.wp.2 (ha.ok.insert v ha.wp.1)
  | alloc f =>
    cases hs
    exact h.own ha (fun _ _ => rfl) ha.snap (ha.wp c.next trivial) ha.ok
  | ask q f =>
    cases hs
    exact h.own ha (fun _ _ => rfl) ha.snap ha.wp (ha.ok.congr rfl rfl rfl)
  | flush f =>
    have hw : wpFlush (relyUpon (S t) guard) (c.sess t).dirty _ (c.sess t) H := ha.wp
    simp only [RowTxn.stepProg] at hs
    -- without a dirty object the flush is over, else it sends the first one
    rcases hd : (c.sess t).dirty with _ | ⟨k, ks⟩
    · rw [hd] at hs hw
      cases hs
      exact h.own ha (fun _ _ => rfl) ha.snap hw ha.ok
    · rw [hd] at hs hw
      simp only at hs
      split at hs
      · next hf =>
        have hfr := fresh ha hp hg (show k ∈ granted c t (.flush f) by simp [granted, hd]) hf
        have hw' := hw c.db hnow hfr
        rcases h1 : (c.sess t).flush1 k c.db with _ | s'
        · rw [h1] at hs hw'
          cases hs
          exact h.own ha (fun _ _ => rfl) ha.snap hw' ha.ok
        · rw [h1] at hs hw'
          cases hs
          refine h.lock ha (fun k' hk' => ?_) ?_ (ha.ok.flush1 hd h1 (ha.held k) hfr)
          · rwa [List.mem_singleton.mp hk']
          · show wpFlush _ s'.dirty _ s' _
            rw [(flush1_step h1).2.2.1, hd]
            exact hw'
      · cases hs

theorem act (h : Inv guard S P env c) {a : Act T} (ha : act iso env c a = some c')
    (hseen : ∀ t p, c.phase t = .running p → S t c.db) (hg : UpToDate guard c a) :
    Inv guard S P env c' := by
  cases a with
  | step t =>
    rcases hp : c.phase t with p | b | e <;> simp only [RowTxn.act, hp, reduceCtorEq] at ha
    exact h.stepProg hp (hseen t p hp) hg ha
  | abort t =>
    rcases hp : c.phase t with p | b | e <;>
      simp only [RowTxn.act, hp, reduceCtorEq, Option.some.injEq] at ha
    subst ha
    exact h.rollback none

omit [DecidableEq T] in
lemma init {d : D} {n : ℕ} {p : T → Prog D K V Q A ε α}
    (hv : ∀ t, wp (relyUpon (S t) guard) (env t) (p t) (P t) (fun _ _ _ => True) Session.init
      fun _ => none) : Inv guard S P env (Conf.init d n p) where
  running t q hq := by
    cases hq
    exact ⟨fun _ => none, hv t, Session.Ok.init, by simp, by simp [Conf.init], by simp [Conf.init]⟩
  owned k t hk := by simp [Conf.init] at hk

end Inv

/-- What an action leaves of the log and the database, unless it is a commit. -/
lemma commit_or_same {a : Act T} (ha : act iso env c a = some c') :
    (∃ t b, c.phase t = .running (.pure b) ∧ c' = c.commit t b) ∨
      c'.log = c.log ∧ c'.db = c.db := by
  cases a with
  | step t =>
    rcases hp : c.phase t with p | b | e <;> simp only [act, hp, reduceCtorEq] at ha
    rcases stepProg_cases ha with ⟨b, rfl, rfl⟩ | ⟨e, -, rfl⟩ | ⟨hdb, hl, -⟩
    · exact Or.inl ⟨t, b, hp, rfl⟩
    · exact Or.inr ⟨rfl, rfl⟩
    · exact Or.inr ⟨hl, hdb⟩
  | abort t =>
    rcases hp : c.phase t with p | b | e <;>
      simp only [act, hp, reduceCtorEq, Option.some.injEq] at ha
    subst ha
    exact Or.inr ⟨rfl, rfl⟩

/-- An invariant of the runs whose commits meet `C`.  A transaction may see what the invariant
allows before its own commit, and keeps the invariant if its commit meets `C`. -/
theorem invariant_of_run_while {C : List (Commit T K α) → Prop} {d : D} {n : ℕ}
    {p : T → Prog D K V Q A ε α} (hC : ∀ h cm, C (h ++ [cm]) → C h)
    (hS : ∀ t h d, C h → I h d → t ∉ h.map Commit.tid → S t d) (h0 : I [] d)
    (hv : ∀ t, wp (relyUpon (S t) guard) (env t) (p t) (KeepsWhile C I guard (S t) t)
      (fun _ _ _ => True) Session.init fun _ => none)
    (hr : Run iso env guard (Conf.init d n p) c) (hc : C c.log) : I c.log c.db := by
  have : Inv guard S (fun t => KeepsWhile C I guard (S t) t) env c ∧ I c.log c.db := by
    induction hr with
    | init => exact ⟨Inv.init hv, h0⟩
    | @act c c' a hr ha hg ih =>
      -- the commits before the action meet the condition as well
      have hC' : C c.log := by
        rcases commit_or_same ha with ⟨t, b, -, rfl⟩ | ⟨hl, -⟩
        · exact hC _ _ hc
        · rwa [← hl]
      obtain ⟨hinv, hI⟩ := ih hC'
      have hnew : ∀ t p, c.phase t = .running p → t ∉ c.log.map Commit.tid := by
        intro t p hp ht
        obtain ⟨b, hb⟩ := ((order_of_run hr).2 t).mp ht
        rw [hp] at hb
        cases hb
      have hseen := fun t p hp => hS t _ _ hC' hI (hnew t p hp)
      refine ⟨hinv.act ha hseen hg, ?_⟩
      rcases commit_or_same ha with ⟨t, b, hp, rfl⟩ | ⟨hl, hdb⟩
      · obtain ⟨H, hat⟩ := hinv.running t _ hp
        exact hat.wp c.log c.db hI hc (hnew t _ hp) (hseen t _ hp) hat.held hat.ok
      · rwa [hl, hdb]
  exact this.2

/-- An invariant that every transaction keeps against the others holds in every run. -/
theorem invariant_of_run {d : D} {n : ℕ} {p : T → Prog D K V Q A ε α} (h0 : I [] d)
    (hv : ∀ t, Verified I guard (env t) t (p t)) (hr : Run iso env guard (Conf.init d n p) c) :
    I c.log c.db :=
  invariant_of_run_while (S := fun t => (relyOn I guard t).seen) (fun _ _ _ => trivial)
    (fun _ h _ _ hI ht => ⟨h, hI, ht⟩) h0
    (fun t => wp_mono (fun _ _ _ hk h d hI _ ht _ hH hok => hk h d hI ht hH hok)
      (fun _ _ _ _ => trivial) (hv t)) hr trivial

end Invariant

end RowTxn
