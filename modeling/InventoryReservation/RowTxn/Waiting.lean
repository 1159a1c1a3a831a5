/-
# Transactions that wait for each other

A transaction waits for the one that owns the row lock its next statement needs.  A deadlock is
a cycle of such waits.

A discipline says which rows anyone may have to wait for and in which order their locks are
taken.  Since a program takes its locks in an order that it reads from rows, a discipline also
says what every row looks like and what its changes leave alone.  `wpOrder` is the weakest
precondition of a program that keeps a discipline, whatever it reads and whether or not its
objects are up to date.
-/
import InventoryReservation.RowTxn.LockedLoads
import Mathlib.Data.Set.Insert
import Mathlib.Logic.Relation

namespace RowTxn

variable {T D K : Type} {V : K → Type} {Q : Type} {A : Q → Type} {ε α β : Type}

/-! ### Waits -/

/-- The row whose lock the next statement of a program waits for. -/
def Prog.request (s : Session K V Q A) : Prog D K V Q A ε α → Option K
  | .lock k _ => some k
  | .flush _ => s.dirty.head?
  | _ => none

namespace Conf

/-- The row whose lock a transaction asks for next. -/
def request (c : Conf T D K V Q A ε α) (t : T) : Option K :=
  match c.phase t with
  | .running p => p.request (c.sess t)
  | _ => none

/-- A transaction waits for another one. -/
def Waits (c : Conf T D K V Q A ε α) (t u : T) : Prop :=
  ∃ k, c.request t = some k ∧ c.owner k = some u ∧ u ≠ t

/-- A cycle of transactions, each waiting for the next. -/
def Deadlock (c : Conf T D K V Q A ε α) : Prop := ∃ t, Relation.TransGen c.Waits t t

lemma request_of_running {c : Conf T D K V Q A ε α} {t : T} {p : Prog D K V Q A ε α}
    (hp : c.phase t = .running p) : c.request t = p.request (c.sess t) := by
  simp [request, hp]

/-- Two transactions that ask for a row of each other. -/
lemma deadlock_of_owner {c : Conf T D K V Q A ε α} {t u : T} {j k : K} (htu : t ≠ u)
    (hj : c.request t = some j) (hu : c.owner j = some u) (hk : c.request u = some k)
    (ht : c.owner k = some t) : c.Deadlock :=
  ⟨t, .tail (.single ⟨j, hj, hu, htu.symm⟩) ⟨k, hk, ht, htu⟩⟩

end Conf

/-- A statement does not run exactly if its transaction waits. -/
lemma stepProg_eq_none [DecidableEq T] [DecidableEq K] [RowStore D K V] {iso : Isolation}
    {env : T → (q : Q) → A q} {c : Conf T D K V Q A ε α} {t : T} {p : Prog D K V Q A ε α}
    (hp : c.phase t = .running p) : stepProg iso env c t p = none ↔ ∃ u, c.Waits t u := by
  have hwaits : (∃ u, c.Waits t u) ↔ ∃ k, p.request (c.sess t) = some k ∧ c.free t k = false := by
    simp only [Conf.Waits, Conf.request_of_running hp]
    constructor
    · rintro ⟨u, k, hk, ho, hu⟩
      exact ⟨k, hk, by simp [Conf.free, ho, hu]⟩
    · rintro ⟨k, hk, hf⟩
      rcases ho : c.owner k with _ | u
      · simp [Conf.free, ho] at hf
      · exact ⟨u, k, hk, ho, by simpa [Conf.free, ho] using hf⟩
  rw [hwaits]
  cases p with
  | lock k f => cases hf : c.free t k <;> simp [stepProg, Prog.request, hf]
  | flush f =>
    rcases hd : (c.sess t).dirty with _ | ⟨k, ks⟩
    · simp [stepProg, Prog.request, hd]
    · cases hf : c.free t k
      · simp [stepProg, Prog.request, hd, hf]
      · rcases hs : (c.sess t).flush1 k c.db with _ | s <;> simp [stepProg, Prog.request, hd, hf, hs]
  | _ => simp [stepProg, Prog.request]

/-! ### Disciplines -/

open RowStore

/-- What transactions have in common: how rows look and change, and the order of the locks. -/
structure Discipline (D K : Type) (V : K → Type) [RowStore D K V] where
  /-- What a row looks like. -/
  sound : (k : K) → V k → Prop
  /-- What the changes of a row leave alone. -/
  keeps : (k : K) → V k → V k → Prop
  /-- The row that is inserted under an allocated id. -/
  key : ℕ → K
  /-- The ids from here on may be allocated. -/
  first : ℕ
  /-- The rows for whose locks a transaction may wait. -/
  asked : K → Prop
  /-- The order in which these locks are taken. -/
  before : K → K → Prop
  keeps_refl : ∀ k v, keeps k v v
  keeps_trans : ∀ {k u v w}, keeps k u v → keeps k v w → keeps k u w
  sound_of_keeps : ∀ {k v w}, sound k v → keeps k v w → sound k w
  /-- An `UPDATE` keeps what the session and the transactions committed meanwhile have kept. -/
  keeps_merge : ∀ {k b c r}, keeps k b c → keeps k b r →
    keeps k r (merge D k b c r) ∧ keeps k c (merge D k b c r)
  key_injective : Function.Injective key
  before_irrefl : ∀ k, ¬before k k
  before_trans : ∀ {i j k}, before i j → before j k → before i k

variable [RowStore D K V]

namespace Discipline

variable (L : Discipline D K V)

/-- A row that a transaction with the allocated ids `I` inserts. -/
def Own (I : Set ℕ) (k : K) : Prop := ∃ n ∈ I, k = L.key n

/-- A row whose lock a transaction may ask for when it holds those of `H`. -/
def May (H : Set K) (I : Set ℕ) (k : K) : Prop :=
  k ∈ H ∨ L.Own I k ∨ L.asked k ∧ ∀ k' ∈ H, L.asked k' → L.before k' k

/-- All rows look as they should. -/
def Seen (d : D) : Prop := ∀ k v, row d k = some v → L.sound k v

/-- Every row of `d` is still in `d'`, changed as it may be. -/
def Evolves (d d' : D) : Prop :=
  ∀ k v, row d k = some v → ∃ v', row d' k = some v' ∧ L.keeps k v v'

variable {L} {d d' d'' : D}

lemma Evolves.refl (d : D) : L.Evolves d d := fun _ v hv => ⟨v, hv, L.keeps_refl _ _⟩

lemma Evolves.trans (h : L.Evolves d d') (h' : L.Evolves d' d'') : L.Evolves d d'' := by
  intro k v hv
  obtain ⟨w, hw, hvw⟩ := h k v hv
  obtain ⟨x, hx, hwx⟩ := h' k w hw
  exact ⟨x, hx, L.keeps_trans hvw hwx⟩

lemma Evolves.ne_none (h : L.Evolves d d') {k : K} (hk : row d k ≠ none) : row d' k ≠ none := by
  obtain ⟨v, hv⟩ := Option.ne_none_iff_exists'.mp hk
  obtain ⟨w, hw, -⟩ := h k v hv
  simp [hw]

lemma Own.mono {I J : Set ℕ} {k : K} (h : L.Own I k) (hIJ : ∀ n ∈ I, n ∈ J) : L.Own J k := by
  obtain ⟨n, hn, hk⟩ := h
  exact ⟨n, hIJ n hn, hk⟩

lemma own_key {I : Set ℕ} {n : ℕ} : L.Own I (L.key n) ↔ n ∈ I := by
  constructor
  · rintro ⟨m, hm, h⟩
    rwa [L.key_injective h]
  · exact fun h => ⟨n, h, rfl⟩

variable (L) in
/-- The locks of the rows may be taken one after the other. -/
def Mays (H : Set K) (I : Set ℕ) : List K → Prop
  | [] => True
  | k :: ks => L.May H I k ∧ Mays (insert k H) I ks

lemma mays_of_mem {H : Set K} {I : Set ℕ} {ks : List K} (h : ∀ k ∈ ks, k ∈ H) :
    L.Mays H I ks := by
  induction ks generalizing H with
  | nil => trivial
  | cons k ks ih =>
    exact ⟨Or.inl (h k (by simp)), ih fun k' hk' => Set.mem_insert_of_mem _ (h k' (by simp [hk']))⟩

/-- Only one of the rows is not locked yet. -/
lemma mays_of_mem_or {H : Set K} {I : Set ℕ} {x : K} (hx : L.May H I x) {ks : List K}
    (h : ∀ k ∈ ks, k ∈ H ∨ k = x) : L.Mays H I ks := by
  induction ks with
  | nil => trivial
  | cons k ks ih =>
    have hks := fun k' (hk' : k' ∈ ks) => h k' (by simp [hk'])
    rcases h k (by simp) with hk | rfl
    · refine ⟨Or.inl hk, ?_⟩
      rw [Set.insert_eq_of_mem hk]
      exact ih hks
    · exact ⟨hx, mays_of_mem fun k' hk' => (hks k' hk').symm⟩

lemma Mays.append {H : Set K} {I : Set ℕ} {ks : List K} {x : K} (h : L.Mays H I ks)
    (hx : L.May {k | k ∈ ks ∨ k ∈ H} I x) : L.Mays H I (ks ++ [x]) := by
  induction ks generalizing H with
  | nil => exact ⟨by simpa using hx, trivial⟩
  | cons k ks ih =>
    refine ⟨h.1, ih h.2 ?_⟩
    have hset : {k' | k' ∈ k :: ks ∨ k' ∈ H} = {k' | k' ∈ ks ∨ k' ∈ insert k H} := by
      ext k'
      simp only [List.mem_cons, Set.mem_ofPred_eq, Set.mem_insert_iff]
      tauto
    rwa [← hset]

end Discipline

/-! ### Programs that read objects and ask -/

/-- The program takes no lock, loads no row and changes no object. -/
def Prog.Quiet : Prog D K V Q A ε α → Prop
  | .pure _ => True
  | .raise _ => True
  | .get _ c => ∀ v, (c v).Quiet
  | .ask _ c => ∀ a, (c a).Quiet
  | _ => False

namespace Prog.Quiet

omit [RowStore D K V] in
lemma bind {p : Prog D K V Q A ε α} {f : α → Prog D K V Q A ε β} (hp : p.Quiet)
    (hf : ∀ a, (f a).Quiet) : (p.bind f).Quiet := by
  induction p with
  | pure a => exact hf a
  | raise e => trivial
  | get k c ih => exact fun v => ih v (hp v)
  | ask q c ih => exact fun a => ih a (hp a)
  | _ => exact hp.elim

omit [RowStore D K V] in
lemma tryCatch {p : Prog D K V Q A ε α} {h : ε → Prog D K V Q A ε α} (hp : p.Quiet)
    (hh : ∀ e, (h e).Quiet) : (p.tryCatch h).Quiet := by
  induction p with
  | pure a => trivial
  | raise e => exact hh e
  | get k c ih => exact fun v => ih v (hp v)
  | ask q c ih => exact fun a => ih a (hp a)
  | _ => exact hp.elim

omit [RowStore D K V] in
lemma ofExcept (x : Except ε α) : (Prog.ofExcept x : Prog D K V Q A ε α).Quiet := by
  cases x <;> trivial

end Prog.Quiet

/-! ### The weakest precondition -/

variable [DecidableEq K]

/-- The weakest precondition of flushing the objects `ks`, one statement after the other. -/
def wpOrderFlush (L : Discipline D K V) (I : Set ℕ) :
    List K → (Bool → Session K V Q A → Set K → Prop) → Session K V Q A → Set K → Prop
  | [], P, s, H => P true s H
  | k :: ks, P, s, H => L.May H I k ∧ P false s H ∧
      ∀ (d : D) s', s.flush1 k d = some s' → wpOrderFlush L I ks P s' (insert k H)

/-- The weakest precondition of a program that keeps a discipline, from a session that holds the
locks of `H` and has allocated the ids of `I`. -/
def wpOrder (L : Discipline D K V) (env : (q : Q) → A q) : Prog D K V Q A ε α →
    (α → Session K V Q A → Set K → Set ℕ → Prop) → (ε → Session K V Q A → Set K → Set ℕ → Prop) →
    Session K V Q A → Set K → Set ℕ → Prop
  | .pure a, P, _, s, H, I => P a s H I
  | .raise e, _, E, s, H, I => E e s H I
  | .read q c, P, E, s, H, I => ∀ d, L.Seen d → wpOrder L env (c d) P E (s.load (q d) d) H I
  | .lock k c, P, E, s, H, I => L.May H I k ∧ wpOrder L env (c none) P E s H I ∧
      ∀ v, L.sound k v → wpOrder L env (c ((s.load1 k (some v)).val k)) P E
        (s.load1 k (some v)) (insert k H) I
  | .lockWhere q n c, P, E, s, H, I => ∀ d ks, L.Seen d → (∀ k ∈ ks, k ∈ q d) → ks.length ≤ n →
      wpOrder L env (c ks) P E (s.load ks d) {k | k ∈ ks ∨ k ∈ H} I
  | .get k c, P, E, s, H, I => (∀ v, s.val k = some v → L.sound k v) →
      wpOrder L env (c (s.val k)) P E s H I
  | .modify k f c, P, E, s, H, I => (∀ v, s.val k = some v → L.sound k v →
        L.keeps k v (f v) ∨ L.Own I k ∧ L.sound k (f v)) ∧
      wpOrder L env c P E (s.modify k f) H I
  | .insert k v c, P, E, s, H, I =>
      (L.Own I k ∧ s.objs k = none ∨ (∀ n, k ≠ L.key n) ∧ ∀ w w', L.keeps k w w') ∧
      L.sound k v ∧ wpOrder L env c P E (s.insert k v) H I
  | .alloc c, P, E, s, H, I => ∀ n, L.first ≤ n → s.objs (L.key n) = none →
      wpOrder L env (c n) P E s H (insert n I)
  | .flush c, P, E, s, H, I =>
      wpOrderFlush L I s.dirty (fun ok s H => wpOrder L env (c ok) P E s H I) s H
  | .ask q c, P, E, s, H, I => wpOrder L env (c (env q)) P E (s.log q (env q)) H I

section Rules

variable {L : Discipline D K V} {env : (q : Q) → A q} {s : Session K V Q A} {H : Set K}
  {I : Set ℕ}

lemma wpOrderFlush_mono {ks : List K} {P P' : Bool → Session K V Q A → Set K → Prop}
    (hP : ∀ ok s H, P ok s H → P' ok s H) (h : wpOrderFlush L I ks P s H) :
    wpOrderFlush L I ks P' s H := by
  induction ks generalizing s H with
  | nil => exact hP _ _ _ h
  | cons k ks ih =>
    exact ⟨h.1, hP _ _ _ h.2.1, fun d s' hs => ih (h.2.2 d s' hs)⟩

/-- The rule of consequence. -/
theorem wpOrder_mono {p : Prog D K V Q A ε α}
    {P P' : α → Session K V Q A → Set K → Set ℕ → Prop}
    {E E' : ε → Session K V Q A → Set K → Set ℕ → Prop}
    (hP : ∀ a s H I, P a s H I → P' a s H I) (hE : ∀ e s H I, E e s H I → E' e s H I)
    (h : wpOrder L env p P E s H I) : wpOrder L env p P' E' s H I := by
  induction p generalizing s H I with
  | pure a => exact hP _ _ _ _ h
  | raise e => exact hE _ _ _ _ h
  | read q c ih => exact fun d hd => ih _ (h d hd)
  | lock k c ih => exact ⟨h.1, ih _ h.2.1, fun v hv => ih _ (h.2.2 v hv)⟩
  | lockWhere q n c ih => exact fun d ks hd hks hn => ih _ (h d ks hd hks hn)
  | get k c ih => exact fun hv => ih _ (h hv)
  | modify k f c ih => exact ⟨h.1, ih h.2⟩
  | insert k v c ih => exact ⟨h.1, h.2.1, ih h.2.2⟩
  | alloc c ih => exact fun n hn ho => ih _ (h n hn ho)
  | flush c ih => exact wpOrderFlush_mono (fun ok s H hok => ih ok hok) h
  | ask q c ih => exact ih _ h

/-- The rule of sequencing. -/
theorem wpOrder_bind {p : Prog D K V Q A ε α} {f : α → Prog D K V Q A ε β}
    {P : β → Session K V Q A → Set K → Set ℕ → Prop}
    {E : ε → Session K V Q A → Set K → Set ℕ → Prop} :
    wpOrder L env (p.bind f) P E s H I ↔
      wpOrder L env p (fun a => wpOrder L env (f a) P E) E s H I := by
  induction p generalizing s H I with
  | pure a => rfl
  | raise e => rfl
  | read q c ih => exact forall₂_congr fun d _ => ih _
  | lock k c ih =>
    exact and_congr_right fun _ => and_congr (ih _) (forall₂_congr fun v _ => ih _)
  | lockWhere q n c ih => exact forall₅_congr fun d ks _ _ _ => ih _
  | get k c ih => exact forall_congr' fun _ => ih _
  | modify k g c ih => exact and_congr_right fun _ => ih
  | insert k v c ih => exact and_congr_right fun _ => and_congr_right fun _ => ih
  | alloc c ih => exact forall₃_congr fun n _ _ => ih n
  | flush c ih =>
    exact ⟨wpOrderFlush_mono fun ok s H => (ih ok).mp, wpOrderFlush_mono fun ok s H => (ih ok).mpr⟩
  | ask q c ih => exact ih _

/-- The rule for exception handlers. -/
theorem wpOrder_tryCatch {p : Prog D K V Q A ε α} {h : ε → Prog D K V Q A ε α}
    {P : α → Session K V Q A → Set K → Set ℕ → Prop}
    {E : ε → Session K V Q A → Set K → Set ℕ → Prop} :
    wpOrder L env (p.tryCatch h) P E s H I ↔
      wpOrder L env p P (fun e => wpOrder L env (h e) P E) s H I := by
  induction p generalizing s H I with
  | pure a => rfl
  | raise e => rfl
  | read q c ih => exact forall₂_congr fun d _ => ih _
  | lock k c ih =>
    exact and_congr_right fun _ => and_congr (ih _) (forall₂_congr fun v _ => ih _)
  | lockWhere q n c ih => exact forall₅_congr fun d ks _ _ _ => ih _
  | get k c ih => exact forall_congr' fun _ => ih _
  | modify k g c ih => exact and_congr_right fun _ => ih
  | insert k v c ih => exact and_congr_right fun _ => and_congr_right fun _ => ih
  | alloc c ih => exact forall₃_congr fun n _ _ => ih n
  | flush c ih =>
    exact ⟨wpOrderFlush_mono fun ok s H => (ih ok).mp, wpOrderFlush_mono fun ok s H => (ih ok).mpr⟩
  | ask q c ih => exact ih _

lemma wpOrder_ofExcept {x : Except ε α} {P : α → Session K V Q A → Set K → Set ℕ → Prop}
    {E : ε → Session K V Q A → Set K → Set ℕ → Prop} :
    wpOrder L env (.ofExcept x : Prog D K V Q A ε α) P E s H I ↔
      match x with
      | .ok a => P a s H I
      | .error e => E e s H I := by
  cases x <;> rfl

/-- A quiet program only makes the trace longer. -/
lemma wpOrder_quiet {p : Prog D K V Q A ε α} (hp : p.Quiet)
    {P : α → Session K V Q A → Set K → Set ℕ → Prop}
    {E : ε → Session K V Q A → Set K → Set ℕ → Prop}
    (hP : ∀ a tr, P a { s with trace := tr } H I) (hE : ∀ e tr, E e { s with trace := tr } H I) :
    wpOrder L env p P E s H I := by
  induction p generalizing s with
  | pure a => exact hP a s.trace
  | raise e => exact hE e s.trace
  | get k c ih => exact fun _ => ih _ (hp _) hP hE
  | ask q c ih => exact ih _ (hp _) (fun a tr => hP a tr) fun e tr => hE e tr
  | _ => exact hp.elim

/-- The rule for a flush: the objects keep their values. -/
lemma wpOrderFlush_intro {P : Bool → Session K V Q A → Set K → Prop} (hm : L.Mays H I s.dirty)
    (hok : ∀ s', s'.dirty = [] → (∀ k, s'.val k = s.val k) → P true s' {k | k ∈ s.dirty ∨ k ∈ H})
    (hfail : ∀ s' H', P false s' H') : wpOrderFlush L I s.dirty P s H := by
  induction hks : s.dirty generalizing s H with
  | nil =>
    have hset : {k | k ∈ s.dirty ∨ k ∈ H} = H := by
      ext k
      simp [hks]
    have := hok s hks fun _ => rfl
    rwa [hset] at this
  | cons k ks ih =>
    rw [hks] at hm
    refine ⟨hm.1, hfail s H, fun d s₁ hs => ?_⟩
    obtain ⟨hval, -, hdirty, -⟩ := flush1_step hs
    rw [hks, List.tail_cons] at hdirty
    refine ih (by rw [hdirty]; exact hm.2) (fun s' hd' hval' => ?_) hdirty
    have hset : {k' | k' ∈ s.dirty ∨ k' ∈ H} = {k' | k' ∈ s₁.dirty ∨ k' ∈ insert k H} := by
      ext k'
      simp only [hks, hdirty, List.mem_cons, Set.mem_ofPred_eq, Set.mem_insert_iff]
      tauto
    have := hok s' hd' fun k' => (hval' k').trans (hval k')
    rwa [hset] at this

/-- The rule for a transaction: at its end the pending changes are flushed. -/
lemma wpOrder_commit {p : Prog D K V Q A ε α} {err : ε}
    (h : wpOrder L env p (fun _ s H I => L.Mays H I s.dirty) (fun _ _ _ _ => True) s H I) :
    wpOrder L env (p.commit err) (fun _ _ _ _ => True) (fun _ _ _ _ => True) s H I := by
  refine wpOrder_bind.mpr (wpOrder_mono (fun a s H I hm => ?_) (fun _ _ _ _ _ => trivial) h)
  exact wpOrderFlush_intro hm (fun _ _ _ => trivial) fun _ _ => trivial

end Rules

end RowTxn
