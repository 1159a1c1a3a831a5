/-
# Transactions that interleave

A configuration holds the committed database, the owners of the row locks, and for every
transaction its program, session and snapshot.  One action runs one statement of one
transaction, or aborts a transaction (a deadlock victim, a lost connection).  A statement that
needs a lock of another transaction does not run; locks are kept to the end.  A commit makes
the writes of a session visible at once and is recorded in the log.

The order of the actions is free.  `exec` replays a given one, `Run` says which configurations
are reached when the locks of some rows are granted only while the row is as the session
loaded it.
-/
import InventoryReservation.RowTxn.Logic

namespace RowTxn

/-- What a plain read sees: the rows committed last, or those committed when the transaction
read first. -/
inductive Isolation
  | readCommitted
  | repeatableRead
deriving DecidableEq

/-- Where a transaction is.  `rolledBack none` is one that the database has aborted. -/
inductive Phase (D K : Type) (V : K → Type) (Q : Type) (A : Q → Type) (ε α : Type) : Type
  | running (p : Prog D K V Q A ε α)
  | committed (a : α)
  | rolledBack (e : Option ε)

/-- A commit: the transaction, its result, and the rows it wrote. -/
structure Commit (T K α : Type) where
  tid : T
  result : α
  wrote : List K

/-- A configuration of the transactions `T`. -/
structure Conf (T D K : Type) (V : K → Type) (Q : Type) (A : Q → Type) (ε α : Type) where
  /-- The committed database. -/
  db : D
  /-- The row locks. -/
  owner : K → Option T
  phase : T → Phase D K V Q A ε α
  sess : T → Session K V Q A
  /-- What the first plain read of a transaction has seen. -/
  snap : T → Option D
  /-- The `AUTO_INCREMENT` counter. -/
  next : ℕ
  /-- The commits so far. -/
  log : List (Commit T K α)

/-- An action of the system. -/
inductive Act (T : Type)
  | step (t : T)
  | abort (t : T)

variable {T D K : Type} {V : K → Type} {Q : Type} {A : Q → Type} {ε α : Type}

namespace Conf

/-- No transaction has started. -/
def init (d : D) (n : ℕ) (p : T → Prog D K V Q A ε α) : Conf T D K V Q A ε α where
  db := d
  owner _ := none
  phase t := .running (p t)
  sess _ := Session.init
  snap _ := none
  next := n
  log := []

variable [DecidableEq T]

/-- The transaction may take the lock of the row, or has it. -/
def free (c : Conf T D K V Q A ε α) (t : T) (k : K) : Bool :=
  c.owner k = none || c.owner k = some t

/-- The database that a plain read sees. -/
def view (iso : Isolation) (c : Conf T D K V Q A ε α) (t : T) : D :=
  match iso with
  | .readCommitted => c.db
  | .repeatableRead => (c.snap t).getD c.db

/-- The transaction goes on with a program and a session. -/
def put (c : Conf T D K V Q A ε α) (t : T) (p : Prog D K V Q A ε α) (s : Session K V Q A) :
    Conf T D K V Q A ε α :=
  { c with
    phase := Function.update c.phase t (.running p)
    sess := Function.update c.sess t s }

/-- The transaction takes the locks of some rows. -/
def take [DecidableEq K] (c : Conf T D K V Q A ε α) (t : T) (ks : List K) :
    Conf T D K V Q A ε α :=
  { c with owner := fun k => if k ∈ ks then some t else c.owner k }

/-- The transaction ends and its locks are free. -/
def finish (c : Conf T D K V Q A ε α) (t : T) (ph : Phase D K V Q A ε α) :
    Conf T D K V Q A ε α :=
  { c with
    phase := Function.update c.phase t ph
    owner := fun k => if c.owner k = some t then none else c.owner k }

/-- The transaction commits. -/
def commit [RowStore D K V] (c : Conf T D K V Q A ε α) (t : T) (a : α) :
    Conf T D K V Q A ε α :=
  { c.finish t (.committed a) with
    db := (c.sess t).own c.db
    log := c.log ++ [⟨t, a, (c.sess t).writes.map Sigma.fst⟩] }

end Conf

variable [DecidableEq T] [DecidableEq K] [RowStore D K V]

open RowStore

/-- The next statement of the program of a transaction, or nothing if it has to wait. -/
def stepProg (iso : Isolation) (env : T → (q : Q) → A q) (c : Conf T D K V Q A ε α) (t : T) :
    Prog D K V Q A ε α → Option (Conf T D K V Q A ε α)
  | .pure a => some (c.commit t a)
  | .raise e => some (c.finish t (.rolledBack (some e)))
  | .read q f =>
    let d := (c.sess t).own (c.view iso t)
    some { c.put t (f d) ((c.sess t).load (q d) d) with
      snap := Function.update c.snap t (some (c.view iso t)) }
  | .lock k f =>
    let r := (c.sess t).select1 k c.db
    if c.free t k then
      some ((c.put t (f r.2) r.1).take t
        (if (row ((c.sess t).own c.db) k).isSome then [k] else []))
    else none
  | .lockWhere q n f =>
    let l := (c.sess t).pick q n c.db (c.free t)
    some ((c.put t (f l) ((c.sess t).load l ((c.sess t).own c.db))).take t l)
  | .get k f => some (c.put t (f ((c.sess t).val k)) (c.sess t))
  | .modify k f p => some (c.put t p ((c.sess t).modify k f))
  | .insert k v p => some (c.put t p ((c.sess t).insert k v))
  | .alloc f => some { c.put t (f c.next) (c.sess t) with next := c.next + 1 }
  | .flush f =>
    match (c.sess t).dirty with
    | [] => some (c.put t (f true) (c.sess t))
    | k :: _ =>
      if c.free t k then
        match (c.sess t).flush1 k c.db with
        | some s => some ((c.put t (.flush f) s).take t [k])
        | none => some (c.put t (f false) (c.sess t))
      else none
  | .ask q f => some (c.put t (f (env t q)) ((c.sess t).log q (env t q)))

/-- One action, or nothing if it cannot happen. -/
def act (iso : Isolation) (env : T → (q : Q) → A q) (c : Conf T D K V Q A ε α) :
    Act T → Option (Conf T D K V Q A ε α)
  | .step t =>
    match c.phase t with
    | .running p => stepProg iso env c t p
    | _ => none
  | .abort t =>
    match c.phase t with
    | .running _ => some (c.finish t (.rolledBack none))
    | _ => none

/-- Replay a list of actions. -/
def exec (iso : Isolation) (env : T → (q : Q) → A q) (c : Conf T D K V Q A ε α) :
    List (Act T) → Option (Conf T D K V Q A ε α)
  | [] => some c
  | a :: as => (act iso env c a).bind fun c' => exec iso env c' as

/-- The rows whose lock a statement takes. -/
def granted (c : Conf T D K V Q A ε α) (t : T) : Prog D K V Q A ε α → List K
  | .lock k _ => [k]
  | .lockWhere q n _ => (c.sess t).pick q n c.db (c.free t)
  | .flush _ => (c.sess t).dirty.head?.toList
  | _ => []

/-- Every lock that an action newly takes on a row in `guard` is granted while the row is as
the session loaded it. -/
def UpToDate (guard : K → Prop) (c : Conf T D K V Q A ε α) : Act T → Prop
  | .step t => ∀ p, c.phase t = .running p → ∀ k ∈ granted c t p, guard k → c.owner k = none →
      ∀ o b, (c.sess t).objs k = some o → o.base = some b → row c.db k = some b
  | .abort _ => True

/-- The configurations reached when all locks on the rows in `guard` are granted up to date. -/
inductive Run (iso : Isolation) (env : T → (q : Q) → A q) (guard : K → Prop)
    (c₀ : Conf T D K V Q A ε α) : Conf T D K V Q A ε α → Prop
  | init : Run iso env guard c₀ c₀
  | act {c c' : Conf T D K V Q A ε α} {a : Act T} (h : Run iso env guard c₀ c)
      (ha : act iso env c a = some c') (hg : UpToDate guard c a) : Run iso env guard c₀ c'

/-- The configurations reached by any order of the actions. -/
abbrev Reachable (iso : Isolation) (env : T → (q : Q) → A q)
    (c₀ : Conf T D K V Q A ε α) : Conf T D K V Q A ε α → Prop :=
  Run iso env (fun _ => False) c₀

variable {iso : Isolation} {env : T → (q : Q) → A q} {guard : K → Prop}
  {c₀ c c' : Conf T D K V Q A ε α}

lemma upToDate_false (a : Act T) : UpToDate (fun _ => False) c a := by
  cases a with
  | step t => exact fun _ _ _ _ h => h.elim
  | abort t => trivial

lemma reachable_of_exec {as : List (Act T)} (hc : Reachable iso env c₀ c)
    (h : exec iso env c as = some c') : Reachable iso env c₀ c' := by
  induction as generalizing c with
  | nil =>
    cases h
    exact hc
  | cons a as ih =>
    obtain ⟨c₁, h₁, h⟩ := Option.bind_eq_some_iff.mp h
    exact ih (hc.act h₁ (upToDate_false a)) h

/-! ### Testing whether an order of the actions is up to date -/

section Replay

variable [∀ k, DecidableEq (V k)]

/-- The object of a row, if the session has one, was loaded with the stored values. -/
def asLoaded (c : Conf T D K V Q A ε α) (t : T) (k : K) : Bool :=
  match (c.sess t).objs k with
  | some ⟨some b, _⟩ => row c.db k = some b
  | _ => true

/-- `UpToDate`, as a test. -/
def isUpToDate (guard : K → Bool) (c : Conf T D K V Q A ε α) : Act T → Bool
  | .step t =>
    match c.phase t with
    | .running p => (granted c t p).all fun k =>
        !guard k || (c.owner k).isSome || asLoaded c t k
    | _ => true
  | .abort _ => true

/-- Replay a list of actions as long as they are up to date. -/
def replay (guard : K → Bool) (iso : Isolation) (env : T → (q : Q) → A q)
    (c : Conf T D K V Q A ε α) : List (Act T) → Option (Conf T D K V Q A ε α)
  | [] => some c
  | a :: as =>
    if isUpToDate guard c a then (act iso env c a).bind fun c' => replay guard iso env c' as
    else none

lemma upToDate_of_test {guard : K → Bool} {a : Act T} (h : isUpToDate guard c a = true) :
    UpToDate (fun k => guard k = true) c a := by
  cases a with
  | abort t => trivial
  | step t =>
    intro p hp k hk hg hn o b ho hb
    simp only [isUpToDate, hp, List.all_eq_true] at h
    have hk' := h k hk
    obtain ⟨ob, oc⟩ := o
    obtain rfl : ob = some b := hb
    simpa [hg, hn, asLoaded, ho] using hk'

lemma run_of_replay {guard : K → Bool} {as : List (Act T)}
    (hc : Run iso env (fun k => guard k = true) c₀ c) (h : replay guard iso env c as = some c') :
    Run iso env (fun k => guard k = true) c₀ c' := by
  induction as generalizing c with
  | nil =>
    cases h
    exact hc
  | cons a as ih =>
    rw [replay] at h
    split at h
    · next hg =>
      obtain ⟨c₁, h₁, h⟩ := Option.bind_eq_some_iff.mp h
      exact ih (hc.act h₁ (upToDate_of_test hg)) h
    · cases h

end Replay

/-- Fewer rows to be up to date, more configurations. -/
lemma Run.mono {guard' : K → Prop} (hg : ∀ k, guard' k → guard k)
    (h : Run iso env guard c₀ c) : Run iso env guard' c₀ c := by
  induction h with
  | init => exact .init
  | @act c c' a _ ha hd ih =>
    refine ih.act ha ?_
    cases a with
    | step t => exact fun p hp k hk hk' => hd p hp k hk (hg k hk')
    | abort t => trivial

/-! ### What one statement can do -/

/-- A statement ends the transaction, or changes nothing that is committed and leaves the
transaction running. -/
lemma stepProg_cases {t : T} {p : Prog D K V Q A ε α} (h : stepProg iso env c t p = some c') :
    (∃ a, p = .pure a ∧ c' = c.commit t a) ∨
    (∃ e, p = .raise e ∧ c' = c.finish t (.rolledBack (some e))) ∨
    c'.db = c.db ∧ c'.log = c.log ∧ ∃ q, c'.phase = Function.update c.phase t (.running q) := by
  cases p with
  | pure a => exact Or.inl ⟨a, rfl, (Option.some.inj h).symm⟩
  | raise e => exact Or.inr (Or.inl ⟨e, rfl, (Option.some.inj h).symm⟩)
  | lock k f =>
    simp only [stepProg] at h
    split at h
    · cases h
      exact Or.inr (Or.inr ⟨rfl, rfl, _, rfl⟩)
    · cases h
  | flush f =>
    simp only [stepProg] at h
    split at h
    · cases h
      exact Or.inr (Or.inr ⟨rfl, rfl, _, rfl⟩)
    · split at h
      · split at h <;> cases h <;> exact Or.inr (Or.inr ⟨rfl, rfl, _, rfl⟩)
      · cases h
  | _ =>
    cases h
    exact Or.inr (Or.inr ⟨rfl, rfl, _, rfl⟩)

/-- An action adds at most one commit to the log. -/
lemma log_of_act {a : Act T} (ha : act iso env c a = some c') :
    ∃ new, c'.log = c.log ++ new ∧ new.length ≤ 1 := by
  cases a with
  | step t =>
    rcases hp : c.phase t with p | b | e <;> simp only [act, hp, reduceCtorEq] at ha
    rcases stepProg_cases ha with ⟨a, -, rfl⟩ | ⟨e, -, rfl⟩ | ⟨-, hl, -⟩
    · exact ⟨[_], rfl, Nat.le_refl 1⟩
    · exact ⟨[], by simp [Conf.finish], Nat.zero_le 1⟩
    · exact ⟨[], by simp [hl], Nat.zero_le 1⟩
  | abort t =>
    rcases hp : c.phase t with p | b | e <;>
      simp only [act, hp, reduceCtorEq, Option.some.injEq] at ha
    subst ha
    exact ⟨[], by simp [Conf.finish], Nat.zero_le 1⟩

/-- The log only grows. -/
theorem log_of_run (h : Run iso env guard c₀ c) : ∃ new, c.log = c₀.log ++ new := by
  induction h with
  | init => exact ⟨[], by simp⟩
  | act _ ha _ ih =>
    obtain ⟨new, hnew⟩ := ih
    obtain ⟨new', hnew', -⟩ := log_of_act ha
    exact ⟨new ++ new', by rw [hnew', hnew, List.append_assoc]⟩

lemma Run.trans (h : Run iso env guard c₀ c) (h' : Run iso env guard c c') :
    Run iso env guard c₀ c' := by
  induction h' with
  | init => exact h
  | act _ ha hg ih => exact ih.act ha hg

/-- The commits so far, in their order. -/
def Conf.order (c : Conf T D K V Q A ε α) : List T := c.log.map Commit.tid

/-- The transactions that have committed are the ones in the log, each once. -/
theorem order_of_run {d : D} {n : ℕ} {p : T → Prog D K V Q A ε α}
    (h : Run iso env guard (Conf.init d n p) c) :
    c.order.Nodup ∧ ∀ t, t ∈ c.order ↔ ∃ a, c.phase t = .committed a := by
  induction h with
  | init => simp [Conf.order, Conf.init]
  | @act c c' a _ ha _ ih =>
    obtain ⟨hnd, hmem⟩ := ih
    -- an action that leaves the log alone, and the phases of committed transactions
    have hsame : ∀ t ph, (∀ b, c.phase t ≠ .committed b) → (∀ b, ph ≠ .committed b) →
        c'.log = c.log → c'.phase = Function.update c.phase t ph →
        c'.order.Nodup ∧ ∀ u, u ∈ c'.order ↔ ∃ a, c'.phase u = .committed a := by
      intro t ph ht hph hl hp
      have ho : c'.order = c.order := by simp [Conf.order, hl]
      rw [ho, hp]
      refine ⟨hnd, fun u => ?_⟩
      by_cases hu : u = t
      · subst hu
        simp [hmem, ht, hph]
      · simp [hmem, hu]
    cases a with
    | step t =>
      rcases hp : c.phase t with p | b | e <;> simp only [act, hp, reduceCtorEq] at ha
      rcases stepProg_cases ha with ⟨a, -, rfl⟩ | ⟨e, -, rfl⟩ | ⟨-, hl, q, hq⟩
      · have ht : t ∉ c.order := by simp [hmem, hp]
        have ho : (c.commit t a).order = c.order ++ [t] := by simp [Conf.order, Conf.commit]
        rw [ho]
        refine ⟨hnd.append (List.nodup_singleton t) (by simpa using ht), fun u => ?_⟩
        by_cases hu : u = t
        · subst hu
          simp [Conf.commit, Conf.finish]
        · simp [Conf.commit, Conf.finish, hu, hmem]
      · exact hsame t _ (by simp [hp]) (by simp) rfl rfl
      · exact hsame t _ (by simp [hp]) (by simp) hl hq
    | abort t =>
      rcases hp : c.phase t with p | b | e <;>
        simp only [act, hp, reduceCtorEq, Option.some.injEq] at ha
      subst ha
      exact hsame t _ (by simp [hp]) (by simp) rfl rfl

end RowTxn
