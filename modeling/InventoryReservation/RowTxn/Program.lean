/-
# Programs that talk to a row-locking database

A transaction is written once, as a tree of the statements it issues: plain reads, locking
reads, in-memory changes of loaded rows, inserts, flushes, and questions to the outside world
(a clock, a remote service).  What the statements do is given elsewhere, once for a
transaction that runs alone and once for transactions that interleave.

The database itself is abstract: a type of states with rows under keys, and for every kind of
row the way in which an `UPDATE` of its changed columns acts on the stored row.
-/
import Mathlib.Logic.Function.Basic
import Mathlib.Data.List.Dedup

namespace RowTxn

/-- Database states with rows under keys. -/
class RowStore (D : Type) (K : outParam Type) (V : outParam (K → Type)) where
  /-- The row under a key. -/
  row : D → (k : K) → Option (V k)
  /-- Store a row under a key. -/
  write : D → (k : K) → V k → D
  /-- `merge k b c r`: the stored row `r` after an `UPDATE` that sets the columns in which the
  object's present value `c` differs from the value `b` it was loaded with. -/
  merge : (k : K) → V k → V k → V k → V k
  /-- An id that no row uses yet. -/
  fresh : D → ℕ
  row_write_self : ∀ d k v, row (write d k v) k = some v
  row_write_of_ne : ∀ d k v k', k' ≠ k → row (write d k v) k' = row d k'
  merge_base : ∀ k b c, merge k b c b = c

/-- Programs over a database: `D` its states, `K` and `V` its keys and rows, `Q` and `A` the
questions to the outside world and their answers, `ε` the exceptions. -/
inductive Prog (D K : Type) (V : K → Type) (Q : Type) (A : Q → Type) (ε α : Type) : Type
  | pure (a : α)
  | raise (e : ε)
  /-- A plain `SELECT` that takes no lock: the rows `q d` are loaded, the program goes on with
  the database `d` as the statement sees it. -/
  | read (q : D → List K) (c : D → Prog D K V Q A ε α)
  /-- `SELECT ... FOR UPDATE` by primary key: wait for the lock, load the row, and go on with
  the session's object for it. -/
  | lock (k : K) (c : Option (V k) → Prog D K V Q A ε α)
  /-- `SELECT ... FOR UPDATE SKIP LOCKED LIMIT n`: `q d` are the rows that satisfy the
  condition, in the order in which they are visited. -/
  | lockWhere (q : D → List K) (n : ℕ) (c : List K → Prog D K V Q A ε α)
  /-- The attributes of a loaded object. -/
  | get (k : K) (c : Option (V k) → Prog D K V Q A ε α)
  /-- An assignment to attributes of a loaded object, in memory. -/
  | modify (k : K) (f : V k → V k) (c : Prog D K V Q A ε α)
  /-- A new object, to be inserted at the next flush. -/
  | insert (k : K) (v : V k) (c : Prog D K V Q A ε α)
  /-- An `AUTO_INCREMENT` id. -/
  | alloc (c : ℕ → Prog D K V Q A ε α)
  /-- Send the pending changes to the database; the program learns whether that failed, on a
  key in use or an `UPDATE` that finds no row. -/
  | flush (c : Bool → Prog D K V Q A ε α)
  /-- A question to the outside world. -/
  | ask (q : Q) (c : A q → Prog D K V Q A ε α)

namespace Prog

variable {D K : Type} {V : K → Type} {Q : Type} {A : Q → Type} {ε α β : Type}

/-- Run a program, then another one on its result. -/
def bind : Prog D K V Q A ε α → (α → Prog D K V Q A ε β) → Prog D K V Q A ε β
  | pure a, f => f a
  | raise e, _ => raise e
  | read q c, f => read q fun d => (c d).bind f
  | lock k c, f => lock k fun v => (c v).bind f
  | lockWhere q n c, f => lockWhere q n fun l => (c l).bind f
  | get k c, f => get k fun v => (c v).bind f
  | modify k g c, f => modify k g (c.bind f)
  | insert k v c, f => insert k v (c.bind f)
  | alloc c, f => alloc fun n => (c n).bind f
  | flush c, f => flush fun ok => (c ok).bind f
  | ask q c, f => ask q fun a => (c a).bind f

/-- Run a program and hand an exception to a handler. -/
def tryCatch : Prog D K V Q A ε α → (ε → Prog D K V Q A ε α) → Prog D K V Q A ε α
  | pure a, _ => pure a
  | raise e, h => h e
  | read q c, h => read q fun d => (c d).tryCatch h
  | lock k c, h => lock k fun v => (c v).tryCatch h
  | lockWhere q n c, h => lockWhere q n fun l => (c l).tryCatch h
  | get k c, h => get k fun v => (c v).tryCatch h
  | modify k g c, h => modify k g (c.tryCatch h)
  | insert k v c, h => insert k v (c.tryCatch h)
  | alloc c, h => alloc fun n => (c n).tryCatch h
  | flush c, h => flush fun ok => (c ok).tryCatch h
  | ask q c, h => ask q fun a => (c a).tryCatch h

instance : Monad (Prog D K V Q A ε) where
  pure := Prog.pure
  bind := Prog.bind

instance : MonadExceptOf ε (Prog D K V Q A ε) where
  throw := Prog.raise
  tryCatch := Prog.tryCatch

/-- Return a value or raise an exception. -/
def ofExcept : Except ε α → Prog D K V Q A ε α
  | .ok a => pure a
  | .error e => raise e

/-- The body of a transaction: run a program, flush, and commit. -/
def commit (err : ε) (p : Prog D K V Q A ε α) : Prog D K V Q A ε α :=
  p.bind fun a => flush fun ok => if ok then pure a else raise err

/-- The ids that the program takes have the property `ids`; the next one is `n`. -/
def TakesIds (ids : ℕ → Prop) : Prog D K V Q A ε α → ℕ → Prop
  | pure _, _ => True
  | raise _, _ => True
  | read _ c, n => ∀ d, (c d).TakesIds ids n
  | lock _ c, n => ∀ v, (c v).TakesIds ids n
  | lockWhere _ _ c, n => ∀ l, (c l).TakesIds ids n
  | get _ c, n => ∀ v, (c v).TakesIds ids n
  | modify _ _ c, n => c.TakesIds ids n
  | insert _ _ c, n => c.TakesIds ids n
  | alloc c, n => ids n ∧ (c n).TakesIds ids (n + 1)
  | flush c, n => ∀ ok, (c ok).TakesIds ids n
  | ask _ c, n => ∀ a, (c a).TakesIds ids n

section TakesIds

variable {ids : ℕ → Prop} {n : ℕ} {p : Prog D K V Q A ε α}

lemma takesIds_of_le (hids : ∀ m, n ≤ m → ids m) (p : Prog D K V Q A ε α) : p.TakesIds ids n := by
  induction p generalizing n with
  | pure a => trivial
  | raise e => trivial
  | alloc c ih => exact ⟨hids n (Nat.le_refl n), ih n fun m hm => hids m (by omega)⟩
  | modify k g c ih => exact ih hids
  | insert k v c ih => exact ih hids
  | _ => rename_i ih; exact fun a => ih a hids

lemma TakesIds.bind {f : α → Prog D K V Q A ε β} (hp : p.TakesIds ids n)
    (hf : ∀ a m, (f a).TakesIds ids m) : (p.bind f).TakesIds ids n := by
  induction p generalizing n with
  | pure a => exact hf a n
  | raise e => trivial
  | alloc c ih => exact ⟨hp.1, ih n hp.2⟩
  | modify k g c ih => exact ih hp
  | insert k v c ih => exact ih hp
  | _ => rename_i ih; exact fun a => ih a (hp a)

/-- The program takes no id. -/
def TakesNoId (p : Prog D K V Q A ε α) : Prop := ∀ n, p.TakesIds (fun _ => False) n

lemma TakesNoId.bind_ids {f : α → Prog D K V Q A ε β} (hp : p.TakesNoId)
    (hf : ∀ a, (f a).TakesIds ids n) : (p.bind f).TakesIds ids n := by
  replace hp := hp n
  induction p with
  | pure a => exact hf a
  | raise e => trivial
  | alloc c ih => exact hp.1.elim
  | modify k g c ih => exact ih hp
  | insert k v c ih => exact ih hp
  | _ => rename_i ih; exact fun a => ih a (hp a)

lemma TakesNoId.bind {f : α → Prog D K V Q A ε β} (hp : p.TakesNoId)
    (hf : ∀ a, (f a).TakesNoId) : (p.bind f).TakesNoId :=
  fun n => hp.bind_ids fun a => hf a n

lemma TakesNoId.tryCatch {h : ε → Prog D K V Q A ε α} (hp : p.TakesNoId)
    (hh : ∀ e, (h e).TakesNoId) : (p.tryCatch h).TakesNoId := by
  intro n
  replace hp := hp n
  induction p with
  | pure a => trivial
  | raise e => exact hh e n
  | alloc c ih => exact hp.1.elim
  | modify k g c ih => exact ih hp
  | insert k v c ih => exact ih hp
  | _ => rename_i ih; exact fun a => ih a (hp a)

lemma TakesNoId.takesIds (hp : p.TakesNoId) : p.TakesIds ids n := by
  replace hp := hp n
  induction p with
  | pure a => trivial
  | raise e => trivial
  | alloc c ih => exact hp.1.elim
  | modify k g c ih => exact ih hp
  | insert k v c ih => exact ih hp
  | _ => rename_i ih; exact fun a => ih a (hp a)

lemma takesNoId_pure (a : α) : (pure a : Prog D K V Q A ε α).TakesNoId := fun _ => trivial

lemma takesNoId_ofExcept (x : Except ε α) : (ofExcept x : Prog D K V Q A ε α).TakesNoId := by
  intro n
  cases x <;> trivial

end TakesIds

@[simp] lemma pure_eq (a : α) : (Pure.pure a : Prog D K V Q A ε α) = Prog.pure a := rfl

@[simp] lemma bind_eq (p : Prog D K V Q A ε α) (f : α → Prog D K V Q A ε β) :
    p >>= f = p.bind f := rfl

@[simp] lemma throw_eq (e : ε) : (throw e : Prog D K V Q A ε α) = Prog.raise e := rfl

@[simp] lemma tryCatch_eq (p : Prog D K V Q A ε α) (h : ε → Prog D K V Q A ε α) :
    (MonadExcept.tryCatch p h) = p.tryCatch h := rfl

@[simp] lemma pure_bind (a : α) (f : α → Prog D K V Q A ε β) : (Prog.pure a).bind f = f a := rfl

@[simp] lemma raise_bind (e : ε) (f : α → Prog D K V Q A ε β) :
    (Prog.raise e : Prog D K V Q A ε α).bind f = Prog.raise e := rfl

end Prog

end RowTxn
