/-
# Sessions of an object-relational mapper

A session keeps one object for every row it has loaded (its identity map).  A later `SELECT`
of such a row, locking or not, returns that object with the values loaded first.  Assignments
change the object only; a flush sends the changed columns of the changed objects, and the
insertions, to the database, where other transactions see them after the commit.

Together with the state changes this file has the fact that the program logic rests on
(`Ok.row_own`): if every row was up to date when its lock was granted, what a transaction
commits is the values of its objects.
-/
import InventoryReservation.RowTxn.Program

namespace RowTxn

variable {D K : Type} {V : K → Type} {Q : Type} {A : Q → Type}

/-- An object of a session: the values it was loaded or last flushed with (none for an object
that was never stored), and its present values. -/
structure Obj (α : Type) where
  base : Option α
  cur : α

/-- The state of a session inside a transaction. -/
structure Session (K : Type) (V : K → Type) (Q : Type) (A : Q → Type) where
  /-- The identity map. -/
  objs : (k : K) → Option (Obj (V k))
  /-- Objects with changes that were not flushed, in the order of their first change. -/
  dirty : List K
  /-- Flushed row versions, not committed. -/
  writes : List (Σ k, V k)
  /-- The questions asked so far, with their answers. -/
  trace : List (Σ q, A q)

/-- The rows a transaction has locked, with their committed versions. -/
abbrev Held (V : K → Type) : Type := (k : K) → Option (Option (V k))

/-- Lock a row. -/
def Held.hold [DecidableEq K] (H : Held V) (k : K) (r : Option (V k)) : Held V :=
  Function.update H k (some r)

/-- Lock several rows. -/
def Held.holdAll [DecidableEq K] [RowStore D K V] (H : Held V) : List K → D → Held V
  | [], _ => H
  | k :: ks, d => (H.hold k (RowStore.row d k)).holdAll ks d

lemma Held.holdAll_apply [DecidableEq K] [RowStore D K V] (H : Held V) (ks : List K) (d : D)
    (k : K) : H.holdAll ks d k = if k ∈ ks then some (RowStore.row d k) else H k := by
  induction ks generalizing H with
  | nil => simp [holdAll]
  | cons k' ks ih =>
    rw [holdAll, ih]
    by_cases hk : k = k'
    · subst hk; simp [hold]
    · simp [hold, hk]

namespace Session

/-- A session that has done nothing. -/
def init : Session K V Q A := ⟨fun _ => none, [], [], []⟩

/-- The present values of an object. -/
def val (s : Session K V Q A) (k : K) : Option (V k) := (s.objs k).map Obj.cur

/-- Record an answer. -/
def log (s : Session K V Q A) (q : Q) (a : A q) : Session K V Q A :=
  { s with trace := s.trace ++ [⟨q, a⟩] }

section Objects

variable [DecidableEq K]

/-- Load a row, unless the session has an object for it. -/
def load1 (s : Session K V Q A) (k : K) (r : Option (V k)) : Session K V Q A :=
  match s.objs k, r with
  | none, some v => { s with objs := Function.update s.objs k (some ⟨some v, v⟩) }
  | _, _ => s

/-- Assign to attributes of an object; nothing happens without an object. -/
def modify (s : Session K V Q A) (k : K) (f : V k → V k) : Session K V Q A :=
  match s.objs k with
  | none => s
  | some o => { s with
      objs := Function.update s.objs k (some { o with cur := f o.cur })
      dirty := if k ∈ s.dirty then s.dirty else s.dirty ++ [k] }

/-- Add a new object. -/
def insert (s : Session K V Q A) (k : K) (v : V k) : Session K V Q A :=
  { s with
    objs := Function.update s.objs k (some ⟨none, v⟩)
    dirty := if k ∈ s.dirty then s.dirty else s.dirty ++ [k] }

end Objects

section Rows

variable [DecidableEq K] [RowStore D K V]

open RowStore

omit [DecidableEq K] in
/-- The database as the session's own statements see it: its flushed versions on top. -/
def own (s : Session K V Q A) (d : D) : D :=
  s.writes.foldl (fun d w => write d w.1 w.2) d

/-- Load several rows. -/
def load (s : Session K V Q A) (ks : List K) (d : D) : Session K V Q A :=
  ks.foldl (fun s k => s.load1 k (row d k)) s

/-- The result of a `SELECT` of one row: nothing if the row does not exist, else the object. -/
def select1 (s : Session K V Q A) (k : K) (d : D) : Session K V Q A × Option (V k) :=
  match row (s.own d) k with
  | none => (s, none)
  | some v => (s.load1 k (some v), (s.load1 k (some v)).val k)

/-- The rows that a `FOR UPDATE SKIP LOCKED LIMIT n` returns: the first ones that are not
locked by another transaction. -/
def pick (s : Session K V Q A) (q : D → List K) (n : ℕ) (d : D) (free : K → Bool) : List K :=
  ((q (s.own d)).dedup.filter fun k => (row (s.own d) k).isSome && free k).take n

/-- Send the changes of the first changed object: an `UPDATE` of the changed columns of a
stored row, or an `INSERT` under a key that must be free. -/
def flush1 (s : Session K V Q A) (k : K) (d : D) : Option (Session K V Q A) :=
  match s.objs k with
  | none => none
  | some o =>
    match o.base, row (s.own d) k with
    | some b, some r => some { s with
        objs := Function.update s.objs k (some ⟨some o.cur, o.cur⟩)
        dirty := s.dirty.tail
        writes := s.writes ++ [⟨k, merge D k b o.cur r⟩] }
    | none, none => some { s with
        objs := Function.update s.objs k (some ⟨some o.cur, o.cur⟩)
        dirty := s.dirty.tail
        writes := s.writes ++ [⟨k, o.cur⟩] }
    | _, _ => none

end Rows

/-! ### Objects after a change -/

section Objects

variable [DecidableEq K]

omit [DecidableEq K] in
@[simp] lemma val_init (k : K) : (init : Session K V Q A).val k = none := rfl

omit [DecidableEq K] in
lemma val_of_objs {s : Session K V Q A} {k : K} {o : Obj (V k)} (h : s.objs k = some o) :
    s.val k = some o.cur := by
  simp [val, h]

lemma load1_of_none {s : Session K V Q A} {k : K} (v : V k) (h : s.objs k = none) :
    s.load1 k (some v) = { s with objs := Function.update s.objs k (some ⟨some v, v⟩) } := by
  simp [load1, h]

lemma load1_of_some {s : Session K V Q A} {k : K} {o : Obj (V k)} (r : Option (V k))
    (h : s.objs k = some o) : s.load1 k r = s := by
  simp [load1, h]

@[simp] lemma load1_none (s : Session K V Q A) (k : K) : s.load1 k none = s := by
  unfold load1
  split
  · contradiction
  · rfl

/-- Loading a row keeps the objects there are. -/
lemma objs_load1 {s : Session K V Q A} {k k' : K} {r : Option (V k)} {o : Obj (V k')}
    (h : s.objs k' = some o) : (s.load1 k r).objs k' = some o := by
  rcases hk : s.objs k with _ | o'
  · rcases r with _ | v
    · simpa using h
    · rw [load1_of_none v hk]
      have hne : k' ≠ k := by
        rintro rfl
        rw [hk] at h
        cases h
      simpa [Function.update_of_ne hne] using h
  · rwa [load1_of_some r hk]

/-- An object that a load adds has the values of the row. -/
lemma objs_load1_inv {s : Session K V Q A} {k k' : K} {r : Option (V k)} {o : Obj (V k')}
    (h : (s.load1 k r).objs k' = some o) :
    s.objs k' = some o ∨ s.objs k' = none ∧ ∃ hk : k' = k, r = some (hk ▸ o.cur) ∧
      o.base = some o.cur := by
  rcases hk : s.objs k with _ | o'
  · rcases r with _ | v
    · left
      simpa using h
    · rw [load1_of_none v hk] at h
      by_cases hne : k' = k
      · subst hne
        right
        have ho : o = ⟨some v, v⟩ := by simpa using h.symm
        subst ho
        exact ⟨hk, rfl, rfl, rfl⟩
      · left
        simpa [Function.update_of_ne hne] using h
  · left
    rwa [load1_of_some r hk] at h

@[simp] lemma load1_dirty (s : Session K V Q A) (k : K) (r : Option (V k)) :
    (s.load1 k r).dirty = s.dirty := by
  unfold load1; split <;> rfl

@[simp] lemma load1_writes (s : Session K V Q A) (k : K) (r : Option (V k)) :
    (s.load1 k r).writes = s.writes := by
  unfold load1; split <;> rfl

@[simp] lemma load1_trace (s : Session K V Q A) (k : K) (r : Option (V k)) :
    (s.load1 k r).trace = s.trace := by
  unfold load1; split <;> rfl

@[simp] lemma modify_trace (s : Session K V Q A) (k : K) (f : V k → V k) :
    (s.modify k f).trace = s.trace := by
  unfold modify; split <;> rfl

@[simp] lemma insert_trace (s : Session K V Q A) (k : K) (v : V k) :
    (s.insert k v).trace = s.trace := rfl

@[simp] lemma modify_writes (s : Session K V Q A) (k : K) (f : V k → V k) :
    (s.modify k f).writes = s.writes := by
  unfold modify; split <;> rfl

lemma modify_of_some {s : Session K V Q A} {k : K} {o : Obj (V k)} (f : V k → V k)
    (h : s.objs k = some o) : s.modify k f = { s with
      objs := Function.update s.objs k (some { o with cur := f o.cur })
      dirty := if k ∈ s.dirty then s.dirty else s.dirty ++ [k] } := by
  simp [modify, h]

lemma val_modify_self (s : Session K V Q A) (k : K) (f : V k → V k) :
    (s.modify k f).val k = (s.val k).map f := by
  rcases h : s.objs k with _ | o
  · simp [modify, h, val]
  · simp [modify_of_some f h, val, h]

lemma val_modify_of_ne (s : Session K V Q A) {k k' : K} (f : V k → V k) (h : k' ≠ k) :
    (s.modify k f).val k' = s.val k' := by
  unfold modify
  split
  · rfl
  · simp [val, Function.update_of_ne h]

lemma mem_dirty_modify {s : Session K V Q A} {k k' : K} {f : V k → V k} :
    k' ∈ (s.modify k f).dirty ↔ k' ∈ s.dirty ∨ k' = k ∧ s.val k ≠ none := by
  rcases h : s.objs k with _ | o
  · simp [modify, h, val]
  · rw [modify_of_some f h]
    by_cases hk : k ∈ s.dirty
    · simp only [hk, if_true, val, h]
      constructor
      · exact Or.inl
      · rintro (hk' | ⟨rfl, -⟩)
        · exact hk'
        · exact hk
    · simp [hk, val, h]

/-- An assignment leaves the stored values of an object. -/
lemma base_modify {s : Session K V Q A} {k k' : K} {f : V k → V k} {o : Obj (V k')}
    (h : (s.modify k f).objs k' = some o) : ∃ o', s.objs k' = some o' ∧ o'.base = o.base := by
  rcases ho : s.objs k with _ | o'
  · exact ⟨o, by simpa [modify, ho] using h, rfl⟩
  · rw [modify_of_some f ho] at h
    by_cases hk : k' = k
    · subst hk
      obtain rfl : { o' with cur := f o'.cur } = o := by simpa using h
      exact ⟨o', ho, rfl⟩
    · exact ⟨o, by simpa [Function.update_of_ne hk] using h, rfl⟩

@[simp] lemma val_insert_self (s : Session K V Q A) (k : K) (v : V k) :
    (s.insert k v).val k = some v := by
  simp [insert, val]

lemma objs_insert_of_ne (s : Session K V Q A) {k k' : K} (v : V k) (h : k' ≠ k) :
    (s.insert k v).objs k' = s.objs k' := by
  simp [insert, Function.update_of_ne h]

lemma mem_dirty_insert {s : Session K V Q A} {k k' : K} {v : V k} :
    k' ∈ (s.insert k v).dirty ↔ k' ∈ s.dirty ∨ k' = k := by
  by_cases hk : k ∈ s.dirty
  · simp only [insert, hk, if_true]
    constructor
    · exact Or.inl
    · rintro (hk' | rfl)
      · exact hk'
      · exact hk
  · simp [insert, hk]

lemma val_load1_of_ne (s : Session K V Q A) {k k' : K} (r : Option (V k)) (h : k' ≠ k) :
    (s.load1 k r).val k' = s.val k' := by
  unfold load1
  split
  · simp [val, Function.update_of_ne h]
  · rfl

lemma val_load1_self (s : Session K V Q A) (k : K) (r : Option (V k)) :
    (s.load1 k r).val k = (s.val k).or r := by
  rcases hk : s.objs k with _ | o
  · rcases r with _ | v
    · simp [val, hk]
    · simp [load1_of_none v hk, val, hk]
  · simp [load1_of_some r hk, val, hk]

end Objects

/-! ### Loading several rows -/

section Load

variable [DecidableEq K] [RowStore D K V]

open RowStore

lemma objs_load {s : Session K V Q A} (ks : List K) (d : D) {k : K} {o : Obj (V k)}
    (h : s.objs k = some o) : (s.load ks d).objs k = some o := by
  unfold load
  induction ks generalizing s with
  | nil => exact h
  | cons k' ks ih => exact ih (objs_load1 h)

/-- An object that a load adds has the values of the row. -/
lemma objs_load_inv {s : Session K V Q A} {ks : List K} {d : D} {k : K} {o : Obj (V k)}
    (h : (s.load ks d).objs k = some o) :
    s.objs k = some o ∨
      s.objs k = none ∧ k ∈ ks ∧ row d k = some o.cur ∧ o.base = some o.cur := by
  unfold load at h
  induction ks generalizing s with
  | nil => exact Or.inl h
  | cons k' ks ih =>
    rcases ih h with h | ⟨hn, hmem, hr, hb⟩
    · rcases objs_load1_inv h with h | ⟨hn, hk, hr, hb⟩
      · exact Or.inl h
      · subst hk
        exact Or.inr ⟨hn, by simp, hr, hb⟩
    · refine Or.inr ⟨?_, by simp [hmem], hr, hb⟩
      rcases ho : s.objs k with _ | o'
      · rfl
      · rw [objs_load1 ho] at hn
        cases hn

lemma objs_load_ne_none {s : Session K V Q A} {ks : List K} {d : D} {k : K} (hk : k ∈ ks)
    (hr : row d k ≠ none) : (s.load ks d).objs k ≠ none := by
  unfold load
  induction ks generalizing s with
  | nil => cases hk
  | cons k' ks ih =>
    rcases List.mem_cons.mp hk with rfl | hk
    · obtain ⟨v, hv⟩ := Option.ne_none_iff_exists'.mp hr
      obtain ⟨o, ho⟩ : ∃ o, (s.load1 k (row d k)).objs k = some o := by
        rcases ho : s.objs k with _ | o
        · exact ⟨⟨some v, v⟩, by simp [hv, load1_of_none v ho]⟩
        · exact ⟨o, objs_load1 ho⟩
      have := objs_load ks d ho
      unfold load at this
      rw [List.foldl_cons, this]
      simp
    · exact ih hk

lemma val_load (s : Session K V Q A) (ks : List K) (d : D) (k : K) :
    (s.load ks d).val k = (s.val k).or (if k ∈ ks then row d k else none) := by
  unfold load
  induction ks generalizing s with
  | nil => simp
  | cons k' ks ih =>
    rw [List.foldl_cons, ih]
    by_cases hk : k = k'
    · subst hk
      rw [val_load1_self]
      rcases s.val k with _ | v <;> rcases row d k with _ | r <;> simp
    · rw [val_load1_of_ne s _ hk]
      simp [hk]

@[simp] lemma load_dirty (s : Session K V Q A) (ks : List K) (d : D) :
    (s.load ks d).dirty = s.dirty := by
  unfold load
  induction ks generalizing s with
  | nil => rfl
  | cons k ks ih => rw [List.foldl_cons, ih, load1_dirty]

@[simp] lemma load_writes (s : Session K V Q A) (ks : List K) (d : D) :
    (s.load ks d).writes = s.writes := by
  unfold load
  induction ks generalizing s with
  | nil => rfl
  | cons k ks ih => rw [List.foldl_cons, ih, load1_writes]

@[simp] lemma load_trace (s : Session K V Q A) (ks : List K) (d : D) :
    (s.load ks d).trace = s.trace := by
  unfold load
  induction ks generalizing s with
  | nil => rfl
  | cons k ks ih => rw [List.foldl_cons, ih, load1_trace]

end Load

/-! ### The database under a session's own writes -/

section Rows

variable [DecidableEq K] [RowStore D K V]

open RowStore

omit [DecidableEq K] in
lemma own_of_writes {s s' : Session K V Q A} (h : s'.writes = s.writes) (d : D) :
    s'.own d = s.own d := by
  simp [own, h]

omit [DecidableEq K] in
lemma own_of_nil {s : Session K V Q A} (h : s.writes = []) (d : D) : s.own d = d := by
  simp [own, h]

omit [DecidableEq K] in
lemma own_append {s s' : Session K V Q A} {k : K} {v : V k}
    (h : s'.writes = s.writes ++ [⟨k, v⟩]) (d : D) :
    s'.own d = write (s.own d) k v := by
  simp [own, h]

omit [DecidableEq K] in
/-- A session's own writes show through the same way over databases that agree on a row. -/
lemma row_own_congr (s : Session K V Q A) {d d' : D} {k : K} (h : row d k = row d' k) :
    row (s.own d) k = row (s.own d') k := by
  unfold own
  induction s.writes generalizing d d' with
  | nil => exact h
  | cons w ws ih =>
    refine ih ?_
    by_cases hk : k = w.1
    · subst hk
      rw [row_write_self, row_write_self]
    · rw [row_write_of_ne _ _ _ _ hk, row_write_of_ne _ _ _ _ hk, h]

omit [DecidableEq K] in
lemma row_foldl_write (ws : List (Σ k, V k)) (d : D) {k : K} (h : ∀ w ∈ ws, w.1 ≠ k) :
    row (ws.foldl (fun d w => write d w.1 w.2) d) k = row d k := by
  induction ws generalizing d with
  | nil => rfl
  | cons w ws ih =>
    rw [List.foldl_cons, ih _ fun w' hw' => h w' (by simp [hw'])]
    exact row_write_of_ne _ _ _ _ (h w (by simp)).symm

omit [DecidableEq K] in
/-- Rows that were not written are the ones of the database. -/
lemma row_own_of_not_written {s : Session K V Q A} {k : K} (d : D)
    (h : ∀ w ∈ s.writes, w.1 ≠ k) : row (s.own d) k = row d k :=
  row_foldl_write s.writes d h

lemma of_mem_pick {s : Session K V Q A} {q : D → List K} {n : ℕ} {d : D} {free : K → Bool}
    {k : K} (h : k ∈ s.pick q n d free) :
    k ∈ q (s.own d) ∧ row (s.own d) k ≠ none ∧ free k = true := by
  have := List.mem_of_mem_take h
  simpa only [List.mem_filter, List.mem_dedup, Bool.and_eq_true,
    Option.isSome_iff_ne_none] using this

lemma select1_of_none {s : Session K V Q A} {k : K} {d : D} (h : row (s.own d) k = none) :
    s.select1 k d = (s, none) := by
  simp [select1, h]

lemma select1_of_some {s : Session K V Q A} {k : K} {d : D} {v : V k}
    (h : row (s.own d) k = some v) :
    s.select1 k d = (s.load1 k (some v), some ((s.val k).getD v)) := by
  rw [select1, h]
  simp only [val_load1_self]
  cases s.val k <;> rfl

/-- What a flush of one object does to the session. -/
lemma flush1_inv {s s' : Session K V Q A} {k : K} {d : D} (h : s.flush1 k d = some s') :
    ∃ o v, s.objs k = some o ∧
      s' = { s with
        objs := Function.update s.objs k (some ⟨some o.cur, o.cur⟩)
        dirty := s.dirty.tail
        writes := s.writes ++ [⟨k, v⟩] } ∧
      ((∃ b r, o.base = some b ∧ row (s.own d) k = some r ∧ v = merge D k b o.cur r) ∨
        o.base = none ∧ row (s.own d) k = none ∧ v = o.cur) := by
  rcases ho : s.objs k with _ | o
  · simp [flush1, ho] at h
  · rcases hb : o.base with _ | b <;> rcases hr : row (s.own d) k with _ | r <;>
      simp only [flush1, ho, hb, hr, Option.some.injEq, reduceCtorEq] at h
    · exact ⟨o, _, rfl, h.symm, Or.inr ⟨hb, rfl, rfl⟩⟩
    · exact ⟨o, _, rfl, h.symm, Or.inl ⟨b, r, hb, rfl, rfl⟩⟩

/-! ### Sessions whose locked rows are up to date -/

variable (D) in
/-- The invariant of a session and the rows it has locked: a locked row is loaded and stored,
only locked rows are written, objects without pending changes have the values they were loaded or flushed
with, and for the rows in `guard` an object's stored values are the session's version of the
row. -/
structure Ok (guard : K → Prop) (s : Session K V Q A) (H : Held V) : Prop where
  loaded : ∀ k, H k ≠ none → s.objs k ≠ none
  stored : ∀ k, H k ≠ none → ∀ o, s.objs k = some o → o.base ≠ none
  written : ∀ w ∈ s.writes, H w.1 ≠ none
  clean : ∀ k o, s.objs k = some o → k ∉ s.dirty → o.base = some o.cur
  nodup : s.dirty.Nodup
  pending : ∀ k ∈ s.dirty, s.objs k ≠ none
  sync : ∀ k, guard k → H k ≠ none → ∀ d : D, H k = some (row d k) →
    ∀ o b, s.objs k = some o → o.base = some b → row (s.own d) k = some b

namespace Ok

variable {guard : K → Prop} {s : Session K V Q A} {H : Held V}

omit [DecidableEq K] in
lemma init : Ok D guard (init : Session K V Q A) (fun _ => none) where
  loaded k h := absurd rfl h
  stored k h := absurd rfl h
  written w h := by simp [Session.init] at h
  clean k o h := by simp [Session.init] at h
  nodup := List.nodup_nil
  pending k h := by simp [Session.init] at h
  sync k _ h := absurd rfl h

omit [DecidableEq K] in
/-- Only the objects, the pending changes and the writes matter. -/
lemma congr (h : Ok D guard s H) {s' : Session K V Q A} (ho : s'.objs = s.objs)
    (hd : s'.dirty = s.dirty) (hw : s'.writes = s.writes) : Ok D guard s' H where
  loaded := by rw [ho]; exact h.loaded
  stored := by rw [ho]; exact h.stored
  written := by rw [hw]; exact h.written
  clean := by rw [ho, hd]; exact h.clean
  nodup := by rw [hd]; exact h.nodup
  pending := by rw [ho, hd]; exact h.pending
  sync k hg hk d hH o b hok hob := by
    rw [own_of_writes hw]
    exact h.sync k hg hk d hH o b (by rwa [ho] at hok) hob

omit [DecidableEq K] in
lemma not_written (h : Ok D guard s H) {k : K} (hk : H k = none) : ∀ w ∈ s.writes, w.1 ≠ k := by
  rintro w hw rfl
  exact h.written w hw hk

lemma load1 (h : Ok D guard s H) (k : K) (r : Option (V k)) : Ok D guard (s.load1 k r) H where
  loaded k' hk' := by
    obtain ⟨o, ho⟩ := Option.ne_none_iff_exists'.mp (h.loaded k' hk')
    rw [objs_load1 ho]
    simp
  stored k' hk' o ho := by
    rcases objs_load1_inv ho with ho | ⟨-, -, -, hb⟩
    · exact h.stored k' hk' o ho
    · simp [hb]
  written := by simpa using h.written
  clean k' o ho hd := by
    rcases objs_load1_inv ho with ho | ⟨-, -, -, hb⟩
    · exact h.clean k' o ho (by simpa using hd)
    · exact hb
  nodup := by simpa using h.nodup
  pending k' hk' := by
    obtain ⟨o, ho⟩ := Option.ne_none_iff_exists'.mp (h.pending k' (by simpa using hk'))
    rw [objs_load1 ho]
    simp
  sync k' hg hk' d hH o b ho hb := by
    rw [own_of_writes (load1_writes s k r)]
    rcases objs_load1_inv ho with ho | ⟨hn, -⟩
    · exact h.sync k' hg hk' d hH o b ho hb
    · exact absurd hn (h.loaded k' hk')

lemma load (h : Ok D guard s H) (ks : List K) (d : D) : Ok D guard (s.load ks d) H := by
  unfold Session.load
  induction ks generalizing s with
  | nil => exact h
  | cons k ks ih => exact ih (h.load1 k _)

lemma modify (h : Ok D guard s H) (k : K) (f : V k → V k) : Ok D guard (s.modify k f) H := by
  rcases ho : s.objs k with _ | o
  · simpa [Session.modify, ho] using h
  · have hm : s.modify k f = { s with
        objs := Function.update s.objs k (some { o with cur := f o.cur })
        dirty := if k ∈ s.dirty then s.dirty else s.dirty ++ [k] } := by
      simp [Session.modify, ho]
    rw [hm]
    constructor
    · intro k' hk'
      by_cases hkk : k' = k
      · subst hkk; simp
      · simpa [Function.update_of_ne hkk] using h.loaded k' hk'
    · intro k' hk' o' ho'
      by_cases hkk : k' = k
      · subst hkk
        have : o' = { o with cur := f o.cur } := by simpa using ho'.symm
        subst this
        exact h.stored k' hk' o ho
      · exact h.stored k' hk' o' (by simpa [Function.update_of_ne hkk] using ho')
    · exact h.written
    · intro k' o' ho' hd
      by_cases hkk : k' = k
      · subst hkk
        exfalso
        revert hd
        simp only
        split <;> simp_all
      · refine h.clean k' o' (by simpa [Function.update_of_ne hkk] using ho') ?_
        intro hmem
        apply hd
        simp only
        split <;> simp [hmem]
    · simp only
      split
      · exact h.nodup
      · next hn => exact h.nodup.append (List.nodup_singleton k) (by simpa using hn)
    · intro k' hk'
      by_cases hkk : k' = k
      · subst hkk; simp
      · have : k' ∈ s.dirty := by
          revert hk'
          simp only
          split <;> simp [hkk]
        simpa [Function.update_of_ne hkk] using h.pending k' this
    · intro k' hg hk' d hH o' b ho' hb
      rw [own_of_writes rfl]
      by_cases hkk : k' = k
      · subst hkk
        have : o' = { o with cur := f o.cur } := by simpa using ho'.symm
        subst this
        exact h.sync k' hg hk' d hH o b ho hb
      · exact h.sync k' hg hk' d hH o' b (by simpa [Function.update_of_ne hkk] using ho') hb

lemma insert (h : Ok D guard s H) {k : K} (v : V k) (hn : H k = none) :
    Ok D guard (s.insert k v) H where
  loaded k' hk' := by
    by_cases hkk : k' = k
    · subst hkk; simp [Session.insert]
    · simpa [Session.insert, Function.update_of_ne hkk] using h.loaded k' hk'
  stored k' hk' o ho := by
    have hkk : k' ≠ k := by
      rintro rfl
      exact hk' hn
    exact h.stored k' hk' o (by simpa [Session.insert, Function.update_of_ne hkk] using ho)
  written := h.written
  clean k' o ho hd := by
    by_cases hkk : k' = k
    · subst hkk
      exfalso
      revert hd
      simp only [Session.insert]
      split <;> simp_all
    · refine h.clean k' o (by simpa [Session.insert, Function.update_of_ne hkk] using ho) ?_
      intro hmem
      apply hd
      simp only [Session.insert]
      split <;> simp [hmem]
  nodup := by
    simp only [Session.insert]
    split
    · exact h.nodup
    · next hm => exact h.nodup.append (List.nodup_singleton k) (by simpa using hm)
  pending k' hk' := by
    by_cases hkk : k' = k
    · subst hkk; simp [Session.insert]
    · have : k' ∈ s.dirty := by
        revert hk'
        simp only [Session.insert]
        split <;> simp [hkk]
      simpa [Session.insert, Function.update_of_ne hkk] using h.pending k' this
  sync k' hg hk' d hH o b ho hb := by
    rw [show (s.insert k v).own d = s.own d from own_of_writes rfl d]
    by_cases hkk : k' = k
    · subst hkk
      have : o = ⟨none, v⟩ := by simpa [Session.insert] using ho.symm
      subst this
      cases hb
    · exact h.sync k' hg hk' d hH o b
        (by simpa [Session.insert, Function.update_of_ne hkk] using ho) hb

/-- The lock on a loaded row is granted while the row is as it was loaded. -/
lemma hold (h : Ok D guard s H) {k : K} {d : D} (hl : s.objs k ≠ none)
    (hs : ∀ o, s.objs k = some o → o.base ≠ none)
    (hH : ∀ r, H k = some r → row d k = r)
    (hfresh : guard k → H k = none → ∀ o b, s.objs k = some o → o.base = some b →
      row d k = some b) : Ok D guard s (H.hold k (row d k)) where
  loaded k' hk' := by
    by_cases hkk : k' = k
    · subst hkk; exact hl
    · exact h.loaded k' (by simpa [Held.hold, Function.update_of_ne hkk] using hk')
  stored k' hk' := by
    by_cases hkk : k' = k
    · subst hkk; exact hs
    · exact h.stored k' (by simpa [Held.hold, Function.update_of_ne hkk] using hk')
  written w hw := by
    by_cases hkk : w.1 = k
    · rw [hkk]; simp [Held.hold]
    · simpa [Held.hold, Function.update_of_ne hkk] using h.written w hw
  clean := h.clean
  nodup := h.nodup
  pending := h.pending
  sync k' hg hk' d' hd' o b ho hb := by
    by_cases hkk : k' = k
    · subst hkk
      have hrow : row d k' = row d' k' := by simpa [Held.hold] using hd'
      rcases hk : H k' with _ | r
      · rw [row_own_of_not_written d' (h.not_written hk), ← hrow]
        exact hfresh hg hk o b ho hb
      · refine h.sync k' hg (by simp [hk]) d' ?_ o b ho hb
        rw [hk, ← hH r hk, hrow]
    · have hHk : H.hold k (row d k) k' = H k' := by
        simp [Held.hold, Function.update_of_ne hkk]
      exact h.sync k' hg (by simpa [hHk] using hk') d' (by rw [← hHk]; exact hd') o b ho hb

/-- A locking read of a row without pending changes. -/
lemma lock (h : Ok D guard s H) {k : K} {d : D} (hdirty : H k = none → k ∉ s.dirty)
    (hH : ∀ r, H k = some r → row d k = r)
    (hfresh : guard k → H k = none → ∀ o b, s.objs k = some o → o.base = some b →
      row d k = some b) :
    Ok D guard (s.select1 k d).1 (if (row (s.own d) k).isSome then H.hold k (row d k) else H) := by
  rcases hr : row (s.own d) k with _ | v
  · simpa [select1_of_none hr] using h
  · rw [select1_of_some hr]
    have hinv : ∀ o, (s.load1 k (some v)).objs k = some o →
        s.objs k = some o ∨ s.objs k = none ∧ o = ⟨some v, v⟩ := by
      intro o ho
      rcases objs_load1_inv ho with ho | ⟨hn, hkk, hv, hb⟩
      · exact Or.inl ho
      · obtain ⟨ob, oc⟩ := o
        obtain rfl : ob = some oc := hb
        obtain rfl : v = oc := Option.some.inj hv
        exact Or.inr ⟨hn, rfl⟩
    refine (h.load1 k (some v)).hold ?_ ?_ hH ?_
    · rcases ho : s.objs k with _ | o
      · simp [load1_of_none v ho]
      · simp [objs_load1 ho]
    · intro o ho
      rcases hinv o ho with ho | ⟨-, rfl⟩
      · rcases hk : H k with _ | r
        · rw [h.clean k o ho (hdirty hk)]
          simp
        · exact h.stored k (by simp [hk]) o ho
      · simp
    · intro hg hk o b ho hb
      rcases hinv o ho with ho | ⟨-, rfl⟩
      · exact hfresh hg hk o b ho hb
      · rw [row_own_of_not_written d (h.not_written hk)] at hr
        rw [hr, ← hb]

/-- The locks that a `SKIP LOCKED` read takes, on rows that it loads at the same time. -/
lemma load_holdAll (h : Ok D guard s H) {ks : List K} {d : D}
    (hdirty : ∀ k ∈ ks, H k = none → k ∉ s.dirty)
    (hrow : ∀ k ∈ ks, row (s.own d) k ≠ none) (hH : ∀ k r, H k = some r → row d k = r)
    (hfresh : ∀ k ∈ ks, guard k → H k = none → ∀ o b, s.objs k = some o → o.base = some b →
      row d k = some b) : Ok D guard (s.load ks (s.own d)) (H.holdAll ks d) := by
  have hload := h.load ks (s.own d)
  have hl : ∀ k ∈ ks, (s.load ks (s.own d)).objs k ≠ none := fun k hk =>
    objs_load_ne_none hk (hrow k hk)
  have hf : ∀ k ∈ ks, guard k → H k = none → ∀ o b, (s.load ks (s.own d)).objs k = some o →
      o.base = some b → row d k = some b := by
    intro k hk hg hn o b ho hb
    rcases objs_load_inv ho with ho | ⟨-, -, hr, hb'⟩
    · exact hfresh k hk hg hn o b ho hb
    · rw [row_own_of_not_written d (h.not_written hn)] at hr
      rw [hr, ← hb', hb]
  have hs : ∀ k ∈ ks, ∀ o, (s.load ks (s.own d)).objs k = some o → o.base ≠ none := by
    intro k hk o ho
    rcases hn : H k with _ | r
    · rw [hload.clean k o ho (by simpa using hdirty k hk hn)]
      simp
    · exact hload.stored k (by simp [hn]) o ho
  -- what is loaded now counts, no longer what was loaded before
  clear hrow hfresh h hdirty
  generalize s.load ks (s.own d) = s' at hload hl hf hs
  induction ks generalizing H with
  | nil => exact hload
  | cons k ks ih =>
    refine ih ?_ ?_ (fun k' hk' => hl k' (by simp [hk'])) ?_ fun k' hk' => hs k' (by simp [hk'])
    · intro k' r hr
      by_cases hkk : k' = k
      · subst hkk
        simpa [Held.hold] using hr
      · exact hH k' r (by simpa [Held.hold, Function.update_of_ne hkk] using hr)
    · exact hload.hold (hl k (by simp)) (hs k (by simp)) (hH k) (hf k (by simp))
    · intro k' hk' hg hn
      by_cases hkk : k' = k
      · subst hkk
        simp [Held.hold] at hn
      · exact hf k' (by simp [hk']) hg
          (by simpa [Held.hold, Function.update_of_ne hkk] using hn)

/-- A flush under the lock of the row. -/
lemma flush1 (h : Ok D guard s H) {k : K} {d : D} {s' : Session K V Q A} {ks : List K}
    (hdirty : s.dirty = k :: ks) (hf : s.flush1 k d = some s')
    (hH : ∀ r, H k = some r → row d k = r)
    (hfresh : guard k → H k = none → ∀ o b, s.objs k = some o → o.base = some b →
      row d k = some b) : Ok D guard s' (H.hold k (row d k)) := by
  obtain ⟨o, v, ho, rfl, hv⟩ := flush1_inv hf
  have hkks : k ∉ ks := by
    have := h.nodup
    rw [hdirty] at this
    exact (List.nodup_cons.mp this).1
  have hHk : ∀ k', k' ≠ k → H.hold k (row d k) k' = H k' := fun k' hne => by
    simp [Held.hold, Function.update_of_ne hne]
  -- the object's stored values are the session's version of the row
  have hsync : guard k → ∀ b r, o.base = some b → row (s.own d) k = some r → b = r := by
    intro hg b r hb hr
    rcases hk : H k with _ | r'
    · rw [row_own_of_not_written d (h.not_written hk), hfresh hg hk o b ho hb] at hr
      exact Option.some.inj hr
    · have := h.sync k hg (by simp [hk]) d (by rw [hk, hH r' hk]) o b ho hb
      rw [hr] at this
      exact (Option.some.inj this).symm
  constructor
  · intro k' hk'
    by_cases hkk : k' = k
    · subst hkk; simp
    · simpa [Function.update_of_ne hkk] using h.loaded k' (by rwa [← hHk k' hkk])
  · intro k' hk' o' ho'
    by_cases hkk : k' = k
    · subst hkk
      have : o' = ⟨some o.cur, o.cur⟩ := by simpa using ho'.symm
      subst this
      simp
    · exact h.stored k' (by rwa [← hHk k' hkk]) o'
        (by simpa [Function.update_of_ne hkk] using ho')
  · intro w hw
    by_cases hkk : w.1 = k
    · rw [hkk]; simp [Held.hold]
    · rw [hHk _ hkk]
      rcases List.mem_append.mp hw with hw | hw
      · exact h.written w hw
      · exact absurd (by simpa using congrArg Sigma.fst (List.mem_singleton.mp hw)) hkk
  · intro k' o' ho' hd
    by_cases hkk : k' = k
    · subst hkk
      have : o' = ⟨some o.cur, o.cur⟩ := by simpa using ho'.symm
      subst this
      rfl
    · refine h.clean k' o' (by simpa [Function.update_of_ne hkk] using ho') ?_
      rw [hdirty]
      simp only [hdirty, List.tail_cons] at hd
      simp [hkk, hd]
  · have := h.nodup
    rw [hdirty] at this
    simpa [hdirty] using (List.nodup_cons.mp this).2
  · intro k' hk'
    by_cases hkk : k' = k
    · subst hkk; simp
    · simp only [hdirty, List.tail_cons] at hk'
      simpa [Function.update_of_ne hkk] using h.pending k' (by simp [hdirty, hk'])
  · intro k' hg hk' d' hd' o' b ho' hb
    rw [show Session.own _ d' = write (s.own d') k v from own_append rfl d']
    by_cases hkk : k' = k
    · subst hkk
      have : o' = ⟨some o.cur, o.cur⟩ := by simpa using ho'.symm
      subst this
      cases hb
      rw [row_write_self]
      rcases hv with ⟨b, r, hb, hr, rfl⟩ | ⟨-, -, rfl⟩
      · rw [hsync hg b r hb hr, merge_base]
      · rfl
    · rw [row_write_of_ne _ _ _ _ hkk]
      exact h.sync k' hg (by rwa [← hHk k' hkk]) d' (by rw [← hHk k' hkk]; exact hd') o' b
        (by simpa [Function.update_of_ne hkk] using ho') hb

omit [DecidableEq K] in
/-- What a transaction without pending changes commits: the objects of the rows it has locked,
and the other rows as they are. -/
theorem row_own (h : Ok D guard s H) (hd : s.dirty = []) {d : D}
    (hH : ∀ k r, H k = some r → row d k = r) (k : K) :
    (H k = none → row (s.own d) k = row d k) ∧
      (guard k → H k ≠ none → row (s.own d) k = s.val k) := by
  constructor
  · intro hk
    exact row_own_of_not_written d (h.not_written hk)
  · intro hg hk
    obtain ⟨r, hr⟩ := Option.ne_none_iff_exists'.mp hk
    obtain ⟨o, ho⟩ := Option.ne_none_iff_exists'.mp (h.loaded k hk)
    rw [val_of_objs ho]
    exact h.sync k hg hk d (by rw [hr, hH k r hr]) o o.cur ho (h.clean k o ho (by simp [hd]))

end Ok

end Rows

end Session

end RowTxn
