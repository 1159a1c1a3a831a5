/-
# Tables under an integer primary key

A table maps the ids below its `AUTO_INCREMENT` counter to rows.  Every id from the counter
on is unused; this is a field of the structure, so that `fresh` never meets a row.  Sums over
the rows are sums over the ids below the counter, and they depend on the rows only.  A unique
index on a table is kept by an insert with a free key and by an update that leaves the key.
-/
import Mathlib.Algebra.BigOperators.Intervals
import Mathlib.Algebra.BigOperators.Group.Finset.Piecewise
import Mathlib.Algebra.Order.BigOperators.Group.Finset
import Mathlib.Algebra.Order.Group.Int
import Mathlib.Algebra.Ring.Int.Defs

namespace RowTxn

/-- A table: its rows by id, and the next id to be given out. -/
structure Table (α : Type) where
  /-- The row with an id, if there is one. -/
  get : ℕ → Option α
  /-- The next value of the `AUTO_INCREMENT` counter. -/
  fresh : ℕ
  /-- No row has an id that was not given out yet. -/
  get_of_fresh_le : ∀ k, fresh ≤ k → get k = none

namespace Table

variable {α : Type}

/-- The table without rows; ids start at `1`. -/
def empty : Table α := ⟨fun _ => none, 1, fun _ _ => rfl⟩

/-- The table with the rows of a list, numbered from `1`. -/
def ofList (l : List α) : Table α where
  get | 0 => none
      | k + 1 => l[k]?
  fresh := l.length + 1
  get_of_fresh_le
    | 0, _ => rfl
    | k + 1, h => List.getElem?_eq_none (by omega)

/-- Write a row, whether or not the id was in use. -/
def set (t : Table α) (k : ℕ) (v : α) : Table α where
  get := Function.update t.get k (some v)
  fresh := max t.fresh (k + 1)
  get_of_fresh_le j h := by
    rw [Function.update_of_ne (by omega)]
    exact t.get_of_fresh_le j (by omega)

/-- The rows with their ids, in the order of the ids. -/
def rows (t : Table α) : List (ℕ × α) :=
  (List.range t.fresh).filterMap fun k => (t.get k).map (k, ·)

@[simp] lemma get_empty (k : ℕ) : (empty : Table α).get k = none := rfl

@[simp] lemma get_set_self (t : Table α) (k : ℕ) (v : α) : (t.set k v).get k = some v := by
  simp [set]

lemma get_set_of_ne (t : Table α) {k j : ℕ} (v : α) (h : j ≠ k) :
    (t.set k v).get j = t.get j := by
  simp [set, h]

@[simp] lemma get_fresh (t : Table α) : t.get t.fresh = none :=
  t.get_of_fresh_le _ le_rfl

lemma lt_fresh_of_get {t : Table α} {k : ℕ} {v : α} (h : t.get k = some v) : k < t.fresh := by
  by_contra hk
  rw [t.get_of_fresh_le k (by omega)] at h
  cases h

@[simp] lemma mem_rows {t : Table α} {k : ℕ} {v : α} :
    (k, v) ∈ t.rows ↔ t.get k = some v := by
  simp only [rows, List.mem_filterMap, List.mem_range, Option.map_eq_some_iff, Prod.mk.injEq]
  constructor
  · rintro ⟨j, -, w, hw, rfl, rfl⟩
    exact hw
  · intro h
    exact ⟨k, lt_fresh_of_get h, v, h, rfl, rfl⟩

/-- A row that is written as it is. -/
lemma set_of_get {t : Table α} {k : ℕ} {v : α} (h : t.get k = some v) : t.set k v = t := by
  have hlt := lt_fresh_of_get h
  obtain ⟨get, fresh, hfresh⟩ := t
  have hget : Function.update get k (some v) = get := by
    rw [← h, Function.update_eq_self]
  simp only [set, hget, mk.injEq, true_and]
  exact max_eq_left hlt

/-- The rows may be listed over any range of ids that covers the table. -/
lemma rows_eq_of_fresh_le (t : Table α) {n : ℕ} (h : t.fresh ≤ n) :
    t.rows = (List.range n).filterMap fun k => (t.get k).map (k, ·) := by
  obtain ⟨m, rfl⟩ := Nat.exists_eq_add_of_le h
  have hnil : ((List.range m).map (t.fresh + ·)).filterMap (fun k => (t.get k).map (k, ·)) = [] := by
    rw [List.filterMap_eq_nil_iff]
    intro k hk
    obtain ⟨j, -, rfl⟩ := List.mem_map.mp hk
    simp [t.get_of_fresh_le (t.fresh + j) (by omega)]
  rw [List.range_add, List.filterMap_append, hnil, List.append_nil, rows]

/-- A part of the rows is listed from that part of every row. -/
lemma map_rows_congr {β : Type} {t t' : Table α} {g : α → β}
    (h : ∀ k, (t.get k).map g = (t'.get k).map g) :
    t.rows.map (fun r => (r.1, g r.2)) = t'.rows.map fun r => (r.1, g r.2) := by
  rw [t.rows_eq_of_fresh_le (le_max_left _ t'.fresh),
    t'.rows_eq_of_fresh_le (le_max_right t.fresh _), List.map_filterMap, List.map_filterMap]
  refine List.filterMap_congr fun k _ => ?_
  have hk := h k
  rcases hv : t.get k with _ | v <;> rcases hw : t'.get k with _ | w <;> simp_all

/-- The ids of some of the rows. -/
lemma ids_filter (t : Table α) (p : ℕ × α → Bool) :
    (t.rows.filter p).map Prod.fst =
      (List.range t.fresh).filter fun k => (t.get k).any fun v => p (k, v) := by
  rw [rows, List.filter_filterMap, List.map_filterMap, ← List.filterMap_eq_filter]
  refine List.filterMap_congr fun k _ => ?_
  rcases hk : t.get k with _ | v
  · simp [hk, Option.guard]
  · rcases hp : p (k, v) with _ | _ <;> simp [hk, hp, Option.guard, Option.filter]

/-- The ids of some of the rows ascend. -/
lemma pairwise_ids (t : Table α) (p : ℕ × α → Bool) :
    ((t.rows.filter p).map Prod.fst).Pairwise (· < ·) := by
  have hall : (t.rows.map Prod.fst).Pairwise (· < ·) := by
    rw [rows, List.map_filterMap]
    refine List.Pairwise.filterMap _ (fun i j hij i' hi j' hj => ?_) List.pairwise_lt_range
    simp only [Option.map_map, Option.map_eq_some_iff, Function.comp] at hi hj
    obtain ⟨_, -, rfl⟩ := hi
    obtain ⟨_, -, rfl⟩ := hj
    exact hij
  exact hall.sublist (List.filter_sublist.map _)

/-! ### Sums over the rows -/

/-- The sum of a quantity over the rows. -/
def sum (t : Table α) (g : α → ℤ) : ℤ :=
  ∑ k ∈ Finset.range t.fresh, (t.get k).elim 0 g

/-- A sum may be taken over any range of ids that covers the table. -/
lemma sum_eq_of_fresh_le (t : Table α) (g : α → ℤ) {n : ℕ} (h : t.fresh ≤ n) :
    t.sum g = ∑ k ∈ Finset.range n, (t.get k).elim 0 g := by
  refine Finset.sum_subset (by simpa using h) ?_
  intro k _ hk
  rw [t.get_of_fresh_le k (by simpa using hk)]
  rfl

lemma sum_congr {t t' : Table α} {g g' : α → ℤ}
    (h : ∀ k, (t.get k).elim 0 g = (t'.get k).elim 0 g') : t.sum g = t'.sum g' := by
  rw [t.sum_eq_of_fresh_le g (le_max_left _ t'.fresh),
    t'.sum_eq_of_fresh_le g' (le_max_right t.fresh _)]
  exact Finset.sum_congr rfl fun k _ => h k

/-- Sums of two tables that differ at the ids of a finite set only. -/
lemma sum_sub_sum {t t' : Table α} {g : α → ℤ} {s : Finset ℕ}
    (h : ∀ k ∉ s, (t.get k).elim 0 g = (t'.get k).elim 0 g) :
    t'.sum g - t.sum g = ∑ k ∈ s, ((t'.get k).elim 0 g - (t.get k).elim 0 g) := by
  classical
  obtain ⟨n, hn⟩ : ∃ n, s ⊆ Finset.range n :=
    ⟨s.sup id + 1, fun k hk => by
      have : id k ≤ s.sup id := Finset.le_sup hk
      simpa [Nat.lt_succ_iff] using this⟩
  have hs : s ⊆ Finset.range (max n (max t.fresh t'.fresh)) :=
    hn.trans (by simp)
  rw [t.sum_eq_of_fresh_le g (show _ ≤ max n (max t.fresh t'.fresh) by omega),
    t'.sum_eq_of_fresh_le g (show _ ≤ max n (max t.fresh t'.fresh) by omega),
    ← Finset.sum_sub_distrib]
  refine (Finset.sum_subset hs ?_).symm
  intro k _ hk
  rw [h k hk, sub_self]

/-- Sums of two tables that differ at one id only. -/
lemma sum_of_get_ne {t t' : Table α} {g : α → ℤ} (k : ℕ)
    (h : ∀ j, j ≠ k → t'.get j = t.get j) :
    t'.sum g = t.sum g - (t.get k).elim 0 g + (t'.get k).elim 0 g := by
  have hd : t'.sum g - t.sum g =
      ∑ j ∈ ({k} : Finset ℕ), ((t'.get j).elim 0 g - (t.get j).elim 0 g) :=
    sum_sub_sum fun j hj => by rw [h j (by simpa using hj)]
  rw [Finset.sum_singleton] at hd
  omega

lemma sum_nonneg {t : Table α} {g : α → ℤ} (h : ∀ k v, t.get k = some v → 0 ≤ g v) :
    0 ≤ t.sum g := by
  refine Finset.sum_nonneg fun k _ => ?_
  cases hk : t.get k with
  | none => exact le_rfl
  | some v => exact h k v hk

/-! ### Unique indexes -/

/-- The entries of a unique index are the ids of the rows, by a key of the rows. -/
structure Index {κ : Type} (t : Table α) (key : α → κ) (entries : κ → Option ℕ) : Prop where
  entry : ∀ id v, t.get id = some v → entries (key v) = some id
  row : ∀ k id, entries k = some id → ∃ v, t.get id = some v ∧ key v = k

namespace Index

variable {κ : Type} {t : Table α} {key : α → κ} {entries : κ → Option ℕ} {id : ℕ} {v : α}

/-- A key belongs to one row. -/
lemma unique (h : t.Index key entries) {id' : ℕ} {v' : α} (hv : t.get id = some v)
    (hv' : t.get id' = some v') (heq : key v = key v') : id = id' := by
  have hentry := h.entry id v hv
  rw [heq, h.entry id' v' hv'] at hentry
  exact (Option.some.inj hentry).symm

/-- A key that no row has is free. -/
lemma free (h : t.Index key entries) {k : κ} (hk : ∀ id v, t.get id = some v → key v ≠ k) :
    entries k = none := by
  by_contra hne
  obtain ⟨id, hid⟩ := Option.ne_none_iff_exists'.mp hne
  obtain ⟨v, hv, hkey⟩ := h.row k id hid
  exact hk id v hv hkey

/-- A row whose key is free is inserted. -/
lemma insert [DecidableEq κ] (h : t.Index key entries) (hid : t.get id = none)
    (hkey : entries (key v) = none) :
    (t.set id v).Index key (Function.update entries (key v) (some id)) where
  entry id' v' hv := by
    by_cases hk : id' = id
    · subst hk
      obtain rfl : v = v' := by simpa using hv
      simp
    · have hentry := h.entry id' v' ((t.get_set_of_ne v hk).symm.trans hv)
      rw [Function.update_of_ne, hentry]
      intro heq
      rw [heq, hkey] at hentry
      cases hentry
  row k id' hentry := by
    by_cases hk : k = key v
    · subst hk
      obtain rfl : id = id' := by simpa using hentry
      exact ⟨v, t.get_set_self id v, rfl⟩
    · rw [Function.update_of_ne hk] at hentry
      obtain ⟨v', hv', rfl⟩ := h.row k id' hentry
      have hne : id' ≠ id := by
        rintro rfl
        rw [hid] at hv'
        cases hv'
      exact ⟨v', (t.get_set_of_ne v hne).trans hv', rfl⟩

/-- A row is updated, and keeps its key. -/
lemma update (h : t.Index key entries) {r : α} (hr : t.get id = some r) (hkey : key v = key r) :
    (t.set id v).Index key entries where
  entry id' v' hv := by
    by_cases hk : id' = id
    · subst hk
      obtain rfl : v = v' := by simpa using hv
      rw [hkey]
      exact h.entry id' r hr
    · exact h.entry id' v' ((t.get_set_of_ne v hk).symm.trans hv)
  row k id' hentry := by
    obtain ⟨v', hv', rfl⟩ := h.row k id' hentry
    by_cases hk : id' = id
    · subst hk
      obtain rfl : v' = r := Option.some.inj (hv'.symm.trans hr)
      exact ⟨v, t.get_set_self id' v, hkey⟩
    · exact ⟨v', (t.get_set_of_ne v hk).trans hv', rfl⟩

end Index

end Table

end RowTxn
