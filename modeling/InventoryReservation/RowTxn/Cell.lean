/-
# What a session knows of one row

The cell of a row is the session's object for it, whether it has pending changes, and the lock
with the committed version.  A statement about one row changes one cell, so an invariant that
is said cell by cell is kept for all other rows at once.
-/
import InventoryReservation.RowTxn.Logic

namespace RowTxn

variable {D K : Type} {V : K → Type} {Q : Type} {A : Q → Type}

/-- What a session knows of one row. -/
structure Cell (α : Type) where
  obj : Option (Obj α)
  dirty : Prop
  held : Option (Option α)

namespace Cell

variable {α : Type}

/-- The values of the object. -/
def val (c : Cell α) : Option α := c.obj.map Obj.cur

/-- The row is locked or about to be. -/
def Touched (c : Cell α) : Prop := c.dirty ∨ c.held ≠ none

/-- The stored row is `b`, if the lock is held or granted up to date. -/
def From (c : Cell α) (b : Option α) : Prop :=
  c.held = some b ∨ c.held = none ∧ ∀ o, c.obj = some o → o.base = b

/-- The object changes the row from `b` to `v`; nothing changes without such a pair. -/
def Prepares (c : Cell α) : Option (Option α × α) → Prop
  | none => ¬c.Touched
  | some (b, v) => c.val = some v ∧ c.From b ∧ (b ≠ some v → c.Touched)

end Cell

namespace Session

/-- The cell of a row. -/
def cell (s : Session K V Q A) (H : Held V) (k : K) : Cell (V k) := ⟨s.objs k, k ∈ s.dirty, H k⟩

variable {s : Session K V Q A} {H : Held V} {k k' : K}

lemma cell_congr {s' : Session K V Q A} {H' : Held V} (ho : s'.objs k = s.objs k)
    (hd : k ∈ s'.dirty ↔ k ∈ s.dirty) (hH : H' k = H k) : s'.cell H' k = s.cell H k := by
  simp [cell, ho, hd, hH]

@[simp] lemma cell_val : (s.cell H k).val = s.val k := rfl

section Change

variable [DecidableEq K]

lemma cell_modify_of_ne (f : V k → V k) (h : k' ≠ k) : (s.modify k f).cell H k' = s.cell H k' := by
  refine cell_congr ?_ (by simp [mem_dirty_modify, h]) rfl
  unfold modify
  split
  · rfl
  · simp [Function.update_of_ne h]

lemma cell_modify_self {o : Obj (V k)} (f : V k → V k) (h : s.objs k = some o) :
    (s.modify k f).cell H k = ⟨some { o with cur := f o.cur }, True, H k⟩ := by
  have hd : k ∈ (s.modify k f).dirty := mem_dirty_modify.mpr (Or.inr ⟨rfl, by simp [val, h]⟩)
  simp only [cell, hd]
  simp [modify_of_some f h]

lemma cell_insert_of_ne (v : V k) (h : k' ≠ k) : (s.insert k v).cell H k' = s.cell H k' :=
  cell_congr (objs_insert_of_ne s v h) (by simp [mem_dirty_insert, h]) rfl

lemma cell_insert_self (v : V k) : (s.insert k v).cell H k = ⟨some ⟨none, v⟩, True, H k⟩ := by
  have hd : k ∈ (s.insert k v).dirty := mem_dirty_insert.mpr (Or.inr rfl)
  simp only [cell, hd]
  simp [insert]

lemma cell_hold_of_ne (r r' : Option (V k)) (h : k' ≠ k) :
    (s.load1 k r).cell (H.hold k r') k' = s.cell H k' := by
  refine cell_congr ?_ (by simp) (by simp [Held.hold, Function.update_of_ne h])
  unfold load1
  split
  · simp [Function.update_of_ne h]
  · rfl

lemma cell_hold_self {v : V k} (h : (s.val k).getD v = v) :
    ((s.load1 k (some v)).cell (H.hold k (some v)) k).val = some v ∧
      ((s.load1 k (some v)).cell (H.hold k (some v)) k).held = some (some v) := by
  refine ⟨?_, by simp [cell, Held.hold]⟩
  rw [cell_val, val_load1_self]
  rcases hs : s.val k with _ | u
  · rfl
  · rw [hs] at h
    exact congrArg some h

variable [RowStore D K V]

/-- A plain read keeps the cells with an object. -/
lemma cell_load (ks : List K) (d : D) (h : s.objs k ≠ none) :
    (s.load ks d).cell H k = s.cell H k := by
  obtain ⟨o, ho⟩ := Option.ne_none_iff_exists'.mp h
  exact cell_congr (by rw [ho]; exact objs_load ks d ho) (by simp) rfl

/-- The locks of a `SKIP LOCKED` read do not matter to the other rows. -/
lemma cell_holdAll_of_not_mem {ks : List K} (d : D) (h : k ∉ ks) :
    (s.load ks d).cell (H.holdAll ks d) k = s.cell H k := by
  refine cell_congr ?_ (by simp) (by simp [Held.holdAll_apply, h])
  rcases ho : s.objs k with _ | o
  · rcases ho' : (s.load ks d).objs k with _ | o'
    · rfl
    · rcases objs_load_inv ho' with h' | ⟨-, hk, -⟩
      · exact ho'.symm.trans (ho'.trans (h'.symm.trans ho))
      · exact absurd hk h
  · exact objs_load ks d ho

/-- A row that a `SKIP LOCKED` read locks is loaded as it is. -/
lemma cell_holdAll_of_mem {ks : List K} {d : D} (h : k ∈ ks) {v : V k}
    (hr : RowStore.row d k = some v) (hs : s.objs k = none) :
    ((s.load ks d).cell (H.holdAll ks d) k).Prepares (some (some v, v)) := by
  refine ⟨?_, Or.inl (by simp [cell, Held.holdAll_apply, h, hr]), fun hne => absurd rfl hne⟩
  rw [cell_val, val_load]
  simp [val, hs, h, hr]

lemma touched_load (ks : List K) (d : D) :
    ((s.load ks d).cell H k).Touched ↔ (s.cell H k).Touched := by
  simp [Cell.Touched, cell]

end Change

end Session

section Prepared

variable [DecidableEq K] [RowStore D K V] {s s' : Session K V Q A} {H H' : Held V} {k : K}

open RowStore

lemma Cell.Prepares.load {Δ : Option (Option (V k) × V k)} (h : (s.cell H k).Prepares Δ)
    (ks : List K) (d : D) : ((s.load ks d).cell H k).Prepares Δ := by
  rcases Δ with _ | ⟨b, v⟩
  · exact fun ht => h ((Session.touched_load ks d).mp ht)
  · rw [Session.cell_load]
    · exact h
    · intro hn
      have := h.1
      simp [Cell.val, Session.cell, hn] at this

omit [RowStore D K V] in
lemma Cell.Prepares.modify {b : Option (V k)} {v : V k}
    (h : (s.cell H k).Prepares (some (b, v))) (f : V k → V k) :
    ((s.modify k f).cell H k).Prepares (some (b, f v)) := by
  obtain ⟨hv, hb, -⟩ := h
  obtain ⟨o, ho, rfl⟩ := Option.map_eq_some_iff.mp hv
  rw [Session.cell_modify_self f ho]
  refine ⟨rfl, hb.imp_right fun hb => ⟨hb.1, fun o' ho' => ?_⟩, fun _ => Or.inl trivial⟩
  cases ho'
  exact hb.2 o ho

omit [RowStore D K V] in
lemma Cell.Prepares.insert (h : (s.cell H k).Prepares none) (v : V k) :
    ((s.insert k v).cell H k).Prepares (some (none, v)) := by
  rw [Session.cell_insert_self]
  refine ⟨rfl, Or.inr ⟨?_, fun o' ho' => ?_⟩, fun _ => Or.inl trivial⟩
  · by_contra hn
    exact h (Or.inr hn)
  · cases ho'
    rfl

omit [DecidableEq K] in
/-- A flush keeps what a cell prepares. -/
lemma Cell.Prepares.flushed {R : Rely D K} {Δ : Option (Option (V k) × V k)}
    (h : (s.cell H k).Prepares Δ) (hg : R.guard k) (hf : Flushed R s H s' H') :
    (s'.cell H' k).Prepares Δ := by
  have hclean : k ∉ s'.dirty := by simp [hf.dirty]
  rcases Δ with _ | ⟨b, v⟩
  · rintro (hd | hn)
    · exact hclean hd
    · refine hn ((hf.kept k (Or.inl fun hd => h (Or.inl hd))).trans ?_)
      by_contra hc
      exact h (Or.inr hc)
  · obtain ⟨hv, hb, ht⟩ := h
    obtain ⟨o, ho, -⟩ := Option.map_eq_some_iff.mp hv
    refine ⟨(hf.val k).trans hv, ?_⟩
    by_cases htk : (s.cell H k).Touched
    · have hH' : H' k = some b := by
        rcases hb with hb | ⟨hn, hb⟩
        · exact (hf.kept k (Or.inr (by simp [show H k = some b from hb]))).trans hb
        · obtain ⟨d, -, hd, ho'⟩ := hf.granted k (htk.resolve_right (not_not.mpr hn)) hn
          rw [hd, ← ho' o ho hg, hb o ho]
      exact ⟨Or.inl hH', fun _ => Or.inr (by simp [Session.cell, hH'])⟩
    · have hd : k ∉ s.dirty := fun hd => htk (Or.inl hd)
      have hcell : s'.cell H' k = s.cell H k :=
        Session.cell_congr (hf.objs k hd) (by simp [hclean, hd]) (hf.kept k (Or.inl hd))
      rw [hcell]
      exact ⟨hb, ht⟩

omit [DecidableEq K] in
/-- What a cell prepares is what a commit does to the row. -/
lemma Cell.Prepares.settled {guard : K → Prop} {d d' : D} {ws : List K} {b : Option (V k)}
    {v : V k} (h : (s.cell H k).Prepares (some (b, v))) (hs : Settled guard s H d d' ws)
    (hg : guard k) (hbv : b ≠ some v) : row d k = b ∧ row d' k = some v := by
  obtain ⟨hv, hb, ht⟩ := h
  refine ⟨?_, (hs.changed k hg (ht hbv)).trans hv⟩
  rcases hb with hb | ⟨hn, hb⟩
  · exact hs.held k b hb
  · obtain ⟨o, ho, -⟩ := Option.map_eq_some_iff.mp hv
    rw [← hs.stored k ((ht hbv).resolve_right (not_not.mpr hn)) hn hg o ho, hb o ho]

omit [DecidableEq K] in
/-- A row that is not touched stays as it is. -/
lemma Settled.untouched {guard : K → Prop} {d d' : D} {ws : List K}
    (hs : Settled guard s H d d' ws) (h : ¬(s.cell H k).Touched) : row d' k = row d k := by
  refine hs.kept k (fun hd => h (Or.inl hd)) ?_
  by_contra hn
  exact h (Or.inr hn)

end Prepared

end RowTxn
