/-
# Flushes, one statement at a time

The rule of `wpFlush_intro` says what a whole flush does to rows that are known to be up to date.
The rules here follow the single statements and ask nothing of that kind: an `INSERT` finds its key
free or fails, and an `UPDATE` is applied to the row as it is stored when its lock is granted, which
may not be the row that was loaded.
-/
import InventoryReservation.RowTxn.Reading

namespace RowTxn

variable {D K : Type} {V : K → Type} {Q : Type} {A : Q → Type} {ε α : Type} [DecidableEq K]
  [RowStore D K V] {R : Rely D K} {env : (q : Q) → A q} {s : Session K V Q A} {H : Held V}

open RowStore

omit [RowStore D K V] in
/-- The session after one statement of a flush, which has stored `v` for an object with the present
values `c`. -/
def Session.flushed (s : Session K V Q A) (k : K) (c v : V k) : Session K V Q A :=
  { s with
    objs := Function.update s.objs k (some ⟨some c, c⟩)
    dirty := s.dirty.tail
    writes := s.writes ++ [⟨k, v⟩] }

lemma Session.own_flushed (s : Session K V Q A) (k : K) (c v : V k) (d : D) :
    (s.flushed k c v).own d = write (s.own d) k v := own_append rfl d

/-- The rule for the first statement of a flush, on a row that is not locked yet: an `INSERT` or an
`UPDATE`. -/
lemma wpFlush_cons {k : K} {ks : List K} {o : Obj (V k)}
    {P : Bool → Session K V Q A → Held V → Prop} (ho : s.objs k = some o) (hn : H k = none)
    (hfail : P false s H)
    (hinsert : o.base = none → ∀ d, R.seen d → row d k = none →
      wpFlush R ks P (s.flushed k o.cur o.cur) (H.hold k none))
    (hupdate : ∀ b, o.base = some b → ∀ d r, R.seen d → row d k = some r →
      wpFlush R ks P (s.flushed k o.cur (merge D k b o.cur r)) (H.hold k (some r))) :
    wpFlush R (k :: ks) P s H := by
  intro d hd _
  obtain ⟨hseen, -, hok⟩ := hd
  have hrow : row (s.own d) k = row d k := Session.row_own_of_not_written d (hok.not_written hn)
  rcases hb : o.base with _ | b <;> rcases hr : row d k with _ | r <;>
    simp only [Session.flush1, ho, hb, hrow, hr]
  · exact hinsert hb d hseen hr
  · exact hfail
  · exact hfail
  · exact hupdate b hb d r hseen hr

/-- The rule for a flush of new objects: their keys were all free, and are locked. -/
theorem wpFlush_inserts {l : List (Σ k, V k)} {P : Bool → Session K V Q A → Held V → Prop}
    (hd : s.dirty = l.map Sigma.fst) (hl : (l.map Sigma.fst).Nodup)
    (ho : ∀ w ∈ l, s.objs w.1 = some ⟨none, w.2⟩) (hn : ∀ w ∈ l, H w.1 = none)
    (hfail : ∀ s H, P false s H)
    (hok : ∀ s' H', s'.dirty = [] → s'.writes = s.writes ++ l →
      (∀ k, H' k = if k ∈ l.map Sigma.fst then some none else H k) → P true s' H') :
    wpFlush R s.dirty P s H := by
  induction l generalizing s H with
  | nil =>
    rw [hd]
    exact hok s H hd (by simp) fun k => by simp
  | cons w l ih =>
    rw [hd]
    rw [List.map_cons, List.nodup_cons] at hl
    have hne : ∀ w' ∈ l, w'.1 ≠ w.1 := by
      intro w' hw' h
      exact hl.1 (h ▸ List.mem_map_of_mem hw')
    refine wpFlush_cons (ho w (by simp)) (hn w (by simp)) (hfail _ _) (fun _ d _ _ => ?_)
      fun b hb => by cases hb
    have hd' : (s.flushed w.1 w.2 w.2).dirty = l.map Sigma.fst := by simp [Session.flushed, hd]
    rw [← hd']
    refine ih hd' hl.2 (fun w' hw' => ?_) (fun w' hw' => ?_) ?_
    · rw [← ho w' (by simp [hw'])]
      exact Function.update_of_ne (hne w' hw') _ _
    · rw [← hn w' (by simp [hw'])]
      exact Function.update_of_ne (hne w' hw') _ _
    · intro s' H' hd' hw' hH'
      refine hok s' H' hd' ?_ fun k => ?_
      · rw [hw']
        exact List.append_assoc s.writes [w] l
      · rw [hH', List.map_cons]
        by_cases hk : k = w.1
        · subst hk
          simp only [if_neg hl.1, List.mem_cons, true_or, if_true]
          exact Function.update_self _ _ _
        · simp only [List.mem_cons, hk, false_or]
          congr 1
          exact Function.update_of_ne hk _ _

/-- The commit of a session that has flushed everything. -/
lemma wp_commit_of_flushed {p : Prog D K V Q A ε α} {err : ε}
    {P : α → Session K V Q A → Held V → Prop} {E : ε → Session K V Q A → Held V → Prop}
    (h : wp R env p (fun a s H => s.dirty = [] ∧ P a s H) E s H) :
    wp R env (p.commit err) P E s H := by
  rw [Prog.commit, wp_bind]
  refine wp_mono (fun a s H h => ?_) (fun _ _ _ h => h) h
  show wpFlush R s.dirty _ s H
  rw [h.1]
  exact h.2

/-! ### A transaction that runs alone -/

omit [DecidableEq K] [RowStore D K V] in
lemma Prog.bind_assoc {β γ : Type} (p : Prog D K V Q A ε α) (f : α → Prog D K V Q A ε β)
    (g : β → Prog D K V Q A ε γ) : (p.bind f).bind g = p.bind fun a => (f a).bind g := by
  induction p with
  | pure a => rfl
  | raise e => rfl
  | modify k f c ih => exact congrArg (Prog.modify k f) ih
  | insert k v c ih => exact congrArg (Prog.insert k v) ih
  | read q c ih => exact congrArg (Prog.read q) (funext ih)
  | lock k c ih => exact congrArg (Prog.lock k) (funext ih)
  | lockWhere q n c ih => exact congrArg (Prog.lockWhere q n) (funext ih)
  | get k c ih => exact congrArg (Prog.get k) (funext ih)
  | alloc c ih => exact congrArg Prog.alloc (funext ih)
  | flush c ih => exact congrArg Prog.flush (funext ih)
  | ask q c ih => exact congrArg (Prog.ask q) (funext ih)

variable {d : D}

/-- A flush of new objects whose keys are free. -/
theorem flushAll_inserts {l : List (Σ k, V k)} (hd : s.dirty = l.map Sigma.fst)
    (hl : (l.map Sigma.fst).Nodup) (ho : ∀ w ∈ l, s.objs w.1 = some ⟨none, w.2⟩)
    (hfree : ∀ w ∈ l, row (s.own d) w.1 = none) :
    ∃ s', flushAll s.dirty s d = (true, s') ∧ s'.dirty = [] ∧ s'.writes = s.writes ++ l := by
  induction l generalizing s with
  | nil => exact ⟨s, by rw [hd]; rfl, hd, by simp⟩
  | cons w l ih =>
    rw [List.map_cons, List.nodup_cons] at hl
    have hne : ∀ w' ∈ l, w'.1 ≠ w.1 := by
      intro w' hw' h
      exact hl.1 (h ▸ List.mem_map_of_mem hw')
    have hstep : s.flush1 w.1 d = some (s.flushed w.1 w.2 w.2) := by
      simp only [Session.flush1, ho w (by simp), hfree w (by simp)]
      rfl
    obtain ⟨s', hs', hd', hw'⟩ := ih (s := s.flushed w.1 w.2 w.2) (by simp [Session.flushed, hd]) hl.2
      (fun w' hw' => by
        rw [← ho w' (by simp [hw'])]
        exact Function.update_of_ne (hne w' hw') _ _)
      (fun w' hw' => by
        rw [Session.own_flushed, row_write_of_ne _ _ _ _ (hne w' hw')]
        exact hfree w' (by simp [hw']))
    refine ⟨s', ?_, hd', ?_⟩
    · rw [hd, List.map_cons, flushAll, hstep]
      have hdirty : (s.flushed w.1 w.2 w.2).dirty = l.map Sigma.fst := by simp [Session.flushed, hd]
      rwa [hdirty] at hs'
    · rw [hw']
      exact List.append_assoc s.writes [w] l

/-- A flush of one changed object, whose row is as it was loaded. -/
lemma flushAll_update {k : K} {b c : V k} (hd : s.dirty = [k]) (ho : s.objs k = some ⟨some b, c⟩)
    (hrow : row (s.own d) k = some b) : flushAll s.dirty s d = (true, s.flushed k c c) := by
  have hstep : s.flush1 k d = some (s.flushed k c c) := by
    simp only [Session.flush1, ho, hrow, merge_base]
    rfl
  rw [hd, flushAll, hstep]
  rfl

/-- How a transaction ends that has flushed everything, or raised an exception. -/
lemma transact_commit_of_ok {p : Prog D K V Q A ε α} {a : α} (err : ε)
    (h : solo env d p (fresh d) Session.init = (.ok a, s)) (hs : s.dirty = []) :
    (transact env d (p.commit err)).result = .ok a ∧
      (transact env d (p.commit err)).db = s.own d := by
  unfold transact
  rw [solo_commit, h]
  simp only [committed, hs, flushAll, if_true, and_self]

lemma transact_commit_of_error {p : Prog D K V Q A ε α} {e : ε} (err : ε)
    (h : (solo env d p (fresh d) Session.init).1 = .error e) :
    (transact env d (p.commit err)).result = .error e ∧
      (transact env d (p.commit err)).db = d := by
  unfold transact
  rw [solo_commit]
  generalize solo env d p (fresh d) Session.init = out at h
  obtain ⟨r, s⟩ := out
  obtain rfl : r = .error e := h
  simp only [committed, and_self]

end RowTxn
