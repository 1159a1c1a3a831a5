/-
# A transaction that runs alone

`solo` runs a program on a database that nothing else changes: locks are free, and what a
statement sees is the database under the session's own writes.  `transact` is the whole
transaction: its writes are kept when the program returns and dropped when it raises.

A weakest precondition relative to `Rely.solo` is met by such a run (`solo_of_wp`), so a
specification proved once serves the serial runs as well as the interleaved ones.
-/
import InventoryReservation.RowTxn.Logic

namespace RowTxn

variable {D K : Type} {V : K → Type} {Q : Type} {A : Q → Type} {ε α β : Type}

section Run

variable [DecidableEq K] [RowStore D K V]

open RowStore

/-- Flush the objects `ks`, one statement after the other, up to the first that fails. -/
def flushAll : List K → Session K V Q A → D → Bool × Session K V Q A
  | [], s, _ => (true, s)
  | k :: ks, s, d =>
    match s.flush1 k d with
    | some s' => flushAll ks s' d
    | none => (false, s)

/-- Run a program on a database that nothing else changes; `n` is the `AUTO_INCREMENT`
counter. -/
def solo (env : (q : Q) → A q) (d : D) :
    Prog D K V Q A ε α → ℕ → Session K V Q A → Except ε α × Session K V Q A
  | .pure a, _, s => (.ok a, s)
  | .raise e, _, s => (.error e, s)
  | .read q c, n, s => solo env d (c (s.own d)) n (s.load (q (s.own d)) (s.own d))
  | .lock k c, n, s => solo env d (c (s.select1 k d).2) n (s.select1 k d).1
  | .lockWhere q m c, n, s =>
    let l := s.pick q m d fun _ => true
    solo env d (c l) n (s.load l (s.own d))
  | .get k c, n, s => solo env d (c (s.val k)) n s
  | .modify k f c, n, s => solo env d c n (s.modify k f)
  | .insert k v c, n, s => solo env d c n (s.insert k v)
  | .alloc c, n, s => solo env d (c n) (n + 1) s
  | .flush c, n, s => solo env d (c (flushAll s.dirty s d).1) n (flushAll s.dirty s d).2
  | .ask q c, n, s => solo env d (c (env q)) n (s.log q (env q))

/-- How a transaction ended: its result, the database it left, and the questions it asked. -/
structure Outcome (D Q : Type) (A : Q → Type) (ε α : Type) where
  result : Except ε α
  db : D
  trace : List (Σ q, A q)

/-- A transaction from its first statement to the commit or the rollback. -/
def transact (env : (q : Q) → A q) (d : D) (p : Prog D K V Q A ε α) : Outcome D Q A ε α :=
  match solo env d p (fresh d) Session.init with
  | (.ok a, s) => ⟨.ok a, s.own d, s.trace⟩
  | (.error e, s) => ⟨.error e, d, s.trace⟩

end Run

/-- What a transaction that runs alone relies on: every statement sees the same database. -/
def Rely.solo {V : K → Type} [RowStore D K V] (d : D) : Rely D K where
  seen := (· = d)
  free := (· = fun _ => true)
  ids := (RowStore.fresh d ≤ ·)
  guard := fun _ => True

/-- The same, if it takes only ids of `ids`. -/
def Rely.soloIds {V : K → Type} [RowStore D K V] (d : D) (ids : ℕ → Prop) : Rely D K :=
  { Rely.solo d with ids := ids }

section Soundness

variable [DecidableEq K] [RowStore D K V] {env : (q : Q) → A q} {d : D}
  {s : Session K V Q A} {H : Held V} {ids : ℕ → Prop}

open RowStore

omit [DecidableEq K] in
/-- What holds of a session while it runs alone: its locked rows are the ones of the database,
and so are the objects it has not locked. -/
structure Alone (d : D) (s : Session K V Q A) (H : Held V) : Prop where
  ok : s.Ok D (fun _ => True) H
  held : ∀ k r, H k = some r → row d k = r
  same : ∀ k, H k = none → ∀ o b, s.objs k = some o → o.base = some b → row d k = some b

namespace Alone

omit [DecidableEq K] in
lemma init (d : D) : Alone d (Session.init : Session K V Q A) (fun _ => none) where
  ok := Session.Ok.init
  held k r h := by cases h
  same k _ o b h := by simp [Session.init] at h

omit [DecidableEq K] in
lemma now (h : Alone d s H) : (Rely.soloIds d ids).Now s H d := ⟨rfl, h.held, h.ok⟩

omit [DecidableEq K] in
lemma fresh (h : Alone d s H) (k : K) : (Rely.soloIds d ids).Fresh s H k d :=
  fun _ hk o b ho hb => h.same k hk o b ho hb

lemma held_hold (h : Alone d s H) (k : K) :
    ∀ k' r, H.hold k (row d k) k' = some r → row d k' = r := by
  intro k' r hr
  by_cases hkk : k' = k
  · subst hkk
    simpa [Held.hold] using hr
  · exact h.held k' r (by simpa [Held.hold, Function.update_of_ne hkk] using hr)

lemma load (h : Alone d s H) (ks : List K) : Alone d (s.load ks (s.own d)) H where
  ok := h.ok.load ks _
  held := h.held
  same k hk o b ho hb := by
    rcases Session.objs_load_inv ho with ho | ⟨-, -, hr, hb'⟩
    · exact h.same k hk o b ho hb
    · rw [← Session.row_own_of_not_written d (h.ok.not_written hk), hr, ← hb', hb]

lemma lock (h : Alone d s H) {k : K} (hdirty : H k = none → k ∉ s.dirty) :
    Alone d (s.select1 k d).1 (if (row (s.own d) k).isSome then H.hold k (row d k) else H) := by
  refine ⟨h.ok.lock hdirty (h.held k) fun _ => h.same k, ?_, ?_⟩
  · split
    · exact h.held_hold k
    · exact h.held
  · rcases hr : row (s.own d) k with _ | v
    · simpa [Session.select1_of_none hr] using h.same
    · rw [Session.select1_of_some hr]
      intro k' hk' o b ho hb
      have hkk : k' ≠ k := by
        rintro rfl
        simp [Held.hold] at hk'
      have hk : H k' = none := by simpa [Held.hold, Function.update_of_ne hkk] using hk'
      rcases Session.objs_load1_inv ho with ho | ⟨-, hkk', -⟩
      · exact h.same k' hk o b ho hb
      · exact absurd hkk' hkk

lemma lockWhere (h : Alone d s H) {ks : List K} (hdirty : ∀ k ∈ ks, H k = none → k ∉ s.dirty)
    (hrow : ∀ k ∈ ks, row (s.own d) k ≠ none) :
    Alone d (s.load ks (s.own d)) (H.holdAll ks d) where
  ok := h.ok.load_holdAll hdirty hrow h.held fun k _ _ => h.same k
  held k r hr := by
    rw [Held.holdAll_apply] at hr
    split at hr
    · exact Option.some.inj hr
    · exact h.held k r hr
  same k hk := by
    rw [Held.holdAll_apply] at hk
    split at hk
    · cases hk
    · exact (h.load ks).same k hk

lemma modify (h : Alone d s H) (k : K) (f : V k → V k) : Alone d (s.modify k f) H where
  ok := h.ok.modify k f
  held := h.held
  same k' hk' o b ho hb := by
    rcases hk : s.objs k with _ | o'
    · exact h.same k' hk' o b (by simpa [Session.modify, hk] using ho) hb
    · by_cases hkk : k' = k
      · subst hkk
        have : o = { o' with cur := f o'.cur } := by simpa [Session.modify, hk] using ho.symm
        subst this
        exact h.same k' hk' o' b hk hb
      · exact h.same k' hk' o b
          (by simpa [Session.modify, hk, Function.update_of_ne hkk] using ho) hb

lemma insert (h : Alone d s H) {k : K} (v : V k) (hn : H k = none) :
    Alone d (s.insert k v) H where
  ok := h.ok.insert v hn
  held := h.held
  same k' hk' o b ho hb := by
    by_cases hkk : k' = k
    · subst hkk
      have : o = ⟨none, v⟩ := by simpa [Session.insert] using ho.symm
      subst this
      cases hb
    · exact h.same k' hk' o b
        (by simpa [Session.insert, Function.update_of_ne hkk] using ho) hb

omit [DecidableEq K] in
lemma log (h : Alone d s H) (q : Q) (a : A q) : Alone d (s.log q a) H where
  ok := h.ok.congr rfl rfl rfl
  held := h.held
  same := h.same

lemma flush1 (h : Alone d s H) {k : K} {ks : List K} {s' : Session K V Q A}
    (hdirty : s.dirty = k :: ks) (hf : s.flush1 k d = some s') :
    Alone d s' (H.hold k (row d k)) where
  ok := h.ok.flush1 hdirty hf (h.held k) fun _ => h.same k
  held := h.held_hold k
  same k' hk' o b ho hb := by
    have hkk : k' ≠ k := by
      rintro rfl
      simp [Held.hold] at hk'
    obtain ⟨-, -, -, hobjs, -⟩ := flush1_step hf
    exact h.same k' (by simpa [Held.hold, Function.update_of_ne hkk] using hk') o b
      (by rw [← hobjs k' hkk]; exact ho) hb

end Alone

lemma flushAll_of_wpFlush {P : Bool → Session K V Q A → Held V → Prop} {ks : List K}
    (h : Alone d s H) (hks : s.dirty = ks) (hw : wpFlush (Rely.soloIds d ids) ks P s H) :
    ∃ H', Alone d (flushAll ks s d).2 H' ∧ P (flushAll ks s d).1 (flushAll ks s d).2 H' := by
  induction ks generalizing s H with
  | nil => exact ⟨H, h, hw⟩
  | cons k ks ih =>
    have hk := hw d h.now (h.fresh k)
    rw [flushAll]
    rcases hs : s.flush1 k d with _ | s'
    · rw [hs] at hk
      exact ⟨H, h, hk⟩
    · rw [hs] at hk
      refine ih (h.flush1 hks hs) ?_ hk
      rw [(flush1_step hs).2.2.1, hks, List.tail_cons]

/-- A run that returns meets the postcondition for results, one that raises the one for
exceptions. -/
def Ends (P : α → Session K V Q A → Held V → Prop) (E : ε → Session K V Q A → Held V → Prop) :
    Except ε α → Session K V Q A → Held V → Prop
  | .ok a => P a
  | .error e => E e

/-- A run alone ends as the weakest precondition says. -/
theorem solo_of_wp {p : Prog D K V Q A ε α} {P : α → Session K V Q A → Held V → Prop}
    {E : ε → Session K V Q A → Held V → Prop} {n : ℕ} (hids : p.TakesIds ids n) (h : Alone d s H)
    (hw : wp (Rely.soloIds d ids) env p P E s H) :
    ∃ H', Alone d (solo env d p n s).2 H' ∧
      Ends P E (solo env d p n s).1 (solo env d p n s).2 H' := by
  induction p generalizing n s H with
  | pure a => exact ⟨H, h, hw⟩
  | raise e => exact ⟨H, h, hw⟩
  | read q c ih => exact ih _ (hids _) (h.load _) (hw d rfl)
  | lock k c ih => exact ih _ (hids _) (h.lock hw.1) (hw.2 d h.now (h.fresh k))
  | lockWhere q m c ih =>
    refine ih _ (hids _) (h.lockWhere ?_ ?_) ((hw d h.now).2 _ rfl fun k _ => h.fresh k)
    · exact fun k hk => (hw d h.now).1 k (Session.of_mem_pick hk).1
    · exact fun k hk => (Session.of_mem_pick hk).2.1
  | get k c ih => exact ih _ (hids _) h hw
  | modify k f c ih => exact ih hids (h.modify k f) hw
  | insert k v c ih => exact ih hids (h.insert v hw.1) hw.2
  | alloc c ih => exact ih _ hids.2 h (hw _ hids.1)
  | flush c ih =>
    obtain ⟨H', h', hP⟩ := flushAll_of_wpFlush h rfl hw
    exact ih _ (hids _) h' hP
  | ask q c ih => exact ih _ (hids _) (h.log q _) hw

/-- What a transaction leaves behind: on a commit, the values of its objects for the rows it
has changed or locked; on an exception, the database as it was. -/
theorem transact_of_wp_ids {p : Prog D K V Q A ε α} {err : ε}
    {P : α → Session K V Q A → Held V → Prop} {E : ε → List (Σ q, A q) → Prop}
    (hids : p.TakesIds ids (fresh d))
    (hw : wp (Rely.soloIds d ids) env p P (fun e s _ => E e s.trace) Session.init fun _ => none)
    (hclash : ∀ a s H, P a s H → Clash (Rely.soloIds d ids) s H → E err s.trace) :
    (∃ a s H wrote, P a s H ∧ (transact env d (p.commit err)).result = .ok a ∧
      (transact env d (p.commit err)).trace = s.trace ∧
      Settled (fun _ => True) s H d (transact env d (p.commit err)).db wrote) ∨
    ∃ e, E e (transact env d (p.commit err)).trace ∧
      (transact env d (p.commit err)).result = .error e ∧
      (transact env d (p.commit err)).db = d := by
  have hc : wp (Rely.soloIds d ids) env (p.commit err)
      (fun a s' H' => ∃ s H, P a s H ∧ Flushed (Rely.soloIds d ids) s H s' H')
      (fun e s _ => E e s.trace) Session.init fun _ => none := by
    refine wp_commit (wp_mono (fun a s H hP => ⟨?_, ?_⟩) (fun _ _ _ h => h) hw)
    · exact fun s' H' hfl => ⟨s, H, hP, hfl⟩
    · intro s' H' htr hcl
      rw [htr]
      exact hclash a s H hP hcl
  have hcids : (p.commit err).TakesIds ids (fresh d) :=
    hids.bind fun a m ok => by cases ok <;> trivial
  obtain ⟨H', h', hends⟩ := solo_of_wp hcids (Alone.init d) hc
  unfold transact
  generalize solo env d (p.commit err) (fresh d) Session.init = out at h' hends
  obtain ⟨e | a, s'⟩ := out
  · exact Or.inr ⟨e, hends, rfl, rfl⟩
  · obtain ⟨s, H, hP, hfl⟩ := hends
    exact Or.inl ⟨a, s, H, _, hP, rfl, hfl.trace, hfl.settled h'.now⟩

theorem transact_of_wp {p : Prog D K V Q A ε α} {err : ε}
    {P : α → Session K V Q A → Held V → Prop} {E : ε → List (Σ q, A q) → Prop}
    (hw : wp (Rely.solo d) env p P (fun e s _ => E e s.trace) Session.init fun _ => none)
    (hclash : ∀ a s H, P a s H → Clash (Rely.solo d) s H → E err s.trace) :
    (∃ a s H wrote, P a s H ∧ (transact env d (p.commit err)).result = .ok a ∧
      (transact env d (p.commit err)).trace = s.trace ∧
      Settled (fun _ => True) s H d (transact env d (p.commit err)).db wrote) ∨
    ∃ e, E e (transact env d (p.commit err)).trace ∧
      (transact env d (p.commit err)).result = .error e ∧
      (transact env d (p.commit err)).db = d :=
  transact_of_wp_ids (p.takesIds_of_le fun _ hm => hm) hw hclash

@[simp] lemma flushAll_trace (ks : List K) (s : Session K V Q A) (d : D) :
    (flushAll ks s d).2.trace = s.trace := by
  induction ks generalizing s with
  | nil => rfl
  | cons k ks ih =>
    rw [flushAll]
    rcases hs : s.flush1 k d with _ | s'
    · rfl
    · exact (ih s').trans (flush1_step hs).2.1

end Soundness

end RowTxn
