/-
# Weakest preconditions for transactions

`wp` says what a program does from a session `s` that has locked the rows `H`, whatever the
other transactions do meanwhile.  A plain read may see any database of `R.seen`; a granted
lock shows a database that agrees with the rows locked before; and for the rows in `R.guard`
the run is known to grant a lock only while the row is as the session loaded it.

The rules below are one for each statement, for sequencing and for exception handlers.
-/
import InventoryReservation.RowTxn.Session

namespace RowTxn

variable {D K : Type} {V : K → Type} {Q : Type} {A : Q → Type} {ε α β : Type}

/-- What a transaction may rely on. -/
structure Rely (D K : Type) where
  /-- The database states that may be committed while the transaction runs. -/
  seen : D → Prop
  /-- The rows that may be free when a `SKIP LOCKED` read looks. -/
  free : (K → Bool) → Prop
  /-- The ids that `AUTO_INCREMENT` may give out. -/
  ids : ℕ → Prop
  /-- The rows whose lock is granted only while they are as the session loaded them. -/
  guard : K → Prop

variable [DecidableEq K] [RowStore D K V]

open RowStore

namespace Rely

omit [DecidableEq K] in
/-- A database that may be the committed one now. -/
def Now (R : Rely D K) (s : Session K V Q A) (H : Held V) (d : D) : Prop :=
  R.seen d ∧ (∀ k r, H k = some r → row d k = r) ∧ s.Ok D R.guard H

omit [DecidableEq K] in
/-- If the row is guarded, it is as the session loaded it, or locked already. -/
def Fresh (R : Rely D K) (s : Session K V Q A) (H : Held V) (k : K) (d : D) : Prop :=
  R.guard k → H k = none → ∀ o b, s.objs k = some o → o.base = some b → row d k = some b

end Rely

/-- The weakest precondition of flushing the objects `ks`, one statement after the other. -/
def wpFlush (R : Rely D K) : List K → (Bool → Session K V Q A → Held V → Prop) →
    Session K V Q A → Held V → Prop
  | [], P, s, H => P true s H
  | k :: ks, P, s, H => ∀ d, R.Now s H d → R.Fresh s H k d →
      match s.flush1 k d with
      | some s' => wpFlush R ks P s' (H.hold k (row d k))
      | none => P false s H

/-- The weakest precondition of a program, for a postcondition `P` on its result and one `E`
on its exceptions.  It asks of the program that it locks no row with pending changes and
inserts under no key that it has locked. -/
def wp (R : Rely D K) (env : (q : Q) → A q) : Prog D K V Q A ε α →
    (α → Session K V Q A → Held V → Prop) → (ε → Session K V Q A → Held V → Prop) →
    Session K V Q A → Held V → Prop
  | .pure a, P, _, s, H => P a s H
  | .raise e, _, E, s, H => E e s H
  | .read q c, P, E, s, H => ∀ d, R.seen d →
      wp R env (c (s.own d)) P E (s.load (q (s.own d)) (s.own d)) H
  | .lock k c, P, E, s, H => (H k = none → k ∉ s.dirty) ∧
      ∀ d, R.Now s H d → R.Fresh s H k d → wp R env (c (s.select1 k d).2) P E (s.select1 k d).1
          (if (row (s.own d) k).isSome then H.hold k (row d k) else H)
  | .lockWhere q n c, P, E, s, H => ∀ d, R.Now s H d →
      (∀ k ∈ q (s.own d), H k = none → k ∉ s.dirty) ∧
      ∀ free, R.free free → (∀ k ∈ s.pick q n d free, R.Fresh s H k d) →
        wp R env (c (s.pick q n d free)) P E (s.load (s.pick q n d free) (s.own d))
          (H.holdAll (s.pick q n d free) d)
  | .get k c, P, E, s, H => wp R env (c (s.val k)) P E s H
  | .modify k f c, P, E, s, H => wp R env c P E (s.modify k f) H
  | .insert k v c, P, E, s, H => H k = none ∧ wp R env c P E (s.insert k v) H
  | .alloc c, P, E, s, H => ∀ n, R.ids n → wp R env (c n) P E s H
  | .flush c, P, E, s, H => wpFlush R s.dirty (fun ok => wp R env (c ok) P E) s H
  | .ask q c, P, E, s, H => wp R env (c (env q)) P E (s.log q (env q)) H

variable {R : Rely D K} {env : (q : Q) → A q} {s : Session K V Q A} {H : Held V}

lemma wpFlush_mono {ks : List K} {P P' : Bool → Session K V Q A → Held V → Prop}
    (hP : ∀ ok s H, P ok s H → P' ok s H) (h : wpFlush R ks P s H) : wpFlush R ks P' s H := by
  induction ks generalizing s H with
  | nil => exact hP _ _ _ h
  | cons k ks ih =>
    intro d hd hf
    have hk := h d hd hf
    rcases hs : s.flush1 k d with _ | s'
    · rw [hs] at hk
      exact hP _ _ _ hk
    · rw [hs] at hk
      exact ih hk

/-- The rule of consequence. -/
theorem wp_mono {p : Prog D K V Q A ε α} {P P' : α → Session K V Q A → Held V → Prop}
    {E E' : ε → Session K V Q A → Held V → Prop} (hP : ∀ a s H, P a s H → P' a s H)
    (hE : ∀ e s H, E e s H → E' e s H) (h : wp R env p P E s H) : wp R env p P' E' s H := by
  induction p generalizing s H with
  | pure a => exact hP _ _ _ h
  | raise e => exact hE _ _ _ h
  | read q c ih => exact fun d hd => ih _ (h d hd)
  | lock k c ih => exact ⟨h.1, fun d hd hf => ih _ (h.2 d hd hf)⟩
  | lockWhere q n c ih =>
    exact fun d hd => ⟨(h d hd).1, fun free hfree hf => ih _ ((h d hd).2 free hfree hf)⟩
  | get k c ih => exact ih _ h
  | modify k f c ih => exact ih h
  | insert k v c ih => exact ⟨h.1, ih h.2⟩
  | alloc c ih => exact fun n hn => ih n (h n hn)
  | flush c ih => exact wpFlush_mono (fun ok s H hok => ih ok hok) h
  | ask q c ih => exact ih _ h

/-- The rule of sequencing. -/
theorem wp_bind {p : Prog D K V Q A ε α} {f : α → Prog D K V Q A ε β}
    {P : β → Session K V Q A → Held V → Prop} {E : ε → Session K V Q A → Held V → Prop} :
    wp R env (p.bind f) P E s H ↔ wp R env p (fun a => wp R env (f a) P E) E s H := by
  induction p generalizing s H with
  | pure a => rfl
  | raise e => rfl
  | read q c ih => exact forall₂_congr fun d _ => ih _
  | lock k c ih => exact and_congr_right fun _ => forall₃_congr fun d _ _ => ih _
  | lockWhere q n c ih =>
    exact forall₂_congr fun d _ => and_congr_right fun _ => forall₃_congr fun free _ _ => ih _
  | get k c ih => exact ih _
  | modify k g c ih => exact ih
  | insert k v c ih => exact and_congr_right fun _ => ih
  | alloc c ih => exact forall₂_congr fun n _ => ih n
  | flush c ih =>
    exact ⟨wpFlush_mono fun ok s H => (ih ok).mp, wpFlush_mono fun ok s H => (ih ok).mpr⟩
  | ask q c ih => exact ih _

/-- The rule for exception handlers. -/
theorem wp_tryCatch {p : Prog D K V Q A ε α} {h : ε → Prog D K V Q A ε α}
    {P : α → Session K V Q A → Held V → Prop} {E : ε → Session K V Q A → Held V → Prop} :
    wp R env (p.tryCatch h) P E s H ↔ wp R env p P (fun e => wp R env (h e) P E) s H := by
  induction p generalizing s H with
  | pure a => rfl
  | raise e => rfl
  | read q c ih => exact forall₂_congr fun d _ => ih _
  | lock k c ih => exact and_congr_right fun _ => forall₃_congr fun d _ _ => ih _
  | lockWhere q n c ih =>
    exact forall₂_congr fun d _ => and_congr_right fun _ => forall₃_congr fun free _ _ => ih _
  | get k c ih => exact ih _
  | modify k g c ih => exact ih
  | insert k v c ih => exact and_congr_right fun _ => ih
  | alloc c ih => exact forall₂_congr fun n _ => ih n
  | flush c ih =>
    exact ⟨wpFlush_mono fun ok s H => (ih ok).mp, wpFlush_mono fun ok s H => (ih ok).mpr⟩
  | ask q c ih => exact ih _

lemma wp_ofExcept {x : Except ε α} {P : α → Session K V Q A → Held V → Prop}
    {E : ε → Session K V Q A → Held V → Prop} :
    wp R env (.ofExcept x : Prog D K V Q A ε α) P E s H ↔
      match x with
      | .ok a => P a s H
      | .error e => E e s H := by
  cases x <;> rfl

/-! ### Locking reads -/

/-- The rule for a locking read of a row without pending changes: either there is no row, or
the lock was held before, or it is granted now; in the last case the session's object is the
committed row. -/
theorem wp_lock {k : K} {c : Option (V k) → Prog D K V Q A ε α}
    {P : α → Session K V Q A → Held V → Prop} {E : ε → Session K V Q A → Held V → Prop}
    (hg : R.guard k) (hdirty : H k = none → k ∉ s.dirty)
    (hnone : ∀ d, R.seen d → row d k = none → H k = none → wp R env (c none) P E s H)
    (hheld : ∀ d r, R.seen d → row d k = r → H k = some r → wp R env (c (s.val k)) P E s H)
    (hnew : ∀ d v, R.seen d → (∀ k r, H k = some r → row d k = r) → row d k = some v →
      H k = none → (s.val k).getD v = v →
      wp R env (c (some v)) P E (s.load1 k (some v)) (H.hold k (some v))) :
    wp R env (.lock k c) P E s H := by
  refine ⟨hdirty, fun d hd hf => ?_⟩
  obtain ⟨hseen, hH, hok⟩ := hd
  rcases hk : H k with _ | r
  · rw [show row (s.own d) k = row d k from Session.row_own_of_not_written d (hok.not_written hk)]
    rcases hr : row d k with _ | v
    · have hr' : row (s.own d) k = none := by
        rw [Session.row_own_of_not_written d (hok.not_written hk), hr]
      simpa [Session.select1_of_none hr'] using hnone d hseen hr hk
    · have hr' : row (s.own d) k = some v := by
        rw [Session.row_own_of_not_written d (hok.not_written hk), hr]
      have hv : (s.val k).getD v = v := by
        rcases ho : s.objs k with _ | o
        · simp [Session.val, ho]
        · have hb := hok.clean k o ho (hdirty hk)
          have := hf hg hk o o.cur ho hb
          rw [hr] at this
          simp [Session.val, ho, Option.some.inj this]
      rw [Session.select1_of_some hr', hv]
      exact hnew d v hseen hH hr hk hv
  · have hne : H k ≠ none := by simp [hk]
    obtain ⟨o, ho⟩ := Option.ne_none_iff_exists'.mp (hok.loaded k hne)
    obtain ⟨b, hb⟩ := Option.ne_none_iff_exists'.mp (hok.stored k hne o ho)
    have hr : row (s.own d) k = some b := hok.sync k hg hne d (by rw [hk, hH k r hk]) o b ho hb
    have hHk : H.hold k (row d k) = H := by
      rw [hH k r hk, Held.hold, ← hk, Function.update_eq_self]
    rw [Session.select1_of_some hr, Session.load1_of_some _ ho]
    simpa [hHk, Session.val_of_objs ho, hr] using hheld d r hseen (hH k r hk) hk

/-! ### Flushes -/

/-- A flush of all pending changes: the objects keep their values; the lock of a changed row
that was not held is granted on a row as the session loaded it, or on a free key. -/
structure Flushed (R : Rely D K) (s : Session K V Q A) (H : Held V) (s' : Session K V Q A)
    (H' : Held V) : Prop where
  dirty : s'.dirty = []
  val : ∀ k, s'.val k = s.val k
  trace : s'.trace = s.trace
  objs : ∀ k, k ∉ s.dirty → s'.objs k = s.objs k
  kept : ∀ k, k ∉ s.dirty ∨ H k ≠ none → H' k = H k
  granted : ∀ k ∈ s.dirty, H k = none → ∃ d, R.seen d ∧ H' k = some (row d k) ∧
    ∀ o, s.objs k = some o → R.guard k → o.base = row d k
  wrote : ∀ w ∈ s'.writes, w ∈ s.writes ∨ w.1 ∈ s.dirty

/-- One statement of a flush. -/
lemma flush1_step {s₁ : Session K V Q A} {k : K} {d : D} (h : s.flush1 k d = some s₁) :
    (∀ k', s₁.val k' = s.val k') ∧ s₁.trace = s.trace ∧ s₁.dirty = s.dirty.tail ∧
      (∀ k', k' ≠ k → s₁.objs k' = s.objs k') ∧
      (∀ w ∈ s₁.writes, w ∈ s.writes ∨ w.1 = k) ∧
      ∀ o, s.objs k = some o → o.base = none → row (s.own d) k = none := by
  obtain ⟨o, v, ho, rfl, hv⟩ := Session.flush1_inv h
  refine ⟨fun k' => ?_, rfl, rfl, fun k' hk' => ?_, fun w hw => ?_, fun o' ho' hb => ?_⟩
  · by_cases hkk : k' = k
    · subst hkk; simp [Session.val, ho]
    · simp [Session.val, Function.update_of_ne hkk]
  · simp [Function.update_of_ne hk']
  · rcases List.mem_append.mp hw with hw | hw
    · exact Or.inl hw
    · exact Or.inr (by rw [List.mem_singleton.mp hw])
  · rw [ho] at ho'
    cases ho'
    rcases hv with ⟨b, r, hb', -, -⟩ | ⟨-, hr, -⟩
    · rw [hb] at hb'
      cases hb'
    · exact hr

omit [DecidableEq K] in
/-- A flush fails on a new object whose key is in use. -/
def Clash (R : Rely D K) (s : Session K V Q A) (H : Held V) : Prop :=
  ∃ k ∈ s.dirty, R.guard k → H k = none ∧
    ∃ o d, s.objs k = some o ∧ o.base = none ∧ R.seen d ∧ row d k ≠ none

lemma clash_of_flush1 {k : K} {d : D} (hk : k ∈ s.dirty) (hd : R.Now s H d)
    (hf : R.Fresh s H k d) (h : s.flush1 k d = none) : Clash R s H := by
  obtain ⟨hseen, hH, hok⟩ := hd
  refine ⟨k, hk, fun hg => ?_⟩
  obtain ⟨o, ho⟩ := Option.ne_none_iff_exists'.mp (hok.pending k hk)
  rcases hb : o.base with _ | b
  · have hn : H k = none := by
      by_contra hn
      exact hok.stored k hn o ho hb
    refine ⟨hn, o, d, ho, hb, hseen, fun hr => ?_⟩
    rw [← Session.row_own_of_not_written d (hok.not_written hn)] at hr
    simp [Session.flush1, ho, hb, hr] at h
  · exfalso
    have hr : row (s.own d) k = some b := by
      rcases hn : H k with _ | r
      · rw [Session.row_own_of_not_written d (hok.not_written hn)]
        exact hf hg hn o b ho hb
      · exact hok.sync k hg (by simp [hn]) d (by rw [hn, hH k r hn]) o b ho hb
    simp [Session.flush1, ho, hb, hr] at h

/-- The rule for a flush. -/
theorem wpFlush_intro {P : Bool → Session K V Q A → Held V → Prop}
    (hok : ∀ s' H', Flushed R s H s' H' → P true s' H')
    (hfail : ∀ s' H', s'.trace = s.trace → Clash R s H → P false s' H') :
    wpFlush R s.dirty P s H := by
  induction hks : s.dirty generalizing s H with
  | nil =>
    refine hok s H ⟨hks, fun _ => rfl, rfl, fun _ _ => rfl, fun _ _ => rfl, ?_,
      fun w hw => Or.inl hw⟩
    intro k hk
    simp [hks] at hk
  | cons k ks ih =>
    intro d hd hf
    rcases hs : s.flush1 k d with _ | s₁
    · exact hfail s H rfl (clash_of_flush1 (by simp [hks]) hd hf hs)
    obtain ⟨hval, htr, hdirty, hobjs, hwrote, hnew⟩ := flush1_step hs
    obtain ⟨hseen, hH, hOk⟩ := hd
    rw [hks, List.tail_cons] at hdirty
    have hkks : k ∉ ks := by
      have := hOk.nodup
      rw [hks] at this
      exact (List.nodup_cons.mp this).1
    have hHk : ∀ k', k' ≠ k → H.hold k (row d k) k' = H k' := fun k' hne => by
      simp [Held.hold, Function.update_of_ne hne]
    show wpFlush R ks P s₁ (H.hold k (row d k))
    refine ih ?_ (fun s' H' h' hc => hfail s' H' (h'.trans htr) ?_) hdirty
    rotate_left
    · obtain ⟨k', hk', hc⟩ := hc
      rw [hdirty] at hk'
      have hne : k' ≠ k := by
        rintro rfl
        exact hkks hk'
      refine ⟨k', by simp [hks, hk'], fun hg => ?_⟩
      rw [← hobjs k' hne, ← hHk k' hne]
      exact hc hg
    intro s' H' hfl
    -- the lock taken first is kept by the rest of the flush
    have hHk' : H' k = some (row d k) := by
      rw [hfl.kept k (Or.inl (by rw [hdirty]; exact hkks))]
      simp [Held.hold]
    refine hok s' H' ⟨hfl.dirty, fun k' => (hfl.val k').trans (hval k'), hfl.trace.trans htr,
      fun k' hk' => ?_, fun k' hk' => ?_, fun k' hk' hn => ?_, fun w hw => ?_⟩
    · rw [hks, List.mem_cons, not_or] at hk'
      rw [hfl.objs k' (by rw [hdirty]; exact hk'.2), hobjs k' hk'.1]
    · by_cases hkk : k' = k
      · subst hkk
        rcases hn : H k' with _ | r
        · rw [hks] at hk'
          simp [hn] at hk'
        · rw [hHk', hH k' r hn]
      · rw [hfl.kept k' ?_, hHk k' hkk]
        rw [hdirty, hHk k' hkk]
        rw [hks] at hk'
        exact hk'.imp_left fun h hm => h (List.mem_cons_of_mem _ hm)
    · by_cases hkk : k' = k
      · subst hkk
        refine ⟨d, hseen, hHk', fun o ho hg => ?_⟩
        rcases hb : o.base with _ | b
        · have := hnew o ho hb
          rw [Session.row_own_of_not_written d (hOk.not_written hn)] at this
          exact this.symm
        · exact (hf hg hn o b ho hb).symm
      · rw [hks] at hk'
        obtain ⟨d', hd', hH', ho'⟩ := hfl.granted k'
          (by rw [hdirty]; exact (List.mem_cons.mp hk').resolve_left hkk) (by rw [hHk k' hkk, hn])
        exact ⟨d', hd', hH', fun o ho => ho' o (by rw [hobjs k' hkk]; exact ho)⟩
    · rcases hfl.wrote w hw with hw | hw
      · exact (hwrote w hw).imp_right fun h => by rw [h, hks]; simp
      · exact Or.inr (by rw [hks]; rw [hdirty] at hw; exact List.mem_cons_of_mem _ hw)

/-! ### Transactions -/

/-- What the transaction of a session commits: `s` and `H` are the session and its locks
before the last flush, `d` and `d'` the database before and after the commit. -/
structure Settled (guard : K → Prop) (s : Session K V Q A) (H : Held V) (d d' : D)
    (ws : List K) : Prop where
  held : ∀ k r, H k = some r → row d k = r
  stored : ∀ k ∈ s.dirty, H k = none → guard k → ∀ o, s.objs k = some o → o.base = row d k
  kept : ∀ k, k ∉ s.dirty → H k = none → row d' k = row d k
  changed : ∀ k, guard k → k ∈ s.dirty ∨ H k ≠ none → row d' k = s.val k
  wrote : ∀ k ∈ ws, k ∈ s.dirty ∨ H k ≠ none
  same : ws = [] → d' = d

omit [DecidableEq K] in
theorem Flushed.settled {s' : Session K V Q A} {H' : Held V} {d : D}
    (h : Flushed R s H s' H') (hd : R.Now s' H' d) :
    Settled R.guard s H d (s'.own d) (s'.writes.map Sigma.fst) := by
  obtain ⟨-, hH, hok⟩ := hd
  have hheld : ∀ k, k ∈ s.dirty ∨ H k ≠ none → H' k ≠ none := by
    intro k hk
    by_cases hn : H k = none
    · obtain ⟨d₀, -, hg, -⟩ := h.granted k (hk.resolve_right (not_not.mpr hn)) hn
      simp [hg]
    · rwa [h.kept k (Or.inr hn)]
  have hheld' : ∀ k, H' k ≠ none → k ∈ s.dirty ∨ H k ≠ none := by
    intro k hk
    by_contra hc
    rw [not_or, not_not] at hc
    exact hk (by rw [h.kept k (Or.inl hc.1), hc.2])
  constructor
  · intro k r hr
    exact hH k r (by rw [h.kept k (Or.inr (by simp [hr])), hr])
  · intro k hk hn hg o ho
    obtain ⟨d₀, -, hg', ho'⟩ := h.granted k hk hn
    rw [hH k _ hg']
    exact ho' o ho hg
  · intro k hk hn
    exact (hok.row_own h.dirty hH k).1 (by rw [h.kept k (Or.inl hk), hn])
  · intro k hg hk
    rw [(hok.row_own h.dirty hH k).2 hg (hheld k hk), h.val]
  · intro k hk
    obtain ⟨w, hw, rfl⟩ := List.mem_map.mp hk
    exact hheld' w.1 (hok.written w hw)
  · intro hw
    exact Session.own_of_nil (List.map_eq_nil_iff.mp hw) d

/-- The rule for a whole transaction: it commits after the flush of its last changes, or fails
in this flush. -/
theorem wp_commit {p : Prog D K V Q A ε α} {err : ε}
    {P : α → Session K V Q A → Held V → Prop} {E : ε → Session K V Q A → Held V → Prop}
    (h : wp R env p (fun a s H => (∀ s' H', Flushed R s H s' H' → P a s' H') ∧
      ∀ s' H', s'.trace = s.trace → Clash R s H → E err s' H') E s H) :
    wp R env (p.commit err) P E s H := by
  rw [Prog.commit, wp_bind]
  refine wp_mono (fun a s H hP => ?_) (fun _ _ _ h => h) h
  exact wpFlush_intro (fun s' H' hfl => hP.1 s' H' hfl) (fun s' H' htr hc => hP.2 s' H' htr hc)

end RowTxn
