/-
# Sessions whose rows are out of date

A plain read may load a row long before its lock is granted, and others may change the row in
between.  If the program depends on such a value only up to `kin`, and if each changed column is
up to date when the row is locked, the session does what it would have done with the row as it
was locked.

`Lag` says which rows a transaction loads so, what its assignments do to their values, and which
values have to be up to date.  `Behind` compares a session with one that has the rows of a database
`e` instead; as long as a row is not locked, `e` may be any database that the transaction sees.
-/
import InventoryReservation.RowTxn.Soundness

namespace RowTxn

open RowStore

variable {D K : Type} {V : K → Type} {Q : Type} {A : Q → Type} {ε α β : Type}

/-! ### Objects after a load -/

namespace Session

variable [DecidableEq K]

lemma objs_load1_of_ne (s : Session K V Q A) {k k' : K} (r : Option (V k)) (h : k' ≠ k) :
    (s.load1 k r).objs k' = s.objs k' := by
  unfold load1
  split
  · exact Function.update_of_ne h _ _
  · rfl

lemma objs_load_eq [RowStore D K V] (s : Session K V Q A) (ks : List K) (d : D) (k : K) :
    (s.load ks d).objs k =
      (s.objs k).or (if k ∈ ks then (row d k).map fun v => ⟨some v, v⟩ else none) := by
  rcases ho : s.objs k with _ | o
  rotate_left
  · rw [objs_load ks d ho, Option.some_or]
  rw [Option.none_or]
  unfold load
  induction ks generalizing s with
  | nil => exact ho
  | cons k' ks ih =>
    rw [List.foldl_cons]
    by_cases hk : k = k'
    · subst hk
      rw [if_pos List.mem_cons_self]
      rcases hr : row d k with _ | v
      · rw [load1_none, ih s ho, hr]
        simp
      · exact objs_load ks d (by simp [load1_of_none v ho])
    · rw [ih _ ((objs_load1_of_ne s _ hk).trans ho)]
      simp [hk]

end Session

/-- The session after it has sent the changes of an object, which is now `c`, as the version `v`. -/
def Session.stored [DecidableEq K] (s : Session K V Q A) (k : K) (c v : V k) : Session K V Q A :=
  { s with
    objs := Function.update s.objs k (some ⟨some c, c⟩)
    dirty := s.dirty.tail
    writes := s.writes ++ [⟨k, v⟩] }

/-! ### What may be out of date -/

/-- Related rows both exist, or neither does. -/
lemma rel_cases {R : α → β → Prop} {r : Option α} {r' : Option β} (h : Option.Rel R r r') :
    (r = none ∧ r' = none) ∨ ∃ v w, r = some v ∧ r' = some w ∧ R v w := by
  cases h with
  | some h => exact Or.inr ⟨_, _, rfl, rfl, h⟩
  | none => exact Or.inl ⟨rfl, rfl⟩

/-- Values of a row that a program does not tell apart, and stored values that may stand for each
other. -/
structure Likeness (K : Type) (V : K → Type) where
  kin : (k : K) → V k → V k → Prop
  alike : (k : K) → V k → V k → Prop
  alike_refl : ∀ k v, alike k v v
  kin_of_alike : ∀ k v w, alike k v w → kin k v w

namespace Likeness

variable (N : Likeness K V)

/-- Two written versions of one row. -/
inductive SameWrite : (Σ k, V k) → (Σ k, V k) → Prop
  | mk {k : K} {v w : V k} (h : N.alike k v w) : SameWrite ⟨k, v⟩ ⟨k, w⟩

variable [RowStore D K V]

/-- Databases that a program does not tell apart. -/
def Akin (d d' : D) : Prop := ∀ k, Option.Rel (N.kin k) (row d k) (row d' k)

/-- Databases that may stand for each other. -/
def Near (d d' : D) : Prop := ∀ k, Option.Rel (N.alike k) (row d k) (row d' k)

variable {N}

lemma rel_alike_refl (k : K) : ∀ r : Option (V k), Option.Rel (N.alike k) r r
  | none => .none
  | some v => .some (N.alike_refl k v)

lemma rel_kin {k : K} {r r' : Option (V k)} (h : Option.Rel (N.alike k) r r') :
    Option.Rel (N.kin k) r r' := by
  cases h with
  | some h => exact .some (N.kin_of_alike k _ _ h)
  | none => exact .none

lemma near_refl (d : D) : N.Near d d := fun k => rel_alike_refl k (row d k)

lemma Near.akin {d d' : D} (h : N.Near d d') : N.Akin d d' := fun k => rel_kin (h k)

/-- Own writes that stand for each other, over rows that do. -/
lemma rel_own {s u : Session K V Q A} (hw : List.Forall₂ N.SameWrite s.writes u.writes) {k : K}
    {R : V k → V k → Prop} (hR : ∀ v w, N.alike k v w → R v w) {d d' : D}
    (hd : Option.Rel R (row d k) (row d' k)) :
    Option.Rel R (row (s.own d) k) (row (u.own d') k) := by
  unfold Session.own
  generalize s.writes = ws, u.writes = ws' at hw
  induction hw generalizing d d' with
  | nil => exact hd
  | @cons w w' ws ws' h _ ih =>
    obtain ⟨h⟩ := h
    rename_i k' v v'
    refine ih ?_
    by_cases hk : k = k'
    · subst hk
      rw [row_write_self, row_write_self]
      exact .some (hR _ _ h)
    · rwa [row_write_of_ne _ _ _ _ hk, row_write_of_ne _ _ _ _ hk]

lemma Near.own {s u : Session K V Q A} {d d' : D} (h : N.Near d d')
    (hw : List.Forall₂ N.SameWrite s.writes u.writes) : N.Near (s.own d) (u.own d') :=
  fun k => rel_own hw (fun _ _ h => h) (h k)

omit [RowStore D K V] in
lemma keys_of_sameWrite {ws ws' : List (Σ k, V k)} (h : List.Forall₂ N.SameWrite ws ws') :
    ws'.map Sigma.fst = ws.map Sigma.fst := by
  induction h with
  | nil => rfl
  | cons h _ ih =>
    obtain ⟨h⟩ := h
    rw [List.map_cons, List.map_cons, ih]

end Likeness

variable [RowStore D K V] {N : Likeness K V}

variable (D N) in
/-- How a transaction uses the rows that it may load out of date. -/
structure Lag where
  /-- The databases that may be committed while the transaction runs. -/
  seen : D → Prop
  /-- The rows that its plain reads load. -/
  loose : K → Prop
  /-- The assignments that lead from `b` to `c` lead from `x` to `y`. -/
  moves : (k : K) → (b c x y : V k) → Prop
  /-- An object that was loaded with `b` and has the value `c` may be sent over the row `r`. -/
  fits : (k : K) → (b c r : V k) → Prop
  eq_of_kin : ∀ k, ¬loose k → ∀ v w, N.kin k v w → v = w
  kin_of_seen : ∀ d e, seen d → seen e → ∀ k, loose k → Option.Rel (N.kin k) (row d k) (row e k)
  seen_of_kin : ∀ d e, seen e → (∀ k, loose k → Option.Rel (N.kin k) (row d k) (row e k)) → seen d
  /-- The loose rows of one database and the other rows of another. -/
  mix : ∀ d e, seen d → seen e →
    ∃ m : D, (∀ k, loose k → row m k = row e k) ∧ ∀ k, ¬loose k → row m k = row d k
  moves_load : ∀ k, loose k → ∀ b x, N.kin k b x → moves k b b x x
  kin_of_moves : ∀ k, loose k → ∀ b c x y, moves k b c x y → N.kin k c y
  fits_self : ∀ k, loose k → ∀ r, fits k r r r
  fits_of_base : ∀ k, loose k → ∀ b c r, fits k b b r → fits k b c r
  fits_merge : ∀ k, loose k → ∀ b c r, fits k b c r → fits k c c (merge D k b c r)
  alike_merge : ∀ k, loose k → ∀ b c r x y, fits k b c r → N.alike k r x → moves k b c x y →
    N.alike k (merge D k b c r) y

/-- The program does not depend on what may be out of date. -/
def Prog.Blind (L : Lag D N) : Prog D K V Q A ε α → Prop
  | .pure _ => True
  | .raise _ => True
  | .read q c => (∀ d d', N.Akin d d' → q d = q d' ∧ c d = c d') ∧
      ∀ d, (∀ k ∈ q d, L.loose k) ∧ (c d).Blind L
  | .lock k c => L.loose k ∧ (∀ v w, Option.Rel (N.kin k) v w → c v = c w) ∧ ∀ v, (c v).Blind L
  | .lockWhere q _ c => (∀ d d', N.Akin d d' → q d = q d') ∧ (∀ d, ∀ k ∈ q d, ¬L.loose k) ∧
      ∀ l, (c l).Blind L
  | .get k c => (∀ v w, Option.Rel (N.kin k) v w → c v = c w) ∧ ∀ v, (c v).Blind L
  | .modify k f c => (L.loose k → ∀ b c x y, L.moves k b c x y → L.moves k b (f c) x (f y)) ∧
      c.Blind L
  | .insert k _ c => ¬L.loose k ∧ c.Blind L
  | .alloc c => ∀ n, (c n).Blind L
  | .flush c => ∀ ok, (c ok).Blind L
  | .ask _ c => ∀ a, (c a).Blind L

namespace Prog.Blind

variable {L : Lag D N}

lemma bind {p : Prog D K V Q A ε α} {f : α → Prog D K V Q A ε β} (hp : p.Blind L)
    (hf : ∀ a, (f a).Blind L) : (p.bind f).Blind L := by
  induction p with
  | pure a => exact hf a
  | raise e => trivial
  | read q c ih =>
    refine ⟨fun d d' hd => ⟨(hp.1 d d' hd).1, ?_⟩, fun d => ⟨(hp.2 d).1, ih d (hp.2 d).2⟩⟩
    exact congrArg (·.bind f) (hp.1 d d' hd).2
  | lock k c ih =>
    exact ⟨hp.1, fun v w hv => congrArg (·.bind f) (hp.2.1 v w hv), fun v => ih v (hp.2.2 v)⟩
  | lockWhere q n c ih => exact ⟨hp.1, hp.2.1, fun l => ih l (hp.2.2 l)⟩
  | get k c ih =>
    exact ⟨fun v w hv => congrArg (·.bind f) (hp.1 v w hv), fun v => ih v (hp.2 v)⟩
  | modify k g c ih => exact ⟨hp.1, ih hp.2⟩
  | insert k v c ih => exact ⟨hp.1, ih hp.2⟩
  | _ => rename_i ih; exact fun a => ih a (hp a)

lemma tryCatch {p : Prog D K V Q A ε α} {h : ε → Prog D K V Q A ε α} (hp : p.Blind L)
    (hh : ∀ e, (h e).Blind L) : (p.tryCatch h).Blind L := by
  induction p with
  | pure a => trivial
  | raise e => exact hh e
  | read q c ih =>
    refine ⟨fun d d' hd => ⟨(hp.1 d d' hd).1, ?_⟩, fun d => ⟨(hp.2 d).1, ih d (hp.2 d).2⟩⟩
    exact congrArg (·.tryCatch h) (hp.1 d d' hd).2
  | lock k c ih =>
    exact ⟨hp.1, fun v w hv => congrArg (·.tryCatch h) (hp.2.1 v w hv), fun v => ih v (hp.2.2 v)⟩
  | lockWhere q n c ih => exact ⟨hp.1, hp.2.1, fun l => ih l (hp.2.2 l)⟩
  | get k c ih =>
    exact ⟨fun v w hv => congrArg (·.tryCatch h) (hp.1 v w hv), fun v => ih v (hp.2 v)⟩
  | modify k g c ih => exact ⟨hp.1, ih hp.2⟩
  | insert k v c ih => exact ⟨hp.1, ih hp.2⟩
  | _ => rename_i ih; exact fun a => ih a (hp a)

lemma ofExcept (x : Except ε α) : (Prog.ofExcept x : Prog D K V Q A ε α).Blind L := by
  cases x <;> trivial

lemma ofExcept_bind {x : Except ε α} {f : α → Prog D K V Q A ε β}
    (hf : ∀ a, x = .ok a → (f a).Blind L) : ((Prog.ofExcept x).bind f).Blind L := by
  cases x with
  | ok a => exact hf a rfl
  | error e => trivial

lemma commit (err : ε) {p : Prog D K V Q A ε α} (hp : p.Blind L) : (p.commit err).Blind L := by
  refine hp.bind fun a ok => ?_
  cases ok <;> trivial

end Prog.Blind

/-! ### Sessions that are behind -/

section Behind

/-- The object of a loose row in the session `s`, and the one that it stands for in `u`. -/
structure Lag.Stands (L : Lag D N) (d e : D) (H : Held V) (s u : Session K V Q A) (k : K)
    (b c x y : V k) : Prop where
  early : s.objs k = some ⟨some b, c⟩
  late : u.objs k = some ⟨some x, y⟩
  moves : L.moves k b c x y
  clean : k ∉ s.dirty → c = b
  unheld : H k = none → row e k = some x
  held : H k ≠ none → ∃ r, row (s.own d) k = some r ∧ N.alike k r x ∧ L.fits k b b r

/-- The session `s` is behind the session `u`, which has the loose rows of `e` for the objects whose
rows are not locked. -/
structure Lag.Behind (L : Lag D N) (d e : D) (H : Held V) (s u : Session K V Q A) : Prop where
  trace : u.trace = s.trace
  dirty : u.dirty = s.dirty
  writes : List.Forall₂ N.SameWrite s.writes u.writes
  tight : ∀ k, ¬L.loose k → u.objs k = s.objs k
  fresh : ∀ k, ¬L.loose k → H k = none → ∀ o, s.objs k = some o → o.base = none
  loose : ∀ k, L.loose k → (s.objs k = none ∧ u.objs k = none) ∨
    ∃ b c x y, L.Stands d e H s u k b c x y

variable {L : Lag D N} {d d' e e' : D} {H H' : Held V} {s s' u u' : Session K V Q A} {k : K}

namespace Lag.Behind


lemma init (L : Lag D N) (d e : D) (H : Held V) :
    L.Behind d e H (Session.init : Session K V Q A) Session.init where
  trace := rfl
  dirty := rfl
  writes := .nil
  tight _ _ := rfl
  fresh _ _ _ o ho := by cases ho
  loose _ _ := Or.inl ⟨rfl, rfl⟩

/-- What matters of the sessions, the locks and the databases for the object of one row. -/
lemma same (h : L.Behind d e H s u) (hk : L.loose k) (hs : s'.objs k = s.objs k)
    (hu : u'.objs k = u.objs k) (hdirty : k ∉ s'.dirty → k ∉ s.dirty) (hH : H' k = H k)
    (he : row e' k = row e k) (hd : H k ≠ none → row (s'.own d') k = row (s.own d) k) :
    (s'.objs k = none ∧ u'.objs k = none) ∨ ∃ b c x y, L.Stands d' e' H' s' u' k b c x y := by
  rcases h.loose k hk with ⟨hn, hn'⟩ | ⟨b, c, x, y, st⟩
  · exact Or.inl ⟨hs.trans hn, hu.trans hn'⟩
  · refine Or.inr ⟨b, c, x, y, hs.trans st.early, hu.trans st.late, st.moves,
      fun hn => st.clean (hdirty hn), fun hn => he.trans (st.unheld (hH ▸ hn)), fun hn => ?_⟩
    rw [hH] at hn
    rw [hd hn]
    exact st.held hn

/-- The database may change under the rows that are not locked. -/
lemma frame (h : L.Behind d e H s u) (hd : ∀ k, H k ≠ none → row d' k = row d k) :
    L.Behind d' e H s u where
  trace := h.trace
  dirty := h.dirty
  writes := h.writes
  tight := h.tight
  fresh := h.fresh
  loose _ hk := h.same hk rfl rfl id rfl rfl fun hH => s.row_own_congr (hd _ hH)

/-- The values of an object are told apart by neither session. -/
lemma val (h : L.Behind d e H s u) (k : K) : Option.Rel (N.kin k) (s.val k) (u.val k) := by
  by_cases hk : L.loose k
  · rcases h.loose k hk with ⟨hs, hu⟩ | ⟨b, c, x, y, st⟩
    · rw [Session.val, Session.val, hs, hu]
      exact .none
    · rw [Session.val_of_objs st.early, Session.val_of_objs st.late]
      exact .some (L.kin_of_moves k hk _ _ _ _ st.moves)
  · rw [Session.val, Session.val, h.tight k hk]
    exact Likeness.rel_kin (Likeness.rel_alike_refl k _)

lemma log (h : L.Behind d e H s u) (q : Q) (a : A q) : L.Behind d e H (s.log q a) (u.log q a) where
  trace := by rw [Session.log, Session.log, h.trace]
  dirty := h.dirty
  writes := h.writes
  tight := h.tight
  fresh := h.fresh
  loose _ hk := h.same hk rfl rfl id rfl rfl fun _ => rfl

variable [DecidableEq K]

lemma insert (h : L.Behind d e H s u) (hk : ¬L.loose k) (v : V k) :
    L.Behind d e H (s.insert k v) (u.insert k v) where
  trace := h.trace
  dirty := by rw [Session.insert, Session.insert, h.dirty]
  writes := h.writes
  tight k' hk' := by
    by_cases hkk : k' = k
    · subst hkk
      simp [Session.insert]
    · rw [Session.objs_insert_of_ne _ _ hkk, Session.objs_insert_of_ne _ _ hkk, h.tight k' hk']
  fresh k' hk' hH o ho := by
    by_cases hkk : k' = k
    · subst hkk
      obtain rfl : (⟨none, v⟩ : Obj (V k')) = o := by simpa [Session.insert] using ho
      rfl
    · rw [Session.objs_insert_of_ne _ _ hkk] at ho
      exact h.fresh k' hk' hH o ho
  loose k' hk' := by
    have hkk : k' ≠ k := by
      rintro rfl
      exact hk hk'
    exact h.same hk' (Session.objs_insert_of_ne _ _ hkk) (Session.objs_insert_of_ne _ _ hkk)
      (fun hd hm => hd (Session.mem_dirty_insert.mpr (Or.inl hm))) rfl rfl fun _ => rfl

lemma modify (h : L.Behind d e H s u) {f : V k → V k}
    (hf : L.loose k → ∀ b c x y, L.moves k b c x y → L.moves k b (f c) x (f y)) :
    L.Behind d e H (s.modify k f) (u.modify k f) := by
  -- either both sessions have an object of the row, or neither has
  have hobj : (s.objs k = none ∧ u.objs k = none) ∨
      ∃ o o', s.objs k = some o ∧ u.objs k = some o' := by
    by_cases hk : L.loose k
    · exact (h.loose k hk).imp_right fun ⟨b, c, x, y, st⟩ => ⟨_, _, st.early, st.late⟩
    · rw [h.tight k hk]
      rcases s.objs k with _ | o
      · exact Or.inl ⟨rfl, rfl⟩
      · exact Or.inr ⟨o, o, rfl, rfl⟩
  rcases hobj with ⟨hs, hu⟩ | ⟨o, o', hs, hu⟩
  · simpa only [Session.modify, hs, hu] using h
  have hdirty : ∀ k', k' ∉ (s.modify k f).dirty → k' ∉ s.dirty := fun k' hn hm =>
    hn (Session.mem_dirty_modify.mpr (Or.inl hm))
  have hkdirty : k ∈ (s.modify k f).dirty :=
    Session.mem_dirty_modify.mpr (Or.inr ⟨rfl, by simp [Session.val, hs]⟩)
  rw [Session.modify_of_some f hs] at hdirty hkdirty ⊢
  rw [Session.modify_of_some f hu]
  constructor
  · exact h.trace
  · simp only [h.dirty]
  · exact h.writes
  · intro k' hk'
    by_cases hkk : k' = k
    · subst hkk
      have := h.tight k' hk'
      rw [hs, hu] at this
      simp [Option.some.inj this]
    · simpa [Function.update_of_ne hkk] using h.tight k' hk'
  · intro k' hk' hH o₁ ho₁
    by_cases hkk : k' = k
    · subst hkk
      obtain rfl : { o with cur := f o.cur } = o₁ := by simpa using ho₁
      exact h.fresh k' hk' hH o hs
    · exact h.fresh k' hk' hH o₁ (by simpa [Function.update_of_ne hkk] using ho₁)
  · intro k' hk'
    by_cases hkk : k' = k
    · subst hkk
      rcases h.loose k' hk' with ⟨hn, -⟩ | ⟨b, c, x, y, st⟩
      · rw [hs] at hn
        cases hn
      · obtain rfl := Option.some.inj (hs.symm.trans st.early)
        obtain rfl := Option.some.inj (hu.symm.trans st.late)
        refine Or.inr ⟨b, f c, x, f y, by simp, by simp, hf hk' _ _ _ _ st.moves,
          fun hn => absurd hkdirty hn, st.unheld, st.held⟩
    · exact h.same hk' (Function.update_of_ne hkk _ _) (Function.update_of_ne hkk _ _) (hdirty k')
        rfl rfl fun _ => rfl

/-- Rows are loaded: loose ones as `e` has them now, others alike and under their locks. -/
lemma load (h : L.Behind d e H s u) {ks : List K} {d₁ d₂ : D}
    (hloose : ∀ k ∈ ks, L.loose k → s.objs k = none → H k = none ∧
      Option.Rel (N.kin k) (row d₁ k) (row d₂ k) ∧ row d₂ k = row e k)
    (htight : ∀ k ∈ ks, ¬L.loose k → row d₁ k = row d₂ k)
    (hH : ∀ k, L.loose k → H' k = H k) (hH' : ∀ k, ¬L.loose k → H' k = none → H k = none ∧ k ∉ ks) :
    L.Behind d e H' (s.load ks d₁) (u.load ks d₂) where
  trace := by rw [Session.load_trace, Session.load_trace, h.trace]
  dirty := by rw [Session.load_dirty, Session.load_dirty, h.dirty]
  writes := by
    rw [Session.load_writes, Session.load_writes]
    exact h.writes
  tight k hk := by
    rw [Session.objs_load_eq, Session.objs_load_eq, h.tight k hk]
    by_cases hks : k ∈ ks
    · rw [htight k hks hk]
    · simp [hks]
  fresh k hk hn o ho := by
    obtain ⟨hn, hks⟩ := hH' k hk hn
    refine h.fresh k hk hn o ?_
    simpa [Session.objs_load_eq, hks] using ho
  loose k hk := by
    have hown : ∀ d : D, row ((s.load ks d₁).own d) k = row (s.own d) k := fun d => by
      rw [Session.own_of_writes (s.load_writes ks d₁)]
    rcases h.loose k hk with ⟨hs, hu⟩ | ⟨b, c, x, y, st⟩
    · by_cases hks : k ∈ ks
      · obtain ⟨hn, hrel, he⟩ := hloose k hks hk hs
        rw [he] at hrel
        -- either both sessions find the row or neither does
        rcases rel_cases hrel with ⟨hv, hx⟩ | ⟨v, x, hv, hx, hvx⟩
        · left
          simp [Session.objs_load_eq, hs, hu, hks, hv, he, hx]
        · refine Or.inr ⟨v, v, x, x, ?_, ?_, L.moves_load k hk _ _ hvx,
            fun _ => rfl, fun _ => hx, fun hne => absurd ((hH k hk).trans hn) hne⟩
          · simp [Session.objs_load_eq, hs, hks, hv]
          · simp [Session.objs_load_eq, hu, hks, he, hx]
      · left
        simp [Session.objs_load_eq, hs, hu, hks]
    · refine h.same hk ?_ ?_ (by rw [Session.load_dirty]; exact id) (hH k hk) rfl fun _ => hown d
      · rw [Session.objs_load ks d₁ st.early, st.early]
      · rw [Session.objs_load ks d₂ st.late, st.late]

/-- A loose row is locked as it is stored; from then on the session `u` is one that has loaded it
so. -/
lemma lock {r r' : V k} (h : L.Behind d (write e k r') H s u) (hk : L.loose k) (hn : H k = none)
    (hdirty : k ∉ s.dirty) (hr : row (s.own d) k = some r) (ha : N.alike k r r')
    (hfit : ∀ b c, s.objs k = some ⟨some b, c⟩ → L.fits k b c r) (v : Option (V k)) :
    L.Behind d e (H.hold k v) (s.load1 k (some r)) (u.load1 k (some r')) where
  trace := by rw [Session.load1_trace, Session.load1_trace, h.trace]
  dirty := by rw [Session.load1_dirty, Session.load1_dirty, h.dirty]
  writes := by
    rw [Session.load1_writes, Session.load1_writes]
    exact h.writes
  tight k' hk' := by
    have hkk : k' ≠ k := by
      rintro rfl
      exact hk' hk
    rw [Session.objs_load1_of_ne _ _ hkk, Session.objs_load1_of_ne _ _ hkk, h.tight k' hk']
  fresh k' hk' hn' o ho := by
    have hkk : k' ≠ k := by
      rintro rfl
      exact hk' hk
    rw [Session.objs_load1_of_ne _ _ hkk] at ho
    exact h.fresh k' hk' (by simpa [Held.hold, Function.update_of_ne hkk] using hn') o ho
  loose k' hk' := by
    have hown : ∀ d : D, row ((s.load1 k (some r)).own d) k' = row (s.own d) k' := fun d => by
      rw [Session.own_of_writes (s.load1_writes k (some r))]
    by_cases hkk : k' = k
    · subst hkk
      right
      -- the row is loaded by this read, or it was loaded before with other values
      rcases h.loose k' hk' with ⟨hs, hu⟩ | ⟨b, c, x, y, st⟩
      · refine ⟨r, r, r', r', by simp [Session.load1_of_none r hs],
          by simp [Session.load1_of_none r' hu],
          L.moves_load k' hk' _ _ (N.kin_of_alike k' _ _ ha), fun _ => rfl,
          fun h => by simp [Held.hold] at h, fun _ => ⟨r, (hown d).trans hr, ha, L.fits_self k' hk' r⟩⟩
      · obtain rfl := st.clean hdirty
        obtain rfl : r' = x := by simpa [row_write_self] using st.unheld hn
        refine ⟨c, c, r', y, Session.objs_load1 st.early, Session.objs_load1 st.late, st.moves,
          fun _ => rfl, fun h => by simp [Held.hold] at h,
          fun _ => ⟨r, (hown d).trans hr, ha, hfit c c st.early⟩⟩
    · exact h.same hk' (Session.objs_load1_of_ne _ _ hkk) (Session.objs_load1_of_ne _ _ hkk)
        (by rw [Session.load1_dirty]; exact id) (by simp [Held.hold, Function.update_of_ne hkk])
        (row_write_of_ne _ _ _ _ hkk).symm fun _ => hown d

/-- The changes of one object are sent. -/
lemma stored {ks : List K} {c y v w : V k} (h : L.Behind d e' H s u) (hd : s.dirty = k :: ks)
    (hH : ∀ k', k' ≠ k → H' k' = H k') (hk : H' k ≠ none)
    (he : ∀ k', k' ≠ k → row e k' = row e' k') (ha : N.alike k v w)
    (htight : ¬L.loose k → c = y)
    (hloose : L.loose k → N.kin k c y ∧ N.alike k v y ∧ L.fits k c c v) :
    L.Behind d e H' (s.stored k c v) (u.stored k y w) where
  trace := h.trace
  dirty := congrArg List.tail h.dirty
  writes := List.rel_append h.writes (.cons ⟨ha⟩ .nil)
  tight k' hk' := by
    by_cases hkk : k' = k
    · subst hkk
      simp [Session.stored, htight hk']
    · simpa [Session.stored, Function.update_of_ne hkk] using h.tight k' hk'
  fresh k' hk' hn o ho := by
    have hkk : k' ≠ k := by
      rintro rfl
      exact hk hn
    refine h.fresh k' hk' ((hH k' hkk).symm.trans hn) o ?_
    simpa [Session.stored, Function.update_of_ne hkk] using ho
  loose k' hk' := by
    have hown : (s.stored k c v).own d = write (s.own d) k v := Session.own_append rfl d
    by_cases hkk : k' = k
    · subst hkk
      -- from now on the object is as the row that the session has written
      obtain ⟨hkin, hal, hfit⟩ := hloose hk'
      refine Or.inr ⟨c, c, y, y, by simp [Session.stored], by simp [Session.stored],
        L.moves_load k' hk' _ _ hkin, fun _ => rfl, fun hn => absurd hn hk, fun _ => ⟨v, ?_, hal, hfit⟩⟩
      rw [hown, row_write_self]
    · refine h.same hk' (by simp [Session.stored, Function.update_of_ne hkk])
        (by simp [Session.stored, Function.update_of_ne hkk]) (fun hn hm => ?_) (hH k' hkk) (he k' hkk)
        fun _ => by rw [hown, row_write_of_ne _ _ _ _ hkk]
      rw [hd] at hm
      rw [show (s.stored k c v).dirty = ks by simp [Session.stored, hd]] at hn
      exact hn ((List.mem_cons.mp hm).resolve_left hkk)

/-- A `SKIP LOCKED` read returns the same rows. -/
lemma pick_eq (h : N.Near (s.own d) (u.own d')) {q : D → List K}
    (hq : ∀ d d', N.Akin d d' → q d = q d') (n : ℕ) (free : K → Bool) :
    u.pick q n d' free = s.pick q n d free := by
  rw [Session.pick, Session.pick, hq _ _ h.akin]
  congr 2
  funext k
  rcases rel_cases (h k) with ⟨hv, hw⟩ | ⟨v, w, hv, hw, -⟩ <;> simp [hv, hw]

end Lag.Behind

end Behind

end RowTxn
