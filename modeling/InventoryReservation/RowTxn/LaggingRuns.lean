/-
# Runs with rows that are out of date

In a run whose locks are granted in time, that is, with the values up to date that a transaction
needs up to date, there is at every moment a database that stands for the committed one and that
the invariants of runs without stale rows hold of.
-/
import InventoryReservation.RowTxn.Lagging

namespace RowTxn

open RowStore

variable {T D K : Type} {V : K → Type} {Q : Type} {A : Q → Type} {ε α : Type}

section Statements

variable [DecidableEq K] [RowStore D K V] {N : Likeness K V} {L : Lag D N}
  {env : (q : Q) → A q} {P : α → Session K V Q A → Held V → Prop} {d₀ d e v : D} {H : Held V}
  {s : Session K V Q A} {k : K}

/-- Whatever becomes of the rows that are not locked, the session is behind one from which the
program is verified. -/
def Lag.Meets (L : Lag D N) (env : (q : Q) → A q) (P : α → Session K V Q A → Held V → Prop)
    (d₀ : D) (p : Prog D K V Q A ε α) (s : Session K V Q A) (H : Held V) : Prop :=
  ∀ e, L.seen e → ∃ u, L.Behind d₀ e H s u ∧ u.Ok D (fun _ => True) H ∧
    wp (relyUpon L.seen fun _ => True) env p P (fun _ _ _ => True) u H

/-- A loose row, stored as `r` in the committed database, is up to date for a session that has `b`
and `c` for it, and for the session `u`, which has loaded `x`. -/
structure Lag.UpToDate (L : Lag D N) (d₀ d : D) (H : Held V) (s u : Session K V Q A) (k : K)
    (b c x r : V k) : Prop where
  stored : row (s.own d₀) k = some r
  alike : N.alike k r x
  fits : L.fits k b c r
  now : row (u.own d) k = some x
  granted : H k = none → row d k = some x

namespace Lag

omit [DecidableEq K] in
/-- An object that the session does not have is not locked. -/
lemma Behind.unheld_of_none {u : Session K V Q A} (h : L.Behind d e H s u)
    (hok : u.Ok D (fun _ => True) H) (hs : s.objs k = none) : H k = none := by
  by_contra hn
  refine hok.loaded k hn ?_
  by_cases hk : L.loose k
  · rcases h.loose k hk with ⟨-, hu⟩ | ⟨b, c, x, y, st⟩
    · exact hu
    · have hobj := st.early
      rw [hs] at hobj
      cases hobj
  · rw [h.tight k hk, hs]

omit [DecidableEq K] in
lemma Behind.row_own {u : Session K V Q A} (h : L.Behind d e H s u)
    (hok : u.Ok D (fun _ => True) H) (hn : H k = none) (d' : D) : row (s.own d') k = row d' k := by
  refine Session.row_own_of_not_written d' fun w hw hk => ?_
  have hmem : w.1 ∈ u.writes.map Sigma.fst := by
    rw [Likeness.keys_of_sameWrite h.writes]
    exact List.mem_map_of_mem hw
  obtain ⟨w', hw', hkey⟩ := List.mem_map.mp hmem
  exact hok.not_written hn w' hw' (hkey.trans hk)

omit [DecidableEq K] in
/-- A row that one database has, the others have as well. -/
lemma seen_write [DecidableEq K] {w : V k} (hd : L.seen d) (he : L.seen e) (hk : L.loose k)
    (hw : row d k = some w) : L.seen (write e k w) := by
  refine L.seen_of_kin _ e he fun k' hk' => ?_
  by_cases hkk : k' = k
  · subst hkk
    rw [row_write_self, ← hw]
    exact L.kin_of_seen d e hd he k' hk'
  · rw [row_write_of_ne _ _ _ _ hkk]
    exact Likeness.rel_kin (Likeness.rel_alike_refl k' _)

omit [DecidableEq K] in
/-- Rows that are not loose are the same. -/
lemma eq_of_rel (hk : ¬L.loose k) {r r' : Option (V k)} (h : Option.Rel (N.kin k) r r') :
    r = r' := by
  rcases rel_cases h with ⟨rfl, rfl⟩ | ⟨v, w, rfl, rfl, hvw⟩
  · rfl
  · rw [L.eq_of_kin k hk v w hvw]

/-- The first statement of a flush. -/
lemma wp_flush_cons {R : Rely D K} {f : Bool → Prog D K V Q A ε α}
    {E : ε → Session K V Q A → Held V → Prop} {ks : List K} (hdirty : s.dirty = k :: ks)
    (hw : wp R env (.flush f) P E s H) (hnow : R.Now s H d) (hfr : R.Fresh s H k d) :
    match s.flush1 k d with
    | some s' => wp R env (.flush f) P E s' (H.hold k (row d k))
    | none => wp R env (f false) P E s H := by
  have hw : wpFlush R s.dirty _ s H := hw
  rw [hdirty] at hw
  have hw' := hw d hnow hfr
  rcases h1 : s.flush1 k d with _ | s' <;> rw [h1] at hw'
  · exact hw'
  · show wpFlush R s'.dirty _ s' _
    rw [(flush1_step h1).2.2.1, hdirty]
    exact hw'

namespace Meets

/-- A plain read. -/
lemma read {q : D → List K} {f : D → Prog D K V Q A ε α} (h : L.Meets env P d₀ (.read q f) s H)
    (hb : (Prog.read q f).Blind L) (hv : L.seen v) :
    L.Meets env P d₀ (f (s.own v)) (s.load (q (s.own v)) (s.own v)) H := by
  intro e he
  obtain ⟨u, hu, hok, hw⟩ := h e he
  -- the session `u` reads the loose rows of `e` and the other rows of `v`
  obtain ⟨m, hm, hm'⟩ := L.mix v e hv he
  have hms : L.seen m := L.seen_of_kin m e he fun k hk => by
    rw [hm k hk]
    exact Likeness.rel_kin (Likeness.rel_alike_refl k _)
  have hakin : N.Akin (s.own v) (u.own m) := by
    refine fun k => Likeness.rel_own hu.writes (N.kin_of_alike k) ?_
    by_cases hk : L.loose k
    · rw [hm k hk]
      exact L.kin_of_seen v e hv he k hk
    · rw [hm' k hk]
      exact Likeness.rel_kin (Likeness.rel_alike_refl k _)
  obtain ⟨hq, hf⟩ := hb.1 _ _ hakin
  have hw' := hw m hms
  rw [← hq, ← hf] at hw'
  have hall := (hb.2 (s.own v)).1
  refine ⟨_, hu.load (fun k hk hl hs => ?_) (fun k hk hl => absurd (hall k hk) hl) (fun _ _ => rfl)
    (fun k hl hn => ⟨hn, fun hk => hl (hall k hk)⟩), hok.load _ _, hw'⟩
  have hn := hu.unheld_of_none hok hs
  exact ⟨hn, hakin k, (Session.row_own_of_not_written m (hok.not_written hn)).trans (hm k hl)⟩

/-- A locking read of a loose row. -/
lemma lock {f : Option (V k) → Prog D K V Q A ε α} (h : L.Meets env P d₀ (.lock k f) s H)
    (hb : (Prog.lock k f).Blind L) (hnear : N.Near d₀ d) (hd : L.seen d)
    (hH : ∀ k r, H k = some r → row d k = r)
    (hfit : H k = none → ∀ b c r, s.objs k = some ⟨some b, c⟩ → row d₀ k = some r →
      L.fits k b c r) :
    L.Meets env P d₀ (f (s.select1 k d₀).2) (s.select1 k d₀).1
      (if (row (s.own d₀) k).isSome then H.hold k (row d k) else H) := by
  intro e he
  obtain ⟨hk, hblind, -⟩ := hb
  -- it is enough to find a session for which the row is up to date
  suffices hmain : ∃ u, L.Behind d₀ e
      (if (row (s.own d₀) k).isSome then H.hold k (row d k) else H)
        (s.select1 k d₀).1 (u.select1 k d).1 ∧
      Option.Rel (N.kin k) (s.select1 k d₀).2 (u.select1 k d).2 ∧
      (row (u.own d) k).isSome = (row (s.own d₀) k).isSome ∧
      (relyUpon L.seen fun _ => True).Fresh u H k d ∧ u.Ok D (fun _ => True) H ∧
      wp (relyUpon L.seen fun _ => True) env (.lock k f) P (fun _ _ _ => True) u H by
    obtain ⟨u, hu, hval, hsome, hfr, hok, hdirty, hw⟩ := hmain
    have hw' := hw d ⟨hd, hH, hok⟩ hfr
    have hok' := hok.lock hdirty (hH k) hfr
    rw [hsome, ← hblind _ _ hval] at hw'
    rw [hsome] at hok'
    exact ⟨_, hu, hok', hw'⟩
  -- a row that is locked already is as the session has left it
  rcases hn : H k with _ | r₀
  · rcases rel_cases (hnear k) with ⟨hr, hr'⟩ | ⟨r, r', hr, hr', hrows⟩
    · -- there is no row, and no session has an object of it
      obtain ⟨u, hu, hok, hw⟩ := h e he
      have hs := (hu.row_own hok hn d₀).trans hr
      have hu' := (Session.row_own_of_not_written d (hok.not_written hn)).trans hr'
      refine ⟨u, ?_⟩
      rw [hs, hu', Session.select1_of_none hs, Session.select1_of_none hu']
      refine ⟨hu, .none, rfl, fun _ _ o b ho hob => ?_, hok, hw⟩
      rcases hu.loose k hk with ⟨-, hnone⟩ | ⟨b', c, x, y, st⟩
      · rw [hnone] at ho
        cases ho
      · have hrel := L.kin_of_seen d e hd he k hk
        rw [hr', st.unheld hn] at hrel
        cases hrel
    · obtain ⟨u, hu, hok, hw⟩ := h _ (seen_write hd he hk hr')
      have hs := (hu.row_own hok hn d₀).trans hr
      have hu' := (Session.row_own_of_not_written d (hok.not_written hn)).trans hr'
      refine ⟨u, ?_⟩
      rw [hs, hu', Session.select1_of_some hs, Session.select1_of_some hu']
      refine ⟨?_, ?_, rfl, fun _ _ o b ho hob => ?_, hok, hw⟩
      · exact hu.lock hk hn (hu.dirty ▸ hw.1 hn) hs hrows (fun b c ho => hfit hn b c r ho hr) _
      · rcases rel_cases (hu.val k) with ⟨hv, hv'⟩ | ⟨a, a', hv, hv', hval⟩ <;> rw [hv, hv']
        · exact .some (N.kin_of_alike k _ _ hrows)
        · exact .some hval
      · rcases hu.loose k hk with ⟨-, hnone⟩ | ⟨b', c, x, y, st⟩
        · rw [hnone] at ho
          cases ho
        · obtain rfl := Option.some.inj (st.late.symm.trans ho)
          rw [hr', ← hob, ← st.unheld hn, row_write_self]
  · obtain ⟨u, hu, hok, hw⟩ := h e he
    have hne : H k ≠ none := by simp [hn]
    have hhold : H.hold k (row d k) = H := by
      rw [hH k r₀ hn, Held.hold, ← hn, Function.update_eq_self]
    rcases hu.loose k hk with ⟨hnone, -⟩ | ⟨b, c, x, y, st⟩
    · rw [hu.unheld_of_none hok hnone] at hn
      cases hn
    obtain ⟨r, hr, -, -⟩ := st.held hne
    have hr' : row (u.own d) k = some x :=
      hok.sync k trivial hne d (by rw [hn, hH k r₀ hn]) _ x st.late rfl
    refine ⟨u, ?_⟩
    rw [hhold, hr, hr', Session.select1_of_some hr, Session.select1_of_some hr',
      Session.load1_of_some _ st.early, Session.load1_of_some _ st.late,
      Session.val_of_objs st.early, Session.val_of_objs st.late]
    exact ⟨by simpa using hu, .some (L.kin_of_moves k hk _ _ _ _ st.moves), rfl,
      fun _ hn' => absurd hn' hne, hok, hw⟩

/-- A `SKIP LOCKED` read. -/
lemma lockWhere {q : D → List K} {n : ℕ} {f : List K → Prog D K V Q A ε α}
    (h : L.Meets env P d₀ (.lockWhere q n f) s H) (hb : (Prog.lockWhere q n f).Blind L)
    (hnear : N.Near d₀ d) (hd : L.seen d) (hH : ∀ k r, H k = some r → row d k = r)
    (free : K → Bool) :
    L.Meets env P d₀ (f (s.pick q n d₀ free)) (s.load (s.pick q n d₀ free) (s.own d₀))
      (H.holdAll (s.pick q n d₀ free) d) := by
  intro e he
  obtain ⟨u, hu, hok, hw⟩ := h e he
  have hown := hnear.own hu.writes
  have hpick := Behind.pick_eq hown hb.1 n free
  -- the rows that are picked are not loose, so neither session has loaded them before
  have htight : ∀ k ∈ s.pick q n d₀ free, ¬L.loose k := fun k hk =>
    hb.2.1 _ k (Session.of_mem_pick hk).1
  obtain ⟨hdirty, hw⟩ := hw d ⟨hd, hH, hok⟩
  have hfr : ∀ k ∈ u.pick q n d free, (relyUpon L.seen fun _ => True).Fresh u H k d := by
    intro k hk _ hn o b ho hob
    rw [hpick] at hk
    rw [hu.tight k (htight k hk)] at ho
    rw [hu.fresh k (htight k hk) hn o ho] at hob
    cases hob
  have hw' := hw free trivial hfr
  have hok' := hok.load_holdAll (fun k hk => hdirty k (Session.of_mem_pick hk).1)
    (fun k hk => (Session.of_mem_pick hk).2.1) hH fun k hk => hfr k hk
  rw [hpick] at hw' hok'
  refine ⟨_, hu.load (fun k hk hl => absurd hl (htight k hk)) (fun k hk hl => ?_) (fun k hl => ?_)
    (fun k _ hn => ?_), hok', hw'⟩
  · exact eq_of_rel hl (hown.akin k)
  · rw [Held.holdAll_apply, if_neg fun hk => htight k hk hl]
  · rw [Held.holdAll_apply] at hn
    split at hn
    · cases hn
    · next hk => exact ⟨hn, hk⟩

/-- Before each `e`, there is a session for which a loose row with pending changes is up to date. -/
lemma current {p : Prog D K V Q A ε α} (h : L.Meets env P d₀ p s H) (hnear : N.Near d₀ d)
    (hd : L.seen d) (hH : ∀ k r, H k = some r → row d k = r) (hk : L.loose k) (hmem : k ∈ s.dirty)
    (hfit : H k = none → ∀ b c r, s.objs k = some ⟨some b, c⟩ → row d₀ k = some r →
      L.fits k b c r) (he : L.seen e) :
    ∃ e' u b c x y r, L.Stands d₀ e' H s u k b c x y ∧ L.Behind d₀ e' H s u ∧
      (∀ k', k' ≠ k → row e k' = row e' k') ∧ L.UpToDate d₀ d H s u k b c x r ∧
      u.Ok D (fun _ => True) H ∧
      wp (relyUpon L.seen fun _ => True) env p P (fun _ _ _ => True) u H := by
  obtain ⟨u, hu, hok, hw⟩ := h e he
  have hobj : ∀ {e : D} {u : Session K V Q A}, L.Behind d₀ e H s u →
      u.Ok D (fun _ => True) H → ∃ b c x y, L.Stands d₀ e H s u k b c x y := fun hu hok =>
    (hu.loose k hk).resolve_left fun hnone => hok.pending k (by rwa [hu.dirty]) hnone.2
  obtain ⟨b, c, x, y, st⟩ := hobj hu hok
  rcases hn : H k with _ | r₀
  · -- the row exists in `e`, so it exists in the other databases
    rcases rel_cases (L.kin_of_seen d e hd he k hk) with ⟨-, hnone⟩ | ⟨r', -, hr', -, -⟩
    · rw [st.unheld hn] at hnone
      cases hnone
    rcases rel_cases (hnear k) with ⟨-, hnone⟩ | ⟨r, _, hr, heq, hrows⟩
    · rw [hr'] at hnone
      cases hnone
    obtain rfl := Option.some.inj (hr'.symm.trans heq)
    obtain ⟨u, hu, hok, hw⟩ := h _ (seen_write hd he hk hr')
    obtain ⟨b, c, x, y, st⟩ := hobj hu hok
    obtain rfl : r' = x := by simpa [row_write_self] using st.unheld hn
    exact ⟨_, u, b, c, r', y, r, st, hu, fun k' hkk => (row_write_of_ne _ _ _ _ hkk).symm,
      { stored := (hu.row_own hok hn d₀).trans hr
        alike := hrows
        fits := hfit hn b c r st.early hr
        now := (Session.row_own_of_not_written d (hok.not_written hn)).trans hr'
        granted := fun _ => hr' }, hok, hw⟩
  · have hne : H k ≠ none := by simp [hn]
    obtain ⟨r, hr, ha, hfit'⟩ := st.held hne
    exact ⟨e, u, b, c, x, y, r, st, hu, fun _ _ => rfl,
      { stored := hr
        alike := ha
        fits := L.fits_of_base k hk b c r hfit'
        now := hok.sync k trivial hne d (by rw [hn, hH k r₀ hn]) _ x st.late rfl
        granted := fun hn' => absurd hn' hne }, hok, hw⟩

/-- The changes of a loose row are sent. -/
lemma flush_loose {f : Bool → Prog D K V Q A ε α} {ks : List K}
    (h : L.Meets env P d₀ (.flush f) s H) (hnear : N.Near d₀ d) (hd : L.seen d)
    (hH : ∀ k r, H k = some r → row d k = r) (hdirty : s.dirty = k :: ks) (hk : L.loose k)
    (hfit : H k = none → ∀ b c r, s.objs k = some ⟨some b, c⟩ → row d₀ k = some r →
      L.fits k b c r) :
    ∃ s', s.flush1 k d₀ = some s' ∧ L.Meets env P d₀ (.flush f) s' (H.hold k (row d k)) := by
  have hmem : k ∈ s.dirty := by simp [hdirty]
  -- what is sent does not depend on the database that the rows become
  obtain ⟨e₀, u₀, b, c, x₀, y₀, r, st₀, -, -, hup₀, -⟩ := h.current hnear hd hH hk hmem hfit hd
  have hs : s.flush1 k d₀ = some (s.stored k c (merge D k b c r)) := by
    simp [Session.flush1, st₀.early, hup₀.stored, Session.stored]
  refine ⟨_, hs, fun e he => ?_⟩
  obtain ⟨e', u, b', c', x, y, r', st, hu, he', hup, hok, hw⟩ := h.current hnear hd hH hk hmem hfit he
  obtain ⟨rfl, rfl⟩ : b' = b ∧ c' = c := by simpa using st.early.symm.trans st₀.early
  obtain rfl : r' = r := Option.some.inj (hup.stored.symm.trans hup₀.stored)
  have hus : u.flush1 k d = some (u.stored k y y) := by
    simp [Session.flush1, st.late, hup.now, Session.stored, merge_base]
  have hfr : (relyUpon L.seen fun _ => True).Fresh u H k d := by
    intro _ hn o b ho hob
    obtain rfl := Option.some.inj (st.late.symm.trans ho)
    rw [hup.granted hn, ← hob]
  have hmerge := L.alike_merge k hk _ _ _ _ _ hup.fits hup.alike st.moves
  have hudirty : u.dirty = k :: ks := hu.dirty.trans hdirty
  have hw' := wp_flush_cons hudirty hw ⟨hd, hH, hok⟩ hfr
  rw [hus] at hw'
  refine ⟨_, hu.stored hdirty (fun k' hkk => by simp [Held.hold, Function.update_of_ne hkk])
    (by simp [Held.hold]) he' hmerge (fun hk' => absurd hk hk') fun _ => ⟨?_, hmerge, ?_⟩,
    hok.flush1 hudirty hus (hH k) hfr, hw'⟩
  · exact L.kin_of_moves k hk _ _ _ _ st.moves
  · exact L.fits_merge k hk _ _ _ hup.fits

/-- The changes of another row are sent, or the flush fails on a key in use. -/
lemma flush_tight {f : Bool → Prog D K V Q A ε α} {ks : List K}
    (h : L.Meets env P d₀ (.flush f) s H) (hnear : N.Near d₀ d) (hd : L.seen d)
    (hH : ∀ k r, H k = some r → row d k = r) (hdirty : s.dirty = k :: ks) (hk : ¬L.loose k) :
    (∀ s', s.flush1 k d₀ = some s' → L.Meets env P d₀ (.flush f) s' (H.hold k (row d k))) ∧
      (s.flush1 k d₀ = none → L.Meets env P d₀ (f false) s H) := by
  have hrow : ∀ {e : D} {u : Session K V Q A}, L.Behind d₀ e H s u →
      row (u.own d) k = row (s.own d₀) k := fun hu =>
    (eq_of_rel hk ((hnear.own hu.writes).akin k)).symm
  have hfr : ∀ {e : D} {u : Session K V Q A}, L.Behind d₀ e H s u →
      (relyUpon L.seen fun _ => True).Fresh u H k d := by
    intro e u hu _ hn o b ho hob
    rw [hu.tight k hk] at ho
    rw [hu.fresh k hk hn o ho] at hob
    cases hob
  refine ⟨fun s' hs => fun e he => ?_, fun hs => fun e he => ?_⟩ <;>
    obtain ⟨u, hu, hok, hw⟩ := h e he <;>
    have hudirty : u.dirty = k :: ks := hu.dirty.trans hdirty <;>
    have hw' := wp_flush_cons hudirty hw ⟨hd, hH, hok⟩ (hfr hu)
  · obtain ⟨o, v, ho, rfl, hv⟩ := Session.flush1_inv hs
    have hus : u.flush1 k d = some (u.stored k o.cur v) := by
      rcases hv with ⟨b, r, hob, hr, rfl⟩ | ⟨hob, hr, rfl⟩
      · simp [Session.flush1, hu.tight k hk, ho, hob, hrow hu, hr, Session.stored]
      · simp [Session.flush1, hu.tight k hk, ho, hob, hrow hu, hr, Session.stored]
    rw [hus] at hw'
    refine ⟨_, hu.stored (c := o.cur) (v := v) hdirty
      (fun k' hkk => by simp [Held.hold, Function.update_of_ne hkk]) (by simp [Held.hold])
      (fun _ _ => rfl) (N.alike_refl k v) (fun _ => rfl) fun hl => absurd hl hk,
      hok.flush1 hudirty hus (hH k) (hfr hu), hw'⟩
  · have hus : u.flush1 k d = none := by
      rcases ho : s.objs k with _ | o
      · simp [Session.flush1, hu.tight k hk, ho]
      · rcases hob : o.base with _ | b <;> rcases hr : row (s.own d₀) k with _ | r <;>
          simp [Session.flush1, hu.tight k hk, ho, hob, hrow hu, hr] at hs ⊢
    rw [hus] at hw'
    exact ⟨u, hu, hok, hw'⟩

end Meets

end Lag

end Statements

/-! ### Runs under a condition on the actions -/

section Runs

variable [DecidableEq T] [DecidableEq K] [RowStore D K V]

/-- The configurations reached by actions that meet a condition. -/
inductive RunWhile (iso : Isolation) (env : T → (q : Q) → A q)
    (C : Conf T D K V Q A ε α → Act T → Prop) (c₀ : Conf T D K V Q A ε α) :
    Conf T D K V Q A ε α → Prop
  | init : RunWhile iso env C c₀ c₀
  | act {c c' : Conf T D K V Q A ε α} {a : Act T} (h : RunWhile iso env C c₀ c)
      (ha : act iso env c a = some c') (hC : C c a) : RunWhile iso env C c₀ c'

variable {iso : Isolation} {env : T → (q : Q) → A q}
  {C C' : Conf T D K V Q A ε α → Act T → Prop} {c₀ c c' : Conf T D K V Q A ε α} {t : T}

lemma RunWhile.reachable (h : RunWhile iso env C c₀ c) : Reachable iso env c₀ c := by
  induction h with
  | init => exact .init
  | act _ ha _ ih => exact ih.act ha (upToDate_false _)

lemma RunWhile.mono (hC : ∀ c a, C c a → C' c a) (h : RunWhile iso env C c₀ c) :
    RunWhile iso env C' c₀ c := by
  induction h with
  | init => exact .init
  | act _ ha hc ih => exact ih.act ha (hC _ _ hc)

/-- Replay a list of actions as long as they pass a test. -/
def replayIf (test : Conf T D K V Q A ε α → Act T → Bool) (iso : Isolation)
    (env : T → (q : Q) → A q) (c : Conf T D K V Q A ε α) :
    List (Act T) → Option (Conf T D K V Q A ε α)
  | [] => some c
  | a :: as =>
    if test c a then (act iso env c a).bind fun c' => replayIf test iso env c' as else none

lemma runWhile_of_replay {test : Conf T D K V Q A ε α → Act T → Bool}
    (htest : ∀ c a, test c a = true → C c a) {as : List (Act T)} (hc : RunWhile iso env C c₀ c)
    (h : replayIf test iso env c as = some c') : RunWhile iso env C c₀ c' := by
  induction as generalizing c with
  | nil =>
    cases h
    exact hc
  | cons a as ih =>
    rw [replayIf] at h
    split at h
    · next hg =>
      obtain ⟨c₁, h₁, h⟩ := Option.bind_eq_some_iff.mp h
      exact ih (hc.act h₁ (htest c a hg)) h
    · cases h

variable {N : Likeness K V}

/-- Every lock that an action newly takes on a loose row is granted while the values that have to
be up to date are. -/
def InTime (L : T → Lag D N) (c : Conf T D K V Q A ε α) : Act T → Prop
  | .step t => ∀ p, c.phase t = .running p → ∀ k ∈ granted c t p, (L t).loose k →
      c.owner k = none → ∀ b o r, (c.sess t).objs k = some ⟨some b, o⟩ → row c.db k = some r →
        (L t).fits k b o r
  | .abort _ => True

variable {L : T → Lag D N} {P : T → α → Session K V Q A → Held V → Prop} {d d' : D}
  {p p' : Prog D K V Q A ε α} {H : Held V}

/-- A running transaction in the configuration `c`, whose database `d` stands for. -/
structure Lag.At (L : Lag D N) (env : (q : Q) → A q) (P : α → Session K V Q A → Held V → Prop)
    (c : Conf T D K V Q A ε α) (d : D) (t : T) (p : Prog D K V Q A ε α) (H : Held V) : Prop where
  meets : L.Meets env P c.db p (c.sess t) H
  blind : p.Blind L
  held : ∀ k r, H k = some r → row d k = r
  owner : ∀ k, H k ≠ none ↔ c.owner k = some t
  snap : ∀ d, c.snap t = some d → L.seen d

omit [DecidableEq T] in
/-- The actions of other transactions. -/
lemma Lag.At.frame {L : Lag D N} {env : (q : Q) → A q} {P : α → Session K V Q A → Held V → Prop}
    (h : L.At env P c d t p H) (hsess : c'.sess t = c.sess t) (hsnap : c'.snap t = c.snap t)
    (howner : ∀ k, c'.owner k = some t ↔ c.owner k = some t)
    (hdb : ∀ k, c.owner k = some t → row c'.db k = row c.db k)
    (hd : ∀ k, c.owner k = some t → row d' k = row d k) : L.At env P c' d' t p H where
  meets e he := by
    obtain ⟨u, hu, hok, hw⟩ := h.meets e he
    rw [hsess]
    exact ⟨u, hu.frame fun k hk => hdb k ((h.owner k).mp hk), hok, hw⟩
  blind := h.blind
  held k r hr := by
    rw [hd k ((h.owner k).mp (by simp [hr]))]
    exact h.held k r hr
  owner k := (h.owner k).trans (howner k).symm
  snap := by rw [hsnap]; exact h.snap

variable (env L P) in
/-- Every running transaction is verified from where it is, over a database that stands for the
committed one. -/
structure Lagging (c : Conf T D K V Q A ε α) (d : D) : Prop where
  running : ∀ t p, c.phase t = .running p → ∃ H, (L t).At (env t) (P t) c d t p H
  owned : ∀ k t, c.owner k = some t → ∃ p, c.phase t = .running p
  near : N.Near c.db d

namespace Lagging

/-- A statement that changes only the transaction's own state and takes free locks. -/
lemma put (h : Lagging env L P c d) (hdb : c'.db = c.db)
    (hphase : c'.phase = Function.update c.phase t (.running p'))
    (hsess : ∀ u, u ≠ t → c'.sess u = c.sess u) (hsnap : ∀ u, u ≠ t → c'.snap u = c.snap u)
    (howner : ∀ u, u ≠ t → ∀ k, c'.owner k = some u ↔ c.owner k = some u)
    (hat : ∃ H, (L t).At (env t) (P t) c' d t p' H) : Lagging env L P c' d where
  running u q hq := by
    by_cases hu : u = t
    · subst hu
      rw [hphase, Function.update_self] at hq
      cases hq
      exact hat
    · rw [hphase, Function.update_of_ne hu] at hq
      obtain ⟨H, ha⟩ := h.running u q hq
      exact ⟨H, ha.frame (hsess u hu) (hsnap u hu) (howner u hu) (fun k _ => by rw [hdb])
        fun _ _ => rfl⟩
  owned := owned_put h.owned hphase howner
  near := by
    rw [hdb]
    exact h.near

/-- A transaction ends; what it has committed was under its locks. -/
lemma finish (h : Lagging env L P c d) {ph : Phase D K V Q A ε α} (hph : ∀ p, ph ≠ .running p)
    (hsess : c'.sess = c.sess) (hsnap : c'.snap = c.snap)
    (hphase : c'.phase = Function.update c.phase t ph)
    (howner : c'.owner = fun k => if c.owner k = some t then none else c.owner k)
    (hdb : ∀ k, c.owner k ≠ some t → row c'.db k = row c.db k)
    (hd : ∀ k, c.owner k ≠ some t → row d' k = row d k) (hnear : N.Near c'.db d') :
    Lagging env L P c' d' where
  running u q hq := by
    by_cases hu : u = t
    · subst hu
      rw [hphase, Function.update_self] at hq
      exact absurd hq (hph q)
    · rw [hphase, Function.update_of_ne hu] at hq
      obtain ⟨H, ha⟩ := h.running u q hq
      exact ⟨H, ha.frame (by rw [hsess]) (by rw [hsnap]) (owner_finish howner hu)
        (fun k hk => hdb k (by simp [hk, hu])) fun k hk => hd k (by simp [hk, hu])⟩
  owned := owned_finish h.owned hphase howner
  near := hnear

lemma rollback (h : Lagging env L P c d) (e : Option ε) :
    Lagging env L P (c.finish t (.rolledBack e)) d :=
  h.finish (by simp) rfl rfl rfl rfl (fun _ _ => rfl) (fun _ _ => rfl) h.near

/-- A commit, and what it does to the database that stands for the committed one. -/
lemma commit (h : Lagging env L P c d) {a : α} {e : D} {u : Session K V Q A}
    (ha : (L t).At (env t) (P t) c d t (.pure a) H) (hu : (L t).Behind c.db e H (c.sess t) u)
    (hok : u.Ok D (fun _ => True) H) : Lagging env L P (c.commit t a) (u.own d) := by
  have hfree : ∀ k, c.owner k ≠ some t → H k = none := fun k hk => by
    by_contra hn
    exact hk ((ha.owner k).mp hn)
  exact h.finish (by simp) rfl rfl rfl rfl (fun k hk => hu.row_own hok (hfree k hk) _)
    (fun k hk => Session.row_own_of_not_written d (hok.not_written (hfree k hk)))
    (h.near.own hu.writes)

/-- A statement without locks. -/
lemma own (h : Lagging env L P c d) (ha : (L t).At (env t) (P t) c d t p H)
    {s : Session K V Q A} {n : ℕ} {sn : T → Option D} (hsn : ∀ u, u ≠ t → sn u = c.snap u)
    (hseen : ∀ d, sn t = some d → (L t).seen d)
    (hm : (L t).Meets (env t) (P t) c.db p' s H) (hb : p'.Blind (L t)) :
    Lagging env L P { c.put t p' s with next := n, snap := sn } d := by
  refine h.put rfl rfl (fun u hu => by simp [Conf.put, hu]) hsn (fun _ _ _ => Iff.rfl)
    ⟨H, ?_, hb, ha.held, ha.owner, hseen⟩
  simpa [Conf.put] using hm

/-- A statement that takes the locks of some rows. -/
lemma lock (h : Lagging env L P c d) (ha : (L t).At (env t) (P t) c d t p H)
    {s : Session K V Q A} {ks : List K} (hf : ∀ k ∈ ks, c.free t k = true)
    (hm : (L t).Meets (env t) (P t) c.db p' s (H.holdAll ks d)) (hb : p'.Blind (L t)) :
    Lagging env L P ((c.put t p' s).take t ks) d := by
  refine h.put rfl rfl (fun u hu => by simp [Conf.put, Conf.take, hu]) (fun _ _ => rfl)
    (fun u hu => owner_take hf hu) ⟨H.holdAll ks d, ?_, hb, fun k r hr => ?_, fun k => ?_,
      ha.snap⟩
  · simpa [Conf.put, Conf.take] using hm
  · rw [Held.holdAll_apply] at hr
    split at hr
    · exact Option.some.inj hr
    · exact ha.held k r hr
  · rw [Held.holdAll_apply]
    simp only [Conf.take]
    split
    · simp
    · exact ha.owner k

omit [DecidableEq T] in
lemma seen_committed (h : Lagging env L P c d) (hd : (L t).seen d) : (L t).seen c.db :=
  (L t).seen_of_kin c.db d hd fun k _ => h.near.akin k

omit [DecidableEq T] in
lemma seen_view (h : Lagging env L P c d) (ha : (L t).At (env t) (P t) c d t p H)
    (hd : (L t).seen d) : (L t).seen (c.view iso t) := by
  have hdb := h.seen_committed hd
  cases iso with
  | readCommitted => exact hdb
  | repeatableRead =>
    rcases hs : c.snap t with _ | v
    · simpa [Conf.view, hs] using hdb
    · simpa [Conf.view, hs] using ha.snap v hs

/-- A lock that is newly taken is taken in time. -/
lemma fits (ha : (L t).At (env t) (P t) c d t p H) (hp : c.phase t = .running p)
    (hg : InTime L c (.step t)) {k : K} (hk : k ∈ granted c t p) (hf : c.free t k = true)
    (hl : (L t).loose k) (hn : H k = none) (b o r : V k)
    (ho : (c.sess t).objs k = some ⟨some b, o⟩) (hr : row c.db k = some r) : (L t).fits k b o r := by
  refine hg p hp k hk hl ?_ b o r ho hr
  rcases free_iff.mp hf with hf | hf
  · exact hf
  · exact absurd hn ((ha.owner k).mpr hf)

/-- One statement of a transaction that does not end it. -/
theorem stepProg (h : Lagging env L P c d) (hp : c.phase t = .running p) (hd : (L t).seen d)
    (hg : InTime L c (.step t)) (hpure : ∀ a, p ≠ .pure a)
    (hs : stepProg iso env c t p = some c') : Lagging env L P c' d := by
  obtain ⟨H, ha⟩ := h.running t p hp
  have hm := ha.meets
  have hb := ha.blind
  cases p with
  | pure a => exact absurd rfl (hpure a)
  | raise e =>
    cases hs
    exact h.rollback (some e)
  | read q f =>
    cases hs
    -- what is read is the database or the snapshot, never the database `d`
    have hv : (L t).seen (c.view iso t) := h.seen_view ha hd
    refine h.own ha (fun u hu => by simp [hu]) (fun v hv' => ?_) (hm.read hb hv) (hb.2 _).2
    rw [Function.update_self] at hv'
    cases hv'
    exact hv
  | lock k f =>
    simp only [RowTxn.stepProg] at hs
    split at hs
    · next hf =>
      cases hs
      -- a new lock is granted in time
      have hfit := fits ha hp hg (show k ∈ granted c t (.lock k f) by simp [granted]) hf hb.1
      have hmeets := hm.lock hb h.near hd ha.held hfit
      have hH : H.holdAll (if (row ((c.sess t).own c.db) k).isSome then [k] else []) d =
          if (row ((c.sess t).own c.db) k).isSome then H.hold k (row d k) else H := by
        split <;> rfl
      refine h.lock ha (fun k' hk' => ?_) (by rwa [hH]) (hb.2.2 _)
      split at hk'
      · rwa [List.mem_singleton.mp hk']
      · cases hk'
    · cases hs
  | lockWhere q n f =>
    cases hs
    exact h.lock ha (fun k hk => (Session.of_mem_pick hk).2.2)
      (hm.lockWhere hb h.near hd ha.held _) (hb.2.2 _)
  | get k f =>
    cases hs
    refine h.own ha (fun _ _ => rfl) ha.snap (fun e he => ?_) (hb.2 _)
    obtain ⟨u, hu, hok, hw⟩ := hm e he
    have hw : wp _ _ (f (u.val k)) _ _ u H := hw
    rw [← hb.1 _ _ (hu.val k)] at hw
    exact ⟨u, hu, hok, hw⟩
  | modify k g q =>
    cases hs
    refine h.own ha (fun _ _ => rfl) ha.snap (fun e he => ?_) hb.2
    obtain ⟨u, hu, hok, hw⟩ := hm e he
    exact ⟨_, hu.modify hb.1, hok.modify k g, hw⟩
  | insert k v q =>
    cases hs
    refine h.own ha (fun _ _ => rfl) ha.snap (fun e he => ?_) hb.2
    obtain ⟨u, hu, hok, hn, hw⟩ := hm e he
    exact ⟨_, hu.insert hb.1 v, hok.insert v hn, hw⟩
  | alloc f =>
    cases hs
    refine h.own ha (fun _ _ => rfl) ha.snap (fun e he => ?_) (hb c.next)
    obtain ⟨u, hu, hok, hw⟩ := hm e he
    exact ⟨u, hu, hok, hw c.next trivial⟩
  | ask q f =>
    cases hs
    refine h.own ha (fun _ _ => rfl) ha.snap (fun e he => ?_) (hb (env t q))
    obtain ⟨u, hu, hok, hw⟩ := hm e he
    exact ⟨_, hu.log q _, hok.congr rfl rfl rfl, hw⟩
  | flush f =>
    simp only [RowTxn.stepProg] at hs
    -- without a dirty object the flush is over, else it sends the first one
    rcases hdirty : (c.sess t).dirty with _ | ⟨k, ks⟩ <;> rw [hdirty] at hs
    · cases hs
      refine h.own ha (fun _ _ => rfl) ha.snap (fun e he => ?_) (hb true)
      obtain ⟨u, hu, hok, hw⟩ := hm e he
      have hw : wpFlush _ u.dirty _ u H := hw
      rw [hu.dirty, hdirty] at hw
      exact ⟨u, hu, hok, hw⟩
    simp only at hs
    split at hs
    rotate_left
    · cases hs
    next hf =>
    have hfit := fun hl => fits ha hp hg
      (show k ∈ granted c t (.flush f) by simp [granted, hdirty]) hf hl
    have hone : ∀ k' ∈ [k], c.free t k' = true := fun k' hk' => by rwa [List.mem_singleton.mp hk']
    by_cases hl : (L t).loose k
    · obtain ⟨s', hs', hmeets⟩ := hm.flush_loose h.near hd ha.held hdirty hl (hfit hl)
      rw [hs'] at hs
      cases hs
      exact h.lock ha hone hmeets hb
    · obtain ⟨hsome, hnone⟩ := hm.flush_tight h.near hd ha.held hdirty hl
      rcases hs' : (c.sess t).flush1 k c.db with _ | s' <;> rw [hs'] at hs <;> cases hs
      · exact h.own ha (fun _ _ => rfl) ha.snap (hnone hs') (hb false)
      · exact h.lock ha hone (hsome s' hs') hb

omit [DecidableEq T] in
lemma init {n : ℕ} {p : T → Prog D K V Q A ε α} (hb : ∀ t, (p t).Blind (L t))
    (hv : ∀ t, wp (relyUpon (L t).seen fun _ => True) (env t) (p t) (P t) (fun _ _ _ => True)
      Session.init fun _ => none) : Lagging env L P (Conf.init d n p) d where
  running t q hq := by
    cases hq
    exact ⟨fun _ => none, fun e _ => ⟨_, .init _ _ _ _, Session.Ok.init, hv t⟩, hb t, by simp,
      by simp [Conf.init], by simp [Conf.init]⟩
  owned k t hk := by simp [Conf.init] at hk
  near := Likeness.near_refl d

end Lagging

/-- An invariant of runs that are up to date holds, in a run whose locks are granted in time, of a
database that stands for the committed one. -/
theorem invariant_of_run_inTime {I : List (Commit T K α) → D → Prop}
    {C : List (Commit T K α) → Prop} {n : ℕ} {p : T → Prog D K V Q A ε α}
    (hC : ∀ h cm, C (h ++ [cm]) → C h)
    (hS : ∀ t h d, C h → I h d → t ∉ h.map Commit.tid → (L t).seen d) (h0 : I [] d)
    (hb : ∀ t, (p t).Blind (L t))
    (hv : ∀ t, wp (relyUpon (L t).seen fun _ => True) (env t) (p t)
      (KeepsWhile C I (fun _ => True) (L t).seen t) (fun _ _ _ => True) Session.init fun _ => none)
    (hr : RunWhile iso env (InTime L) (Conf.init d n p) c) (hc : C c.log) :
    ∃ d', N.Near c.db d' ∧ I c.log d' := by
  have : ∃ d', Lagging env L (fun t => KeepsWhile C I (fun _ => True) (L t).seen t) c d' ∧
      I c.log d' := by
    induction hr with
    | init => exact ⟨d, .init hb hv, h0⟩
    | @act c c' a hr ha hg ih =>
      -- the commits before the action meet the condition as well
      have hC' : C c.log := by
        rcases commit_or_same ha with ⟨t, b, -, rfl⟩ | ⟨hl, -⟩
        · exact hC _ _ hc
        · rwa [← hl]
      obtain ⟨d', hlag, hI⟩ := ih hC'
      have hnew : ∀ t p, c.phase t = .running p → t ∉ c.log.map Commit.tid := by
        intro t p hp ht
        obtain ⟨b, hb⟩ := ((order_of_run hr.reachable).2 t).mp ht
        rw [hp] at hb
        cases hb
      have hseen := fun t p hp => hS t _ _ hC' hI (hnew t p hp)
      cases a with
      | abort t =>
        rcases hp : c.phase t with p | b | e <;>
          simp only [RowTxn.act, hp, reduceCtorEq, Option.some.injEq] at ha
        subst ha
        exact ⟨d', hlag.rollback none, hI⟩
      | step t =>
        rcases hp : c.phase t with p | b | e <;> simp only [RowTxn.act, hp, reduceCtorEq] at ha
        by_cases hpure : ∃ b, p = .pure b
        · obtain ⟨b, rfl⟩ := hpure
          cases ha
          -- the commit is that of the session that has the rows of `d'`
          obtain ⟨H, hat⟩ := hlag.running t _ hp
          obtain ⟨u, hu, hok, hw⟩ := hat.meets d' (hseen t _ hp)
          refine ⟨u.own d', hlag.commit hat hu hok, ?_⟩
          have hkeys := Likeness.keys_of_sameWrite hu.writes
          have hlog : (c.commit t b).log = c.log ++ [⟨t, b, u.writes.map Sigma.fst⟩] := by
            rw [hkeys]
            rfl
          rw [hlog] at hc ⊢
          exact hw c.log d' hI hc (hnew t _ hp) (hseen t _ hp) hat.held hok
        · have hrun := hlag.stepProg hp (hseen t p hp) hg (fun b hb => hpure ⟨b, hb⟩) ha
          rcases stepProg_cases ha with ⟨b, hb, -⟩ | ⟨e, -, rfl⟩ | ⟨-, hl, -⟩
          · exact absurd ⟨b, hb⟩ hpure
          · exact ⟨d', hrun, hI⟩
          · exact ⟨d', hrun, hl ▸ hI⟩
  obtain ⟨d', hlag, hI⟩ := this
  exact ⟨d', hlag.near, hI⟩

end Runs

end RowTxn
