/-
# Locks in one order

Transactions that keep a discipline never wait in a cycle, whatever the order of the actions.
The objects of their sessions may be out of date; they still have the parts that no change of a
row touches, and these determine which locks are asked for next.
-/
import InventoryReservation.RowTxn.Waiting

namespace RowTxn

variable {T D K : Type} {V : K → Type} {Q : Type} {A : Q → Type} {ε α : Type}

open RowStore

variable [RowStore D K V] {L : Discipline D K V} {I : Set ℕ} {d d' d₁ : D} {s s' : Session K V Q A}

/-- What a session has written does not depend on the rest of the database. -/
lemma row_own_of_written {k : K} (h : ∃ w ∈ s.writes, w.1 = k) (d d' : D) :
    row (s.own d) k = row (s.own d') k := by
  obtain ⟨w, hw, rfl⟩ := h
  unfold Session.own
  generalize s.writes = ws at hw
  induction ws generalizing d d' with
  | nil => cases hw
  | cons w' ws ih =>
    rcases List.mem_cons.mp hw with rfl | hw
    · -- the databases agree on the row from here on
      refine Session.row_own_congr (⟨fun _ => none, [], ws, []⟩ : Session K V Q A) ?_
      rw [row_write_self, row_write_self]
    · exact ih _ _ hw

namespace Discipline

/-- A session of a transaction with the allocated ids `I`, over the committed database `d`: an
object of another row has what the changes of the row leave alone. -/
structure Fits (L : Discipline D K V) (I : Set ℕ) (d : D) (s : Session K V Q A) : Prop where
  fresh : ∀ n ∈ I, row d (L.key n) = none
  own : ∀ n ∈ I, row (s.own d) (L.key n) = (s.objs (L.key n)).bind Obj.base
  stored : ∀ k o b, s.objs k = some o → o.base = some b → ¬L.Own I k →
    L.keeps k b o.cur ∧ ∃ r, row (s.own d) k = some r ∧ L.keeps k b r
  new : ∀ k o, s.objs k = some o → o.base = none →
    L.Own I k ∨ (∀ n, k ≠ L.key n) ∧ ∀ v w, L.keeps k v w
  sound : ∀ k o, s.objs k = some o → L.sound k o.cur
  seen : L.Seen (s.own d)
  grows : L.Evolves d (s.own d)

lemma Evolves.own (h : L.Evolves d d') (s : Session K V Q A) :
    L.Evolves (s.own d) (s.own d') := by
  intro k v hv
  by_cases hw : ∃ w ∈ s.writes, w.1 = k
  · exact ⟨v, by rw [← row_own_of_written hw d, hv], L.keeps_refl _ _⟩
  · have hn : ∀ w ∈ s.writes, w.1 ≠ k := fun w hw' hk => hw ⟨w, hw', hk⟩
    rw [Session.row_own_of_not_written d hn] at hv
    rw [Session.row_own_of_not_written d' hn]
    exact h k v hv

namespace Fits

lemma init (h : L.Seen d) : L.Fits ∅ d (Session.init : Session K V Q A) where
  fresh n hn := hn.elim
  own n hn := hn.elim
  stored k o b ho := by cases ho
  new k o ho := by cases ho
  sound k o ho := by cases ho
  seen := h
  grows := .refl d

lemma congr (h : L.Fits I d s) (ho : s'.objs = s.objs) (hw : s'.writes = s.writes) :
    L.Fits I d s' := by
  obtain ⟨h1, h2, h3, h4, h5, h6, h7⟩ := h
  refine ⟨h1, ?_, ?_, ?_, ?_, ?_, ?_⟩ <;> simp only [Session.own_of_writes hw, ho] <;> assumption

lemma val (h : L.Fits I d s) {k : K} {v : V k} (hv : s.val k = some v) : L.sound k v := by
  obtain ⟨o, ho, rfl⟩ := Option.map_eq_some_iff.mp hv
  exact h.sound k o ho

/-- The rows as the session sees them. -/
lemma seen_own (h : L.Fits I d s) (hd : L.Seen d₁) : L.Seen (s.own d₁) := by
  intro k v hv
  by_cases hw : ∃ w ∈ s.writes, w.1 = k
  · rw [row_own_of_written hw d₁ d] at hv
    exact h.seen k v hv
  · rw [Session.row_own_of_not_written d₁ fun w hw' hk => hw ⟨w, hw', hk⟩] at hv
    exact hd k v hv

/-- Another transaction has committed; it has changed no row that this session has written. -/
lemma other (h : L.Fits I d s) (he : L.Evolves d d') (hseen : L.Seen d')
    (hrow : ∀ w ∈ s.writes, row d' w.1 = row d w.1)
    (hown : ∀ n ∈ I, row d' (L.key n) = row d (L.key n)) : L.Fits I d' s where
  fresh n hn := (hown n hn).trans (h.fresh n hn)
  own n hn := by
    rw [← h.own n hn]
    exact Session.row_own_congr s (hown n hn)
  stored k o b ho hb hk := by
    obtain ⟨hc, r, hr, hbr⟩ := h.stored k o b ho hb hk
    obtain ⟨r', hr', hrr⟩ := he.own s k r hr
    exact ⟨hc, r', hr', L.keeps_trans hbr hrr⟩
  new := h.new
  sound := h.sound
  seen := h.seen_own hseen
  grows k v hv := by
    by_cases hw : ∃ w ∈ s.writes, w.1 = k
    · obtain ⟨w, hw, rfl⟩ := hw
      rw [hrow w hw] at hv
      rw [row_own_of_written ⟨w, hw, rfl⟩ d' d]
      exact h.grows w.1 v hv
    · rw [Session.row_own_of_not_written d' fun w hw' hk => hw ⟨w, hw', hk⟩]
      exact ⟨v, hv, L.keeps_refl _ _⟩

/-- An id that no row has used is allocated. -/
lemma alloc (h : L.Fits I d s) {n : ℕ} (hn : n ∉ I) (hr : row (s.own d) (L.key n) = none) :
    s.objs (L.key n) = none ∧ L.Fits (insert n I) d s := by
  have hno : ¬L.Own I (L.key n) := fun ho => hn (own_key.mp ho)
  have hobj : s.objs (L.key n) = none := by
    rcases ho : s.objs (L.key n) with _ | o
    · rfl
    rcases hb : o.base with _ | b
    · rcases h.new _ o ho hb with hk | ⟨hk, -⟩
      · exact absurd hk hno
      · exact absurd rfl (hk n)
    · obtain ⟨-, r, hr', -⟩ := h.stored _ o b ho hb hno
      rw [hr] at hr'
      cases hr'
  have hmono : ∀ k, L.Own I k → L.Own (insert n I) k := fun k hk =>
    hk.mono fun _ hm => Set.mem_insert_of_mem _ hm
  refine ⟨hobj, fun m hm => ?_, fun m hm => ?_, fun k o b ho hb hk => h.stored k o b ho hb
    fun hk' => hk (hmono k hk'), fun k o ho hb => (h.new k o ho hb).imp_left (hmono k), h.sound,
    h.seen, h.grows⟩
  · rcases Set.mem_insert_iff.mp hm with rfl | hm
    · by_contra hd
      exact h.grows.ne_none hd hr
    · exact h.fresh m hm
  · rcases Set.mem_insert_iff.mp hm with rfl | hm
    · rw [hobj, hr]
      rfl
    · exact h.own m hm

variable [DecidableEq K]

/-- Rows are loaded as they are now, or as they were when they were read first. -/
lemma load (h : L.Fits I d s) (ks : List K) (hseen : L.Seen d₁) (he : L.Evolves d₁ (s.own d)) :
    L.Fits I d (s.load ks d₁) := by
  have hw : (s.load ks d₁).own d = s.own d := Session.own_of_writes (Session.load_writes s ks d₁) d
  refine ⟨h.fresh, fun n hn => ?_, fun k o b ho hb hk => ?_, fun k o ho hb => ?_,
    fun k o ho => ?_, by rw [hw]; exact h.seen, by rw [hw]; exact h.grows⟩
  · rw [hw, h.own n hn]
    rcases ho : s.objs (L.key n) with _ | o
    · -- a new row is not committed, so nobody loads it
      rcases ho' : (s.load ks d₁).objs (L.key n) with _ | o'
      · rfl
      · rcases Session.objs_load_inv ho' with hx | ⟨-, -, hr, -⟩
        · rw [ho] at hx
          cases hx
        · have := he.ne_none (k := L.key n) (by simp [hr])
          rw [h.own n hn, ho] at this
          exact absurd rfl this
    · rw [Session.objs_load ks d₁ ho]
  · rw [hw]
    rcases Session.objs_load_inv ho with ho | ⟨-, -, hr, hbase⟩
    · exact h.stored k o b ho hb hk
    · rw [hb] at hbase
      obtain rfl := Option.some.inj hbase
      exact ⟨L.keeps_refl _ _, he k _ hr⟩
  · rcases Session.objs_load_inv ho with ho | ⟨-, -, -, hbase⟩
    · exact h.new k o ho hb
    · rw [hb] at hbase
      cases hbase
  · rcases Session.objs_load_inv ho with ho | ⟨-, -, hr, -⟩
    · exact h.sound k o ho
    · exact hseen k _ hr

lemma modify (h : L.Fits I d s) {k : K} {f : V k → V k} (hf : ∀ v, s.val k = some v →
    L.sound k v → L.keeps k v (f v) ∨ L.Own I k ∧ L.sound k (f v)) :
    L.Fits I d (s.modify k f) := by
  rcases ho : s.objs k with _ | o
  · rwa [show s.modify k f = s by simp [Session.modify, ho]]
  have hk := hf o.cur (Session.val_of_objs ho) (h.sound k o ho)
  rw [Session.modify_of_some f ho]
  refine ⟨h.fresh, fun n hn => ?_, fun k' o' b ho' hb hk' => ?_, fun k' o' ho' hb => ?_,
    fun k' o' ho' => ?_, h.seen, h.grows⟩
  · show row (s.own d) _ = _
    rw [h.own n hn]
    by_cases hkn : L.key n = k
    · subst hkn
      simp [ho]
    · simp [Function.update_of_ne hkn]
  · by_cases hkk : k' = k
    · subst hkk
      obtain rfl : { o with cur := f o.cur } = o' := by simpa using ho'
      obtain ⟨hc, hr⟩ := h.stored k' o b ho hb hk'
      rcases hk with hk | ⟨hk, -⟩
      · exact ⟨L.keeps_trans hc hk, hr⟩
      · exact absurd hk hk'
    · exact h.stored k' o' b (by simpa [Function.update_of_ne hkk] using ho') hb hk'
  · by_cases hkk : k' = k
    · subst hkk
      obtain rfl : { o with cur := f o.cur } = o' := by simpa using ho'
      exact h.new k' o ho hb
    · exact h.new k' o' (by simpa [Function.update_of_ne hkk] using ho') hb
  · by_cases hkk : k' = k
    · subst hkk
      obtain rfl : { o with cur := f o.cur } = o' := by simpa using ho'
      rcases hk with hk | ⟨-, hk⟩
      · exact L.sound_of_keeps (h.sound k' o ho) hk
      · exact hk
    · exact h.sound k' o' (by simpa [Function.update_of_ne hkk] using ho')

lemma insert (h : L.Fits I d s) {k : K} {v : V k} (hv : L.sound k v)
    (hk : L.Own I k ∧ s.objs k = none ∨ (∀ n, k ≠ L.key n) ∧ ∀ w w', L.keeps k w w') :
    L.Fits I d (s.insert k v) := by
  refine ⟨h.fresh, fun n hn => ?_, fun k' o' b ho' hb hk' => ?_, fun k' o' ho' hb => ?_,
    fun k' o' ho' => ?_, h.seen, h.grows⟩
  · show row (s.own d) _ = _
    rw [h.own n hn]
    by_cases hkn : L.key n = k
    · subst hkn
      rcases hk with ⟨-, hk⟩ | ⟨hk, -⟩
      · simp [Session.insert, hk]
      · exact absurd rfl (hk n)
    · simp [Session.insert, Function.update_of_ne hkn]
  · by_cases hkk : k' = k
    · subst hkk
      obtain rfl : (⟨none, v⟩ : Obj (V k')) = o' := by simpa [Session.insert] using ho'
      cases hb
    · exact h.stored k' o' b (by simpa [Session.insert, Function.update_of_ne hkk] using ho') hb hk'
  · by_cases hkk : k' = k
    · subst hkk
      exact hk.imp_left And.left
    · exact h.new k' o' (by simpa [Session.insert, Function.update_of_ne hkk] using ho') hb
  · by_cases hkk : k' = k
    · subst hkk
      obtain rfl : (⟨none, v⟩ : Obj (V k')) = o' := by simpa [Session.insert] using ho'
      exact hv
    · exact h.sound k' o' (by simpa [Session.insert, Function.update_of_ne hkk] using ho')

omit [DecidableEq K] in
/-- The row that a flush writes: it keeps what the stored row and the object have kept. -/
lemma written (h : L.Fits I d s) {k : K} {o : Obj (V k)} {v : V k} (ho : s.objs k = some o)
    (hv : (∃ b r, o.base = some b ∧ row (s.own d) k = some r ∧ v = merge D k b o.cur r) ∨
      o.base = none ∧ row (s.own d) k = none ∧ v = o.cur) :
    L.sound k v ∧ (L.Own I k → v = o.cur) ∧
      (¬L.Own I k → L.keeps k o.cur v ∧ ∀ r, row (s.own d) k = some r → L.keeps k r v) := by
  have hcur := h.sound k o ho
  rcases hv with ⟨b, r, hb, hr, rfl⟩ | ⟨hb, hr, rfl⟩
  · by_cases hk : L.Own I k
    · obtain ⟨n, hn, rfl⟩ := hk
      have hbr := h.own n hn
      rw [ho, hr] at hbr
      obtain rfl : r = b := Option.some.inj (hbr.trans hb)
      rw [merge_base]
      exact ⟨hcur, fun _ => rfl, fun hk => absurd (own_key.mpr hn) hk⟩
    · obtain ⟨hc, r', hr', hbr⟩ := h.stored k o b ho hb hk
      obtain rfl : r' = r := Option.some.inj (hr'.symm.trans hr)
      obtain ⟨hrm, hcm⟩ := L.keeps_merge hc hbr
      refine ⟨L.sound_of_keeps (h.seen k _ hr) hrm, fun hk' => absurd hk' hk, fun _ =>
        ⟨hcm, fun r'' hr'' => ?_⟩⟩
      obtain rfl : r'' = r' := Option.some.inj (hr''.symm.trans hr)
      exact hrm
  · refine ⟨hcur, fun _ => rfl, fun _ => ⟨L.keeps_refl _ _, fun r hr' => ?_⟩⟩
    rw [hr] at hr'
    cases hr'

lemma flush1 (h : L.Fits I d s) {k : K} (hs : s.flush1 k d = some s') : L.Fits I d s' := by
  obtain ⟨o, v, ho, rfl, hv⟩ := Session.flush1_inv hs
  obtain ⟨hsound, hown, hkeeps⟩ := h.written ho hv
  have hself : ∀ s'' : Session K V Q A, s''.writes = s.writes ++ [⟨k, v⟩] →
      row (s''.own d) k = some v ∧ ∀ k', k' ≠ k → row (s''.own d) k' = row (s.own d) k' := by
    intro s'' hw
    rw [Session.own_append hw]
    exact ⟨row_write_self _ _ _, fun k' hk' => row_write_of_ne _ _ _ _ hk'⟩
  refine ⟨h.fresh, fun n hn => ?_, fun k' o' b ho' hb hk' => ?_, fun k' o' ho' hb => ?_,
    fun k' o' ho' => ?_, fun k' v' hv' => ?_, fun k' v' hv' => ?_⟩
  · by_cases hkn : L.key n = k
    · subst hkn
      rw [(hself _ rfl).1, hown (own_key.mpr hn)]
      simp
    · rw [(hself _ rfl).2 _ hkn, h.own n hn]
      simp [Function.update_of_ne hkn]
  · by_cases hkk : k' = k
    · subst hkk
      obtain rfl : (⟨some o.cur, o.cur⟩ : Obj (V k')) = o' := by simpa using ho'
      obtain rfl : o.cur = b := Option.some.inj hb
      exact ⟨L.keeps_refl _ _, v, (hself _ rfl).1, (hkeeps hk').1⟩
    · rw [(hself _ rfl).2 _ hkk]
      exact h.stored k' o' b (by simpa [Function.update_of_ne hkk] using ho') hb hk'
  · by_cases hkk : k' = k
    · subst hkk
      obtain rfl : (⟨some o.cur, o.cur⟩ : Obj (V k')) = o' := by simpa using ho'
      cases hb
    · exact h.new k' o' (by simpa [Function.update_of_ne hkk] using ho') hb
  · by_cases hkk : k' = k
    · subst hkk
      obtain rfl : (⟨some o.cur, o.cur⟩ : Obj (V k')) = o' := by simpa using ho'
      exact h.sound k' o ho
    · exact h.sound k' o' (by simpa [Function.update_of_ne hkk] using ho')
  · by_cases hkk : k' = k
    · subst hkk
      rw [(hself _ rfl).1] at hv'
      rwa [← Option.some.inj hv']
    · rw [(hself _ rfl).2 _ hkk] at hv'
      exact h.seen k' v' hv'
  · obtain ⟨w, hw, hvw⟩ := h.grows k' v' hv'
    by_cases hkk : k' = k
    · subst hkk
      have hk : ¬L.Own I k' := by
        rintro ⟨n, hn, rfl⟩
        rw [h.fresh n hn] at hv'
        cases hv'
      exact ⟨v, (hself _ rfl).1, L.keeps_trans hvw ((hkeeps hk).2 w hw)⟩
    · exact ⟨w, by rw [(hself _ rfl).2 _ hkk, hw], hvw⟩

end Fits

end Discipline

/-! ### Configurations of transactions that keep a discipline -/

section Steps

variable [DecidableEq T] [DecidableEq K] {iso : Isolation} {env : T → (q : Q) → A q}
  {c c' : Conf T D K V Q A ε α} {t u : T} {p : Prog D K V Q A ε α} {ids : T → Set ℕ}

/-- The rows that a transaction has locked. -/
def Conf.locked (c : Conf T D K V Q A ε α) (t : T) : Set K := {k | c.owner k = some t}

/-- A running transaction is at a program that keeps the discipline from its session. -/
structure Obeys (L : Discipline D K V) (env : T → (q : Q) → A q) (c : Conf T D K V Q A ε α)
    (I : Set ℕ) (t : T) (p : Prog D K V Q A ε α) : Prop where
  wp : wpOrder L (env t) p (fun _ _ _ _ => True) (fun _ _ _ _ => True) (c.sess t) (c.locked t) I
  fits : L.Fits I c.db (c.sess t)
  snap : ∀ d, c.snap t = some d → L.Seen d ∧ L.Evolves d c.db
  wrote : ∀ w ∈ (c.sess t).writes, c.owner w.1 = some t
  owns : ∀ n, c.owner (L.key n) = some t → n ∈ I ∨ row c.db (L.key n) ≠ none

/-- What holds in every configuration; `ids t` are the ids allocated to `t`. -/
structure Disciplined (L : Discipline D K V) (env : T → (q : Q) → A q) (ids : T → Set ℕ)
    (c : Conf T D K V Q A ε α) : Prop where
  running : ∀ t p, c.phase t = .running p → Obeys L env c (ids t) t p
  owned : ∀ k t, c.owner k = some t → ∃ p, c.phase t = .running p
  seen : L.Seen c.db
  first : L.first ≤ c.next
  fresh : ∀ n, c.next ≤ n → row c.db (L.key n) = none
  allocated : ∀ t, ∀ n ∈ ids t, n < c.next
  apart : ∀ t u n, n ∈ ids t → n ∈ ids u → t = u

namespace Obeys

variable {L : Discipline D K V} {I : Set ℕ}

omit [DecidableEq T] in
/-- The actions of other transactions. -/
lemma frame (h : Obeys L env c I t p) (hsess : c'.sess t = c.sess t) (hsnap : c'.snap t = c.snap t)
    (howner : ∀ k, c'.owner k = some t ↔ c.owner k = some t) (he : L.Evolves c.db c'.db)
    (hseen : L.Seen c'.db) (hrow : ∀ k, c.owner k = some t → row c'.db k = row c.db k)
    (hown : ∀ n ∈ I, row c'.db (L.key n) = none) : Obeys L env c' I t p where
  wp := by
    have hl : c'.locked t = c.locked t := Set.ext howner
    rw [hsess, hl]
    exact h.wp
  fits := by
    rw [hsess]
    exact h.fits.other he hseen (fun w hw => hrow _ (h.wrote w hw)) fun n hn =>
      (hown n hn).trans (h.fits.fresh n hn).symm
  snap d hd := by
    rw [hsnap] at hd
    exact ⟨(h.snap d hd).1, (h.snap d hd).2.trans he⟩
  wrote w hw := by
    rw [hsess] at hw
    exact (howner _).mpr (h.wrote w hw)
  owns n hn := (h.owns n ((howner _).mp hn)).imp_right he.ne_none

omit [DecidableEq T] in
/-- What a plain read may see. -/
lemma view (h : Obeys L env c I t p) (hseen : L.Seen c.db) (iso : Isolation) :
    L.Seen (c.view iso t) ∧ L.Evolves (c.view iso t) c.db := by
  cases iso with
  | readCommitted => exact ⟨hseen, .refl _⟩
  | repeatableRead =>
    rcases hd : c.snap t with _ | d
    · simpa [Conf.view, hd] using ⟨hseen, Discipline.Evolves.refl c.db⟩
    · simpa [Conf.view, hd] using h.snap d hd

end Obeys

namespace Disciplined

variable {L : Discipline D K V} {ids ids' : T → Set ℕ} {p' : Prog D K V Q A ε α}

/-- A statement that changes only the transaction's own state and takes free locks. -/
lemma put (h : Disciplined L env ids c) (hp : c.phase t = .running p) (hdb : c'.db = c.db)
    (hphase : c'.phase = Function.update c.phase t (.running p'))
    (hsess : ∀ u, u ≠ t → c'.sess u = c.sess u) (hsnap : ∀ u, u ≠ t → c'.snap u = c.snap u)
    (howner : ∀ u, u ≠ t → ∀ k, c'.owner k = some u ↔ c.owner k = some u)
    (hnext : c.next ≤ c'.next) (hids : ∀ u, u ≠ t → ids' u = ids u)
    (hnew : ∀ n ∈ ids' t, n ∈ ids t ∨ c.next ≤ n ∧ n < c'.next)
    (hat : Obeys L env c' (ids' t) t p') : Disciplined L env ids' c' where
  running u q hq := by
    by_cases hu : u = t
    · subst hu
      rw [hphase, Function.update_self] at hq
      cases hq
      exact hat
    · rw [hphase, Function.update_of_ne hu] at hq
      rw [hids u hu]
      have hobeys := h.running u q hq
      exact hobeys.frame (hsess u hu) (hsnap u hu) (howner u hu) (by rw [hdb]; exact .refl _)
        (by rw [hdb]; exact h.seen) (fun k _ => by rw [hdb])
        fun n hn => by rw [hdb]; exact hobeys.fits.fresh n hn
  owned k u hk := by
    rw [hphase]
    by_cases hu : u = t
    · subst hu
      exact ⟨p', by simp⟩
    · rw [Function.update_of_ne hu]
      exact h.owned k u ((howner u hu k).mp hk)
  seen := by
    rw [hdb]
    exact h.seen
  first := h.first.trans hnext
  fresh n hn := by
    rw [hdb]
    exact h.fresh n (hnext.trans hn)
  allocated u n hn := by
    by_cases hu : u = t
    · subst hu
      rcases hnew n hn with hn | hn
      · exact (h.allocated u n hn).trans_le hnext
      · exact hn.2
    · rw [hids u hu] at hn
      exact (h.allocated u n hn).trans_le hnext
  apart u v n hu hv := by
    -- an id of another transaction is older than those allocated now
    have hold : ∀ w, w ≠ t → n ∈ ids' w → n ∈ ids' t → w = t := by
      intro w hw hnw hnt
      rw [hids w hw] at hnw
      rcases hnew n hnt with hnt | hnt
      · exact h.apart w t n hnw hnt
      · exact absurd (h.allocated w n hnw) (by omega)
    by_cases hut : u = t
    · by_cases hvt : v = t
      · rw [hut, hvt]
      · exact absurd (hold v hvt hv (hut ▸ hu)) hvt
    · by_cases hvt : v = t
      · exact absurd (hold u hut hu (hvt ▸ hv)) hut
      · rw [hids u hut] at hu
        rw [hids v hvt] at hv
        exact h.apart u v n hu hv

/-- A transaction ends; the others see what it has committed under its locks only. -/
lemma finish (h : Disciplined L env ids c) {ph : Phase D K V Q A ε α} (hph : ∀ p, ph ≠ .running p)
    (hsess : c'.sess = c.sess) (hsnap : c'.snap = c.snap)
    (hphase : c'.phase = Function.update c.phase t ph)
    (howner : c'.owner = fun k => if c.owner k = some t then none else c.owner k)
    (hnext : c'.next = c.next) (he : L.Evolves c.db c'.db) (hseen : L.Seen c'.db)
    (hrow : ∀ k, c.owner k ≠ some t → row c'.db k = row c.db k)
    (hnone : ∀ n, n ∉ ids t → row c.db (L.key n) = none → row c'.db (L.key n) = none) :
    Disciplined L env ids c' where
  running u q hq := by
    by_cases hu : u = t
    · subst hu
      rw [hphase, Function.update_self] at hq
      exact absurd hq (hph q)
    · rw [hphase, Function.update_of_ne hu] at hq
      have hobeys := h.running u q hq
      -- the others hold other locks, and their fresh ids are not of the transaction
      refine hobeys.frame (by rw [hsess]) (by rw [hsnap]) (fun k => ?_) he hseen
        (fun k hk => hrow k (by simp [hk, hu])) fun n hn =>
          hnone n (fun hnt => hu (h.apart u t n hn hnt)) (hobeys.fits.fresh n hn)
      rw [howner]
      simp only
      split
      · next hk => simp [hk, Ne.symm hu]
      · rfl
  owned k u hk := by
    rw [howner] at hk
    simp only at hk
    split at hk
    · cases hk
    · next hk' =>
      have hu : u ≠ t := by
        rintro rfl
        exact hk' hk
      rw [hphase, Function.update_of_ne hu]
      exact h.owned k u hk
  seen := hseen
  first := hnext ▸ h.first
  fresh n hn := by
    rw [hnext] at hn
    exact hnone n (fun hnt => absurd (h.allocated t n hnt) (by omega)) (h.fresh n hn)
  allocated u n hn := by
    rw [hnext]
    exact h.allocated u n hn
  apart := h.apart

omit [DecidableEq T] in
/-- A transaction writes rows of its own ids and rows that there are. -/
lemma not_written (h : Disciplined L env ids c) (hp : c.phase t = .running p) {n : ℕ}
    (hn : n ∉ ids t) (hr : row c.db (L.key n) = none) :
    ∀ w ∈ (c.sess t).writes, w.1 ≠ L.key n := by
  intro w hw hk
  have ho := (h.running t p hp).wrote w hw
  rw [hk] at ho
  rcases (h.running t p hp).owns n ho with hn' | hr'
  · exact hn hn'
  · exact hr' hr

lemma commit (h : Disciplined L env ids c) {a : α} (hp : c.phase t = .running p) :
    Disciplined L env ids (c.commit t a) := by
  have hat := h.running t p hp
  refine h.finish (by simp) rfl rfl rfl rfl rfl hat.fits.grows hat.fits.seen (fun k hk => ?_)
    fun n hn hr => ?_
  · refine Session.row_own_of_not_written c.db fun w hw hwk => hk ?_
    rw [← hwk]
    exact hat.wrote w hw
  · exact (Session.row_own_of_not_written c.db (h.not_written hp hn hr)).trans hr

lemma rollback (h : Disciplined L env ids c) (e : Option ε) :
    Disciplined L env ids (c.finish t (.rolledBack e)) :=
  h.finish (by simp) rfl rfl rfl rfl rfl (.refl _) h.seen (fun _ _ => rfl) fun _ _ hr => hr

/-- A statement without locks. -/
lemma own (h : Disciplined L env ids c) (hp : c.phase t = .running p) {s : Session K V Q A} {n : ℕ}
    {sn : T → Option D} (hsn : ∀ u, u ≠ t → sn u = c.snap u)
    (hsnap : ∀ d, sn t = some d → L.Seen d ∧ L.Evolves d c.db) (hn : c.next ≤ n)
    (hids : ∀ u, u ≠ t → ids' u = ids u)
    (hnew : ∀ m, m ∈ ids' t ↔ m ∈ ids t ∨ c.next ≤ m ∧ m < n)
    (hw : wpOrder L (env t) p' (fun _ _ _ _ => True) (fun _ _ _ _ => True) s (c.locked t) (ids' t))
    (hfits : L.Fits (ids' t) c.db s) (hwr : s.writes = (c.sess t).writes) :
    Disciplined L env ids' { c.put t p' s with next := n, snap := sn } := by
  have hat := h.running t p hp
  refine h.put hp rfl rfl (fun u hu => by simp [Conf.put, hu]) hsn (fun _ _ _ => Iff.rfl) hn hids
    (fun m hm => (hnew m).mp hm) ⟨?_, ?_, hsnap, ?_, fun m hm => ?_⟩
  · show wpOrder L (env t) p' _ _ ((c.put t p' s).sess t) (c.locked t) (ids' t)
    rwa [show (c.put t p' s).sess t = s by simp [Conf.put]]
  · simpa [Conf.put] using hfits
  · simpa [Conf.put, hwr] using hat.wrote
  · exact (hat.owns m hm).imp_left fun hm => (hnew m).mpr (Or.inl hm)

/-- A statement that takes the locks of some rows. -/
lemma lock (h : Disciplined L env ids c) (hp : c.phase t = .running p) {s : Session K V Q A}
    {ks : List K} (hf : ∀ k ∈ ks, c.free t k = true)
    (hw : wpOrder L (env t) p' (fun _ _ _ _ => True) (fun _ _ _ _ => True) s
      {k | k ∈ ks ∨ k ∈ c.locked t} (ids t)) (hfits : L.Fits (ids t) c.db s)
    (hwr : ∀ w ∈ s.writes, w ∈ (c.sess t).writes ∨ w.1 ∈ ks)
    (howns : ∀ n, L.key n ∈ ks → n ∈ ids t ∨ row ((c.sess t).own c.db) (L.key n) ≠ none) :
    Disciplined L env ids ((c.put t p' s).take t ks) := by
  have hat := h.running t p hp
  have hlocked : ((c.put t p' s).take t ks).locked t = {k | k ∈ ks ∨ k ∈ c.locked t} := by
    ext k
    by_cases hk : k ∈ ks <;> simp [Conf.locked, Conf.take, Conf.put, hk]
  refine h.put hp rfl rfl (fun u hu => by simp [Conf.put, Conf.take, hu]) (fun _ _ => rfl)
    (fun u hu => owner_take hf hu) le_rfl (fun _ _ => rfl) (fun _ hm => Or.inl hm)
    ⟨?_, ?_, hat.snap, fun w hw' => ?_, fun n hn => ?_⟩
  · rw [hlocked]
    simpa [Conf.put, Conf.take] using hw
  · simpa [Conf.put, Conf.take] using hfits
  · have hw' : w ∈ s.writes := by simpa [Conf.put, Conf.take] using hw'
    have : w.1 ∈ ((c.put t p' s).take t ks).locked t := by
      rw [hlocked]
      rcases hwr w hw' with hw' | hw'
      · exact Or.inr (hat.wrote w hw')
      · exact Or.inl hw'
    exact this
  · have hn : L.key n ∈ ((c.put t p' s).take t ks).locked t := hn
    rw [hlocked] at hn
    rcases hn with hn | hn
    · by_contra hno
      simp only [not_or, not_not] at hno
      rcases howns n hn with hn | hr
      · exact hno.1 hn
      · refine hr ((Session.row_own_of_not_written c.db (h.not_written hp hno.1 hno.2)).trans ?_)
        exact hno.2
    · exact hat.owns n hn

omit [DecidableEq T] [DecidableEq K] [RowStore D K V] in
lemma locked_singleton (c : Conf T D K V Q A ε α) (t : T) (k : K) :
    {k' | k' ∈ [k] ∨ k' ∈ c.locked t} = insert k (c.locked t) := by
  ext k'
  simp

/-- One statement keeps the invariant; a statement may allocate an id. -/
theorem stepProg (h : Disciplined L env ids c) (hp : c.phase t = .running p)
    (hs : stepProg iso env c t p = some c') : ∃ ids', Disciplined L env ids' c' := by
  have hat := h.running t p hp
  have hw := hat.wp
  have hsame : ∀ m, m ∈ ids t ↔ m ∈ ids t ∨ c.next ≤ m ∧ m < c.next :=
    fun m => ⟨Or.inl, fun hm => hm.resolve_right (by omega)⟩
  cases p with
  | pure a =>
    cases hs
    exact ⟨ids, h.commit hp⟩
  | raise e =>
    cases hs
    exact ⟨ids, h.rollback (some e)⟩
  | read q f =>
    cases hs
    obtain ⟨hseen, he⟩ := hat.view h.seen iso
    have hseen' := hat.fits.seen_own hseen
    refine ⟨ids, h.own hp (fun u hu => by simp [hu]) (fun d hd => ?_) le_rfl (fun _ _ => rfl) hsame
      (hw _ hseen') (hat.fits.load _ hseen' (he.own _)) (by simp)⟩
    rw [Function.update_self] at hd
    cases hd
    exact ⟨hseen, he⟩
  | lock k f =>
    simp only [RowTxn.stepProg] at hs
    split at hs
    · next hf =>
      cases hs
      obtain ⟨-, hnone, hsome⟩ := hw
      rcases hr : row ((c.sess t).own c.db) k with _ | v
      · rw [Session.select1_of_none hr]
        refine ⟨ids, h.lock hp (by simp) ?_ hat.fits (fun w hw => Or.inl hw) (by simp)⟩
        simpa using hnone
      · have hsel : (c.sess t).select1 k c.db =
            ((c.sess t).load1 k (some v), ((c.sess t).load1 k (some v)).val k) := by
          simp [Session.select1, hr]
        rw [hsel]
        refine ⟨ids, h.lock hp (by simpa using hf) ?_ ?_ (fun w hw => ?_) (fun n hn => ?_)⟩
        · simp only [Option.isSome_some, if_true]
          rw [locked_singleton]
          exact hsome v (hat.fits.seen k v hr)
        · have := hat.fits.load [k] hat.fits.seen (.refl _)
          simpa [Session.load, hr] using this
        · left
          simpa using hw
        · right
          obtain rfl : L.key n = k := by simpa using hn
          simp [hr]
    · cases hs
  | lockWhere q n f =>
    cases hs
    have hpick := fun k (hk : k ∈ (c.sess t).pick q n c.db (c.free t)) => Session.of_mem_pick hk
    refine ⟨ids, h.lock hp (fun k hk => (hpick k hk).2.2)
      (hw _ _ hat.fits.seen (fun k hk => (hpick k hk).1) (List.length_take_le _ _))
      (hat.fits.load _ hat.fits.seen (.refl _)) (fun w hw => ?_) fun m hm => ?_⟩
    · left
      simpa using hw
    · exact Or.inr (hpick _ hm).2.1
  | get k f =>
    cases hs
    exact ⟨ids, h.own hp (fun _ _ => rfl) hat.snap le_rfl (fun _ _ => rfl) hsame
      (hw fun v hv => hat.fits.val hv) hat.fits rfl⟩
  | modify k g q =>
    cases hs
    exact ⟨ids, h.own hp (fun _ _ => rfl) hat.snap le_rfl (fun _ _ => rfl) hsame hw.2
      (hat.fits.modify hw.1) (by simp)⟩
  | insert k v q =>
    cases hs
    exact ⟨ids, h.own hp (fun _ _ => rfl) hat.snap le_rfl (fun _ _ => rfl) hsame hw.2.2
      (hat.fits.insert hw.2.1 hw.1) rfl⟩
  | alloc f =>
    cases hs
    have hn : c.next ∉ ids t := fun hn => absurd (h.allocated t _ hn) (lt_irrefl _)
    have hr := (Session.row_own_of_not_written c.db (h.not_written hp hn (h.fresh _ le_rfl))).trans
      (h.fresh _ le_rfl)
    obtain ⟨hobj, hfits⟩ := hat.fits.alloc hn hr
    have hids : Function.update ids t (insert c.next (ids t)) t = insert c.next (ids t) := by simp
    refine ⟨Function.update ids t (insert c.next (ids t)), h.own hp (fun _ _ => rfl) hat.snap
      (Nat.le_succ _) (fun u hu => by simp [hu]) (fun m => ?_) ?_ ?_ rfl⟩
    · rw [hids, Set.mem_insert_iff]
      constructor
      · rintro (rfl | hm)
        · exact Or.inr ⟨le_rfl, Nat.lt_succ_self _⟩
        · exact Or.inl hm
      · rintro (hm | hm)
        · exact Or.inr hm
        · exact Or.inl (by omega)
    · rw [hids]
      exact hw _ h.first hobj
    · rw [hids]
      exact hfits
  | ask q f =>
    cases hs
    exact ⟨ids, h.own hp (fun _ _ => rfl) hat.snap le_rfl (fun _ _ => rfl) hsame hw
      (hat.fits.congr rfl rfl) rfl⟩
  | flush f =>
    have hw : wpOrderFlush L (ids t) (c.sess t).dirty _ (c.sess t) (c.locked t) := hw
    simp only [RowTxn.stepProg] at hs
    rcases hd : (c.sess t).dirty with _ | ⟨k, ks⟩
    · rw [hd] at hs hw
      cases hs
      exact ⟨ids, h.own hp (fun _ _ => rfl) hat.snap le_rfl (fun _ _ => rfl) hsame hw hat.fits rfl⟩
    · rw [hd] at hs hw
      simp only at hs
      split at hs
      · next hf =>
        rcases h1 : (c.sess t).flush1 k c.db with _ | s'
        · rw [h1] at hs
          cases hs
          exact ⟨ids, h.own hp (fun _ _ => rfl) hat.snap le_rfl (fun _ _ => rfl) hsame hw.2.1
            hat.fits rfl⟩
        · rw [h1] at hs
          cases hs
          refine ⟨ids, h.lock hp (by simpa using hf) ?_ (hat.fits.flush1 h1) (fun w hw => ?_)
            fun n hn => ?_⟩
          · rw [locked_singleton]
            show wpOrderFlush L _ s'.dirty _ s' _
            rw [(flush1_step h1).2.2.1, hd]
            exact hw.2.2 c.db s' h1
          · simpa using (flush1_step h1).2.2.2.2.1 w hw
          · obtain rfl : L.key n = k := by simpa using hn
            -- the row is updated, or it is inserted under an id of this transaction
            obtain ⟨o, v, ho, -, hv⟩ := Session.flush1_inv h1
            rcases hv with ⟨b, r, -, hr, -⟩ | ⟨hb, -, -⟩
            · right
              simp [hr]
            · rcases hat.fits.new _ o ho hb with hk | ⟨hk, -⟩
              · exact Or.inl (Discipline.own_key.mp hk)
              · exact absurd rfl (hk n)
      · cases hs

theorem act (h : Disciplined L env ids c) {a : Act T} (ha : act iso env c a = some c') :
    ∃ ids', Disciplined L env ids' c' := by
  cases a with
  | step t =>
    rcases hp : c.phase t with p | b | e <;> simp only [RowTxn.act, hp, reduceCtorEq] at ha
    exact h.stepProg hp ha
  | abort t =>
    rcases hp : c.phase t with p | b | e <;>
      simp only [RowTxn.act, hp, reduceCtorEq, Option.some.injEq] at ha
    subst ha
    exact ⟨ids, h.rollback none⟩

omit [DecidableEq T] in
lemma init {d : D} {n : ℕ} {p : T → Prog D K V Q A ε α} (hd : L.Seen d) (hn : L.first ≤ n)
    (hfresh : ∀ m, n ≤ m → row d (L.key m) = none)
    (hp : ∀ t, wpOrder L (env t) (p t) (fun _ _ _ _ => True) (fun _ _ _ _ => True)
      Session.init ∅ ∅) : Disciplined L env (fun _ => ∅) (Conf.init d n p) where
  running t q hq := by
    cases hq
    have hl : (Conf.init d n p : Conf T D K V Q A ε α).locked t = ∅ := by
      ext k
      simp [Conf.locked, Conf.init]
    exact ⟨by rw [hl]; exact hp t, .init hd, by simp [Conf.init], by simp [Conf.init, Session.init],
      by simp [Conf.init]⟩
  owned k t hk := by simp [Conf.init] at hk
  seen := hd
  first := hn
  fresh := hfresh
  allocated t m hm := hm.elim
  apart t u m hm := hm.elim

/-! ### Waits go up -/

omit [DecidableEq T] in
/-- A transaction that waits holds only rows that come before the one it waits for. -/
lemma waits (h : Disciplined L env ids c) (hw : c.Waits t u) :
    ∃ k, c.request t = some k ∧ c.owner k = some u ∧ L.asked k ∧
      ∀ k', c.owner k' = some t → L.asked k' → L.before k' k := by
  obtain ⟨k, hk, ho, hu⟩ := hw
  rcases hp : c.phase t with p | a | e
  rotate_left
  · simp [Conf.request, hp] at hk
  · simp [Conf.request, hp] at hk
  have hat := h.running t p hp
  have hmay : L.May (c.locked t) (ids t) k := by
    have hwp := hat.wp
    rw [Conf.request_of_running hp] at hk
    cases p with
    | lock k' f =>
      cases hk
      exact hwp.1
    | flush f =>
      have hwp : wpOrderFlush L (ids t) (c.sess t).dirty _ (c.sess t) (c.locked t) := hwp
      rcases hd : (c.sess t).dirty with _ | ⟨k', ks⟩
      · simp [Prog.request, hd] at hk
      · rw [hd] at hwp
        obtain rfl : k' = k := by simpa [Prog.request, hd] using hk
        exact hwp.1
    | _ => cases hk
  rcases hmay with hmem | ⟨n, hn, rfl⟩ | ⟨hask, hbefore⟩
  · have hmem : c.owner k = some t := hmem
    rw [ho] at hmem
    exact absurd (Option.some.inj hmem) hu
  · -- a row that is not committed is locked by nobody else
    obtain ⟨q, hq⟩ := h.owned _ u ho
    rcases (h.running u q hq).owns n ho with hnu | hr
    · exact absurd (h.apart u t n hnu hn) hu
    · exact absurd (hat.fits.fresh n hn) hr
  · exact ⟨k, hk, ho, hask, hbefore⟩

omit [DecidableEq T] in
/-- Along a path of waits the rows that are asked for ascend. -/
lemma request_before (h : Disciplined L env ids c) (hpath : Relation.TransGen c.Waits t u)
    (hu : ∃ w, c.Waits u w) : ∃ k k', c.request t = some k ∧ c.request u = some k' ∧
      L.before k k' := by
  obtain ⟨w, hw⟩ := hu
  obtain ⟨k', hk', -, -, hbefore⟩ := h.waits hw
  induction hpath generalizing w k' with
  | single htu =>
    obtain ⟨k, hk, ho, hask, -⟩ := h.waits htu
    exact ⟨k, k', hk, hk', hbefore k ho hask⟩
  | @tail v u _ hvu ih =>
    obtain ⟨j, hj, ho, hask, hbefore'⟩ := h.waits hvu
    obtain ⟨k, j', hk, hj', hkj⟩ := ih u hvu j hj hbefore'
    obtain rfl : j' = j := Option.some.inj (hj'.symm.trans hj)
    exact ⟨k, k', hk, hk', L.before_trans hkj (hbefore j' ho hask)⟩

omit [DecidableEq T] in
theorem not_deadlock (h : Disciplined L env ids c) : ¬c.Deadlock := by
  rintro ⟨t, hcycle⟩
  obtain ⟨u, hu, -⟩ := Relation.TransGen.head'_iff.mp hcycle
  obtain ⟨k, k', hk, hk', hbefore⟩ := h.request_before hcycle ⟨u, hu⟩
  obtain rfl : k = k' := Option.some.inj (hk.symm.trans hk')
  exact L.before_irrefl k hbefore

end Disciplined

/-- Transactions that keep a discipline never wait in a cycle. -/
theorem not_deadlock_of_wpOrder {L : Discipline D K V} {d : D} {n : ℕ}
    {p : T → Prog D K V Q A ε α} (hd : L.Seen d) (hn : L.first ≤ n)
    (hfresh : ∀ m, n ≤ m → row d (L.key m) = none)
    (hp : ∀ t, wpOrder L (env t) (p t) (fun _ _ _ _ => True) (fun _ _ _ _ => True)
      Session.init ∅ ∅) (hr : Reachable iso env (Conf.init d n p) c) : ¬c.Deadlock := by
  have : ∃ ids, Disciplined L env ids c := by
    induction hr with
    | init => exact ⟨_, .init hd hn hfresh hp⟩
    | act _ ha _ ih =>
      obtain ⟨ids, h⟩ := ih
      exact h.act ha
  obtain ⟨ids, h⟩ := this
  exact h.not_deadlock

end Steps

end RowTxn
