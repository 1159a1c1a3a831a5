/-
# Transactions that only read

A program that locks and changes nothing leaves the database as it is, and its commit does nothing.
Beside it, the programs that only wrap the result of another one: they end as the other one does.
-/
import InventoryReservation.RowTxn.Footprint
import InventoryReservation.RowTxn.Solo

namespace RowTxn

variable {D K : Type} {V : K → Type} {Q : Type} {A : Q → Type} {ε α β : Type} [DecidableEq K]
  [RowStore D K V] {env : (q : Q) → A q} {d : D} {n : ℕ} {s : Session K V Q A} {err : ε}
  {p : Prog D K V Q A ε α}

open RowStore

/-! ### Results that are wrapped -/

/-- A program whose result is wrapped. -/
def Prog.wrap (g : α → β) (p : Prog D K V Q A ε α) : Prog D K V Q A ε β := p.bind fun a => .pure (g a)

/-- An outcome with another result. -/
def Outcome.wrap (g : α → β) (out : Outcome D Q A ε α) : Outcome D Q A ε β :=
  ⟨out.result.map g, out.db, out.trace⟩

/-- How a commit ends, after the program has ended. -/
def committed (err : ε) (d : D) : Except ε α × Session K V Q A → Except ε α × Session K V Q A
  | (.ok a, s) => (if (flushAll s.dirty s d).1 then .ok a else .error err, (flushAll s.dirty s d).2)
  | (.error e, s) => (.error e, s)

lemma solo_wrap (g : α → β) (p : Prog D K V Q A ε α) :
    solo env d (p.wrap g) n s = ((solo env d p n s).1.map g, (solo env d p n s).2) := by
  induction p generalizing n s with
  | pure a => rfl
  | raise e => rfl
  | modify k f c ih => exact ih
  | insert k v c ih => exact ih
  | _ => rename_i ih; exact ih _

lemma solo_commit (err : ε) (p : Prog D K V Q A ε α) :
    solo env d (p.commit err) n s = committed err d (solo env d p n s) := by
  induction p generalizing n s with
  | pure a =>
    simp only [Prog.commit, Prog.pure_bind, solo, committed]
    rcases (flushAll s.dirty s d).1 with _ | _ <;> rfl
  | raise e => rfl
  | modify k f c ih => exact ih
  | insert k v c ih => exact ih
  | _ => rename_i ih; exact ih _

lemma committed_wrap (g : α → β) (r : Except ε α × Session K V Q A) :
    committed err d (r.1.map g, r.2) = ((committed err d r).1.map g, (committed err d r).2) := by
  obtain ⟨e | a, s⟩ := r
  · rfl
  · simp only [Except.map, committed]
    rcases (flushAll s.dirty s d).1 with _ | _ <;> rfl

/-- A transaction whose result is wrapped ends as the transaction itself. -/
theorem transact_wrap (err : ε) (g : α → β) (p : Prog D K V Q A ε α) :
    transact env d ((p.wrap g).commit err) = (transact env d (p.commit err)).wrap g := by
  unfold transact
  rw [solo_commit, solo_commit, solo_wrap, committed_wrap]
  rcases committed err d (solo env d p (fresh d) Session.init) with ⟨e | a, s⟩ <;> rfl

/-- How a program that runs alone ends. -/
lemma transact_result_of_wp {P : α → Prop} {E : ε → Prop}
    (hw : wp (Rely.solo d) env p (fun a _ _ => P a) (fun e _ _ => E e) Session.init fun _ => none) :
    (∃ a, P a ∧ (transact env d p).result = .ok a) ∨
      ∃ e, E e ∧ (transact env d p).result = .error e := by
  obtain ⟨H, -, hend⟩ := solo_of_wp (Prog.takesIds_of_le (fun _ hm => hm) _) (Alone.init d) hw
  unfold transact
  generalize solo env d p (fresh d) Session.init = out at hend
  obtain ⟨e | a, s⟩ := out
  · exact Or.inr ⟨e, hend, rfl⟩
  · exact Or.inl ⟨a, hend, rfl⟩

/-! ### Programs that only read -/

/-- The program locks and changes nothing. -/
def Prog.OnlyReads (p : Prog D K V Q A ε α) : Prop := p.Within (fun _ => False) fun _ => True

/-- The session has nothing to write. -/
structure Session.Clean (s : Session K V Q A) : Prop where
  dirty : s.dirty = []
  writes : s.writes = []

omit [DecidableEq K] in
lemma Session.Clean.init : (Session.init : Session K V Q A).Clean := ⟨rfl, rfl⟩

lemma Session.Clean.load (h : s.Clean) (ks : List K) (d : D) : (s.load ks d).Clean :=
  ⟨by rw [Session.load_dirty, h.dirty], by rw [Session.load_writes, h.writes]⟩

omit [DecidableEq K] in
lemma Session.Clean.own (h : s.Clean) (d : D) : s.own d = d := Session.own_of_nil h.writes d

lemma Session.Clean.flushAll (h : s.Clean) (d : D) : flushAll s.dirty s d = (true, s) := by
  rw [h.dirty, RowTxn.flushAll]

lemma Prog.OnlyReads.clean (hp : p.OnlyReads) (hs : s.Clean) : (solo env d p n s).2.Clean := by
  induction p generalizing n s with
  | pure a => exact hs
  | raise e => exact hs
  | read q c ih => exact ih _ (hp _) (hs.load _ _)
  | get k c ih => exact ih _ (hp _) hs
  | alloc c ih => exact ih _ (hp _) hs
  | flush c ih =>
    refine ih _ (hp _) ?_
    rwa [hs.flushAll]
  | ask q c ih => exact ih _ (hp _) ⟨hs.dirty, hs.writes⟩
  | lockWhere q m c ih => exact hp.elim
  | _ => exact hp.1.elim

/-- Its commit does nothing. -/
theorem Prog.OnlyReads.transact_commit (hp : p.OnlyReads) (err : ε) :
    transact env d (p.commit err) = transact env d p := by
  have hclean : (solo env d p (fresh d) Session.init).2.Clean := hp.clean .init
  unfold transact
  rw [solo_commit]
  rcases hsolo : solo env d p (fresh d) Session.init with ⟨e | a, s⟩
  · rfl
  · rw [hsolo] at hclean
    simp only [committed, hclean.flushAll, if_true]

/-- It leaves the database as it is. -/
theorem Prog.OnlyReads.transact_db (hp : p.OnlyReads) : (transact env d p).db = d := by
  have hclean : (solo env d p (fresh d) Session.init).2.Clean := hp.clean .init
  unfold transact
  rcases hsolo : solo env d p (fresh d) Session.init with ⟨e | a, s⟩
  · rfl
  · rw [hsolo] at hclean
    exact hclean.own d

end RowTxn
