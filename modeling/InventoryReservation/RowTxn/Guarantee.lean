/-
# What commits do to the database

An invariant says what holds between the commits.  A transaction may promise more: how its commit
changes the database, as a relation between the states before and after.  Along a run the database
then changes by such steps only.
-/
import InventoryReservation.RowTxn.Soundness
import Mathlib.Logic.Relation

namespace RowTxn

variable {T D K : Type} {V : K → Type} {Q : Type} {A : Q → Type} {ε α : Type}
  [DecidableEq K] [RowStore D K V] {I : List (Commit T K α) → D → Prop} {G : D → D → Prop}
  {guard : K → Prop}

open RowStore

omit [DecidableEq K] in
/-- The commit of `t` keeps the invariant and changes the database by a step of `G`. -/
def Guarantees (I : List (Commit T K α) → D → Prop) (G : D → D → Prop) (guard : K → Prop) (t : T)
    (a : α) (s : Session K V Q A) (H : Held V) : Prop :=
  ∀ h d, I h d → t ∉ h.map Commit.tid → (∀ k r, H k = some r → row d k = r) → s.Ok D guard H →
    I (h ++ [⟨t, a, s.writes.map Sigma.fst⟩]) (s.own d) ∧ G d (s.own d)

/-- A transaction that keeps the invariant `I` against the others, and whose commit is a step
of `G`. -/
def VerifiedBy (I : List (Commit T K α) → D → Prop) (G : D → D → Prop) (guard : K → Prop)
    (env : (q : Q) → A q) (t : T) (p : Prog D K V Q A ε α) : Prop :=
  wp (relyOn I guard t) env p (Guarantees I G guard t) (fun _ _ _ => True) Session.init
    fun _ => none

/-- The rule for a transaction. -/
theorem verifiedBy_commit {env : (q : Q) → A q} {t : T} {p : Prog D K V Q A ε α} {err : ε}
    (h : wp (relyOn I guard t) env p (fun a s H => ∀ h d d' wrote, I h d → t ∉ h.map Commit.tid →
        Settled guard s H d d' wrote → I (h ++ [⟨t, a, wrote⟩]) d' ∧ G d d')
      (fun _ _ _ => True) Session.init fun _ => none) :
    VerifiedBy I G guard env t (p.commit err) := by
  refine wp_commit (wp_mono (fun a s H hP => ⟨?_, fun _ _ _ _ => trivial⟩) (fun _ _ _ h => h) h)
  intro s' H' hfl h d hI ht hH hok
  exact hP h d _ _ hI ht (hfl.settled ⟨⟨h, hI, ht⟩, hH, hok⟩)

variable [DecidableEq T] {iso : Isolation} {env : T → (q : Q) → A q} {d : D} {n : ℕ}
  {p : T → Prog D K V Q A ε α} {c c' : Conf T D K V Q A ε α}

/-- One action of a run. -/
lemma guarantee_of_act {a : Act T} (hr : Run iso env guard (Conf.init d n p) c)
    (h : Inv guard (fun t => (relyOn I guard t).seen) (fun t => Guarantees I G guard t) env c)
    (hI : I c.log c.db) (ha : act iso env c a = some c') (hg : UpToDate guard c a) :
    Inv guard (fun t => (relyOn I guard t).seen) (fun t => Guarantees I G guard t) env c' ∧
      I c'.log c'.db ∧ (c'.db = c.db ∨ G c.db c'.db) := by
  have hnew : ∀ t q, c.phase t = .running q → t ∉ c.log.map Commit.tid := by
    intro t q hq ht
    obtain ⟨b, hb⟩ := ((order_of_run hr).2 t).mp ht
    rw [hq] at hb
    cases hb
  refine ⟨h.act ha (fun t q hq => ⟨c.log, hI, hnew t q hq⟩) hg, ?_⟩
  rcases commit_or_same ha with ⟨t, b, hp, rfl⟩ | ⟨hl, hdb⟩
  · obtain ⟨H, hat⟩ := h.running t _ hp
    exact (hat.wp c.log c.db hI (hnew t _ hp) hat.held hat.ok).imp_right Or.inr
  · rw [hl, hdb]
    exact ⟨hI, Or.inl rfl⟩

/-- Between two configurations of a run the database changes by the steps of the commits. -/
theorem guarantee_of_run (h0 : I [] d) (hv : ∀ t, VerifiedBy I G guard (env t) t (p t))
    (hr : Run iso env guard (Conf.init d n p) c) (hr' : Run iso env guard c c') :
    I c'.log c'.db ∧ Relation.ReflTransGen G c.db c'.db := by
  have hc : Inv guard (fun t => (relyOn I guard t).seen) (fun t => Guarantees I G guard t) env c ∧
      I c.log c.db := by
    clear hr'
    induction hr with
    | init => exact ⟨Inv.init hv, h0⟩
    | act hr ha hg ih =>
      obtain ⟨hinv, hI, -⟩ := guarantee_of_act hr ih.1 ih.2 ha hg
      exact ⟨hinv, hI⟩
  have hc' : Inv guard (fun t => (relyOn I guard t).seen) (fun t => Guarantees I G guard t) env c' ∧
      I c'.log c'.db ∧ Relation.ReflTransGen G c.db c'.db := by
    induction hr' with
    | init => exact ⟨hc.1, hc.2, .refl⟩
    | act hr' ha hg ih =>
      obtain ⟨hinv, hI, hG⟩ := guarantee_of_act (hr.trans hr') ih.1 ih.2.1 ha hg
      refine ⟨hinv, hI, ?_⟩
      rcases hG with hG | hG
      · rw [hG]
        exact ih.2.2
      · exact ih.2.2.tail hG
  exact hc'.2

end RowTxn
