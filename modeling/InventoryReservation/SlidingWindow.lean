/-
# Sliding windows

A limiter that knows the time of everything it ever let through, and lets the next one through if
fewer than `limit` of these times lie in the window that ends now.  The window is open on the left:
what happened exactly `w` ago has left it.
-/
import Mathlib.Algebra.Order.Group.Defs
import Mathlib.Algebra.Order.Sub.Basic
import Mathlib.Data.List.Pairwise

namespace SlidingWindow

variable {T : Type} [AddCommGroup T] [LinearOrder T]
variable {limit : ℕ} {w s t : T} {log : List T}

/-- The times of the log in the window of length `w` that ends at `t`. -/
def recent (w t : T) (log : List T) : List T := log.filter (t - w < ·)

@[simp] lemma recent_nil : recent w t [] = [] := rfl

@[simp] lemma mem_recent {x : T} : x ∈ recent w t log ↔ x ∈ log ∧ t - w < x := by
  simp [recent]

lemma recent_append (l₁ l₂ : List T) : recent w t (l₁ ++ l₂) = recent w t l₁ ++ recent w t l₂ :=
  List.filter_append l₁ l₂

/-- A log that the limiter can have: it was let through in the order of time, each at a moment
whose window had room. -/
inductive Admitted (limit : ℕ) (w : T) : List T → Prop
  | nil : Admitted limit w []
  | snoc {log : List T} {t : T} (h : Admitted limit w log) (hle : ∀ x ∈ log, x ≤ t)
      (hroom : (recent w t log).length < limit) : Admitted limit w (log ++ [t])

namespace Admitted

lemma sorted (h : Admitted limit w log) : log.Pairwise (· ≤ ·) := by
  induction h with
  | nil => exact .nil
  | snoc h hle _ ih => exact List.pairwise_append.mpr ⟨ih, List.pairwise_singleton _ _, by simpa⟩

/-- No window has more than the limit: whenever something in `p` is let through, all of `p` before
it lies in the window of that moment. -/
lemma length_filter_le (h : Admitted limit w log) (p : T → Bool)
    (hp : ∀ t, p t = true → ∀ x ≤ t, p x = true → t - w < x) : (log.filter p).length ≤ limit := by
  induction h with
  | nil => simp
  | @snoc log t h hle hroom ih =>
    rw [List.filter_append, List.length_append]
    by_cases ht : p t = true
    · have hsub : log.filter p = (recent w t log).filter p := by
        rw [recent, List.filter_filter]
        refine List.filter_congr fun x hx => ?_
        have hlt := hp t ht x (hle x hx)
        cases hpx : p x <;> simp [hpx] at hlt ⊢
        exact hlt
      have hlen := List.length_filter_le p (recent w t log)
      rw [hsub, List.filter_cons_of_pos ht, List.filter_nil, List.length_singleton]
      omega
    · simpa [ht] using ih

end Admitted

variable [IsOrderedAddMonoid T]

/-- A later window does not see what an earlier one has left behind. -/
lemma recent_recent (h : s ≤ t) : recent w t (recent w s log) = recent w t log := by
  rw [recent, recent, List.filter_filter]
  refine List.filter_congr fun x _ => ?_
  have hlt : t - w < x → s - w < x := (sub_le_sub_right h w).trans_lt
  simpa using hlt

namespace Admitted

/-- Half-open intervals that are as long as the window. -/
lemma length_Ioc_le (h : Admitted limit w log) (a : T) :
    (log.filter fun x => a < x ∧ x ≤ a + w).length ≤ limit := by
  refine h.length_filter_le _ fun t ht x _ hx => ?_
  simp only [decide_eq_true_eq] at ht hx
  exact (sub_le_iff_le_add.mpr ht.2).trans_lt hx.1

/-- The window that ends after the log is never over the limit. -/
lemma length_recent_le (h : Admitted limit w log) (hle : ∀ x ∈ log, x ≤ t) :
    (recent w t log).length ≤ limit := by
  have heq : recent w t log = log.filter fun x => t - w < x ∧ x ≤ t - w + w := by
    refine List.filter_congr fun x hx => ?_
    simp [hle x hx]
  exact heq ▸ h.length_Ioc_le (t - w)

/-- A full window has room again exactly when its oldest element leaves it. -/
theorem room_iff (h : Admitted limit w log) (hlog : ∀ x ∈ log, x ≤ s) {first : T} {rest : List T}
    (hrecent : recent w s log = first :: rest) (hfull : limit ≤ (recent w s log).length)
    (hst : s ≤ t) : (recent w t log).length < limit ↔ first + w ≤ t := by
  have hlen := h.length_recent_le hlog
  have hsorted : (first :: rest).Pairwise (· ≤ ·) := hrecent ▸ h.sorted.filter _
  rw [← recent_recent hst, hrecent]
  rw [hrecent] at hfull hlen
  constructor
  · intro hroom
    by_contra hlt
    -- everything in the window is at least as late as its first element
    have hall : recent w t (first :: rest) = first :: rest := by
      refine List.filter_eq_self.mpr fun x hx => ?_
      have hx : first ≤ x := by
        rcases List.mem_cons.mp hx with rfl | hx
        · exact le_rfl
        · exact List.rel_of_pairwise_cons hsorted hx
      simpa using (sub_lt_iff_lt_add.mpr (not_le.mp hlt)).trans_le hx
    rw [hall] at hroom
    omega
  · intro hle
    have hfirst : ¬ t - w < first := not_lt.mpr (le_sub_iff_add_le.mpr hle)
    have hrest : recent w t (first :: rest) = recent w t rest := by simp [recent, hfirst]
    have hle := List.length_filter_le (t - w < ·) rest
    rw [hrest]
    simp only [List.length_cons] at hlen
    exact lt_of_le_of_lt hle (by omega)

end Admitted

end SlidingWindow
