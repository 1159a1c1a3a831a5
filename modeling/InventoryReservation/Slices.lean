/-
# Slices of a list

A list is cut into slices of one length; only the last one may be shorter.
-/
import Mathlib.Data.List.Basic

namespace Slices

variable {α : Type}

/-- The slice number `i` of a list that is cut into slices of `n` elements. -/
def slice (l : List α) (n i : ℕ) : List α := (l.drop (i * n)).take n

@[simp] lemma length_slice (l : List α) (n i : ℕ) :
    (slice l n i).length = min n (l.length - i * n) := by
  simp [slice]

lemma slice_eq_nil {l : List α} {n i : ℕ} (hn : 0 < n) : slice l n i = [] ↔ l.length ≤ i * n := by
  rw [← List.length_eq_zero_iff, length_slice]
  omega

/-- A slice that another one follows is full. -/
lemma length_slice_of_lt {l : List α} {n i : ℕ} (h : (i + 1) * n ≤ l.length) :
    (slice l n i).length = n := by
  rw [length_slice]
  rw [Nat.succ_mul] at h
  omega

/-- The first slices, one after the other, are the beginning of the list. -/
theorem flatMap_slice (l : List α) (n m : ℕ) :
    (List.range m).flatMap (slice l n) = l.take (m * n) := by
  induction m with
  | zero => simp
  | succ m ih =>
    rw [List.range_succ, List.flatMap_append, ih, List.flatMap_singleton, slice, Nat.succ_mul,
      List.take_add]

end Slices
