/-
# Values grouped by their keys

A dictionary from keys to lists, filled by appending each value to the list of its key.  It has the
keys in the order in which they came first, and under each key the values in their order.  Keys
are often joined from parts, with a separator in between.
-/
import Mathlib.Data.List.Dedup
import Mathlib.Data.List.Nodup

namespace Groups

variable {κ β : Type*} [DecidableEq κ]

/-- `groups.setdefault(k, []).append(v)`. -/
def add (k : κ) (v : β) : List (κ × List β) → List (κ × List β)
  | [] => [(k, [v])]
  | (k', vs) :: gs => if k' = k then (k', vs ++ [v]) :: gs else (k', vs) :: add k v gs

/-- The groups of a list of values with their keys. -/
def of (es : List (κ × β)) : List (κ × List β) := es.foldl (fun gs e => add e.1 e.2 gs) []

/-- The values under a key. -/
def under (k : κ) (gs : List (κ × List β)) : List β := (gs.lookup k).getD []

variable {k k' : κ} {v : β} {gs : List (κ × List β)} {es : List (κ × β)}

lemma under_cons_self (k : κ) (vs : List β) (gs : List (κ × List β)) :
    under k ((k, vs) :: gs) = vs := by
  simp [under]

lemma under_cons_of_ne (h : k ≠ k') (vs : List β) (gs : List (κ × List β)) :
    under k ((k', vs) :: gs) = under k gs := by
  have hbeq : (k == k') = false := by simpa using h
  simp [under, List.lookup_cons, hbeq]

lemma under_add_self (k : κ) (v : β) (gs : List (κ × List β)) :
    under k (add k v gs) = under k gs ++ [v] := by
  induction gs with
  | nil => exact under_cons_self k [v] []
  | cons g gs ih =>
    obtain ⟨k₀, vs⟩ := g
    by_cases h : k₀ = k
    · subst h
      simp [add, under_cons_self]
    · simp only [add, h, if_false]
      rw [under_cons_of_ne (Ne.symm h), under_cons_of_ne (Ne.symm h), ih]

lemma under_add_of_ne (h : k' ≠ k) (v : β) (gs : List (κ × List β)) :
    under k' (add k v gs) = under k' gs := by
  induction gs with
  | nil => exact under_cons_of_ne h [v] []
  | cons g gs ih =>
    obtain ⟨k₀, vs⟩ := g
    by_cases h₀ : k₀ = k
    · subst h₀
      simp only [add, if_true]
      rw [under_cons_of_ne h, under_cons_of_ne h]
    · simp only [add, h₀, if_false]
      by_cases hk : k' = k₀
      · subst hk
        rw [under_cons_self, under_cons_self]
      · rw [under_cons_of_ne hk, under_cons_of_ne hk, ih]

lemma keys_add : (add k v gs).map Prod.fst =
    if k ∈ gs.map Prod.fst then gs.map Prod.fst else gs.map Prod.fst ++ [k] := by
  induction gs with
  | nil => rfl
  | cons g gs ih =>
    obtain ⟨k₀, vs⟩ := g
    by_cases h₀ : k₀ = k
    · simp [add, h₀]
    · have hk : k ∈ ((k₀, vs) :: gs).map Prod.fst ↔ k ∈ gs.map Prod.fst := by
        simp [Ne.symm h₀]
      simp only [add, h₀, if_false, List.map_cons, ih]
      by_cases hmem : k ∈ gs.map Prod.fst
      · simp only [hmem, if_true]
        rw [if_pos (List.mem_cons_of_mem _ hmem)]
      · simp only [hmem, if_false]
        rw [if_neg (by simpa [Ne.symm h₀] using hmem), List.cons_append]

lemma mem_keys_add : k' ∈ (add k v gs).map Prod.fst ↔ k' ∈ gs.map Prod.fst ∨ k' = k := by
  rw [keys_add]
  split
  · next h => exact ⟨Or.inl, fun h' => h'.elim id fun hk => hk ▸ h⟩
  · rw [List.mem_append, List.mem_singleton]

lemma under_foldl (es : List (κ × β)) (gs : List (κ × List β)) :
    under k (es.foldl (fun gs e => add e.1 e.2 gs) gs) =
      under k gs ++ (es.filter fun e => e.1 = k).map Prod.snd := by
  induction es generalizing gs with
  | nil => simp
  | cons e es ih =>
    rw [List.foldl_cons, ih]
    by_cases h : k = e.1
    · subst h
      simp [under_add_self]
    · simp [under_add_of_ne h, Ne.symm h]

/-- No value is lost, and none is moved before another of its key. -/
theorem under_of (es : List (κ × β)) (k : κ) :
    under k (of es) = (es.filter fun e => e.1 = k).map Prod.snd := by
  rw [of, under_foldl]
  rfl

lemma nodup_foldl (es : List (κ × β)) (h : (gs.map Prod.fst).Nodup) :
    ((es.foldl (fun gs e => add e.1 e.2 gs) gs).map Prod.fst).Nodup := by
  induction es generalizing gs with
  | nil => exact h
  | cons e es ih =>
    refine ih ?_
    rw [keys_add]
    split
    · exact h
    · next hmem => exact List.nodup_append.mpr ⟨h, by simp, by
        rintro a ha b hb rfl
        exact hmem (List.mem_singleton.mp hb ▸ ha)⟩

/-- A key comes once. -/
theorem nodup_keys (es : List (κ × β)) : ((of es).map Prod.fst).Nodup := nodup_foldl es (by simp)

lemma mem_keys_foldl (es : List (κ × β)) (gs : List (κ × List β)) :
    k ∈ (es.foldl (fun gs e => add e.1 e.2 gs) gs).map Prod.fst ↔
      k ∈ gs.map Prod.fst ∨ k ∈ es.map Prod.fst := by
  induction es generalizing gs with
  | nil => simp
  | cons e es ih =>
    rw [List.foldl_cons, ih, mem_keys_add, List.map_cons, List.mem_cons, or_assoc]

/-- The keys are those of the values. -/
theorem mem_keys (es : List (κ × β)) (k : κ) : k ∈ (of es).map Prod.fst ↔ k ∈ es.map Prod.fst := by
  rw [of, mem_keys_foldl]
  simp

/-! ### Joined keys -/

/-- A key is cut at its first separator in one way. -/
lemma joined_inj {α : Type*} {sep : α} {l l' r r' : List α} (h : sep ∉ l) (h' : sep ∉ l') :
    l ++ sep :: r = l' ++ sep :: r' ↔ l = l' ∧ r = r' := by
  refine ⟨fun heq => ?_, fun ⟨hl, hr⟩ => by rw [hl, hr]⟩
  induction l generalizing l' with
  | nil =>
    cases l' with
    | nil => exact ⟨rfl, (List.cons.inj heq).2⟩
    | cons a l' => exact absurd (List.mem_cons.mpr (Or.inl (List.cons.inj heq).1)) h'
  | cons a l ih =>
    cases l' with
    | nil => exact absurd (List.mem_cons.mpr (Or.inl (List.cons.inj heq).1.symm)) h
    | cons a' l' =>
      obtain ⟨rfl, htail⟩ := List.cons.inj heq
      obtain ⟨rfl, hr⟩ := ih (fun hm => h (.tail _ hm)) (fun hm => h' (.tail _ hm)) htail
      exact ⟨rfl, hr⟩

end Groups
