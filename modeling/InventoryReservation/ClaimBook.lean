/-
# A book of claims on stock

Stock of several kinds, and the claims that were ever made on it.  A claim that is held keeps its
units from the others; it ends once, used, when its units leave the stock, or dropped, when they are
free again.  What the kinds and the claims are does not matter.
-/
import Mathlib.Algebra.BigOperators.Finprod
import Mathlib.Algebra.Order.Group.Int
import Mathlib.Logic.Relation

namespace ClaimBook

/-- Where a claim is. -/
inductive Stage
  | held
  | used
  | dropped
deriving DecidableEq, Repr

/-- A claim, with its units of each kind. -/
structure Claim (K : Type*) where
  stage : Stage
  units : K → ℤ

/-- The stock of each kind, and the claims. -/
@[ext]
structure Book (K C : Type*) where
  stock : K → ℤ
  claim : C → Option (Claim K)

variable {K C : Type*}

namespace Book

/-- The units of a claim, if it is in the stage. -/
def units (b : Book K C) (s : Stage) (k : K) (x : C) : ℤ :=
  (b.claim x).elim 0 fun c => if c.stage = s then c.units k else 0

/-- The units of all claims that are in the stage. -/
noncomputable def total (b : Book K C) (s : Stage) (k : K) : ℤ := ∑ᶠ x, b.units s k x

/-- The units of the stock that no claim holds. -/
noncomputable def free (b : Book K C) (k : K) : ℤ := b.stock k - b.total .held k

/-- Finitely many claims, none of a negative quantity, and stock for all that are held. -/
structure Sound (b : Book K C) : Prop where
  finite : {x | b.claim x ≠ none}.Finite
  nonneg : ∀ x c, b.claim x = some c → ∀ k, 0 ≤ c.units k
  covered : ∀ k, b.total .held k ≤ b.stock k

variable {b b' b'' : Book K C} {s : Stage} {k : K} {x : C}

lemma units_of_none (h : b.claim x = none) : b.units s k x = 0 := by
  simp [units, h]

lemma units_of_some {c : Claim K} (h : b.claim x = some c) :
    b.units s k x = if c.stage = s then c.units k else 0 := by
  simp [units, h]

lemma units_congr (h : b'.claim x = b.claim x) : b'.units s k x = b.units s k x := by
  simp [units, h]

/-- The sum may be taken over any finite set that has all claims. -/
lemma total_eq_sum {t : Finset C} (h : ∀ x, b.claim x ≠ none → x ∈ t) :
    b.total s k = ∑ x ∈ t, b.units s k x := by
  refine finsum_eq_sum_of_support_subset _ fun x hx => ?_
  refine h x fun hn => hx ?_
  exact units_of_none hn

lemma total_congr (h : ∀ x, b'.units s k x = b.units s k x) : b'.total s k = b.total s k :=
  finsum_congr h

/-- Totals of two books that differ in one claim only. -/
lemma total_of_ne (hb : {x | b.claim x ≠ none}.Finite) (h : ∀ y, y ≠ x → b'.claim y = b.claim y) :
    b'.total s k = b.total s k - b.units s k x + b'.units s k x := by
  classical
  have hall : ∀ y, b.claim y ≠ none → y ∈ insert x hb.toFinset := fun y hy => by simp [hy]
  have hall' : ∀ y, b'.claim y ≠ none → y ∈ insert x hb.toFinset := fun y hy => by
    by_cases hyx : y = x
    · simp [hyx]
    · exact hall y (h y hyx ▸ hy)
  have hmem : x ∈ insert x hb.toFinset := Finset.mem_insert_self _ _
  rw [total_eq_sum hall, total_eq_sum hall', ← Finset.add_sum_erase _ _ hmem,
    ← Finset.add_sum_erase _ _ hmem]
  have hrest : ∑ y ∈ (insert x hb.toFinset).erase x, b'.units s k y =
      ∑ y ∈ (insert x hb.toFinset).erase x, b.units s k y :=
    Finset.sum_congr rfl fun y hy => units_congr (h y (Finset.ne_of_mem_erase hy))
  omega

lemma total_mono (hb : {x | b.claim x ≠ none}.Finite) (hb' : {x | b'.claim x ≠ none}.Finite)
    (h : ∀ x, b'.units s k x ≤ b.units s k x) : b'.total s k ≤ b.total s k := by
  classical
  rw [total_eq_sum (t := hb.toFinset ∪ hb'.toFinset) fun x hx => by simp [hx],
    total_eq_sum (t := hb.toFinset ∪ hb'.toFinset) fun x hx => by simp [hx]]
  exact Finset.sum_le_sum fun x _ => h x

end Book

/-! ### Steps -/

open Book

/-- A claim is made on free units, a held claim is used, or held claims are dropped. -/
inductive Step (b b' : Book K C) : Prop
  | claim {x : C} {u : K → ℤ} (hx : b.claim x = none) (hu : ∀ k, 0 ≤ u k)
      (hroom : ∀ k, u k ≠ 0 → u k ≤ b.free k) (hstock : b'.stock = b.stock)
      (hself : b'.claim x = some ⟨.held, u⟩) (hout : ∀ y, y ≠ x → b'.claim y = b.claim y)
  | use {x : C} {u : K → ℤ} (hx : b.claim x = some ⟨.held, u⟩)
      (hstock : ∀ k, b'.stock k = b.stock k - u k)
      (hself : b'.claim x = some ⟨.used, u⟩) (hout : ∀ y, y ≠ x → b'.claim y = b.claim y)
  | drop {t : Set C} (hin : ∀ x ∈ t, ∃ u, b.claim x = some ⟨.held, u⟩ ∧
        b'.claim x = some ⟨.dropped, u⟩) (hstock : b'.stock = b.stock)
      (hout : ∀ x, x ∉ t → b'.claim x = b.claim x)

/-- New stock, whatever it is. -/
def Restock (b b' : Book K C) : Prop := b'.claim = b.claim

variable {b b' : Book K C} {x : C} {k : K}

namespace Step

/-- No claim is lost, and none changes its units. -/
lemma keeps (h : Step b b') {c : Claim K} (hc : b.claim x = some c) :
    ∃ c', b'.claim x = some c' ∧ c'.units = c.units ∧ (c.stage ≠ .held → c' = c) := by
  cases h with
  | @claim y u hx hu hroom hstock hself hout =>
    have hne : x ≠ y := by
      rintro rfl
      rw [hx] at hc
      cases hc
    exact ⟨c, (hout x hne).trans hc, rfl, fun _ => rfl⟩
  | @use y u hx hstock hself hout =>
    by_cases hxy : x = y
    · subst hxy
      obtain rfl : c = ⟨.held, u⟩ := Option.some.inj (hc.symm.trans hx)
      exact ⟨_, hself, rfl, fun hne => absurd rfl hne⟩
    · exact ⟨c, (hout x hxy).trans hc, rfl, fun _ => rfl⟩
  | @drop t hin hstock hout =>
    by_cases hxt : x ∈ t
    · obtain ⟨u, hu, hu'⟩ := hin x hxt
      obtain rfl : c = ⟨.held, u⟩ := Option.some.inj (hc.symm.trans hu)
      exact ⟨_, hu', rfl, fun hne => absurd rfl hne⟩
    · exact ⟨c, (hout x hxt).trans hc, rfl, fun _ => rfl⟩

/-- Only one claim is new. -/
lemma finite (h : Step b b') (hb : {x | b.claim x ≠ none}.Finite) :
    {x | b'.claim x ≠ none}.Finite := by
  cases h with
  | @claim y u hx hu hroom hstock hself hout =>
    refine (hb.insert y).subset fun x hx => ?_
    by_cases hxy : x = y
    · exact Or.inl hxy
    · exact Or.inr (by rw [Set.mem_ofPred_eq, ← hout x hxy]; exact hx)
  | @use y u hx hstock hself hout =>
    refine hb.subset fun x hx' => ?_
    by_cases hxy : x = y
    · subst hxy
      simp [hx]
    · rw [Set.mem_ofPred_eq, ← hout x hxy]
      exact hx'
  | @drop t hin hstock hout =>
    refine hb.subset fun x hx => ?_
    by_cases hxt : x ∈ t
    · obtain ⟨u, hu, -⟩ := hin x hxt
      simp [hu]
    · rw [Set.mem_ofPred_eq, ← hout x hxt]
      exact hx

/-- What leaves the stock was used. -/
lemma conserves (h : Step b b') (hb : {x | b.claim x ≠ none}.Finite) (k : K) :
    b'.stock k + b'.total .used k = b.stock k + b.total .used k := by
  cases h with
  | @claim y u hx hu hroom hstock hself hout =>
    rw [hstock, total_of_ne hb hout, units_of_none hx, units_of_some hself]
    simp
  | @use y u hx hstock hself hout =>
    rw [hstock, total_of_ne hb hout, units_of_some hx, units_of_some hself]
    simp
  | @drop t hin hstock hout =>
    rw [hstock, total_congr fun x => ?_]
    by_cases hxt : x ∈ t
    · obtain ⟨u, hu, hu'⟩ := hin x hxt
      simp [units_of_some hu, units_of_some hu']
    · exact units_congr (hout x hxt)

lemma sound (h : Step b b') (hb : b.Sound) : b'.Sound where
  finite := h.finite hb.finite
  nonneg x c' hc' k := by
    -- a claim that was not there is the new one, and the others keep their units
    rcases hc : b.claim x with _ | c
    · cases h with
      | @claim y u hx hu hroom hstock hself hout =>
        by_cases hxy : x = y
        · subst hxy
          obtain rfl : c' = ⟨.held, u⟩ := Option.some.inj (hc'.symm.trans hself)
          exact hu k
        · rw [hout x hxy, hc] at hc'
          cases hc'
      | @use y u hx hstock hself hout =>
        by_cases hxy : x = y
        · subst hxy
          rw [hx] at hc
          cases hc
        · rw [hout x hxy, hc] at hc'
          cases hc'
      | @drop t hin hstock hout =>
        by_cases hxt : x ∈ t
        · obtain ⟨u, hu, -⟩ := hin x hxt
          rw [hu] at hc
          cases hc
        · rw [hout x hxt, hc] at hc'
          cases hc'
    · obtain ⟨c₁, hc₁, hu, -⟩ := h.keeps hc
      obtain rfl : c' = c₁ := Option.some.inj (hc'.symm.trans hc₁)
      rw [hu]
      exact hb.nonneg x c hc k
  covered k := by
    have hcov := hb.covered k
    have hfin := h.finite hb.finite
    cases h with
    | @claim y u hx hu hroom hstock hself hout =>
      rw [hstock, total_of_ne hb.finite hout, units_of_none hx, units_of_some hself]
      -- a key that the claim asks nothing of may have no room
      have hk := hu k
      by_cases hz : u k = 0
      · simpa [hz] using hcov
      · have := hroom k hz
        simp only [Book.free] at this
        simp only [if_true]
        omega
    | @use y u hx hstock hself hout =>
      rw [hstock, total_of_ne hb.finite hout, units_of_some hx, units_of_some hself]
      simp only [if_true, reduceCtorEq, if_false]
      omega
    | @drop t hin hstock hout =>
      rw [hstock]
      refine (total_mono hb.finite hfin fun x => ?_).trans hcov
      by_cases hxt : x ∈ t
      · obtain ⟨u, hu, hu'⟩ := hin x hxt
        have := hb.nonneg x _ hu k
        simpa [units_of_some hu, units_of_some hu'] using this
      · exact (units_congr (hout x hxt)).le

end Step

/-! ### Runs -/

/-- A run of the book. -/
abbrev Run : Book K C → Book K C → Prop := Relation.ReflTransGen Step

/-- A run in which stock may come and go. -/
abbrev OpenRun : Book K C → Book K C → Prop :=
  Relation.ReflTransGen fun b b' => Step b b' ∨ Restock b b'

namespace Run

theorem sound (h : Run b b') (hb : b.Sound) : b'.Sound := by
  induction h with
  | refl => exact hb
  | tail _ hs ih => exact hs.sound ih

theorem conserves (h : Run b b') (hb : b.Sound) (k : K) :
    b'.stock k + b'.total .used k = b.stock k + b.total .used k := by
  induction h with
  | refl => rfl
  | tail hr hs ih => exact (hs.conserves (sound hr hb).finite k).trans ih

end Run

/-- Claims are not lost and do not change their units; one that has ended stays as it is. -/
theorem OpenRun.keeps (h : OpenRun b b') {c : Claim K} (hc : b.claim x = some c) :
    ∃ c', b'.claim x = some c' ∧ c'.units = c.units ∧ (c.stage ≠ .held → c' = c) := by
  induction h with
  | refl => exact ⟨c, hc, rfl, fun _ => rfl⟩
  | @tail b₁ b₂ _ hs ih =>
    obtain ⟨c₁, hc₁, hu, he⟩ := ih
    rcases hs with hs | hs
    · obtain ⟨c₂, hc₂, hu₂, he₂⟩ := hs.keeps hc₁
      refine ⟨c₂, hc₂, hu₂.trans hu, fun hne => ?_⟩
      have hcc := he hne
      rw [he₂ (hcc ▸ hne), hcc]
    · exact ⟨c₁, (congrFun hs x).trans hc₁, hu, he⟩

end ClaimBook
