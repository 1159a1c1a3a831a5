/-
# Pagination

A listing is served in pages: `OFFSET` and `LIMIT` cut one slice out of the result, and the
metadata are computed from the number of rows.  The slices of a list, one after the other, are the
list; the pages of a listing are the slices of its result, as many as the metadata say.
-/
import Mathlib.Algebra.Order.Ring.Int
import Mathlib.Data.Int.Order.Basic
import InventoryReservation.Slices

namespace InventoryReservation

open Slices

variable {α : Type}

/-! ### Queries -/

/-- A query: its rows in their order, and its `OFFSET` and `LIMIT` clauses. -/
structure Select (α : Type) where
  rows : List α
  offsetClause : Option ℤ
  limitClause : Option ℤ

namespace Select

/-- A query without `OFFSET` and `LIMIT`. -/
def all (rows : List α) : Select α := ⟨rows, none, none⟩

def offset (q : Select α) (n : ℤ) : Select α := { q with offsetClause := some n }

def limit (q : Select α) (n : ℤ) : Select α := { q with limitClause := some n }

/-- The rows that the database returns; its clauses are not negative. -/
def execute (q : Select α) : List α :=
  let rows := q.rows.drop (q.offsetClause.getD 0).toNat
  match q.limitClause with
  | none => rows
  | some n => rows.take n.toNat

/-- `select(func.count()).select_from(query.subquery())`. -/
def count (q : Select α) : ℤ := q.execute.length

end Select

/-! ### Pages -/

/-- The validated query parameters of a listing.  The routes accept at most `100` items a page,
which nothing below depends on. -/
structure PaginationParams where
  page : ℤ
  pageSize : ℤ
  one_le_page : 1 ≤ page
  one_le_pageSize : 1 ≤ pageSize

namespace PaginationParams

def offset (params : PaginationParams) : ℤ := (params.page - 1) * params.pageSize

def limit (params : PaginationParams) : ℤ := params.pageSize

/-- The parameters of the next page. -/
def next (params : PaginationParams) : PaginationParams :=
  { params with page := params.page + 1, one_le_page := by have := params.one_le_page; omega }

/-- The parameters of the page that `i` pages precede. -/
def after {size : ℤ} (hsize : 1 ≤ size) (i : ℕ) : PaginationParams := ⟨i + 1, size, by omega, hsize⟩

/-- The number of pages before this one. -/
def index (params : PaginationParams) : ℕ := (params.page - 1).toNat

lemma index_add_one (params : PaginationParams) : (params.index : ℤ) + 1 = params.page := by
  have := params.one_le_page
  unfold index
  omega

@[simp] lemma index_next (params : PaginationParams) : params.next.index = params.index + 1 := by
  have := params.one_le_page
  simp only [index, next]
  omega

@[simp] lemma index_after {size : ℤ} (hsize : 1 ≤ size) (i : ℕ) : (after hsize i).index = i := by
  simp [index, after]

end PaginationParams

structure PageMeta where
  page : ℤ
  pageSize : ℤ
  total : ℤ
  totalPages : ℤ
  hasNext : Bool
  hasPrev : Bool
deriving DecidableEq, Repr

/-- A page of a listing.  Its metadata are the field `meta` of the source, which is a keyword here. -/
structure Page (α : Type) where
  items : List α
  pageMeta : PageMeta

/-- `-(-total // page_size)`, where `//` rounds down. -/
def ceilDiv (total pageSize : ℤ) : ℤ := -Int.fdiv (-total) pageSize

def Page.create (items : List α) (total : ℤ) (params : PaginationParams) : Page α :=
  let totalPages := max 1 (ceilDiv total params.pageSize)
  { items
    pageMeta := {
      page := params.page
      pageSize := params.pageSize
      total
      totalPages
      hasNext := params.page < totalPages
      hasPrev := params.page > 1 } }

def paginate (query : Select α) (params : PaginationParams) : List α × ℤ :=
  let total := query.count
  let items := ((query.offset params.offset).limit params.limit).execute
  (items, total)

/-- The page of a listing. -/
def listing (query : Select α) (params : PaginationParams) : Page α :=
  let (items, total) := paginate query params
  .create items total params

/-! ### The pages are the slices of the result -/

/-- The ceiling of a quotient: the smaller numbers are those whose multiples are smaller. -/
lemma lt_ceilDiv (total : ℤ) {pageSize : ℤ} (h : 1 ≤ pageSize) (n : ℤ) :
    n < ceilDiv total pageSize ↔ n * pageSize < total := by
  have hle := Int.le_ediv_iff_mul_le (a := -n) (b := -total) (show 0 < pageSize by omega)
  rw [ceilDiv, Int.fdiv_eq_ediv_of_nonneg _ (by omega)]
  rw [Int.neg_mul] at hle
  omega

variable {rows : List α} {params : PaginationParams}

lemma listing_items (rows : List α) (params : PaginationParams) :
    (listing (.all rows) params).items = slice rows params.pageSize.toNat params.index := by
  have hpage := params.one_le_page
  have hsize := params.one_le_pageSize
  have hoffset : params.offset.toNat = params.index * params.pageSize.toNat := by
    rw [PaginationParams.offset, PaginationParams.index, Int.toNat_mul] <;> omega
  change (rows.drop params.offset.toNat).take params.limit.toNat = _
  rw [hoffset]
  rfl

lemma listing_total (rows : List α) (params : PaginationParams) :
    (listing (.all rows) params).pageMeta.total = rows.length := by
  simp [listing, paginate, Page.create, Select.count, Select.execute, Select.all]

lemma listing_totalPages (rows : List α) (params : PaginationParams) :
    (listing (.all rows) params).pageMeta.totalPages
      = max 1 (ceilDiv rows.length params.pageSize) := by
  rw [← listing_total rows params]
  rfl

lemma listing_hasNext (rows : List α) (params : PaginationParams) :
    (listing (.all rows) params).pageMeta.hasNext = true ↔
      params.page < (listing (.all rows) params).pageMeta.totalPages :=
  decide_eq_true_iff

/-- The rows before slice `n` reach the end of the result if the number of pages does not exceed
`n`. -/
lemma length_le_iff (rows : List α) {size : ℤ} (hsize : 1 ≤ size) (n : ℕ) :
    rows.length ≤ n * size.toNat ↔ ceilDiv rows.length size ≤ n := by
  have hlt := lt_ceilDiv rows.length hsize n
  have hcast : ((n * size.toNat : ℕ) : ℤ) = n * size := by
    rw [Nat.cast_mul, Int.toNat_of_nonneg (by omega)]
  omega

/-- A page is empty if the pages before it take all rows. -/
lemma listing_items_eq_nil : (listing (.all rows) params).items = [] ↔
    ceilDiv rows.length params.pageSize < params.page := by
  have hsize := params.one_le_pageSize
  have hindex := params.index_add_one
  rw [listing_items, slice_eq_nil (by omega), length_le_iff rows hsize]
  omega

/-- A page that another one follows is full. -/
lemma length_listing_items (h : params.page < ceilDiv rows.length params.pageSize) :
    ((listing (.all rows) params).items.length : ℤ) = params.pageSize := by
  have hsize := params.one_le_pageSize
  have hindex := params.index_add_one
  have hle := length_le_iff rows hsize (params.index + 1)
  rw [listing_items, length_slice_of_lt (by omega), Int.toNat_of_nonneg (by omega)]

/-- The pages, one after the other, are the result. -/
lemma flatMap_listing_items {size : ℤ} (hsize : 1 ≤ size) {n : ℕ}
    (hn : ceilDiv rows.length size ≤ n) :
    ((List.range n).flatMap fun i => (listing (.all rows) (.after hsize i)).items) = rows := by
  have hslice : ∀ i, (listing (.all rows) (.after hsize i)).items = slice rows size.toNat i := by
    intro i
    rw [listing_items, PaginationParams.index_after]
    rfl
  simp only [hslice]
  rw [flatMap_slice]
  exact List.take_of_length_le ((length_le_iff rows hsize n).mpr hn)

/-- Page after page, the listing gives its result, and the metadata agree. -/
theorem pages_partition (rows : List α) {size : ℤ} (hsize : 1 ≤ size) : ∃ totalPages : ℕ,
    1 ≤ totalPages ∧
    (∀ params : PaginationParams, params.pageSize = size →
      (listing (.all rows) params).pageMeta.totalPages = totalPages ∧
      (listing (.all rows) params).pageMeta.total = rows.length ∧
      ((listing (.all rows) params).pageMeta.hasNext = true ↔
        (listing (.all rows) params.next).items ≠ []) ∧
      (params.page < totalPages → ((listing (.all rows) params).items.length : ℤ) = size) ∧
      (totalPages < params.page → (listing (.all rows) params).items = [])) ∧
    ((List.range totalPages).flatMap fun i => (listing (.all rows) (.after hsize i)).items)
      = rows := by
  refine ⟨(max 1 (ceilDiv rows.length size)).toNat, by omega, fun params hparams => ?_,
    flatMap_listing_items hsize (by omega)⟩
  subst hparams
  have hpage := params.one_le_page
  have htotal := listing_totalPages rows params
  refine ⟨by omega, listing_total rows params, ?_, fun hlt => ?_, fun hlt => ?_⟩
  · rw [listing_hasNext, htotal, Ne, listing_items_eq_nil]
    -- the next page has the same size, and its number is greater by one
    change _ ↔ ¬ ceilDiv rows.length params.pageSize < params.page + 1
    omega
  · exact length_listing_items (by omega)
  · rw [listing_items_eq_nil]
    omega

/-- Five rows in pages of two. -/
theorem pages_partition_five : ∃ totalPages : ℕ, 1 ≤ totalPages ∧
    (∀ params : PaginationParams, params.pageSize = 2 →
      (listing (.all [1, 2, 3, 4, 5]) params).pageMeta.totalPages = totalPages ∧
      (listing (.all [1, 2, 3, 4, 5]) params).pageMeta.total = 5 ∧
      ((listing (.all [1, 2, 3, 4, 5]) params).pageMeta.hasNext = true ↔
        (listing (.all [1, 2, 3, 4, 5]) params.next).items ≠ []) ∧
      (params.page < totalPages →
        ((listing (.all [1, 2, 3, 4, 5]) params).items.length : ℤ) = 2) ∧
      (totalPages < params.page → (listing (.all [1, 2, 3, 4, 5]) params).items = [])) ∧
    ((List.range totalPages).flatMap fun i =>
      (listing (.all [1, 2, 3, 4, 5]) (.after (show (1 : ℤ) ≤ 2 by decide) i)).items)
        = [1, 2, 3, 4, 5] :=
  pages_partition [1, 2, 3, 4, 5] (by decide)

end InventoryReservation
