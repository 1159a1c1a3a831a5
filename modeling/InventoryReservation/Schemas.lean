/-
# Request schemas

The bodies of requests, decoded and with fields of the right types.  A body that violates no
constraint of its schema becomes a request, which carries the constraints; any other is answered
with its violations, each under the path of its field.
-/
import InventoryReservation.Groups
import InventoryReservation.Operations

namespace InventoryReservation

/-! ### Violations -/

/-- A step on the path to a field. -/
inductive Loc
  | field (name : String)
  | index (i : ℕ)
deriving DecidableEq, Repr

def Loc.str : Loc → String
  | field name => name
  | index i => s!"{i}"

/-- What is wrong with a value. -/
inductive Violation
  | greaterThan (gt : ℤ)
  | lessThanEqual (le : ℤ)
  | stringTooShort (minLength : ℕ)
  | stringTooLong (maxLength : ℕ)
  | tooShort (minLength actual : ℕ)
  | tooLong (maxLength actual : ℕ)
  | literalError (expected : String)
  | valueError (error : String)
  | emailError (reason : String)
deriving DecidableEq, Repr

/-- The ending of a noun of which there are `n`. -/
def plural (n : ℕ) : String := if n = 1 then "" else "s"

def Violation.msg : Violation → String
  | greaterThan gt => s!"Input should be greater than {gt}"
  | lessThanEqual le => s!"Input should be less than or equal to {le}"
  | stringTooShort n => s!"String should have at least {n} character{plural n}"
  | stringTooLong n => s!"String should have at most {n} character{plural n}"
  | tooShort n actual => s!"List should have at least {n} item{plural n} after validation, not {actual}"
  | tooLong n actual => s!"List should have at most {n} item{plural n} after validation, not {actual}"
  | literalError expected => s!"Input should be {expected}"
  | valueError error => s!"Value error, {error}"
  | emailError reason => s!"value is not a valid email address: {reason}"

/-- An entry of `exc.errors()`. -/
structure ErrorDetail where
  loc : List Loc
  violation : Violation
deriving DecidableEq, Repr

def ErrorDetail.msg (e : ErrorDetail) : String := e.violation.msg

/-- The path of the field, without the part of the request that it is in. -/
def ErrorDetail.field (e : ErrorDetail) : String :=
  ".".intercalate ((e.loc.filter fun loc => loc ≠ .field "body").map Loc.str)

/-! ### Constraints of a field -/

/-- `Field(gt=…, le=…)`. -/
def intErrors (gt : ℤ) (le : Option ℤ) (loc : List Loc) (n : ℤ) : List ErrorDetail :=
  (le.toList.filter fun b => b < n).map (fun b => ⟨loc, .lessThanEqual b⟩) ++
    if n ≤ gt then [⟨loc, .greaterThan gt⟩] else []

/-- `Field(min_length=…, max_length=…)` of a string. -/
def strErrors (minLength maxLength : ℕ) (loc : List Loc) (s : String) : List ErrorDetail :=
  if s.length < minLength then [⟨loc, .stringTooShort minLength⟩]
  else if maxLength < s.length then [⟨loc, .stringTooLong maxLength⟩]
  else []

lemma intErrors_eq_nil {gt : ℤ} {le : Option ℤ} {loc : List Loc} {n : ℤ} :
    intErrors gt le loc n = [] ↔ gt < n ∧ ∀ b ∈ le, n ≤ b := by
  simp only [intErrors, List.append_eq_nil_iff, List.map_eq_nil_iff, List.filter_eq_nil_iff,
    Option.mem_toList, decide_eq_true_eq, not_lt, ite_eq_right_iff, List.cons_ne_nil, imp_false,
    not_le]
  exact and_comm

lemma strErrors_eq_nil {minLength maxLength : ℕ} {loc : List Loc} {s : String} :
    strErrors minLength maxLength loc s = [] ↔ minLength ≤ s.length ∧ s.length ≤ maxLength := by
  unfold strErrors
  split
  · simp only [List.cons_ne_nil, false_iff]
    omega
  · split
    · simp only [List.cons_ne_nil, false_iff]
      omega
    · simp only [true_iff]
      omega

/-! ### `ReservationCreateRequest` -/

/-- The body of an item, before its validation. -/
structure ItemBody where
  productId : ℤ
  qty : ℤ
deriving DecidableEq, Repr

def ItemBody.errors (i : ℕ) (it : ItemBody) : List ErrorDetail :=
  intErrors 0 none [.field "body", .field "items", .index i, .field "product_id"] it.productId ++
    intErrors 0 (some 1000) [.field "body", .field "items", .index i, .field "qty"] it.qty

/-- The errors of the items from the `i`-th one on. -/
def itemErrors : List ItemBody → ℕ → List ErrorDetail
  | [], _ => []
  | it :: items, i => it.errors i ++ itemErrors items (i + 1)

structure CreateBody where
  userId : String
  items : List ItemBody
deriving DecidableEq, Repr

/-- A request that has passed its schema. -/
structure ReservationCreateRequest where
  userId : String
  items : List CreateItem
  userId_length : 1 ≤ userId.length ∧ userId.length ≤ 100
  items_length : 1 ≤ items.length ∧ items.length ≤ 50
  items_range : ∀ it ∈ items, 0 < it.productId ∧ 0 < it.qty ∧ it.qty ≤ 1000
  noDuplicateProducts : (items.map CreateItem.productId).Nodup

namespace CreateBody

variable (b : CreateBody)

def pids : List ℤ := b.items.map ItemBody.productId

/-- The errors of the list.  One that is too long is not looked into, and the validator of the
field runs only on a list whose items are valid. -/
def itemsErrors : List ErrorDetail :=
  if 50 < b.items.length then
    [⟨[.field "body", .field "items"], .tooLong 50 b.items.length⟩]
  else if itemErrors b.items 0 ≠ [] then itemErrors b.items 0
  else if b.items.length < 1 then
    [⟨[.field "body", .field "items"], .tooShort 1 b.items.length⟩]
  else if b.pids.length ≠ b.pids.dedup.length then
    [⟨[.field "body", .field "items"], .valueError "Duplicate product_id in items list"⟩]
  else []

def errors : List ErrorDetail :=
  strErrors 1 100 [.field "body", .field "user_id"] b.userId ++ b.itemsErrors

/-- The constraints of the schema. -/
structure Satisfies : Prop where
  userId : 1 ≤ b.userId.length ∧ b.userId.length ≤ 100
  items : 1 ≤ b.items.length ∧ b.items.length ≤ 50
  item : ∀ it ∈ b.items, 0 < it.productId ∧ 0 < it.qty ∧ it.qty ≤ 1000
  distinct : b.pids.Nodup

end CreateBody

variable {b : CreateBody} {items : List ItemBody} {i : ℕ} {e : ErrorDetail}

lemma ItemBody.errors_eq_nil {it : ItemBody} :
    it.errors i = [] ↔ 0 < it.productId ∧ 0 < it.qty ∧ it.qty ≤ 1000 := by
  simp [ItemBody.errors, intErrors_eq_nil]

lemma mem_itemErrors : e ∈ itemErrors items i ↔
    ∃ (j : ℕ) (it : ItemBody), items[j]? = some it ∧ e ∈ it.errors (i + j) := by
  induction items generalizing i with
  | nil => simp [itemErrors]
  | cons it items ih =>
    rw [itemErrors, List.mem_append, ih]
    constructor
    · rintro (h | ⟨j, it', hj, h⟩)
      · exact ⟨0, it, rfl, h⟩
      · exact ⟨j + 1, it', by simpa using hj, by rwa [show i + (j + 1) = i + 1 + j by omega]⟩
    · rintro ⟨_ | j, it', hj, h⟩
      · obtain rfl : it = it' := by simpa using hj
        exact Or.inl h
      · exact Or.inr ⟨j, it', by simpa using hj, by rwa [show i + 1 + j = i + (j + 1) by omega]⟩

lemma itemErrors_eq_nil : itemErrors items i = [] ↔
    ∀ it ∈ items, 0 < it.productId ∧ 0 < it.qty ∧ it.qty ≤ 1000 := by
  induction items generalizing i with
  | nil => simp [itemErrors]
  | cons it items ih =>
    rw [itemErrors, List.append_eq_nil_iff, ih, ItemBody.errors_eq_nil, List.forall_mem_cons]

lemma nodup_iff_length_dedup {l : List ℤ} : l.length = l.dedup.length ↔ l.Nodup := by
  constructor
  · intro h
    rw [← (List.dedup_sublist l).eq_of_length h.symm]
    exact List.nodup_dedup l
  · intro h
    rw [List.dedup_eq_self.mpr h]

lemma CreateBody.itemsErrors_eq_nil : b.itemsErrors = [] ↔
    (1 ≤ b.items.length ∧ b.items.length ≤ 50) ∧
      (∀ it ∈ b.items, 0 < it.productId ∧ 0 < it.qty ∧ it.qty ≤ 1000) ∧ b.pids.Nodup := by
  unfold itemsErrors
  rw [← itemErrors_eq_nil (i := 0), ← nodup_iff_length_dedup]
  by_cases hlong : 50 < b.items.length
  · simp only [hlong, if_true, List.cons_ne_nil, false_iff]
    omega
  by_cases hitems : itemErrors b.items 0 = []
  · by_cases hshort : b.items.length < 1
    · simp only [hlong, hitems, hshort, if_true, if_false, ne_eq, not_true, List.cons_ne_nil,
        false_iff]
      omega
    · by_cases hdup : b.pids.length = b.pids.dedup.length
      · simp only [hlong, hitems, hshort, hdup, if_false, ne_eq, not_true, true_iff, and_true]
        omega
      · simp [hlong, hitems, hshort, hdup]
  · simp [hlong, hitems]

/-- A body without errors is one that satisfies the constraints. -/
theorem CreateBody.errors_eq_nil : b.errors = [] ↔ b.Satisfies := by
  rw [errors, List.append_eq_nil_iff, strErrors_eq_nil, itemsErrors_eq_nil]
  exact ⟨fun ⟨hu, hl, hi, hd⟩ => ⟨hu, hl, hi, hd⟩, fun h => ⟨h.userId, h.items, h.item, h.distinct⟩⟩

def ItemBody.toItem (it : ItemBody) : CreateItem := ⟨it.productId.toNat, it.qty⟩

lemma nodup_toItem (hpos : ∀ it ∈ items, 0 < it.productId)
    (hnd : (items.map ItemBody.productId).Nodup) :
    ((items.map ItemBody.toItem).map CreateItem.productId).Nodup := by
  have hcast : ((items.map ItemBody.toItem).map CreateItem.productId).map Int.ofNat =
      items.map ItemBody.productId := by
    rw [List.map_map, List.map_map]
    refine List.map_congr_left fun it hit => ?_
    exact Int.toNat_of_nonneg (hpos it hit).le
  exact List.Nodup.of_map Int.ofNat (hcast ▸ hnd)

def CreateBody.validate (b : CreateBody) : Except (List ErrorDetail) ReservationCreateRequest :=
  if h : b.errors = [] then
    have hb := CreateBody.errors_eq_nil.mp h
    .ok {
      userId := b.userId
      items := b.items.map ItemBody.toItem
      userId_length := hb.userId
      items_length := by simpa using hb.items
      items_range := by
        intro it hit
        obtain ⟨it', hit', rfl⟩ := List.mem_map.mp hit
        obtain ⟨hp, hq⟩ := hb.item it' hit'
        exact ⟨Int.pos_iff_toNat_pos.mp hp, hq⟩
      noDuplicateProducts := nodup_toItem (fun it hit => (hb.item it hit).1) hb.distinct }
  else .error b.errors

lemma CreateBody.validate_error {errors : List ErrorDetail} (h : b.validate = .error errors) :
    b.errors ≠ [] ∧ errors = b.errors := by
  unfold validate at h
  split at h
  · cases h
  · next hne => exact ⟨hne, (Except.error.inj h).symm⟩

lemma CreateBody.satisfies_of_validate {r : ReservationCreateRequest} (h : b.validate = .ok r) :
    b.Satisfies := by
  unfold validate at h
  split at h
  · next hnil => exact CreateBody.errors_eq_nil.mp hnil
  · cases h

/-- What has passed the schema is a valid call of the service. -/
lemma ReservationCreateRequest.valid (r : ReservationCreateRequest) :
    (Op.create r.userId r.items).Valid :=
  ⟨r.noDuplicateProducts, fun it hit => (r.items_range it hit).2.1⟩

/-! ### `PaymentOutcomeRequest` -/

def PaymentOutcome.ofString? : String → Option PaymentOutcome
  | "success" => some .success
  | "failed" => some .failed
  | _ => none

structure PaymentBody where
  reservationId : ℤ
  outcome : String
deriving DecidableEq, Repr

structure PaymentOutcomeRequest where
  reservationId : ℕ
  outcome : PaymentOutcome
  reservationId_pos : 0 < reservationId

namespace PaymentBody

def errors (b : PaymentBody) : List ErrorDetail :=
  intErrors 0 none [.field "body", .field "reservation_id"] b.reservationId ++
    if (PaymentOutcome.ofString? b.outcome).isNone then
      [⟨[.field "body", .field "outcome"], .literalError "'success' or 'failed'"⟩]
    else []

lemma errors_eq_nil {b : PaymentBody} : b.errors = [] ↔
    0 < b.reservationId ∧ (PaymentOutcome.ofString? b.outcome).isSome := by
  rw [errors, List.append_eq_nil_iff, intErrors_eq_nil]
  cases PaymentOutcome.ofString? b.outcome <;> simp

def validate (b : PaymentBody) : Except (List ErrorDetail) PaymentOutcomeRequest :=
  if h : b.errors = [] then
    .ok {
      reservationId := b.reservationId.toNat
      outcome := (PaymentOutcome.ofString? b.outcome).get (errors_eq_nil.mp h).2
      reservationId_pos := Int.pos_iff_toNat_pos.mp (errors_eq_nil.mp h).1 }
  else .error b.errors

end PaymentBody

end InventoryReservation
