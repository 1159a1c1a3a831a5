/-
# What a client is told of a body

The messages of a body that is refused are grouped by the paths of their fields.  A path is a
string; the paths of different fields are different strings, since there is no dot in the index of
an item, so every message stands under its own field.
-/
import InventoryReservation.Traffic

namespace InventoryReservation

open RowTxn

variable {cfg : Settings} {env : Env} {d : Db} {b : CreateBody} {items : List ItemBody}
  {it : ItemBody} {i j k : ℕ} {e : ErrorDetail} {name name' : String}

/-- The location of a field of an item. -/
def itemLoc (i : ℕ) (name : String) : List Loc :=
  [.field "body", .field "items", .index i, .field name]

/-- The path of a field of an item. -/
def itemField (i : ℕ) (name : String) : String := "items" ++ "." ++ Nat.repr i ++ "." ++ name

/-! ### Paths -/

lemma field_of_itemLoc (hname : name ≠ "body") (h : e.loc = itemLoc i name) :
    e.field = itemField i name := by
  have hfilter : (itemLoc i name).filter (fun loc => loc ≠ .field "body") =
      [.field "items", .index i, .field name] := by
    simp [itemLoc, hname]
  rw [ErrorDetail.field, h, hfilter]
  rfl

lemma dot_not_mem_repr (i : ℕ) : '.' ∉ (Nat.repr i).toList := by
  intro h
  have hdigit : ('.' : Char).isDigit := by
    refine Nat.isDigit_of_mem_toDigits (b := 10) (n := i) (by omega) (by omega) ?_
    simpa [Nat.repr] using h
  exact absurd hdigit (by decide)

/-- Different fields of the items have different paths. -/
lemma itemField_inj (h : itemField i name = itemField j name') : i = j ∧ name = name' := by
  have hchars : (Nat.repr i).toList ++ '.' :: name.toList =
      (Nat.repr j).toList ++ '.' :: name'.toList := by
    have := congrArg String.toList h
    simpa [itemField] using this
  obtain ⟨hi, hname⟩ :=
    (Groups.joined_inj (dot_not_mem_repr i) (dot_not_mem_repr j)).mp hchars
  have hvalue := congrArg (fun ds => Nat.ofDigitChars 10 ds 0) hi
  exact ⟨by simpa [Nat.repr] using hvalue, String.toList_injective hname⟩

lemma itemField_ne (i : ℕ) (name : String) :
    itemField i name ≠ "user_id" ∧ itemField i name ≠ "items" := by
  constructor
  · intro h
    have := congrArg String.toList h
    simp [itemField] at this
  · intro h
    have hlen := congrArg String.length h
    simp only [itemField, String.length_append] at hlen
    have hdot : ".".length = 1 := rfl
    omega

/-! ### Messages under a path -/

/-- The messages of the errors of a field. -/
def msgsOf (field : String) (errors : List ErrorDetail) : List String :=
  (errors.filter fun e => e.field = field).map ErrorDetail.msg

lemma msgsOf_append (field : String) (es es' : List ErrorDetail) :
    msgsOf field (es ++ es') = msgsOf field es ++ msgsOf field es' := by
  simp [msgsOf]

/-- Errors of another field say nothing. -/
lemma msgsOf_of_ne {field : String} {es : List ErrorDetail} (h : ∀ e ∈ es, e.field ≠ field) :
    msgsOf field es = [] := by
  rw [msgsOf, List.filter_eq_nil_iff.mpr (by simpa using h)]
  rfl

lemma msgsOf_self {field : String} {es : List ErrorDetail} (h : ∀ e ∈ es, e.field = field) :
    msgsOf field es = es.map ErrorDetail.msg := by
  rw [msgsOf, List.filter_eq_self.mpr (by simpa using h)]

lemma loc_of_mem_intErrors {gt : ℤ} {le : Option ℤ} {loc : List Loc} {n : ℤ}
    (h : e ∈ intErrors gt le loc n) : e.loc = loc := by
  rcases List.mem_append.mp h with h | h
  · obtain ⟨b, -, rfl⟩ := List.mem_map.mp h
    rfl
  · split at h
    · rw [List.mem_singleton.mp h]
    · cases h

/-- What is said of `product_id`. -/
def productIdMsgs (it : ItemBody) : List String :=
  if it.productId ≤ 0 then ["Input should be greater than 0"] else []

/-- What is said of `qty`. -/
def qtyMsgs (it : ItemBody) : List String :=
  if 1000 < it.qty then ["Input should be less than or equal to 1000"]
  else if it.qty ≤ 0 then ["Input should be greater than 0"] else []

lemma msgsOf_item_self (i : ℕ) (it : ItemBody) :
    msgsOf (itemField i "product_id") (it.errors i) = productIdMsgs it ∧
      msgsOf (itemField i "qty") (it.errors i) = qtyMsgs it := by
  have hpid : ∀ e ∈ intErrors 0 none (itemLoc i "product_id") it.productId,
      e.field = itemField i "product_id" := fun e he =>
    field_of_itemLoc (by decide) (loc_of_mem_intErrors he)
  have hqty : ∀ e ∈ intErrors 0 (some 1000) (itemLoc i "qty") it.qty, e.field = itemField i "qty" :=
    fun e he => field_of_itemLoc (by decide) (loc_of_mem_intErrors he)
  have hne : itemField i "product_id" ≠ itemField i "qty" := fun h =>
    absurd (itemField_inj h).2 (by decide)
  have hsplit : it.errors i = intErrors 0 none (itemLoc i "product_id") it.productId ++
      intErrors 0 (some 1000) (itemLoc i "qty") it.qty := rfl
  rw [hsplit, msgsOf_append, msgsOf_append, msgsOf_self hpid, msgsOf_self hqty,
    msgsOf_of_ne fun e he => hqty e he ▸ hne.symm, msgsOf_of_ne fun e he => hpid e he ▸ hne,
    List.append_nil, List.nil_append]
  constructor
  · unfold intErrors productIdMsgs
    by_cases h : it.productId ≤ 0
    · simp [h]
      rfl
    · simp [h]
  · unfold intErrors qtyMsgs
    by_cases h : 1000 < it.qty
    · simp [h, show ¬it.qty ≤ 0 by omega]
      rfl
    · by_cases h' : it.qty ≤ 0
      · simp [h, h']
        rfl
      · simp [h, h']

/-- An error of an item is one of its fields. -/
lemma field_of_mem_itemErrors (h : e ∈ it.errors i) :
    ∃ name ∈ ["product_id", "qty"], e.field = itemField i name := by
  rcases List.mem_append.mp h with h | h
  · exact ⟨_, by simp, field_of_itemLoc (by decide) (loc_of_mem_intErrors h)⟩
  · exact ⟨_, by simp, field_of_itemLoc (by decide) (loc_of_mem_intErrors h)⟩

/-- Nothing is said of an item elsewhere. -/
lemma msgsOf_itemErrors {ms : List String} (hself : msgsOf (itemField i name) (it.errors i) = ms)
    (hi : i = k + j) (hj : items[j]? = some it) :
    msgsOf (itemField i name) (itemErrors items k) = ms := by
  have hother : ∀ (k' : ℕ) (it' : ItemBody), k' ≠ i →
      msgsOf (itemField i name) (it'.errors k') = [] := by
    intro k' it' hne
    refine msgsOf_of_ne fun e he hfield => hne ?_
    obtain ⟨name', -, hname'⟩ := field_of_mem_itemErrors he
    exact (itemField_inj (hname'.symm.trans hfield)).1
  have hlater : ∀ (items : List ItemBody) (k' : ℕ), i < k' →
      msgsOf (itemField i name) (itemErrors items k') = [] := by
    intro items
    induction items with
    | nil => exact fun _ _ => rfl
    | cons it' items ih =>
      intro k' hk'
      rw [itemErrors, msgsOf_append, hother k' it' (by omega), ih (k' + 1) (by omega)]
      rfl
  induction items generalizing j k with
  | nil => simp at hj
  | cons it' items ih =>
    rw [itemErrors, msgsOf_append]
    rcases j with _ | j
    · obtain rfl : it' = it := by simpa using hj
      obtain rfl : i = k := by simpa using hi
      rw [hself, hlater items (i + 1) (by omega), List.append_nil]
    · rw [hother k it' (by omega), List.nil_append]
      exact ih (j := j) (k := k + 1) (by omega) (by simpa using hj)

/-- What is said of the list of items as a whole. -/
def itemsMsgs (b : CreateBody) : List String :=
  if 50 < b.items.length then
    [s!"List should have at most 50 items after validation, not {b.items.length}"]
  else if itemErrors b.items 0 ≠ [] then []
  else if b.items.length < 1 then
    [s!"List should have at least 1 item after validation, not {b.items.length}"]
  else if ¬b.pids.Nodup then ["Value error, Duplicate product_id in items list"]
  else []

/-- What is said of `user_id`. -/
def userIdMsgs (b : CreateBody) : List String :=
  if b.userId.length < 1 then ["String should have at least 1 character"]
  else if 100 < b.userId.length then ["String should have at most 100 characters"]
  else []

/-- A path of the list: its own, or that of a field of an item. -/
def CreateBody.ItemsPath (b : CreateBody) (field : String) : Prop :=
  field = "items" ∨ b.items.length ≤ 50 ∧
    ∃ i < b.items.length, ∃ name ∈ ["product_id", "qty"], field = itemField i name

lemma path_of_mem_itemsErrors (h : e ∈ b.itemsErrors) : b.ItemsPath e.field := by
  unfold CreateBody.itemsErrors at h
  split at h
  · exact Or.inl (List.mem_singleton.mp h ▸ rfl)
  next hlen =>
  split at h
  · obtain ⟨j, it, hj, h⟩ := mem_itemErrors.mp h
    obtain ⟨name, hname, hfield⟩ := field_of_mem_itemErrors h
    have hlt : j < b.items.length := (List.getElem?_eq_some_iff.mp hj).1
    exact Or.inr ⟨by omega, j, hlt, name, hname, by simpa using hfield⟩
  split at h
  · exact Or.inl (List.mem_singleton.mp h ▸ rfl)
  split at h
  · exact Or.inl (List.mem_singleton.mp h ▸ rfl)
  · cases h

lemma field_of_mem_userIdErrors
    (h : e ∈ strErrors 1 100 [.field "body", .field "user_id"] b.userId) :
    e.field = "user_id" := by
  unfold strErrors at h
  split at h
  · exact List.mem_singleton.mp h ▸ rfl
  split at h
  · exact List.mem_singleton.mp h ▸ rfl
  · cases h

lemma msgsOf_userId : msgsOf "user_id" b.errors = userIdMsgs b := by
  have hitems : ∀ e ∈ b.itemsErrors, e.field ≠ "user_id" := by
    intro e he
    rcases path_of_mem_itemsErrors he with h | ⟨-, i, -, name, -, h⟩
    · rw [h]
      decide
    · rw [h]
      exact (itemField_ne i name).1
  rw [CreateBody.errors, msgsOf_append, msgsOf_of_ne hitems, List.append_nil,
    msgsOf_self fun e he => field_of_mem_userIdErrors he]
  unfold strErrors userIdMsgs
  split
  · rfl
  split
  · rfl
  · rfl

lemma msgsOf_items : msgsOf "items" b.errors = itemsMsgs b := by
  have huser : ∀ e ∈ strErrors 1 100 [.field "body", .field "user_id"] b.userId,
      e.field ≠ "items" := by
    intro e he
    rw [field_of_mem_userIdErrors he]
    decide
  have hitem : msgsOf "items" (itemErrors b.items 0) = [] := by
    refine msgsOf_of_ne fun e he => ?_
    obtain ⟨j, it, -, he⟩ := mem_itemErrors.mp he
    obtain ⟨name, -, hname⟩ := field_of_mem_itemErrors he
    rw [hname]
    exact (itemField_ne _ name).2
  rw [CreateBody.errors, msgsOf_append, msgsOf_of_ne huser, List.nil_append]
  unfold CreateBody.itemsErrors itemsMsgs
  simp only [← nodup_iff_length_dedup]
  split
  · rfl
  split
  · exact hitem
  split
  · rfl
  split
  · rfl
  · rfl

/-- Nothing is said of an item elsewhere than in the errors of the list. -/
lemma msgsOf_item_eq (b : CreateBody) (i : ℕ) (name : String) :
    msgsOf (itemField i name) b.errors = msgsOf (itemField i name) b.itemsErrors := by
  rw [CreateBody.errors, msgsOf_append, msgsOf_of_ne fun e he => ?_, List.nil_append]
  rw [field_of_mem_userIdErrors he]
  exact (itemField_ne i name).1.symm

/-- Errors of the list as a whole say nothing of an item. -/
lemma msgsOf_item_singleton {loc : List Loc} {violation : Violation}
    (h : (ErrorDetail.mk loc violation).field = "items") :
    msgsOf (itemField i name) [⟨loc, violation⟩] = [] :=
  msgsOf_of_ne fun e he => by
    rw [List.mem_singleton.mp he, h]
    exact (itemField_ne i name).2.symm

lemma msgsOf_item_of_long (hlen : 50 < b.items.length) :
    msgsOf (itemField i name) b.errors = [] := by
  rw [msgsOf_item_eq, CreateBody.itemsErrors, if_pos hlen]
  exact msgsOf_item_singleton rfl

lemma msgsOf_item {ms : List String} (hlen : b.items.length ≤ 50) (hi : b.items[i]? = some it)
    (hself : msgsOf (itemField i name) (it.errors i) = ms) :
    msgsOf (itemField i name) b.errors = ms := by
  have hall := msgsOf_itemErrors (k := 0) hself (by omega) hi
  rw [msgsOf_item_eq]
  unfold CreateBody.itemsErrors
  rw [if_neg (by omega)]
  split
  · exact hall
  next hnil =>
  -- without errors of items there is nothing to say of one
  have hms : ms = [] := by
    rw [← hall, not_not.mp hnil]
    rfl
  rw [hms]
  split
  · exact msgsOf_item_singleton rfl
  split
  · exact msgsOf_item_singleton rfl
  · rfl

/-! ### The response -/

lemma under_groups (field : String) (es : List ErrorDetail) :
    Groups.under field (Groups.of (es.map fun err => (err.field, err.msg))) = msgsOf field es := by
  rw [Groups.under_of, List.filter_map, List.map_map]
  rfl

/-- No other field is named. -/
lemma path_of_mem_groups {field : String}
    (h : field ∈ (Groups.of (b.errors.map fun err => (err.field, err.msg))).map Prod.fst) :
    field = "user_id" ∨ b.ItemsPath field := by
  rw [Groups.mem_keys, List.map_map] at h
  obtain ⟨e, he, rfl⟩ := List.mem_map.mp h
  rcases List.mem_append.mp he with he | he
  · exact Or.inl (field_of_mem_userIdErrors he)
  · exact Or.inr (path_of_mem_itemsErrors he)

/-- A request to create a reservation is answered 422 if and only if its body violates the schema.
Then nothing has changed, and the response says of every field what is wrong with it and nothing
else; a list that is too long is not looked into. -/
theorem violations_told (cfg : Settings) (env : Env) (d : Db) (b : CreateBody) :
    ((handle cfg env d (.createReservation b)).1.status = 422 ↔ ¬b.Satisfies) ∧
      (¬b.Satisfies → ∃ groups, handle cfg env d (.createReservation b) =
          (⟨422, .failure 422 "Validation Exception" (.fields groups)⟩, d) ∧
        (groups.map Prod.fst).Nodup ∧
        (∀ field ∈ groups.map Prod.fst, field = "user_id" ∨ b.ItemsPath field) ∧
        Groups.under "user_id" groups = userIdMsgs b ∧
        Groups.under "items" groups = itemsMsgs b ∧
        (∀ i name, 50 < b.items.length → Groups.under (itemField i name) groups = []) ∧
        ∀ (i : ℕ) (it : ItemBody), b.items.length ≤ 50 → b.items[i]? = some it →
          Groups.under (itemField i "product_id") groups = productIdMsgs it ∧
            Groups.under (itemField i "qty") groups = qtyMsgs it) := by
  have hans : CreateAnswered cfg env d b (handle cfg env d (.createReservation b)) :=
    create_answered cfg env d b
  generalize handle cfg env d (.createReservation b) = out at hans ⊢
  constructor
  · cases hans with
    | invalid hno hout => simp [hout, hno, validationExceptionHandler]
    | @refused detail hbody hout =>
      have hstatus : (appErrorHandler .insufficientStockError detail).status = 409 := rfl
      simp [hout, hbody, hstatus]
    | failed hbody hout => simp [hout, hbody, unhandledExceptionHandler]
    | undone hbody _ hout =>
      simp [hout, CreateBody.satisfies_of_validate hbody, unhandledExceptionHandler]
  · intro hno
    cases hans with
    | refused hbody => exact absurd hbody hno
    | failed hbody => exact absurd hbody hno
    | undone hbody => exact absurd (CreateBody.satisfies_of_validate hbody) hno
    | invalid _ hout =>
      refine ⟨_, hout, Groups.nodup_keys _, fun field => path_of_mem_groups, ?_, ?_,
        fun i name hlen => ?_, fun i it hlen hi => ?_⟩
      · rw [under_groups, msgsOf_userId]
      · rw [under_groups, msgsOf_items]
      · rw [under_groups]
        exact msgsOf_item_of_long hlen
      · obtain ⟨hpid, hqty⟩ := msgsOf_item_self i it
        rw [under_groups, under_groups]
        exact ⟨msgsOf_item hlen hi hpid, msgsOf_item hlen hi hqty⟩

/-- A body without a user, with an item without a product and one without a quantity. -/
theorem violations_told_nobody : ∃ groups,
    handle quarter (calm 0) shop (.createReservation ⟨"", [⟨0, 1⟩, ⟨2, 0⟩]⟩) =
        (⟨422, .failure 422 "Validation Exception" (.fields groups)⟩, shop) ∧
      Groups.under "user_id" groups = ["String should have at least 1 character"] ∧
      Groups.under (itemField 0 "product_id") groups = ["Input should be greater than 0"] ∧
      Groups.under (itemField 1 "qty") groups = ["Input should be greater than 0"] ∧
      Groups.under (itemField 1 "product_id") groups = [] := by
  have hno : ¬(⟨"", [⟨0, 1⟩, ⟨2, 0⟩]⟩ : CreateBody).Satisfies := fun h =>
    absurd (h.item ⟨0, 1⟩ (by decide)).1 (by decide)
  obtain ⟨groups, hout, -, -, huser, -, -, hitem⟩ :=
    (violations_told quarter (calm 0) shop ⟨"", [⟨0, 1⟩, ⟨2, 0⟩]⟩).2 hno
  obtain ⟨hpid, -⟩ := hitem 0 ⟨0, 1⟩ (by decide) rfl
  obtain ⟨hpid', hqty'⟩ := hitem 1 ⟨2, 0⟩ (by decide) rfl
  exact ⟨groups, hout, huser, hpid, hqty', hpid'⟩

end InventoryReservation
