/-
# Passwords and tokens

The hashing of passwords and the encoding of tokens are libraries: they are parameters here, with
what their documentation promises as fields.  A token carries an id as text, which `int` reads back.
-/
import InventoryReservation.Schema

namespace InventoryReservation.Auth

/-! ### The libraries -/

/-- `bcrypt`.  Of a password a part counts (its first 72 bytes), or the functions raise a
`ValueError` on it (the ones longer than 72 bytes, since version 5). -/
structure Bcrypt where
  secret : String → Option (List UInt8)
  hashpw : String → String → Option String
  checkpw : String → String → Option Bool
  isSome_hashpw : ∀ password salt, (hashpw password salt).isSome = (secret password).isSome
  /-- A hash is matched by the passwords with the secret of the hashed one. -/
  checkpw_hashpw : ∀ password salt hashed, hashpw password salt = some hashed → ∀ plain,
    checkpw plain hashed = (secret plain).map fun s => decide (some s = secret password)

inductive TokenType
  | access
  | refresh
deriving DecidableEq, Repr

def TokenType.value : TokenType → String
  | access => "access"
  | refresh => "refresh"

/-- The claims of a token that the program reads. -/
structure Claims where
  sub : Option String
  type : Option String
deriving DecidableEq, Repr

/-- `jwt.encode` on `sub`, `exp` and `type`, and `jwt.decode` at a time, under the key of the
settings.  The claim `exp` is a number of whole seconds. -/
structure Jwt where
  encode : String → ℤ → TokenType → String
  decode : ℤ → String → Option Claims
  /-- A token of this key is good through the second in which it expires. -/
  decode_encode : ∀ now sub exp type, decode now (encode sub exp type) =
    if exp / 1000000 < now / 1000000 then none else some ⟨some sub, some type.value⟩

structure AuthSettings where
  accessTokenExpireMinutes : ℤ
  refreshTokenExpireDays : ℤ
  bcrypt : Bcrypt
  jwt : Jwt
  /-- The key of a string under the collation `utf8mb4_unicode_ci`. -/
  collate : String → String

/-! ### Numerals -/

/-- Digits, with single underscores between them. -/
def digits : List Char → Option (List Char)
  | [] => none
  | [c] => if c.isDigit then some [c] else none
  | c :: '_' :: cs => if c.isDigit then (digits cs).map (c :: ·) else none
  | c :: cs => if c.isDigit then (digits cs).map (c :: ·) else none

def isSpace (c : Char) : Bool := c ∈ [' ', '\t', '\n', '\r', '\x0b', '\x0c']

def strip (cs : List Char) : List Char :=
  ((cs.dropWhile isSpace).reverse.dropWhile isSpace).reverse

/-- The built-in `int` on a string; it raises a `ValueError` on what is not a numeral. -/
def int (s : String) : Option ℤ :=
  match strip s.toList with
  | '-' :: cs => (digits cs).map fun ds => -(Nat.ofDigitChars 10 ds 0 : ℤ)
  | '+' :: cs => (digits cs).map fun ds => (Nat.ofDigitChars 10 ds 0 : ℤ)
  | cs => (digits cs).map fun ds => (Nat.ofDigitChars 10 ds 0 : ℤ)

lemma digits_of_forall {cs : List Char} (hne : cs ≠ []) (h : ∀ c ∈ cs, c.isDigit = true) :
    digits cs = some cs := by
  induction cs using digits.induct with
  | case1 => exact absurd rfl hne
  | case2 c hc => simp [digits, hc]
  | case3 c hc => exact absurd (h c (by simp)) hc
  | case4 c cs hc ih => exact absurd (h '_' (by simp)) (by decide)
  | case5 c cs hc => exact absurd (h c (by simp)) hc
  | case6 c cs hnil hunder hc ih =>
    rw [digits.eq_4 c cs hnil hunder, if_pos hc, ih hnil fun c hc => h c (by simp [hc])]
    rfl
  | case7 c cs hnil hunder hc => exact absurd (h c (by simp)) hc

lemma not_isSpace_of_isDigit {c : Char} (h : c.isDigit = true) : isSpace c = false := by
  by_contra hs
  simp only [isSpace, Bool.not_eq_false, decide_eq_true_eq, List.mem_cons, List.not_mem_nil,
    or_false] at hs
  rcases hs with rfl | rfl | rfl | rfl | rfl | rfl <;> exact absurd h (by decide)

lemma strip_of_forall {cs : List Char} (h : ∀ c ∈ cs, isSpace c = false) : strip cs = cs := by
  have hdrop : ∀ {l : List Char}, (∀ c ∈ l, isSpace c = false) → l.dropWhile isSpace = l := by
    intro l hl
    cases l with
    | nil => rfl
    | cons c l => simp [hl c (by simp)]
  rw [strip, hdrop h, hdrop fun c hc => h c (List.mem_reverse.mp hc), List.reverse_reverse]

lemma toList_ofNat (n : ℕ) : (toString (Int.ofNat n)).toList = Nat.toDigits 10 n := Nat.toList_repr

lemma toList_negSucc (n : ℕ) :
    (toString (Int.negSucc n)).toList = '-' :: Nat.toDigits 10 (n + 1) := by
  show ("-" ++ Nat.repr (n + 1)).toList = _
  rw [String.toList_append, Nat.toList_repr]
  rfl

lemma isDigit_of_mem {n : ℕ} {c : Char} (h : c ∈ Nat.toDigits 10 n) : c.isDigit = true :=
  Nat.isDigit_of_mem_toDigits (by decide) (by decide) h

/-- What `str` writes of an integer: digits, after a sign. -/
lemma digit_or_sign {z : ℤ} {c : Char} (h : c ∈ (toString z).toList) :
    c.isDigit = true ∨ c = '-' := by
  cases z with
  | ofNat n =>
    rw [toList_ofNat] at h
    exact Or.inl (isDigit_of_mem h)
  | negSucc n =>
    rw [toList_negSucc] at h
    exact (List.mem_cons.mp h).symm.imp_left isDigit_of_mem

/-- `int` reads back what `str` has written. -/
lemma int_toString (z : ℤ) : int (toString z) = some z := by
  have hdigits : ∀ n, digits (Nat.toDigits 10 n) = some (Nat.toDigits 10 n) := fun n =>
    digits_of_forall (by simp) fun _ => isDigit_of_mem
  have hvalue : ∀ n, Nat.ofDigitChars 10 (Nat.toDigits 10 n) 0 = n := fun n =>
    Nat.ofDigitChars_toDigits (by decide) (by decide)
  have hstrip : strip (toString z).toList = (toString z).toList := by
    refine strip_of_forall fun c hc => ?_
    rcases digit_or_sign hc with hc | rfl
    · exact not_isSpace_of_isDigit hc
    · rfl
  unfold int
  rw [hstrip]
  cases z with
  | ofNat n =>
    rw [toList_ofNat]
    split
    · next cs heq => exact absurd (isDigit_of_mem (n := n) (c := '-') (by simp [heq])) (by decide)
    · next cs heq => exact absurd (isDigit_of_mem (n := n) (c := '+') (by simp [heq])) (by decide)
    · rw [hdigits, Option.map_some, hvalue]
      rfl
  | negSucc n =>
    rw [toList_negSucc]
    show (digits (Nat.toDigits 10 (n + 1))).map _ = _
    rw [hdigits, Option.map_some, hvalue]
    rfl

/-! ### Concrete libraries -/

/-- Passwords are stored as they are. -/
def plainBcrypt : Bcrypt where
  secret password := some (password.toUTF8.data.toList.take 72)
  hashpw password _ := some password
  checkpw plain hashed := some (decide
    (plain.toUTF8.data.toList.take 72 = hashed.toUTF8.data.toList.take 72))
  isSome_hashpw _ _ := rfl
  checkpw_hashpw password salt hashed h plain := by
    cases h
    simp

/-- What stands before the first dot, and after it. -/
def cut (cs : List Char) : List Char × List Char :=
  (cs.takeWhile (· ≠ '.'), (cs.dropWhile (· ≠ '.')).tail)

lemma cut_append {cs : List Char} (h : ∀ c ∈ cs, c ≠ '.') (cs' : List Char) :
    cut (cs ++ '.' :: cs') = (cs, cs') := by
  have hall : ∀ c ∈ cs, (decide (c ≠ '.')) = true := fun c hc => by simpa using h c hc
  simp only [cut, List.takeWhile_append_of_pos hall, List.dropWhile_append_of_pos hall]
  simp

/-- Tokens that are not signed. -/
def plainJwt : Jwt where
  encode sub exp type := toString (exp / 1000000) ++ "." ++ type.value ++ "." ++ sub
  decode now token :=
    let (exp, rest) := cut token.toList
    let (type, sub) := cut rest
    match int (String.ofList exp) with
    | none => none
    | some exp =>
      if exp < now / 1000000 then none else some ⟨some (String.ofList sub), some (String.ofList type)⟩
  decode_encode now sub exp type := by
    have hint : ∀ c ∈ (toString (exp / 1000000)).toList, c ≠ '.' := by
      rintro c hc rfl
      exact absurd (digit_or_sign hc) (by decide)
    have htype : ∀ c ∈ type.value.toList, c ≠ '.' := by
      cases type <;> simp [TokenType.value]
    have htoken : (toString (exp / 1000000) ++ "." ++ type.value ++ "." ++ sub).toList =
        (toString (exp / 1000000)).toList ++ '.' :: (type.value.toList ++ '.' :: sub.toList) := by
      simp [String.toList_append]
    simp only [htoken, cut_append hint, cut_append htype, String.ofList_toList, int_toString]

/-- Tokens are good for half an hour and a week; case is ignored. -/
def plain : AuthSettings where
  accessTokenExpireMinutes := 30
  refreshTokenExpireDays := 7
  bcrypt := plainBcrypt
  jwt := plainJwt
  collate s := String.ofList (s.toList.map Char.toLower)

end InventoryReservation.Auth
