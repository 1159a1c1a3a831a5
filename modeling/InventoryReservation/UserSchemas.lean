/-
# Schemas of the account requests

The bodies of `schemas/user.py`, decoded and with fields of the right types.  The check of an email
is a library: it gives the email in its normal form, or a reason why there is none.  The checks that
the schemas add to a field run on a string whose length is in range.
-/
import Mathlib
import InventoryReservation.Schemas

namespace InventoryReservation.Auth

/-! ### Checks of a string -/

/-- The zeros of the runs of ten decimal digits in Unicode 15. -/
def zeros : List ℕ := [0x30, 0x660, 0x6f0, 0x7c0, 0x966, 0x9e6, 0xa66, 0xae6, 0xb66, 0xbe6, 0xc66,
  0xce6, 0xd66, 0xde6, 0xe50, 0xed0, 0xf20, 0x1040, 0x1090, 0x17e0, 0x1810, 0x1946, 0x19d0, 0x1a80,
  0x1a90, 0x1b50, 0x1bb0, 0x1c40, 0x1c50, 0xa620, 0xa8d0, 0xa900, 0xa9d0, 0xa9f0, 0xaa50, 0xabf0,
  0xff10, 0x104a0, 0x10d30, 0x11066, 0x110f0, 0x11136, 0x111d0, 0x112f0, 0x11450, 0x114d0, 0x11650,
  0x116c0, 0x11730, 0x118e0, 0x11950, 0x11c50, 0x11d50, 0x11da0, 0x11f50, 0x16a60, 0x16ac0, 0x16b50,
  0x1d7ce, 0x1d7d8, 0x1d7e2, 0x1d7ec, 0x1d7f6, 0x1e140, 0x1e2f0, 0x1e4f0, 0x1e950, 0x1fbf0]

/-- `\d`. -/
def isDecimal (c : Char) : Bool := zeros.any fun z => z ≤ c.toNat ∧ c.toNat < z + 10

/-- `[a-zA-Z0-9_]`. -/
def isWord (c : Char) : Bool := c.isAlphanum || c == '_'

/-- What `$` leaves of a string: it matches before a newline at the end, too. -/
def beforeEnd (cs : List Char) : List Char := if cs.getLast? = some '\n' then cs.dropLast else cs

/-- `re.match(r"^[a-zA-Z0-9_]+$", v)`. -/
def isWords (v : String) : Bool :=
  !(beforeEnd v.toList).isEmpty && (beforeEnd v.toList).all isWord

/-- What a validator raises on a string, if it does. -/
abbrev Check : Type := String → Option String

def passwordStrength : Check := fun v =>
  if !v.toList.any Char.isUpper then
    some "Password must contain at least one uppercase letter."
  else if !v.toList.any isDecimal then some "Password must contain at least one digit."
  else none

def usernameFormat : Check := fun v =>
  if !isWords v then some "Username may only contain letters, digits, and underscores."
  else none

/-! ### Fields -/

/-- A field with a length and a validator of its own. -/
def checkedErrors (minLength maxLength : ℕ) (check : Check) (loc : List Loc) (s : String) :
    List ErrorDetail :=
  if strErrors minLength maxLength loc s ≠ [] then strErrors minLength maxLength loc s
  else (check s).toList.map fun error => ⟨loc, .valueError error⟩

def passwordErrors : String → List ErrorDetail :=
  checkedErrors 8 128 passwordStrength [.field "body", .field "password"]

def usernameErrors : String → List ErrorDetail :=
  checkedErrors 3 100 usernameFormat [.field "body", .field "username"]

def fullNameErrors : String → List ErrorDetail :=
  strErrors 2 255 [.field "body", .field "full_name"]

lemma checkedErrors_eq_nil {minLength maxLength : ℕ} {check : Check} {loc : List Loc} {s : String} :
    checkedErrors minLength maxLength check loc s = [] ↔
      (minLength ≤ s.length ∧ s.length ≤ maxLength) ∧ check s = none := by
  have hlength : strErrors minLength maxLength loc s = [] ↔
      minLength ≤ s.length ∧ s.length ≤ maxLength := strErrors_eq_nil
  unfold checkedErrors
  rw [← hlength]
  by_cases hs : strErrors minLength maxLength loc s = []
  · rw [if_neg (not_not.mpr hs)]
    rcases hc : check s with _ | error <;> simp [hs]
  · rw [if_pos hs]
    simp [hs]

/-- A password that the schemas let pass. -/
structure StrongPassword (password : String) : Prop where
  length : 8 ≤ password.length ∧ password.length ≤ 128
  upper : ∃ c ∈ password.toList, c.isUpper = true
  digit : ∃ c ∈ password.toList, isDecimal c = true

lemma passwordErrors_eq_nil {password : String} :
    passwordErrors password = [] ↔ StrongPassword password := by
  have hcheck : passwordStrength password = none ↔
      (∃ c ∈ password.toList, c.isUpper = true) ∧ ∃ c ∈ password.toList, isDecimal c = true := by
    rw [← List.any_eq_true, ← List.any_eq_true]
    unfold passwordStrength
    rcases password.toList.any Char.isUpper with _ | _ <;>
      rcases password.toList.any isDecimal with _ | _ <;> simp
  rw [passwordErrors, checkedErrors_eq_nil, hcheck]
  exact ⟨fun ⟨hl, hu, hd⟩ => ⟨hl, hu, hd⟩, fun h => ⟨h.length, h.upper, h.digit⟩⟩

/-- A username that the schema lets pass. -/
structure ProperUsername (username : String) : Prop where
  length : 3 ≤ username.length ∧ username.length ≤ 100
  words : isWords username = true

lemma usernameErrors_eq_nil {username : String} :
    usernameErrors username = [] ↔ ProperUsername username := by
  have hcheck : usernameFormat username = none ↔ isWords username = true := by
    unfold usernameFormat
    rcases isWords username with _ | _ <;> simp
  rw [usernameErrors, checkedErrors_eq_nil, hcheck]
  exact ⟨fun ⟨hl, hw⟩ => ⟨hl, hw⟩, fun h => ⟨h.length, h.words⟩⟩

/-! ### The lower case of a username -/

lemma isUpper_iff {c : Char} : c.isUpper = true ↔ 65 ≤ c.toNat ∧ c.toNat ≤ 90 := by
  simp [Char.isUpper, UInt32.le_iff_toNat_le]

lemma isWord_iff {c : Char} : isWord c = true ↔ (65 ≤ c.toNat ∧ c.toNat ≤ 90) ∨
    (97 ≤ c.toNat ∧ c.toNat ≤ 122) ∨ (48 ≤ c.toNat ∧ c.toNat ≤ 57) ∨ c.toNat = 95 := by
  have hlower : c.isLower = true ↔ 97 ≤ c.toNat ∧ c.toNat ≤ 122 := by
    simp [Char.isLower, UInt32.le_iff_toNat_le]
  have hdigit : c.isDigit = true ↔ 48 ≤ c.toNat ∧ c.toNat ≤ 57 := by
    simp [Char.isDigit, UInt32.le_iff_toNat_le]
  have hunder : c = '_' ↔ c.toNat = 95 := Char.toNat_inj.symm
  simp only [isWord, Char.isAlphanum, Char.isAlpha, Bool.or_eq_true, isUpper_iff, hlower, hdigit,
    beq_iff_eq, hunder, or_assoc]

lemma toNat_toLower (c : Char) :
    c.toLower.toNat = if 65 ≤ c.toNat ∧ c.toNat ≤ 90 then c.toNat + 32 else c.toNat := by
  by_cases h : c.isUpper = true
  · have hc : c.val ≥ 'A'.val ∧ c.val ≤ 'Z'.val := by simpa [Char.isUpper] using h
    have hn := isUpper_iff.mp h
    rw [if_pos hn, Char.toLower, dif_pos hc]
    show (c.val.toNat + 32) % 2 ^ 32 = c.toNat + 32
    rw [Char.toNat_val]
    omega
  · have hc : ¬(c.val ≥ 'A'.val ∧ c.val ≤ 'Z'.val) := by simpa [Char.isUpper] using h
    rw [if_neg fun hn => h (isUpper_iff.mpr hn), Char.toLower, dif_neg hc]

lemma isWord_toLower {c : Char} (h : isWord c = true) : isWord c.toLower = true := by
  rw [isWord_iff, toNat_toLower] at *
  split <;> omega

lemma not_isUpper_toLower (c : Char) : c.toLower.isUpper = false := by
  rw [Bool.eq_false_iff, Ne, isUpper_iff, toNat_toLower]
  split <;> omega

lemma toLower_eq_newline {c : Char} : c.toLower = '\n' ↔ c = '\n' := by
  rw [← Char.toNat_inj, ← Char.toNat_inj, toNat_toLower]
  have hnewline : '\n'.toNat = 10 := rfl
  split <;> omega

lemma beforeEnd_map_toLower (cs : List Char) :
    beforeEnd (cs.map Char.toLower) = (beforeEnd cs).map Char.toLower := by
  have hlast : (cs.map Char.toLower).getLast? = some '\n' ↔ cs.getLast? = some '\n' := by
    rw [List.getLast?_map]
    rcases cs.getLast? with _ | c
    · simp
    · simp [toLower_eq_newline]
  unfold beforeEnd
  by_cases h : cs.getLast? = some '\n'
  · rw [if_pos h, if_pos (hlast.mpr h), List.map_dropLast]
  · rw [if_neg h, if_neg (mt hlast.mp h)]

lemma isWords_toLower {v : String} (h : isWords v = true) : isWords v.toLower = true := by
  simp only [isWords, String.toLower, String.toList_map, beforeEnd_map_toLower, Bool.and_eq_true,
    List.isEmpty_map, List.all_map, List.all_eq_true] at h ⊢
  exact ⟨h.1, fun c hc => isWord_toLower (h.2 c hc)⟩

/-- A username as the schema hands it on. -/
structure LowerUsername (username : String) : Prop extends ProperUsername username where
  lower : ∀ c ∈ username.toList, c.isUpper = false

lemma ProperUsername.toLower {username : String} (h : ProperUsername username) :
    LowerUsername username.toLower where
  length := by simpa only [String.toLower, String.length_map] using h.length
  words := isWords_toLower h.words
  lower c hc := by
    simp only [String.toLower, String.toList_map, List.mem_map] at hc
    obtain ⟨c, -, rfl⟩ := hc
    exact not_isUpper_toLower c

/-! ### Requests -/

section Requests

variable (validateEmail : String → Except String String)

def emailErrors (email : String) : List ErrorDetail :=
  match validateEmail email with
  | .ok _ => []
  | .error reason => [⟨[.field "body", .field "email"], .emailError reason⟩]

/-- An email in the form in which the library gives it. -/
def ValidEmail (email : String) : Prop := ∃ value, validateEmail value = .ok email

structure SignupBody where
  email : String
  username : String
  fullName : String
  password : String
deriving DecidableEq, Repr

structure UserSignupRequest where
  email : String
  username : String
  fullName : String
  password : String
  email_valid : ValidEmail validateEmail email
  username_lower : LowerUsername username
  fullName_length : 2 ≤ fullName.length ∧ fullName.length ≤ 255
  password_strong : StrongPassword password

def SignupBody.errors (b : SignupBody) : List ErrorDetail :=
  emailErrors validateEmail b.email ++ usernameErrors b.username ++ fullNameErrors b.fullName ++
    passwordErrors b.password

structure LoginBody where
  email : String
  password : String
deriving DecidableEq, Repr

structure UserLoginRequest where
  email : String
  password : String
  email_valid : ValidEmail validateEmail email
  password_length : 1 ≤ password.length

def LoginBody.errors (b : LoginBody) : List ErrorDetail :=
  emailErrors validateEmail b.email ++
    if b.password.length < 1 then [⟨[.field "body", .field "password"], .stringTooShort 1⟩] else []

structure UpdateBody where
  fullName : Option String
  password : Option String
deriving DecidableEq, Repr

structure UserUpdateRequest where
  fullName : Option String
  password : Option String
  fullName_length : ∀ s ∈ fullName, 2 ≤ s.length ∧ s.length ≤ 255
  password_strong : ∀ s ∈ password, StrongPassword s

def UpdateBody.errors (b : UpdateBody) : List ErrorDetail :=
  b.fullName.toList.flatMap fullNameErrors ++ b.password.toList.flatMap passwordErrors

variable {validateEmail}

lemma emailErrors_eq_nil {email : String} :
    emailErrors validateEmail email = [] ↔ ∃ email', validateEmail email = .ok email' := by
  unfold emailErrors
  rcases validateEmail email with reason | email' <;> simp

lemma SignupBody.errors_eq_nil {b : SignupBody} : b.errors validateEmail = [] ↔
    (∃ email, validateEmail b.email = .ok email) ∧ ProperUsername b.username ∧
      (2 ≤ b.fullName.length ∧ b.fullName.length ≤ 255) ∧ StrongPassword b.password := by
  simp only [SignupBody.errors, List.append_eq_nil_iff, emailErrors_eq_nil, usernameErrors_eq_nil,
    passwordErrors_eq_nil, fullNameErrors, strErrors_eq_nil, and_assoc]

lemma UpdateBody.errors_eq_nil {b : UpdateBody} : b.errors = [] ↔
    (∀ s ∈ b.fullName, 2 ≤ s.length ∧ s.length ≤ 255) ∧ ∀ s ∈ b.password, StrongPassword s := by
  simp only [UpdateBody.errors, List.append_eq_nil_iff, List.flatMap_eq_nil_iff, Option.mem_toList,
    Option.mem_def, passwordErrors_eq_nil, fullNameErrors, strErrors_eq_nil]

/-- What a body becomes, or its violations. -/
def SignupBody.validate (validateEmail : String → Except String String) (b : SignupBody) :
    Except (List ErrorDetail) (UserSignupRequest validateEmail) :=
  if h : b.errors validateEmail = [] then
    match hemail : validateEmail b.email with
    | .error _ => .error (b.errors validateEmail)
    | .ok email =>
      have hb := SignupBody.errors_eq_nil.mp h
      .ok {
        email := email
        username := b.username.toLower
        fullName := b.fullName
        password := b.password
        email_valid := ⟨b.email, hemail⟩
        username_lower := hb.2.1.toLower
        fullName_length := hb.2.2.1
        password_strong := hb.2.2.2 }
  else .error (b.errors validateEmail)

def LoginBody.validate (validateEmail : String → Except String String) (b : LoginBody) :
    Except (List ErrorDetail) (UserLoginRequest validateEmail) :=
  match hemail : validateEmail b.email with
  | .error _ => .error (b.errors validateEmail)
  | .ok email =>
    if h : b.password.length < 1 then .error (b.errors validateEmail)
    else .ok ⟨email, b.password, ⟨b.email, hemail⟩, not_lt.mp h⟩

def UpdateBody.validate (b : UpdateBody) : Except (List ErrorDetail) UserUpdateRequest :=
  if h : b.errors = [] then
    have hb := UpdateBody.errors_eq_nil.mp h
    .ok ⟨b.fullName, b.password, hb.1, hb.2⟩
  else .error b.errors

end Requests

end InventoryReservation.Auth
