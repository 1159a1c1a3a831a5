/-
# Programs that only ask

What a program does that asks questions and touches no row is a list of questions and a result;
`Talk` is the type of such outcomes, with the operations of programs.
-/
import InventoryReservation.RowTxn.Logic

namespace RowTxn

variable {D K : Type} {V : K → Type} {Q : Type} {A : Q → Type} {ε α β : Type}

/-- Questions with their answers. -/
def answers (env : (q : Q) → A q) (qs : List Q) : List (Σ q, A q) := qs.map fun q => ⟨q, env q⟩

@[simp] lemma answers_nil (env : (q : Q) → A q) : answers env [] = [] := rfl

@[simp] lemma answers_append (env : (q : Q) → A q) (qs qs' : List Q) :
    answers env (qs ++ qs') = answers env qs ++ answers env qs' := by
  simp [answers]

lemma mem_answers {env : (q : Q) → A q} {qs : List Q} {q : Q} {a : A q} :
    ⟨q, a⟩ ∈ answers env qs ↔ q ∈ qs ∧ a = env q := by
  simp only [answers, List.mem_map, Sigma.mk.injEq]
  constructor
  · rintro ⟨q', hq', rfl, h⟩
    exact ⟨hq', (eq_of_heq h).symm⟩
  · rintro ⟨hq, rfl⟩
    exact ⟨q, hq, rfl, HEq.rfl⟩

/-- Ask a list of questions. -/
def Session.asked (env : (q : Q) → A q) (s : Session K V Q A) (qs : List Q) : Session K V Q A :=
  { s with trace := s.trace ++ answers env qs }

@[simp] lemma Session.asked_nil (env : (q : Q) → A q) (s : Session K V Q A) :
    s.asked env [] = s := by
  simp [asked]

@[simp] lemma Session.asked_trace (env : (q : Q) → A q) (s : Session K V Q A) (qs : List Q) :
    (s.asked env qs).trace = s.trace ++ answers env qs := rfl

@[simp] lemma Session.val_asked (env : (q : Q) → A q) (s : Session K V Q A) (qs : List Q) (k : K) :
    (s.asked env qs).val k = s.val k := rfl

lemma Session.asked_append (env : (q : Q) → A q) (s : Session K V Q A) (qs qs' : List Q) :
    (s.asked env qs).asked env qs' = s.asked env (qs ++ qs') := by
  simp [asked]

lemma Session.asked_cons (env : (q : Q) → A q) (s : Session K V Q A) (q : Q) (qs : List Q) :
    (s.log q (env q)).asked env qs = s.asked env (q :: qs) := by
  simp [asked, log, answers]

/-- The questions of a program, and how it ends. -/
structure Talk (Q ε α : Type) where
  asks : List Q
  result : Except ε α

namespace Talk

def pure (a : α) : Talk Q ε α := ⟨[], .ok a⟩

def raise (e : ε) : Talk Q ε α := ⟨[], .error e⟩

def ofExcept (x : Except ε α) : Talk Q ε α := ⟨[], x⟩

def ask (env : (q : Q) → A q) (q : Q) (f : A q → Talk Q ε α) : Talk Q ε α :=
  ⟨q :: (f (env q)).asks, (f (env q)).result⟩

def bind (o : Talk Q ε α) (f : α → Talk Q ε β) : Talk Q ε β :=
  match o.result with
  | .ok a => ⟨o.asks ++ (f a).asks, (f a).result⟩
  | .error e => ⟨o.asks, .error e⟩

def handle (o : Talk Q ε α) (h : ε → Talk Q ε α) : Talk Q ε α :=
  match o.result with
  | .ok _ => o
  | .error e => ⟨o.asks ++ (h e).asks, (h e).result⟩

lemma bind_ok {o : Talk Q ε α} {f : α → Talk Q ε β} {b : β} :
    (o.bind f).result = .ok b ↔ ∃ a, o.result = .ok a ∧ (f a).result = .ok b := by
  unfold bind
  rcases o.result with e | a <;> simp

lemma bind_error {o : Talk Q ε α} {f : α → Talk Q ε β} {e : ε} :
    (o.bind f).result = .error e ↔
      o.result = .error e ∨ ∃ a, o.result = .ok a ∧ (f a).result = .error e := by
  unfold bind
  rcases o.result with e' | a <;> simp

lemma handle_ok {o : Talk Q ε α} {h : ε → Talk Q ε α} {a : α} :
    (o.handle h).result = .ok a ↔
      o.result = .ok a ∨ ∃ e, o.result = .error e ∧ (h e).result = .ok a := by
  unfold handle
  rcases hr : o.result with e | a' <;> simp [hr]

lemma handle_error {o : Talk Q ε α} {h : ε → Talk Q ε α} {e : ε} :
    (o.handle h).result = .error e ↔ ∃ e', o.result = .error e' ∧ (h e').result = .error e := by
  unfold handle
  rcases hr : o.result with e' | a <;> simp [hr]

/-- The result of a composition, from the results of its parts. -/
lemma bind_result (o : Talk Q ε α) (f : α → Talk Q ε β) :
    (o.bind f).result = o.result.bind fun a => (f a).result := by
  unfold bind
  rcases o.result with e | a <;> rfl

lemma handle_result (o : Talk Q ε α) (h : ε → Talk Q ε α) :
    (o.handle h).result = o.result.tryCatch fun e => (h e).result := by
  unfold handle
  rcases hr : o.result with e | a
  · rfl
  · exact hr

lemma mem_bind_asks {o : Talk Q ε α} {f : α → Talk Q ε β} {q : Q} :
    q ∈ (o.bind f).asks ↔ q ∈ o.asks ∨ ∃ a, o.result = .ok a ∧ q ∈ (f a).asks := by
  unfold bind
  rcases o.result with e | a <;> simp

lemma mem_handle_asks {o : Talk Q ε α} {h : ε → Talk Q ε α} {q : Q} :
    q ∈ (o.handle h).asks ↔ q ∈ o.asks ∨ ∃ e, o.result = .error e ∧ q ∈ (h e).asks := by
  unfold handle
  rcases hr : o.result with e | a <;> simp

@[simp] lemma pure_asks (a : α) : (pure a : Talk Q ε α).asks = [] := rfl

@[simp] lemma raise_asks (e : ε) : (raise e : Talk Q ε α).asks = [] := rfl

@[simp] lemma ofExcept_asks (x : Except ε α) : (ofExcept x : Talk Q ε α).asks = [] := rfl

@[simp] lemma pure_result (a : α) : (pure a : Talk Q ε α).result = .ok a := rfl

@[simp] lemma raise_result (e : ε) : (raise e : Talk Q ε α).result = .error e := rfl

@[simp] lemma ofExcept_result (x : Except ε α) : (ofExcept x : Talk Q ε α).result = x := rfl

/-- The postconditions hold after the questions and with the result. -/
def Answered (env : (q : Q) → A q) (o : Talk Q ε α) (P : α → Session K V Q A → Held V → Prop)
    (E : ε → Session K V Q A → Held V → Prop) (s : Session K V Q A) (H : Held V) : Prop :=
  match o.result with
  | .ok a => P a (s.asked env o.asks) H
  | .error e => E e (s.asked env o.asks) H

end Talk

variable [DecidableEq K] [RowStore D K V]

/-- The program asks and ends as the outcome says, and does nothing else. -/
def Prog.Talks (env : (q : Q) → A q) (p : Prog D K V Q A ε α) (o : Talk Q ε α) : Prop :=
  ∀ (R : Rely D K) (P : α → Session K V Q A → Held V → Prop)
    (E : ε → Session K V Q A → Held V → Prop) (s : Session K V Q A) (H : Held V),
    o.Answered env P E s H → wp R env p P E s H

namespace Prog.Talks

variable {env : (q : Q) → A q} {p : Prog D K V Q A ε α} {o : Talk Q ε α}

lemma pure (a : α) : Talks env (Prog.pure a : Prog D K V Q A ε α) (.pure a) := by
  intro R P E s H h
  simpa [Talk.Answered, Talk.pure, wp] using h

lemma ofExcept (x : Except ε α) : Talks env (Prog.ofExcept x : Prog D K V Q A ε α) (.ofExcept x) := by
  intro R P E s H h
  cases x <;> simpa [Talk.Answered, Talk.ofExcept, wp_ofExcept] using h

lemma ask {q : Q} {c : A q → Prog D K V Q A ε α} {f : A q → Talk Q ε α}
    (h : ∀ a, Talks env (c a) (f a)) : Talks env (.ask q c) (.ask env q f) := by
  intro R P E s H ho
  refine h _ R P E _ H ?_
  simp only [Talk.Answered, Talk.ask, Session.asked_cons] at ho ⊢
  exact ho

lemma bind (h : Talks env p o) {c : α → Prog D K V Q A ε β} {f : α → Talk Q ε β}
    (hc : ∀ a, Talks env (c a) (f a)) : Talks env (p.bind c) (o.bind f) := by
  intro R P E s H ho
  rw [wp_bind]
  refine h R _ E s H ?_
  obtain ⟨qs, e | a⟩ := o
  · exact ho
  · refine hc a R P E _ H ?_
    simp only [Talk.Answered, Talk.bind, Session.asked_append] at ho ⊢
    exact ho

lemma tryCatch (h : Talks env p o) {c : ε → Prog D K V Q A ε α} {f : ε → Talk Q ε α}
    (hc : ∀ e, Talks env (c e) (f e)) : Talks env (p.tryCatch c) (o.handle f) := by
  intro R P E s H ho
  rw [wp_tryCatch]
  refine h R P _ s H ?_
  obtain ⟨qs, e | a⟩ := o
  · refine hc e R P E _ H ?_
    simp only [Talk.Answered, Talk.handle, Session.asked_append] at ho ⊢
    exact ho
  · exact ho

end Prog.Talks

end RowTxn
