/-
# The rate limiter

The limiter of the routes for signing up and logging in keeps, for every client and path, the
times of the requests that it has let through, and drops those that have left the window whenever
it lets another one through.  Below it is compared with the limiter that keeps everything.
-/
import Mathlib.Data.Rat.Floor
import Mathlib.Algebra.Order.Round
import Mathlib.Tactic.Linarith
import InventoryReservation.Groups
import InventoryReservation.SlidingWindow

namespace InventoryReservation.RateLimit

open SlidingWindow

/-! ### The limiter -/

/-- What the limiter reads of a request: the host of its client, if it has one, and its path. -/
structure Request where
  client : Option String
  path : String
deriving DecidableEq, Repr

def Request.clientHost (request : Request) : String := request.client.getD "unknown"

def Request.key (request : Request) : String := request.clientHost ++ ":" ++ request.path

structure HTTPException where
  statusCode : ℕ
  detail : String
  headers : List (String × String)
deriving DecidableEq, Repr

/-- What ends a call: the answer of the limiter, or the first element of an empty list. -/
inductive CallError
  | http (e : HTTPException)
  | indexError
deriving DecidableEq, Repr

/-- `int(x)` of a number rounds toward zero. -/
def int (x : ℚ) : ℤ := if 0 ≤ x then ⌊x⌋ else ⌈x⌉

/-- The times are those of the monotonic clock, and `seconds` need not be whole.  A key that was
never written has the empty list, which is what a `defaultdict` gives. -/
structure RateLimiter where
  times : ℤ
  seconds : ℚ
  hits : String → List ℚ

namespace RateLimiter

def init (times : ℤ) (seconds : ℚ) : RateLimiter := ⟨times, seconds, fun _ => []⟩

/-- The refusal of a request at `now` whose window has been busy since `first`. -/
def tooManyRequests (seconds now first : ℚ) : HTTPException :=
  let retryAfter := int (seconds - (now - first)) + 1
  { statusCode := 429
    detail := "Too many requests. Please try again later."
    headers := [("Retry-After", toString retryAfter)] }

/-- `__call__`, at the time `now` of the monotonic clock.  A refused request leaves the limiter as
it was. -/
def call (limiter : RateLimiter) (rateLimitEnabled : Bool) (request : Request) (now : ℚ) :
    Except CallError Unit × RateLimiter :=
  if !rateLimitEnabled then (.ok (), limiter) else
  let key := request.key
  let windowStart := now - limiter.seconds
  let hits := (limiter.hits key).filter fun t => t > windowStart
  if (hits.length : ℤ) ≥ limiter.times then
    match hits with
    | [] => (.error .indexError, limiter)
    | first :: _ => (.error (.http (tooManyRequests limiter.seconds now first)), limiter)
  else
    (.ok (), { limiter with hits := Function.update limiter.hits key (hits ++ [now]) })

end RateLimiter

/-! ### Sequences of requests -/

/-- A request at its time. -/
structure Arrival where
  request : Request
  now : ℚ
deriving DecidableEq, Repr

namespace Arrival

variable (a : Arrival)

abbrev key : String := a.request.key

/-- The client and path that are limited together. -/
def hostPath : String × String := (a.request.clientHost, a.request.path)

end Arrival

/-- A request with the answer it got. -/
abbrev Served := Arrival × Except CallError Unit

namespace RateLimiter

/-- One request, with limiting enabled. -/
def step (limiter : RateLimiter) (a : Arrival) : Except CallError Unit × RateLimiter :=
  limiter.call true a.request a.now

/-- The limiter after a sequence of requests. -/
def run (limiter : RateLimiter) (arrivals : List Arrival) : RateLimiter :=
  arrivals.foldl (fun limiter a => (limiter.step a).2) limiter

/-- The answers to a sequence of requests. -/
def serve (limiter : RateLimiter) : List Arrival → List Served
  | [] => []
  | a :: arrivals => (a, (limiter.step a).1) :: (limiter.step a).2.serve arrivals

end RateLimiter

/-- The times of the accepted requests of a key. -/
def log (past : List Served) (key : String) : List ℚ :=
  (past.filter fun e => e.2.isOk ∧ e.1.key = key).map fun e => e.1.now

lemma log_snoc (past : List Served) (e : Served) (key : String) :
    log (past ++ [e]) key
      = if e.2.isOk ∧ e.1.key = key then log past key ++ [e.1.now] else log past key := by
  by_cases h : e.2.isOk ∧ e.1.key = key <;> simp [log, h]

lemma le_of_mem_log {past : List Served} {key : String} {t : ℚ} (hle : ∀ e ∈ past, e.1.now ≤ t) :
    ∀ x ∈ log past key, x ≤ t := by
  intro x hx
  obtain ⟨e, he, rfl⟩ := List.mem_map.mp hx
  exact hle e (List.mem_filter.mp he).1

lemma eq_ok_iff {out : Except CallError Unit} : out = .ok () ↔ out.isOk = true := by
  cases out <;> simp [Except.toBool]

/-! ### One request -/

namespace RateLimiter

variable {limiter : RateLimiter} {a : Arrival}

/-- The accepted requests that a request still finds in its window. -/
def recentHits (limiter : RateLimiter) (a : Arrival) : List ℚ :=
  recent limiter.seconds a.now (limiter.hits a.key)

lemma step_eq (limiter : RateLimiter) (a : Arrival) :
    limiter.step a = if limiter.times ≤ (limiter.recentHits a).length then
      match limiter.recentHits a with
      | [] => (.error .indexError, limiter)
      | first :: _ => (.error (.http (tooManyRequests limiter.seconds a.now first)), limiter)
    else (.ok (), { limiter with
      hits := Function.update limiter.hits a.key (limiter.recentHits a ++ [a.now]) }) := rfl

lemma lt_of_recentHits {first : ℚ} {rest : List ℚ} (h : limiter.recentHits a = first :: rest) :
    a.now - limiter.seconds < first :=
  (mem_recent.mp (h.symm ▸ List.mem_cons_self : first ∈ limiter.recentHits a)).2

/-- A request that finds room is accepted and remembered. -/
lemma step_of_lt (h : ((limiter.recentHits a).length : ℤ) < limiter.times) :
    limiter.step a = (.ok (), { limiter with
      hits := Function.update limiter.hits a.key (limiter.recentHits a ++ [a.now]) }) := by
  rw [step_eq, if_neg (by omega)]

/-- A request that finds none is refused, and changes nothing. -/
lemma step_of_le (h : limiter.times ≤ (limiter.recentHits a).length) :
    (limiter.step a).1.isOk = false ∧ (limiter.step a).2 = limiter ∧
      ∀ first rest, limiter.recentHits a = first :: rest →
        (limiter.step a).1 = .error (.http (tooManyRequests limiter.seconds a.now first)) := by
  rw [step_eq, if_pos h]
  cases limiter.recentHits a with
  | nil => exact ⟨rfl, rfl, nofun⟩
  | cons first rest => exact ⟨rfl, rfl, fun _ _ heq => by cases heq; rfl⟩

lemma isOk_step :
    (limiter.step a).1.isOk = true ↔ ((limiter.recentHits a).length : ℤ) < limiter.times := by
  rcases lt_or_ge ((limiter.recentHits a).length : ℤ) limiter.times with h | h
  · simp [step_of_lt h, h, Except.toBool]
  · simp [(step_of_le h).1, h]

lemma step_of_rejected (h : (limiter.step a).1.isOk = false) : (limiter.step a).2 = limiter := by
  refine (step_of_le ?_).2.1
  by_contra hlt
  rw [isOk_step.mpr (not_le.mp hlt)] at h
  cases h

@[simp] lemma step_times : (limiter.step a).2.times = limiter.times := by
  rcases lt_or_ge ((limiter.recentHits a).length : ℤ) limiter.times with h | h
  · rw [step_of_lt h]
  · rw [(step_of_le h).2.1]

@[simp] lemma step_seconds : (limiter.step a).2.seconds = limiter.seconds := by
  rcases lt_or_ge ((limiter.recentHits a).length : ℤ) limiter.times with h | h
  · rw [step_of_lt h]
  · rw [(step_of_le h).2.1]

lemma step_hits_self (h : ((limiter.recentHits a).length : ℤ) < limiter.times) :
    (limiter.step a).2.hits a.key = limiter.recentHits a ++ [a.now] := by
  rw [step_of_lt h]
  exact Function.update_self _ _ _

/-- A request touches its own key only. -/
lemma step_hits_of_ne {key : String} (h : key ≠ a.key) :
    (limiter.step a).2.hits key = limiter.hits key := by
  rcases lt_or_ge ((limiter.recentHits a).length : ℤ) limiter.times with hlt | hle
  · rw [step_of_lt hlt]
    exact Function.update_of_ne h _ _
  · rw [(step_of_le hle).2.1]

/-! ### Many requests -/

variable {arrivals : List Arrival}

@[simp] lemma run_nil (limiter : RateLimiter) : limiter.run [] = limiter := rfl

@[simp] lemma run_cons (limiter : RateLimiter) (a : Arrival) (arrivals : List Arrival) :
    limiter.run (a :: arrivals) = (limiter.step a).2.run arrivals := rfl

@[simp] lemma run_times (limiter : RateLimiter) (arrivals : List Arrival) :
    (limiter.run arrivals).times = limiter.times := by
  induction arrivals generalizing limiter with
  | nil => rfl
  | cons a arrivals ih => rw [run_cons, ih, step_times]

@[simp] lemma run_seconds (limiter : RateLimiter) (arrivals : List Arrival) :
    (limiter.run arrivals).seconds = limiter.seconds := by
  induction arrivals generalizing limiter with
  | nil => rfl
  | cons a arrivals ih => rw [run_cons, ih, step_seconds]

lemma serve_append (limiter : RateLimiter) (xs ys : List Arrival) :
    limiter.serve (xs ++ ys) = limiter.serve xs ++ (limiter.run xs).serve ys := by
  induction xs generalizing limiter with
  | nil => rfl
  | cons a xs ih => simp [serve, ih]

lemma map_fst_serve (limiter : RateLimiter) (arrivals : List Arrival) :
    (limiter.serve arrivals).map Prod.fst = arrivals := by
  induction arrivals generalizing limiter with
  | nil => rfl
  | cons a arrivals ih => simp [serve, ih]

lemma mem_of_mem_serve {e : Served} (h : e ∈ limiter.serve arrivals) : e.1 ∈ arrivals := by
  rw [← map_fst_serve limiter arrivals]
  exact List.mem_map_of_mem h

/-- Every answer was given in the state that the requests before it left. -/
lemma of_serve_eq {past future : List Served} {out : Except CallError Unit}
    (h : limiter.serve arrivals = past ++ (a, out) :: future) :
    ∃ xs ys, arrivals = xs ++ a :: ys ∧ limiter.serve xs = past ∧
      ((limiter.run xs).step a).1 = out ∧ ((limiter.run xs).step a).2.serve ys = future := by
  induction past generalizing limiter arrivals with
  | nil =>
    cases arrivals with
    | nil => cases h
    | cons b ys =>
      cases h
      exact ⟨[], ys, rfl, rfl, rfl, rfl⟩
  | cons e past ih =>
    cases arrivals with
    | nil => cases h
    | cons b arrivals =>
      obtain ⟨he, htail⟩ := List.cons.inj h
      obtain ⟨xs, ys, rfl, hpast, hout, hfuture⟩ := ih htail
      exact ⟨b :: xs, ys, rfl, by rw [serve, he, hpast], hout, hfuture⟩

end RateLimiter

/-! ### The limiter keeps what the full history says -/

/-- From the present on, the pruned lists of a limiter say the same as all the requests it has
accepted; and these were accepted as the limit allows. -/
structure Tracks (limiter : RateLimiter) (past : List Served) : Prop where
  recent : ∀ key t, (∀ e ∈ past, e.1.now ≤ t) →
    recent limiter.seconds t (limiter.hits key) = recent limiter.seconds t (log past key)
  admitted : ∀ key, Admitted limiter.times.toNat limiter.seconds (log past key)

namespace Tracks

open RateLimiter

variable {limiter : RateLimiter} {past : List Served} {a : Arrival}

lemma init (times : ℤ) (seconds : ℚ) : Tracks (.init times seconds) [] :=
  ⟨fun _ _ _ => rfl, fun _ => .nil⟩

lemma recentHits (h : Tracks limiter past) (hle : ∀ e ∈ past, e.1.now ≤ a.now) :
    limiter.recentHits a = SlidingWindow.recent limiter.seconds a.now (log past a.key) :=
  h.recent a.key a.now hle

lemma step (h : Tracks limiter past) (hle : ∀ e ∈ past, e.1.now ≤ a.now) :
    Tracks (limiter.step a).2 (past ++ [(a, (limiter.step a).1)]) := by
  rcases lt_or_ge ((limiter.recentHits a).length : ℤ) limiter.times with hlt | hge
  · have hok := isOk_step.mpr hlt
    refine ⟨fun key t ht => ?_, fun key => ?_⟩
    · have hpast : ∀ e ∈ past, e.1.now ≤ t := fun e he => ht e (List.mem_append_left _ he)
      have hnow : a.now ≤ t := ht _ (List.mem_append_right _ (List.mem_singleton_self _))
      rw [step_seconds, log_snoc]
      by_cases hkey : a.key = key
      · subst hkey
        rw [if_pos ⟨hok, rfl⟩, step_hits_self hlt, h.recentHits hle, recent_append, recent_append,
          recent_recent hnow]
      · rw [if_neg fun h => hkey h.2, step_hits_of_ne (Ne.symm hkey)]
        exact h.recent key t hpast
    · rw [step_times, step_seconds, log_snoc]
      split_ifs with hkey
      · obtain ⟨-, rfl⟩ := hkey
        rw [h.recentHits hle] at hlt
        have hroom : (SlidingWindow.recent limiter.seconds a.now (log past a.key)).length
            < limiter.times.toNat := by omega
        exact .snoc (h.admitted _) (le_of_mem_log hle) hroom
      · exact h.admitted key
  · have hok := (step_of_le hge).1
    have hlog : ∀ key, log (past ++ [(a, (limiter.step a).1)]) key = log past key := by
      intro key
      rw [log_snoc, if_neg]
      simp [hok]
    refine ⟨fun key t ht => ?_, fun key => ?_⟩
    · rw [(step_of_le hge).2.1, hlog]
      exact h.recent key t fun e he => ht e (List.mem_append_left _ he)
    · rw [(step_of_le hge).2.1, hlog]
      exact h.admitted key

lemma run (h : Tracks limiter past) {arrivals : List Arrival}
    (hsorted : arrivals.Pairwise fun a b => a.now ≤ b.now)
    (hle : ∀ e ∈ past, ∀ a ∈ arrivals, e.1.now ≤ a.now) :
    Tracks (limiter.run arrivals) (past ++ limiter.serve arrivals) := by
  induction arrivals generalizing limiter past with
  | nil => simpa [serve] using h
  | cons a arrivals ih =>
    obtain ⟨hhead, hsorted⟩ := List.pairwise_cons.mp hsorted
    have hstep := h.step fun e he => hle e he a List.mem_cons_self
    have htail := ih hstep hsorted fun e he b hb => by
      rcases List.mem_append.mp he with he | he
      · exact hle e he b (List.mem_cons_of_mem _ hb)
      · rw [List.mem_singleton.mp he]
        exact hhead b hb
    rw [List.append_assoc] at htail
    exact htail

end Tracks

/-- The limiter after a sequence in the order of time. -/
lemma tracks_run (times : ℤ) (seconds : ℚ) {arrivals : List Arrival}
    (hsorted : arrivals.Pairwise fun a b => a.now ≤ b.now) :
    Tracks ((RateLimiter.init times seconds).run arrivals)
      ((RateLimiter.init times seconds).serve arrivals) :=
  (Tracks.init times seconds).run hsorted nofun

lemma admitted_log (times : ℤ) (seconds : ℚ) {arrivals : List Arrival}
    (hsorted : arrivals.Pairwise fun a b => a.now ≤ b.now) (key : String) :
    Admitted times.toNat seconds (log ((RateLimiter.init times seconds).serve arrivals) key) := by
  have h := (tracks_run times seconds hsorted).admitted key
  rwa [RateLimiter.run_times, RateLimiter.run_seconds] at h

/-- Counting in the log of a key is counting among the requests. -/
lemma length_filter_log (past : List Served) (key : String) (p : ℚ → Prop) [DecidablePred p] :
    ((log past key).filter fun x => p x).length
      = (past.filter fun e => e.2.isOk ∧ e.1.key = key ∧ p e.1.now).length := by
  rw [log, List.filter_map, List.length_map, List.filter_filter]
  congr 1
  refine List.filter_congr fun e _ => ?_
  simp [Bool.and_comm, Bool.and_left_comm]

/-! ### The key of a request -/

/-- A host has no slash, and a path begins with one. -/
structure Request.WellFormed (request : Request) : Prop where
  host : '/' ∉ request.clientHost.toList
  path : ∃ rest, request.path.toList = '/' :: rest

/-- A key determines its host and its path, although a host may have colons too. -/
lemma key_inj {r r' : Request} (h : r.WellFormed) (h' : r'.WellFormed) :
    r.key = r'.key ↔ r.clientHost = r'.clientHost ∧ r.path = r'.path := by
  refine ⟨fun heq => ?_, fun ⟨hhost, hpath⟩ => by rw [Request.key, Request.key, hhost, hpath]⟩
  obtain ⟨rest, hrest⟩ := h.path
  obtain ⟨rest', hrest'⟩ := h'.path
  have hchars : (r.clientHost.toList ++ [':']) ++ '/' :: rest
      = (r'.clientHost.toList ++ [':']) ++ '/' :: rest' := by
    have := congrArg String.toList heq
    simpa [Request.key, String.toList_append, hrest, hrest'] using this
  -- what stands before the first slash is the host and the colon
  obtain ⟨hcolon, htail⟩ :=
    (Groups.joined_inj (by simpa using h.host) (by simpa using h'.host)).mp hchars
  refine ⟨String.toList_injective (List.append_cancel_right hcolon), ?_⟩
  refine String.toList_injective ?_
  rw [hrest, hrest', htail]

lemma key_eq_iff {a b : Arrival} (ha : a.request.WellFormed) (hb : b.request.WellFormed) :
    a.key = b.key ↔ a.hostPath = b.hostPath := by
  rw [Arrival.hostPath, Arrival.hostPath, Prod.mk.injEq]
  exact key_inj ha hb

/-! ### Requests of other keys -/

/-- Two limiters that a request of the key cannot tell apart. -/
structure SameAt (key : String) (limiter limiter' : RateLimiter) : Prop where
  times : limiter.times = limiter'.times
  seconds : limiter.seconds = limiter'.seconds
  hits : limiter.hits key = limiter'.hits key

namespace SameAt

open RateLimiter

variable {key : String} {limiter limiter' : RateLimiter} {a : Arrival} {arrivals : List Arrival}

lemma step (h : SameAt a.key limiter limiter') :
    (limiter.step a).1 = (limiter'.step a).1 ∧
      SameAt a.key (limiter.step a).2 (limiter'.step a).2 := by
  have hrecent : limiter.recentHits a = limiter'.recentHits a := by
    rw [RateLimiter.recentHits, h.seconds, h.hits, RateLimiter.recentHits]
  have hout : (limiter.step a).1 = (limiter'.step a).1 := by
    rw [step_eq, step_eq, ← hrecent, ← h.times, ← h.seconds]
    split_ifs
    · cases limiter.recentHits a <;> rfl
    · rfl
  refine ⟨hout, by simp [h.times], by simp [h.seconds], ?_⟩
  rcases lt_or_ge ((limiter.recentHits a).length : ℤ) limiter.times with hlt | hge
  · rw [step_hits_self hlt, step_hits_self (by rwa [← hrecent, ← h.times]), hrecent]
  · rw [(step_of_le hge).2.1, (step_of_le (by rwa [← hrecent, ← h.times])).2.1, h.hits]

lemma step_of_ne (h : SameAt key limiter limiter') (hne : a.key ≠ key) :
    SameAt key (limiter.step a).2 limiter' :=
  ⟨by simp [h.times], by simp [h.seconds], by rw [step_hits_of_ne (Ne.symm hne), h.hits]⟩

/-- Serving the requests of a key alone gives them the same answers. -/
lemma serve_filter (h : SameAt key limiter limiter') (p : Arrival → Bool)
    (hp : ∀ a ∈ arrivals, p a = true ↔ a.key = key) :
    limiter'.serve (arrivals.filter p) = (limiter.serve arrivals).filter fun e => p e.1 := by
  induction arrivals generalizing limiter limiter' with
  | nil => rfl
  | cons a arrivals ih =>
    have hrest : ∀ b ∈ arrivals, p b = true ↔ b.key = key :=
      fun b hb => hp b (List.mem_cons_of_mem _ hb)
    by_cases ha : p a = true
    · obtain rfl := (hp a List.mem_cons_self).mp ha
      rw [serve, List.filter_cons, if_pos ha, List.filter_cons, if_pos ha, serve,
        ih h.step.2 hrest, h.step.1]
    · have hne : a.key ≠ key := fun hkey => ha ((hp a List.mem_cons_self).mpr hkey)
      rw [serve, List.filter_cons, if_neg ha, List.filter_cons, if_neg ha,
        ih (h.step_of_ne hne) hrest]

end SameAt

/-- The request of the tests. -/
def login (now : ℚ) : Arrival := ⟨⟨some "203.0.113.7", "/api/v1/auth/login"⟩, now⟩

lemma login_wellFormed (now : ℚ) : (login now).request.WellFormed :=
  ⟨(by decide : '/' ∉ "203.0.113.7".toList), "api/v1/auth/login".toList,
    (by decide : "/api/v1/auth/login".toList = _)⟩

/-! ### The window is exact -/

section Exact

open RateLimiter

variable {times : ℤ} {seconds : ℚ} {arrivals : List Arrival} {past future : List Served}
  {a : Arrival} {out : Except CallError Unit}

/-- A request is accepted if the accepted ones of its key leave room in its window. -/
lemma accepted_iff (hsorted : arrivals.Pairwise fun a b => a.now ≤ b.now)
    (hserve : (init times seconds).serve arrivals = past ++ (a, out) :: future) :
    out.isOk = true ↔ ((past.filter fun e =>
      e.2.isOk ∧ e.1.key = a.key ∧ a.now - seconds < e.1.now).length : ℤ) < times := by
  obtain ⟨xs, ys, rfl, rfl, rfl, rfl⟩ := of_serve_eq hserve
  obtain ⟨hxs, -, hle⟩ := List.pairwise_append.mp hsorted
  have hpast : ∀ e ∈ (init times seconds).serve xs, e.1.now ≤ a.now :=
    fun e he => hle e.1 (mem_of_mem_serve he) a List.mem_cons_self
  rw [isOk_step, run_times, (tracks_run times seconds hxs).recentHits hpast, recent,
    length_filter_log, run_seconds]
  rfl

/-- No half-open interval has more accepted requests of a host and path than the limit. -/
lemma length_accepted_le (htimes : 1 ≤ times)
    (hsorted : arrivals.Pairwise fun a b => a.now ≤ b.now) (hostPath : String × String)
    (p : ℚ → Prop) [DecidablePred p] (hp : ∀ t, p t → ∀ x ≤ t, p x → t - seconds < x) :
    ((((init times seconds).serve arrivals).filter fun e =>
      e.2.isOk ∧ e.1.hostPath = hostPath ∧ p e.1.now).length : ℤ) ≤ times := by
  have hadmitted := admitted_log times seconds hsorted (hostPath.1 ++ ":" ++ hostPath.2)
  generalize (init times seconds).serve arrivals = past at hadmitted ⊢
  have hlen := hadmitted.length_filter_le (fun x => p x) (by simpa using hp)
  rw [length_filter_log, ← List.countP_eq_length_filter] at hlen
  have hmono : past.countP (fun e => e.2.isOk ∧ e.1.hostPath = hostPath ∧ p e.1.now) ≤
      past.countP fun e =>
        e.2.isOk ∧ e.1.key = hostPath.1 ++ ":" ++ hostPath.2 ∧ p e.1.now := by
    refine List.countP_mono_left fun e _ he => ?_
    simp only [decide_eq_true_eq] at he ⊢
    obtain ⟨hok, rfl, hnow⟩ := he
    exact ⟨hok, rfl, hnow⟩
  rw [← List.countP_eq_length_filter]
  omega

/-- A rejected request might as well not have come. -/
lemma serve_without (hserve : (init times seconds).serve arrivals = past ++ (a, out) :: future)
    (hout : out.isOk = false) :
    (init times seconds).serve (past.map Prod.fst ++ future.map Prod.fst) = past ++ future := by
  obtain ⟨xs, ys, rfl, rfl, rfl, rfl⟩ := of_serve_eq hserve
  rw [map_fst_serve, map_fst_serve, serve_append, step_of_rejected hout]

end Exact

/-- For sequences of requests in the order of time the limiter is an exact sliding window: a
request is accepted if fewer than `times` of the accepted ones with its host and path are younger
than `seconds`; so no half-open interval of that length has more than `times` of them; rejected
requests do not count, and neither do those of another host or path. -/
theorem limiter_exact {times : ℤ} (htimes : 1 ≤ times) (seconds : ℚ) {arrivals : List Arrival}
    (hsorted : arrivals.Pairwise fun a b => a.now ≤ b.now)
    (hwf : ∀ a ∈ arrivals, a.request.WellFormed) :
    (∀ past a out future,
      (RateLimiter.init times seconds).serve arrivals = past ++ (a, out) :: future →
      (out = .ok () ↔ ((past.filter fun e =>
        e.2.isOk ∧ e.1.hostPath = a.hostPath ∧ a.now - seconds < e.1.now).length : ℤ) < times) ∧
      (out ≠ .ok () → (RateLimiter.init times seconds).serve
        (past.map Prod.fst ++ future.map Prod.fst) = past ++ future)) ∧
    (∀ hostPath start,
      ((((RateLimiter.init times seconds).serve arrivals).filter fun e =>
        e.2.isOk ∧ e.1.hostPath = hostPath ∧
          (start ≤ e.1.now ∧ e.1.now < start + seconds)).length : ℤ) ≤ times ∧
      ((((RateLimiter.init times seconds).serve arrivals).filter fun e =>
        e.2.isOk ∧ e.1.hostPath = hostPath ∧
          (start < e.1.now ∧ e.1.now ≤ start + seconds)).length : ℤ) ≤ times) ∧
    (∀ a ∈ arrivals,
      (RateLimiter.init times seconds).serve (arrivals.filter fun b => b.hostPath = a.hostPath)
        = ((RateLimiter.init times seconds).serve arrivals).filter fun e =>
            e.1.hostPath = a.hostPath) := by
  refine ⟨fun past a out future hserve => ⟨?_, fun hout => ?_⟩, fun hostPath start => ⟨?_, ?_⟩,
    fun a ha => ?_⟩
  · have hmem : ∀ e ∈ past ++ (a, out) :: future, e.1.request.WellFormed :=
      fun e he => hwf e.1 (RateLimiter.mem_of_mem_serve (hserve ▸ he))
    have ha := hmem (a, out) (List.mem_append_right _ List.mem_cons_self)
    have hkeys : (past.filter fun e => e.2.isOk ∧ e.1.hostPath = a.hostPath ∧
        a.now - seconds < e.1.now) = past.filter fun e => e.2.isOk ∧ e.1.key = a.key ∧
        a.now - seconds < e.1.now := by
      refine List.filter_congr fun e he => ?_
      simp only [key_eq_iff (hmem e (List.mem_append_left _ he)) ha]
    rw [eq_ok_iff, hkeys]
    exact accepted_iff hsorted hserve
  · exact serve_without hserve (Bool.not_eq_true _ ▸ mt eq_ok_iff.mpr hout)
  · refine length_accepted_le htimes hsorted hostPath
      (fun x => start ≤ x ∧ x < start + seconds) fun t ht x _ hx => ?_
    linarith
  · refine length_accepted_le htimes hsorted hostPath
      (fun x => start < x ∧ x ≤ start + seconds) fun t ht x _ hx => ?_
    linarith
  · refine (⟨rfl, rfl, rfl⟩ : SameAt a.key _ _).serve_filter _ fun b hb => ?_
    rw [decide_eq_true_iff, key_eq_iff (hwf b hb) (hwf a ha)]

/-- Of a limit of two a minute, the third request after five seconds is refused. -/
theorem limiter_exact_third :
    ¬ (((RateLimiter.init 2 60).run [login 0, login 1]).step (login 5)).1 = .ok () := by
  have hsorted : [login 0, login 1, login 5].Pairwise fun a b => a.now ≤ b.now := by decide +kernel
  have hwf : ∀ a ∈ [login 0, login 1, login 5], a.request.WellFormed := by
    simp [login_wellFormed]
  have hexact := (limiter_exact (show (1 : ℤ) ≤ 2 by decide) 60 hsorted hwf).1
    ((RateLimiter.init 2 60).serve [login 0, login 1]) (login 5) _ [] rfl
  exact fun hok => absurd (hexact.1.mp hok) (by decide +kernel)

/-! ### When to come back -/

/-- Of a limiter that has refused a request: `m` seconds later it lets a request of the same key
pass, if it has not let another one pass meanwhile. -/
def FreeAfter (limiter : RateLimiter) (a : Arrival) (m : ℤ) : Prop :=
  ∀ (between : List Arrival) (b : Arrival),
    (a :: (between ++ [b])).Pairwise (fun a b => a.now ≤ b.now) → b.key = a.key →
    (∀ e ∈ limiter.serve between, e.1.key = a.key → e.2.isOk = false) → a.now + m ≤ b.now →
    ((limiter.run between).step b).1 = .ok ()

section RetryAfter

open RateLimiter

variable {limiter : RateLimiter} {past : List Served} {a : Arrival} {first : ℚ} {rest : List ℚ}

lemma log_append_of_rejected {key : String} {more : List Served}
    (h : ∀ e ∈ more, e.1.key = key → e.2.isOk = false) : log (past ++ more) key = log past key := by
  have hnone : (more.filter fun e => e.2.isOk ∧ e.1.key = key) = [] := by
    refine List.filter_eq_nil_iff.mpr fun e he => ?_
    simp only [decide_eq_true_eq]
    rintro ⟨hok, hkey⟩
    rw [h e he hkey] at hok
    cases hok
  simp only [log, List.filter_append, hnone, List.append_nil]

/-- After a refusal, a key is free again exactly when its oldest request leaves the window: the
limiter never has more requests in the window than the limit, so one is enough. -/
lemma isOk_after_iff (h : Tracks limiter past) (hle : ∀ e ∈ past, e.1.now ≤ a.now)
    (hhits : limiter.recentHits a = first :: rest)
    (hfull : limiter.times ≤ (limiter.recentHits a).length) {between : List Arrival} {b : Arrival}
    (hsorted : (a :: (between ++ [b])).Pairwise fun a b => a.now ≤ b.now) (hkey : b.key = a.key)
    (hnone : ∀ e ∈ limiter.serve between, e.1.key = a.key → e.2.isOk = false) :
    ((limiter.run between).step b).1.isOk = true ↔ first + limiter.seconds ≤ b.now := by
  obtain ⟨hhead, htail⟩ := List.pairwise_cons.mp hsorted
  obtain ⟨hbetween, -, hlast⟩ := List.pairwise_append.mp htail
  have hab : a.now ≤ b.now := hhead b (by simp)
  have htracks := h.run hbetween fun e he c hc =>
    (hle e he).trans (hhead c (List.mem_append_left _ hc))
  have hpast : ∀ e ∈ past ++ limiter.serve between, e.1.now ≤ b.now := by
    intro e he
    rcases List.mem_append.mp he with he | he
    · exact (hle e he).trans hab
    · exact hlast e.1 (mem_of_mem_serve he) b (List.mem_singleton_self b)
  rw [h.recentHits hle] at hhits hfull
  have hroom := (h.admitted a.key).room_iff (le_of_mem_log hle) hhits (by omega) hab
  rw [isOk_step, htracks.recentHits hpast, hkey, log_append_of_rejected hnone, run_times,
    run_seconds, ← hroom]
  omega

/-- The waiting times after which the key is free are those that the oldest request has left. -/
lemma freeAfter_iff (h : Tracks limiter past) (hle : ∀ e ∈ past, e.1.now ≤ a.now)
    (hhits : limiter.recentHits a = first :: rest)
    (hfull : limiter.times ≤ (limiter.recentHits a).length) (m : ℤ) :
    FreeAfter limiter a m ↔ limiter.seconds - (a.now - first) ≤ m := by
  constructor
  · intro hfree
    -- the same request, as soon as `m` seconds have passed
    let b : Arrival := ⟨a.request, max a.now (a.now + m)⟩
    have hsorted : (a :: ([] ++ [b])).Pairwise fun a b => a.now ≤ b.now := by simp [b]
    have hb := hfree [] b hsorted rfl (by simp [serve]) (le_max_right _ _)
    rw [eq_ok_iff, isOk_after_iff h hle hhits hfull hsorted rfl (by simp [serve])] at hb
    have hfirst := lt_of_recentHits hhits
    rcases le_max_iff.mp hb with hb | hb <;> linarith
  · intro hm between b hsorted hkey hnone hlater
    rw [eq_ok_iff, isOk_after_iff h hle hhits hfull hsorted hkey hnone]
    linarith

end RetryAfter

/-- The whole part of a positive number, plus one: how it lies to the number and to the least
whole number that is not smaller. -/
lemma floor_add_one_spec {x : ℚ} {n : ℤ} (hpos : 0 < x) (hle : x ≤ n) :
    1 ≤ ⌊x⌋ + 1 ∧ ⌊x⌋ + 1 ≤ n + 1 ∧ x ≤ (⌊x⌋ + 1 : ℤ) ∧ IsLeast {m : ℤ | x ≤ m} ⌈x⌉ ∧
      ⌊x⌋ + 1 ≤ ⌈x⌉ + 1 := by
  have hnonneg : 0 ≤ ⌊x⌋ := Int.floor_nonneg.mpr hpos.le
  have hn : ⌊x⌋ ≤ n := by exact_mod_cast (Int.floor_le x).trans hle
  have hlt : x < ⌊x⌋ + 1 := Int.lt_floor_add_one x
  have hceil : ⌊x⌋ ≤ ⌈x⌉ := Int.floor_le_ceil x
  refine ⟨by omega, by omega, by exact_mod_cast hlt.le, ⟨Int.le_ceil x, fun m hm => ?_⟩, by omega⟩
  exact Int.ceil_le.mpr hm

/-- What a refusal says of the time to come back can be relied upon: it lies between one second
and one more than the window, the key is free by then if no other request has taken the place, and
it is at most one more than the least whole number of seconds with this guarantee. -/
theorem retryAfter_sound {times seconds : ℤ} (htimes : 1 ≤ times) {arrivals : List Arrival}
    {a : Arrival} (hsorted : (arrivals ++ [a]).Pairwise fun a b => a.now ≤ b.now)
    (hrejected : (((RateLimiter.init times seconds).run arrivals).step a).1 ≠ .ok ()) :
    ∃ r : ℤ, (((RateLimiter.init times seconds).run arrivals).step a).1 = .error (.http {
        statusCode := 429
        detail := "Too many requests. Please try again later."
        headers := [("Retry-After", toString r)] }) ∧
      1 ≤ r ∧ r ≤ seconds + 1 ∧
      FreeAfter (((RateLimiter.init times seconds).run arrivals).step a).2 a r ∧
      ∃ least,
        IsLeast {m | FreeAfter (((RateLimiter.init times seconds).run arrivals).step a).2 a m} least
          ∧ r ≤ least + 1 := by
  obtain ⟨harrivals, -, hlast⟩ := List.pairwise_append.mp hsorted
  have htracks := tracks_run times seconds harrivals
  have hle : ∀ e ∈ (RateLimiter.init times seconds).serve arrivals, e.1.now ≤ a.now :=
    fun e he => hlast e.1 (RateLimiter.mem_of_mem_serve he) a (List.mem_singleton_self a)
  have htimes' := RateLimiter.run_times (.init times seconds) arrivals
  have hseconds' := RateLimiter.run_seconds (.init times seconds) arrivals
  generalize (RateLimiter.init times seconds).run arrivals = limiter at *
  generalize (RateLimiter.init times seconds).serve arrivals = past at *
  change limiter.times = times at htimes'
  change limiter.seconds = seconds at hseconds'
  rw [Ne, eq_ok_iff, RateLimiter.isOk_step, not_lt] at hrejected
  obtain ⟨-, hsame, herror⟩ := RateLimiter.step_of_le hrejected
  -- a request is refused only if others are in the window, the oldest of which leaves it first
  obtain ⟨first, rest, hhits⟩ : ∃ first rest, limiter.recentHits a = first :: rest := by
    refine List.exists_cons_of_ne_nil fun hnil => ?_
    rw [hnil, List.length_nil] at hrejected
    omega
  have hfree := freeAfter_iff htracks hle hhits hrejected
  have hwindow := RateLimiter.lt_of_recentHits hhits
  have hfirst : first ≤ a.now := by
    have hrecent := htracks.recentHits hle
    rw [hhits] at hrecent
    have hmem : first ∈ recent limiter.seconds a.now (log past a.key) :=
      hrecent ▸ List.mem_cons_self
    exact le_of_mem_log hle first (mem_recent.mp hmem).1
  rw [hsame, herror first rest hhits]
  rw [hseconds'] at hfree hwindow ⊢
  have hint : int (seconds - (a.now - first)) = ⌊seconds - (a.now - first)⌋ :=
    if_pos (by linarith)
  have hwait := (floor_add_one_spec (x := seconds - (a.now - first)) (n := seconds)
    (by linarith) (by linarith))
  rw [← hint] at hwait
  obtain ⟨hone, hmax, hle_r, hleast, hclose⟩ := hwait
  refine ⟨int (seconds - (a.now - first)) + 1, rfl, hone, hmax, (hfree _).mpr hle_r, _, ?_, hclose⟩
  exact Set.ext hfree ▸ hleast

/-- Two logins within a second, and one too many after five. -/
theorem retryAfter_sound_login : ∃ r : ℤ, 1 ≤ r ∧ r ≤ 61 ∧
    FreeAfter (((RateLimiter.init 2 (60 : ℤ)).run [login 0, login 1]).step (login 5)).2
      (login 5) r := by
  have hsorted : ([login 0, login 1] ++ [login 5]).Pairwise fun a b => a.now ≤ b.now := by
    decide +kernel
  have hrejected : (((RateLimiter.init 2 (60 : ℤ)).run [login 0, login 1]).step (login 5)).1
      ≠ .ok () := by decide +kernel
  obtain ⟨r, -, hone, hmax, hfree, -⟩ :=
    retryAfter_sound (show (1 : ℤ) ≤ 2 by decide) hsorted hrejected
  exact ⟨r, hone, hmax, hfree⟩

end InventoryReservation.RateLimit
