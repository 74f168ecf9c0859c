import MarketingSuite.Integrations.Breaker
import Mathlib.Algebra.Order.Field.Rat
import Mathlib.Tactic.Ring

/-! # Retrying through the circuit breaker

`retry_policy` of `app/integrations/retry/policy.py` around `CircuitBreaker.call`, as
`connect_provider` and `disconnect_provider` put them together, with any number of retries, any
delays, and a breaker in any state. What the wrapped function gives at an attempt, and when, is a
`Course`. -/

namespace MarketingSuite.Integrations.Retries

open MarketingSuite.Lib.Programs
open MarketingSuite.Base.Values
open MarketingSuite.Integrations.Connectors (CircuitBreaker Failure attemptsFrom)
open MarketingSuite.Integrations.Breaker (Config current recordFailure current_default
  recordFailure_default)

/-- What an observer sees: the wrapped function is invoked, or the policy sleeps. -/
inductive Action
  | invoke
  | sleep (delay : ℚ)
deriving DecidableEq, Repr

/-- The breaker, how many attempts there were, and what was seen so far. -/
structure Scene where
  breaker : CircuitBreaker
  attempts : ℕ
  seen : List Action

/-- What the wrapped function gives if the `k`-th attempt invokes it, and the readings of the clock
before and after. It does not raise `CircuitBreakerOpenError`, which breakers alone do. -/
structure Course (α : Type) where
  outcome : ℕ → Except Exc α
  start : ℕ → Time
  finish : ℕ → Time

variable {α : Type} (c : Config) (w : Course α)

/-- `CircuitBreaker.call`. -/
def call : Prog Scene Failure α := fun s =>
  let k := s.attempts
  let b := current c (w.start k) s.breaker
  if b.state = .opened then (.error .circuitOpen, ⟨b, k + 1, s.seen⟩)
  else match w.outcome k with
    | .ok a => (.ok a, ⟨b.recordSuccess, k + 1, s.seen ++ [.invoke]⟩)
    | .error e => (.error (.raised e), ⟨recordFailure c (w.finish k) b, k + 1, s.seen ++ [.invoke]⟩)

/-- `asyncio.sleep`. -/
def sleep (delay : ℚ) : Prog Scene Failure Unit :=
  Prog.modify fun s => { s with seen := s.seen ++ [.sleep delay] }

/-- The `while True` of `retry_policy`, from a round with these values of `retries` and `delay` on.
Every round that goes on has one retry less before it. -/
def wrapper (maxRetries : ℕ) (backoffFactor : ℚ) (func : Prog Scene Failure α) (retries : ℕ)
    (delay : ℚ) : Prog Scene Failure α :=
  func.handle fun
    | .circuitOpen => Prog.raise .circuitOpen
    | .raised e =>
      if retries + 1 > maxRetries then Prog.raise (.raised e)
      else do
        sleep delay
        wrapper maxRetries backoffFactor func (retries + 1) (delay * backoffFactor)
termination_by maxRetries - retries

/-- `retry_policy(max_retries, initial_delay, backoff_factor)` around the `call` of a breaker. -/
def retryPolicy (maxRetries : ℕ) (initialDelay backoffFactor : ℚ) : Prog Scene Failure α :=
  wrapper maxRetries backoffFactor (call c w) 0 initialDelay

/-! ### What should happen -/

/-- The breaker before the attempt `k`, if the attempts before it failed. -/
def breakerAt (b : CircuitBreaker) : ℕ → CircuitBreaker
  | 0 => b
  | k + 1 => recordFailure c (w.finish k) (current c (w.start k) (breakerAt b k))

/-- The attempt `k` finds the breaker OPEN. -/
def FindsOpen (b : CircuitBreaker) (k : ℕ) : Prop :=
  (current c (w.start k) (breakerAt c w b k)).state = .opened

/-- The attempt `k` invokes the function, which fails. -/
def Fails (b : CircuitBreaker) (k : ℕ) : Prop :=
  ¬ FindsOpen c w b k ∧ ∃ e, w.outcome k = .error e

/-- What is seen of `k` attempts that fail, with the sleeps after them: before the retry `i + 1` the
delay is `d * f ^ i`. -/
def failing (d f : ℚ) (k : ℕ) : List Action :=
  (List.range k).flatMap fun i => [.invoke, .sleep (d * f ^ i)]

/-- **How a retried call ends** after `k` attempts that failed: the breaker is OPEN and the function
is not invoked, it returns, or the retries are used up. -/
inductive Ends (maxRetries : ℕ) (d f : ℚ) (b : CircuitBreaker) (k : ℕ) :
    Except Failure α → List Action → Prop
  | refused (h : FindsOpen c w b k) : Ends maxRetries d f b k (.error .circuitOpen) (failing d f k)
  | returned (h : ¬ FindsOpen c w b k) {a : α} (ha : w.outcome k = .ok a) :
      Ends maxRetries d f b k (.ok a) (failing d f k ++ [.invoke])
  | exhausted (h : ¬ FindsOpen c w b k) {e : Exc} (he : w.outcome k = .error e)
      (hk : k = maxRetries) : Ends maxRetries d f b k (.error (.raised e)) (failing d f k ++ [.invoke])

variable {c w} {n k : ℕ} {d f : ℚ} {b : CircuitBreaker} {s : Scene}

theorem failing_succ (d f : ℚ) (k : ℕ) :
    failing d f (k + 1) = failing d f k ++ [.invoke, .sleep (d * f ^ k)] := by
  simp [failing, List.range_succ]

/-! ### One attempt -/

/-- The state before the attempt `k`. -/
structure Before (c : Config) (w : Course α) (d f : ℚ) (b : CircuitBreaker) (k : ℕ) (s : Scene) :
    Prop where
  breaker : s.breaker = breakerAt c w b k
  attempts : s.attempts = k
  seen : s.seen = failing d f k

theorem call_refused (hs : Before c w d f b k s) (h : FindsOpen c w b k) :
    ∃ t, (call c w).Raises s .circuitOpen t ∧ t.seen = failing d f k := by
  unfold FindsOpen at h
  refine ⟨(call c w s).2, Prod.ext ?_ rfl, ?_⟩
  · simp only [call, hs.attempts, hs.breaker, if_pos h]
  · simp only [call, hs.attempts, hs.breaker, if_pos h, hs.seen]

theorem call_returned (hs : Before c w d f b k s) (h : ¬ FindsOpen c w b k) {a : α}
    (ha : w.outcome k = .ok a) :
    ∃ t, (call c w).Returns s a t ∧ t.seen = failing d f k ++ [.invoke] := by
  unfold FindsOpen at h
  refine ⟨(call c w s).2, Prod.ext ?_ rfl, ?_⟩
  · simp only [call, hs.attempts, hs.breaker, if_neg h, ha]
  · simp only [call, hs.attempts, hs.breaker, if_neg h, ha, hs.seen]

theorem call_failed (hs : Before c w d f b k s) (h : ¬ FindsOpen c w b k) {e : Exc}
    (he : w.outcome k = .error e) : ∃ t, (call c w).Raises s (.raised e) t ∧
      t.breaker = breakerAt c w b (k + 1) ∧ t.attempts = k + 1 ∧
      t.seen = failing d f k ++ [.invoke] := by
  unfold FindsOpen at h
  refine ⟨(call c w s).2, Prod.ext ?_ rfl, ?_, ?_, ?_⟩
  · simp only [call, hs.attempts, hs.breaker, if_neg h, he]
  · simp only [call, hs.attempts, hs.breaker, if_neg h, he, breakerAt]
  · simp only [call, hs.attempts, hs.breaker, if_neg h, he]
  · simp only [call, hs.attempts, hs.breaker, if_neg h, he, hs.seen]

/-! ### One round -/

section Rounds

variable {func : Prog Scene Failure α} {t : Scene} {delay : ℚ}

theorem wrapper_of_returns {a : α} (h : func.Returns s a t) :
    wrapper n f func k delay s = (.ok a, t) := by
  rw [Prog.Returns] at h
  rw [wrapper]
  simp only [Prog.handle, h]

theorem wrapper_of_open (h : func.Raises s .circuitOpen t) :
    wrapper n f func k delay s = (.error .circuitOpen, t) := by
  rw [Prog.Raises] at h
  rw [wrapper]
  simp only [Prog.handle, h]
  rfl

theorem wrapper_of_exhausted {e : Exc} (h : func.Raises s (.raised e) t) (hk : n < k + 1) :
    wrapper n f func k delay s = (.error (.raised e), t) := by
  rw [Prog.Raises] at h
  rw [wrapper]
  simp only [Prog.handle, h, gt_iff_lt, if_pos hk]
  rfl

theorem wrapper_of_failed {e : Exc} (h : func.Raises s (.raised e) t) (hk : k + 1 ≤ n) :
    wrapper n f func k delay s =
      wrapper n f func (k + 1) (delay * f) { t with seen := t.seen ++ [.sleep delay] } := by
  rw [Prog.Raises] at h
  rw [wrapper]
  simp only [Prog.handle, h, gt_iff_lt, if_neg (Nat.not_lt.mpr hk)]
  rfl

end Rounds

/-! ### The loop -/

/-- **From any round on**: some attempt ends the call, and those before it failed. -/
theorem wrapper_ends {k : ℕ} {s : Scene} (hk : k ≤ n) (hs : Before c w d f b k s) :
    ∃ j, j ≤ n ∧ (∀ i, k ≤ i → i < j → Fails c w b i) ∧
      Ends c w n d f b j (wrapper n f (call c w) k (d * f ^ k) s).1
        (wrapper n f (call c w) k (d * f ^ k) s).2.seen := by
  have hnone : ∀ i, k ≤ i → i < k → Fails c w b i := fun i hi hlt =>
    absurd hi (Nat.not_le.mpr hlt)
  by_cases hopen : FindsOpen c w b k
  · obtain ⟨t, hcall, hseen⟩ := call_refused hs hopen
    refine ⟨k, hk, hnone, ?_⟩
    rw [wrapper_of_open hcall, hseen]
    exact .refused hopen
  rcases hout : w.outcome k with e | a
  · obtain ⟨t, hcall, hbreaker, hattempts, hseen⟩ := call_failed hs hopen hout
    rcases Nat.eq_or_lt_of_le hk with hlast | hmore
    · refine ⟨k, hk, hnone, ?_⟩
      rw [wrapper_of_exhausted hcall (by omega), hseen]
      exact .exhausted hopen hout hlast
    · have hnext : Before c w d f b (k + 1) { t with seen := t.seen ++ [.sleep (d * f ^ k)] } :=
        ⟨hbreaker, hattempts, by simp [hseen, failing_succ]⟩
      obtain ⟨j, hj, hfails, hends⟩ := wrapper_ends hmore hnext
      refine ⟨j, hj, fun i hi hlt => ?_, ?_⟩
      · rcases Nat.eq_or_lt_of_le hi with rfl | hi
        · exact ⟨hopen, e, hout⟩
        · exact hfails i hi hlt
      · have hdelay : d * f ^ k * f = d * f ^ (k + 1) := by ring
        rw [wrapper_of_failed hcall hmore, hdelay]
        exact hends
  · obtain ⟨t, hcall, hseen⟩ := call_returned hs hopen hout
    refine ⟨k, hk, hnone, ?_⟩
    rw [wrapper_of_returns hcall, hseen]
    exact .returned hopen hout
termination_by n - k

theorem count_failing (d f : ℚ) (k : ℕ) : (failing d f k).count .invoke = k := by
  induction k with
  | zero => rfl
  | succ k ih => simp [failing_succ, ih]

/-- The function was invoked by the attempts that failed, and by the last one unless the breaker
refused it. -/
theorem Ends.count_le {x : Except Failure α} {l : List Action} (h : Ends c w n d f b k x l)
    (hk : k ≤ n) : l.count .invoke ≤ n + 1 := by
  cases h with
  | refused h => rw [count_failing]; omega
  | returned h ha => simpa [count_failing] using hk
  | exhausted h he hlast => simpa [count_failing] using hk

/-- **A retried call is bounded and faithful.** It ends after some number of attempts, `n + 1` at
most, all of which but the last one failed and were followed by their delays. -/
theorem retryPolicy_faithful (c : Config) (w : Course α) (n : ℕ) (d f : ℚ) (b : CircuitBreaker) :
    (retryPolicy c w n d f ⟨b, 0, []⟩).2.seen.count .invoke ≤ n + 1 ∧
    ∃ k, k ≤ n ∧ (∀ i, i < k → Fails c w b i) ∧
      Ends c w n d f b k (retryPolicy c w n d f ⟨b, 0, []⟩).1
        (retryPolicy c w n d f ⟨b, 0, []⟩).2.seen := by
  have hs : Before c w d f b 0 ⟨b, 0, []⟩ := ⟨rfl, rfl, rfl⟩
  obtain ⟨k, hk, hfails, hends⟩ := wrapper_ends (Nat.zero_le n) hs
  rw [pow_zero, mul_one] at hends
  exact ⟨hends.count_le hk, k, hk, fun i hlt => hfails i (Nat.zero_le i) hlt, hends⟩

/-! ### The calls of the service -/

/-- An attempt with the defaults of the breaker, for what it does to the breaker. -/
theorem call_default (s : Scene) :
    CircuitBreaker.call (w.start s.attempts) (w.finish s.attempts) (w.outcome s.attempts)
        s.breaker = ((call {} w s).1, (call {} w s).2.breaker) := by
  unfold call CircuitBreaker.call
  rw [current_default]
  by_cases hopen : (CircuitBreaker.current (w.start s.attempts) s.breaker).state = .opened
  · simp only [if_pos hopen]
  · rcases hout : w.outcome s.attempts with e | a
    · simp only [if_neg hopen, recordFailure_default, hout]
    · simp only [if_neg hopen, hout]

theorem call_attempts (s : Scene) : (call c w s).2.attempts = s.attempts + 1 := by
  unfold call
  by_cases hopen : (current c (w.start s.attempts) s.breaker).state = .opened
  · simp only [if_pos hopen]
  · rcases hout : w.outcome s.attempts with e | a
    · simp only [if_neg hopen, hout]
    · simp only [if_neg hopen, hout]

/-- **The policy of `connect_provider` is this one**, for what it returns and does to the breaker. -/
theorem wrapper_eq_attemptsFrom {k : ℕ} {s : Scene} (hk : k ≤ n) (hs : s.attempts = k) (delay : ℚ) :
    attemptsFrom (fun i => CircuitBreaker.call (w.start i) (w.finish i) (w.outcome i)) (n - k) k
        s.breaker =
      ((wrapper n f (call {} w) k delay s).1, (wrapper n f (call {} w) k delay s).2.breaker) := by
  have hcall := call_default (w := w) s
  have hattempts := call_attempts (c := {}) (w := w) s
  rw [hs] at hcall
  rcases hout : call {} w s with ⟨(_ | e) | a, t⟩
  · rw [hout] at hcall
    rw [wrapper_of_open hout]
    cases n - k with
    | zero => exact hcall
    | succ left => simp only [attemptsFrom, Prog.handle, hcall, Prog.raise]
  · rw [hout] at hcall hattempts
    rcases Nat.eq_or_lt_of_le hk with rfl | hmore
    · rw [wrapper_of_exhausted hout (Nat.lt_succ_self k), Nat.sub_self]
      exact hcall
    · obtain ⟨left, hleft⟩ : ∃ left, n - k = left + 1 := ⟨n - k - 1, by omega⟩
      have hnext := wrapper_eq_attemptsFrom (k := k + 1)
        (s := { t with seen := t.seen ++ [.sleep delay] }) hmore (by rw [← hs]; exact hattempts)
        (delay * f)
      have hrest : n - (k + 1) = left := by omega
      rw [hrest] at hnext
      rw [wrapper_of_failed hout hmore, ← hnext, hleft]
      simp only [attemptsFrom, Prog.handle, hcall]
  · rw [hout] at hcall
    rw [wrapper_of_returns hout]
    cases n - k with
    | zero => exact hcall
    | succ left => simp only [attemptsFrom, Prog.handle, hcall]
termination_by n - k

end MarketingSuite.Integrations.Retries
