import MarketingSuite.Lib.Buckets
import Mathlib.Algebra.Order.Field.Rat
import Mathlib.Tactic.LinearCombination

/-! # The rate limiter

`RateLimiter` of `app/integrations/rate_limit/limiter.py`, over the rationals. The calls of
`acquire` take its lock and read the clock under it, so they come one after another. The limiter
stores a time only when a token, or a part of one, flows in: it is a bucket all the same. -/

namespace MarketingSuite.Integrations.RateLimit

open MarketingSuite.Lib.Buckets

/-- `RateLimiter`. -/
structure RateLimiter where
  capacity : ℚ
  tokens : ℚ
  refillRate : ℚ
  lastRefill : ℚ
deriving DecidableEq, Repr

/-- `RateLimiter.__init__`, at the time `now`. -/
def RateLimiter.init (capacity refillRate now : ℚ) : RateLimiter :=
  ⟨capacity, capacity, refillRate, now⟩

/-- The part of `acquire` that refills. -/
def RateLimiter.refilled (l : RateLimiter) (now : ℚ) : RateLimiter :=
  let elapsed := now - l.lastRefill
  let newTokens := elapsed * l.refillRate
  if 0 < newTokens then { l with tokens := min l.capacity (l.tokens + newTokens), lastRefill := now }
  else l

/-- `RateLimiter.acquire`, at the time `now`. -/
def RateLimiter.acquire (l : RateLimiter) (now : ℚ) : Bool × RateLimiter :=
  let l := l.refilled now
  if 1 ≤ l.tokens then (true, { l with tokens := l.tokens - 1 }) else (false, l)

/-- The limiter after the first `k` calls, at the times of `time`. -/
def after (capacity rate start : ℚ) (time : ℕ → ℚ) : ℕ → RateLimiter
  | 0 => .init capacity rate start
  | k + 1 => ((after capacity rate start time k).acquire (time k)).2

/-- What the call `k` returns. -/
def returned (capacity rate start : ℚ) (time : ℕ → ℚ) (k : ℕ) : Bool :=
  ((after capacity rate start time k).acquire (time k)).1

variable {capacity rate start : ℚ} {time : ℕ → ℚ} {l : RateLimiter} {now x : ℚ}

/-! ### One call -/

/-- A limiter that stands for a bucket which held `x` at the time `now`: the time it has not
credited yet brings nothing. -/
structure Holds (capacity rate x now : ℚ) (l : RateLimiter) : Prop where
  capacity : l.capacity = capacity
  refillRate : l.refillRate = rate
  tokens : l.tokens = x
  idle : rate * (now - l.lastRefill) = 0

theorem holds_init : Holds capacity rate capacity start (.init capacity rate start) where
  capacity := rfl
  refillRate := rfl
  tokens := rfl
  idle := by show rate * (start - start) = 0; ring

/-- **No time is lost**: the guard of the refill is false only if nothing flows in. -/
theorem Holds.refilled {next : ℚ} (h : Holds capacity rate x now l) (hrate : 0 ≤ rate)
    (hle : now ≤ next) (hx : x ≤ capacity) :
    Holds capacity rate (refill capacity rate x (next - now)) next (l.refilled next) := by
  have hidle := h.idle
  have hsplit : (next - l.lastRefill) * rate = rate * (next - now) := by linear_combination hidle
  simp only [RateLimiter.refilled, h.refillRate, hsplit]
  by_cases hflow : 0 < rate * (next - now)
  · rw [if_pos hflow]
    exact ⟨h.capacity, rfl, by rw [h.capacity, h.tokens, refill], by ring⟩
  · have hnonneg : 0 ≤ rate * (next - now) := mul_nonneg hrate (sub_nonneg.mpr hle)
    have hzero : rate * (next - now) = 0 := le_antisymm (not_lt.mp hflow) hnonneg
    rw [if_neg hflow]
    refine ⟨h.capacity, h.refillRate, ?_, by linear_combination hidle + hzero⟩
    rw [refill_of_idle hx hzero]
    exact h.tokens

theorem Holds.acquire (h : Holds capacity rate x now (l.refilled now)) :
    (l.acquire now).1 = decide (1 ≤ x) ∧
      Holds capacity rate (x - if (l.acquire now).1 = true then 1 else 0) now (l.acquire now).2 := by
  have htokens := h.tokens
  unfold RateLimiter.acquire
  by_cases hone : 1 ≤ x
  · simp only [htokens, if_pos hone, decide_eq_true hone]
    exact ⟨trivial, h.capacity, h.refillRate, rfl, h.idle⟩
  · simp only [htokens, if_neg hone, decide_eq_false hone]
    refine ⟨trivial, h.capacity, h.refillRate, ?_, h.idle⟩
    simpa using htokens

/-! ### Any sequence of calls -/

/-- The times of the calls, after the construction. -/
structure Times (start : ℚ) (time : ℕ → ℚ) : Prop where
  start_le : start ≤ time 0
  monotone : Monotone time

section Runs

variable (hrate : 0 ≤ rate) (htime : Times start time)

include hrate htime

/-- **The limiter is a bucket**: when the call `k` has refilled it, it holds what flowed in since the
construction, less what was taken, and the call returns `True` exactly if there is a token. -/
theorem holds_level (k : ℕ) :
    Holds capacity rate (level capacity rate start time (returned capacity rate start time) k)
      (time k) ((after capacity rate start time k).refilled (time k)) := by
  induction k with
  | zero => exact holds_init.refilled hrate htime.start_le le_rfl
  | succ k ih =>
    have hleft := ih.acquire.2
    exact hleft.refilled hrate (htime.monotone (Nat.le_succ k)) (level_sub_taken_le k)

theorem returned_eq (k : ℕ) : returned capacity rate start time k =
    decide (1 ≤ level capacity rate start time (returned capacity rate start time) k) :=
  (holds_level hrate htime k).acquire.1

theorem tokens_after (k : ℕ) : (after capacity rate start time (k + 1)).tokens =
    level capacity rate start time (returned capacity rate start time) k -
      taken (returned capacity rate start time) k :=
  (holds_level hrate htime k).acquire.2.tokens

theorem metered (hcapacity : 0 ≤ capacity) :
    Metered capacity rate start time (returned capacity rate start time) where
  capacity_nonneg := hcapacity
  rate_nonneg := hrate
  monotone := htime.monotone
  start_le := htime.start_le
  one_le k hk := by
    rw [returned_eq hrate htime] at hk
    exact of_decide_eq_true hk

end Runs

/-- **The token bucket bound.** The tokens stay between none and the capacity; a window of calls
grants no more than a full bucket and what flows in meanwhile; and a call is refused only if less
than one token is there after all the time since the construction is credited. -/
theorem bucket_bound (hcapacity : 0 ≤ capacity) (hrate : 0 ≤ rate) (htime : Times start time) :
    (∀ k, 0 ≤ (after capacity rate start time k).tokens ∧
      (after capacity rate start time k).tokens ≤ capacity) ∧
    (∀ i j, i ≤ j → ((grants (returned capacity rate start time) i j).card : ℚ) ≤
      capacity + rate * (time j - time i)) ∧
    (∀ k, returned capacity rate start time k = false →
      level capacity rate start time (returned capacity rate start time) k < 1) := by
  have hm := metered hrate htime hcapacity
  refine ⟨fun k => ?_, fun i j hij => hm.card_grants_le hij, fun k hk => ?_⟩
  · cases k with
    | zero => exact ⟨hcapacity, le_rfl⟩
    | succ k =>
      rw [tokens_after hrate htime]
      exact ⟨hm.level_sub_taken_nonneg k, level_sub_taken_le k⟩
  · rw [returned_eq hrate htime] at hk
    exact not_le.mp (of_decide_eq_false hk)

/-- Two tokens, one every two seconds, and a call every second. -/
theorem bucket_bound_two :
    (∀ k, 0 ≤ (after 2 (1 / 2) 0 (fun k => (k : ℚ)) k).tokens ∧
      (after 2 (1 / 2) 0 (fun k => (k : ℚ)) k).tokens ≤ 2) ∧
    (∀ i j, i ≤ j → ((grants (returned 2 (1 / 2) 0 fun k => (k : ℚ)) i j).card : ℚ) ≤
      2 + 1 / 2 * ((j : ℚ) - (i : ℚ))) ∧
    (∀ k, returned 2 (1 / 2) 0 (fun k => (k : ℚ)) k = false →
      level 2 (1 / 2) 0 (fun k => (k : ℚ)) (returned 2 (1 / 2) 0 fun k => (k : ℚ)) k < 1) :=
  bucket_bound (by norm_num) (by norm_num) ⟨by norm_num, Nat.mono_cast⟩

end MarketingSuite.Integrations.RateLimit
