import Mathlib.Algebra.Order.Field.Basic
import Mathlib.Order.Interval.Finset.Nat
import Mathlib.Tactic.Linarith
import Mathlib.Tactic.Ring

/-! # Token buckets

A bucket holds `capacity` tokens at most, starts full and fills up at a constant rate. Requests come
at a sequence of times, and some are granted and take a token each. `level` is what the bucket holds
when a request comes, all the time since the start credited; it looks at nothing but the times and
the grants. -/

namespace MarketingSuite.Lib.Buckets

section Levels

variable {K : Type} [Field K] [LinearOrder K]

/-- What is in a bucket that held `x` after the time `dt`. -/
def refill (capacity rate x dt : K) : K := min capacity (x + rate * dt)

/-- What a request takes. -/
def taken (granted : ℕ → Bool) (k : ℕ) : K := if granted k = true then 1 else 0

/-- What the bucket holds when the request `k` comes. -/
def level (capacity rate start : K) (time : ℕ → K) (granted : ℕ → Bool) : ℕ → K
  | 0 => refill capacity rate capacity (time 0 - start)
  | k + 1 => refill capacity rate (level capacity rate start time granted k - taken granted k)
      (time (k + 1) - time k)

/-- The requests from `i` to `j` that are granted. -/
def grants (granted : ℕ → Bool) (i j : ℕ) : Finset ℕ :=
  (Finset.Icc i j).filter fun k => granted k = true

variable {capacity rate start x dt : K} {time : ℕ → K} {granted : ℕ → Bool} {i j : ℕ}

theorem refill_le_capacity : refill capacity rate x dt ≤ capacity := min_le_left _ _

theorem refill_le : refill capacity rate x dt ≤ x + rate * dt := min_le_right _ _

theorem refill_of_idle (hx : x ≤ capacity) (hidle : rate * dt = 0) :
    refill capacity rate x dt = x := by
  rw [refill, hidle, add_zero, min_eq_right hx]

theorem level_le_capacity (k : ℕ) : level capacity rate start time granted k ≤ capacity := by
  cases k with
  | zero => exact refill_le_capacity
  | succ k => exact refill_le_capacity

omit [LinearOrder K] in
theorem card_grants_self (i : ℕ) : ((grants granted i i).card : K) = taken granted i := by
  unfold grants taken
  rw [Finset.Icc_self, Finset.filter_singleton]
  split_ifs <;> simp

omit [LinearOrder K] in
theorem card_grants_succ (hij : i ≤ j) :
    ((grants granted i (j + 1)).card : K) = (grants granted i j).card + taken granted (j + 1) := by
  unfold grants taken
  have hnot : j + 1 ∉ (Finset.Icc i j).filter fun k => granted k = true := by simp
  have hlast : Finset.Icc i (j + 1) = insert (j + 1) (Finset.Icc i j) := by
    ext k
    simp only [Finset.mem_insert, Finset.mem_Icc]
    omega
  rw [hlast, Finset.filter_insert]
  split_ifs with h
  · rw [Finset.card_insert_of_notMem hnot, Nat.cast_succ]
  · rw [add_zero]

end Levels

variable {K : Type} [Field K] [LinearOrder K] [IsStrictOrderedRing K]

/-- A bucket whose requests come one after another, and are granted only if a token is there. -/
structure Metered (capacity rate start : K) (time : ℕ → K) (granted : ℕ → Bool) : Prop where
  capacity_nonneg : 0 ≤ capacity
  rate_nonneg : 0 ≤ rate
  monotone : Monotone time
  start_le : start ≤ time 0
  one_le : ∀ k, granted k = true → 1 ≤ level capacity rate start time granted k

variable {capacity rate start x dt : K} {time : ℕ → K} {granted : ℕ → Bool} {i j : ℕ}

theorem le_refill (hrate : 0 ≤ rate) (hdt : 0 ≤ dt) (hx : x ≤ capacity) :
    x ≤ refill capacity rate x dt :=
  le_min hx (le_add_of_nonneg_right (mul_nonneg hrate hdt))

theorem taken_nonneg (granted : ℕ → Bool) (k : ℕ) : (0 : K) ≤ taken granted k := by
  unfold taken
  split_ifs
  · exact zero_le_one
  · exact le_rfl

theorem level_sub_taken_le (k : ℕ) :
    level capacity rate start time granted k - taken granted k ≤ capacity :=
  (sub_le_self _ (taken_nonneg granted k)).trans (level_le_capacity k)

/-- **What a window of requests takes** was in the bucket, or flowed into it meanwhile. -/
theorem card_grants_add_le (hij : i ≤ j) :
    (grants granted i j).card + (level capacity rate start time granted j - taken granted j) ≤
      level capacity rate start time granted i + rate * (time j - time i) := by
  induction j, hij using Nat.le_induction with
  | base =>
    rw [card_grants_self]
    linarith
  | succ j hij ih =>
    have hflow : level capacity rate start time granted (j + 1) ≤
        level capacity rate start time granted j - taken granted j +
          rate * (time (j + 1) - time j) := refill_le
    rw [card_grants_succ hij]
    linarith

namespace Metered

variable (h : Metered capacity rate start time granted)

include h

omit [IsStrictOrderedRing K] in
theorem taken_le_level {k : ℕ} (hk : 0 ≤ level capacity rate start time granted k) :
    taken granted k ≤ level capacity rate start time granted k := by
  unfold taken
  split_ifs with hgranted
  · exact h.one_le k hgranted
  · exact hk

/-- **The bucket is never overdrawn.** -/
theorem level_nonneg (k : ℕ) : 0 ≤ level capacity rate start time granted k := by
  induction k with
  | zero =>
    have hfull := le_refill h.rate_nonneg (sub_nonneg.mpr h.start_le) (le_refl capacity)
    exact h.capacity_nonneg.trans hfull
  | succ k ih =>
    have hleft := sub_nonneg.mpr (h.taken_le_level ih)
    have hdt := sub_nonneg.mpr (h.monotone (Nat.le_succ k))
    exact hleft.trans (le_refill h.rate_nonneg hdt (level_sub_taken_le k))

theorem level_sub_taken_nonneg (k : ℕ) :
    0 ≤ level capacity rate start time granted k - taken granted k :=
  sub_nonneg.mpr (h.taken_le_level (h.level_nonneg k))

/-- **The bound of a window**: a full bucket, and what flows into it meanwhile. -/
theorem card_grants_le (hij : i ≤ j) :
    ((grants granted i j).card : K) ≤ capacity + rate * (time j - time i) := by
  have hwindow : (grants granted i j).card +
        (level capacity rate start time granted j - taken granted j) ≤
      level capacity rate start time granted i + rate * (time j - time i) := card_grants_add_le hij
  have hleft := h.level_sub_taken_nonneg j
  have hfull : level capacity rate start time granted i ≤ capacity := level_le_capacity i
  linarith

end Metered

end MarketingSuite.Lib.Buckets
