import Mathlib.Data.Nat.Notation
import Mathlib.Order.WellFounded
import Mathlib.Tactic.Common

/-! # Loops that an environment answers

The body of a loop takes a state and the next answer of an environment to another state, or to the
result of the loop. What comes before the loop gives its first state, or has a result already. A
loop need not end. It ends if some measure of its states goes down in each round, and does not if an
invariant keeps it going; what a round establishes when it ends the loop holds of the result. -/

namespace MarketingSuite.Lib.Loops

variable {σ ι ρ : Type}

/-- After `k` rounds: the state, or the result if there was one. -/
def rounds (body : σ → ι → σ ⊕ ρ) (input : ℕ → ι) (x : σ ⊕ ρ) : ℕ → σ ⊕ ρ
  | 0 => x
  | k + 1 =>
    match rounds body input x k with
    | .inl s => body s (input k)
    | .inr r => .inr r

variable (body : σ → ι → σ ⊕ ρ) (input : ℕ → ι) (x : σ ⊕ ρ)

/-- The loop comes to its round `k`, in the state `s`. -/
def Reaches (k : ℕ) (s : σ) : Prop := rounds body input x k = .inl s

/-- The loop ends with `r`. -/
def Ends (r : ρ) : Prop := ∃ k, rounds body input x k = .inr r

/-- The loop ends. -/
def Halts : Prop := ∃ r, Ends body input x r

variable {body input x} {k : ℕ} {s t : σ} {r : ρ}

theorem reaches_zero (s : σ) : Reaches body input (.inl s) 0 s := rfl

theorem reaches_succ_iff :
    Reaches body input x (k + 1) t ↔ ∃ s, Reaches body input x k s ∧ body s (input k) = .inl t := by
  unfold Reaches
  rw [rounds]
  rcases rounds body input x k with s | r
  · simp
  · simp

/-- **How a loop ends**: at once, or in some round. -/
theorem ends_iff :
    Ends body input x r ↔
      x = .inr r ∨ ∃ k s, Reaches body input x k s ∧ body s (input k) = .inr r := by
  constructor
  · rintro ⟨k, hk⟩
    induction k with
    | zero => exact Or.inl hk
    | succ k ih =>
      rw [rounds] at hk
      rcases hround : rounds body input x k with s | r'
      · rw [hround] at hk
        exact Or.inr ⟨k, s, hround, hk⟩
      · rw [hround] at hk
        exact ih (hround.trans hk)
  · rintro (hx | ⟨k, s, hs, hr⟩)
    · exact ⟨0, hx⟩
    · refine ⟨k + 1, ?_⟩
      unfold Reaches at hs
      rw [rounds, hs]
      exact hr

theorem ends_of_round (hs : Reaches body input x k s) (hr : body s (input k) = .inr r) :
    Ends body input x r := ends_iff.mpr (Or.inr ⟨k, s, hs, hr⟩)

/-! ### Rules -/

/-- **The invariant rule.** -/
theorem inv_of_reaches {I : ℕ → σ → Prop} (hx : ∀ s, x = .inl s → I 0 s)
    (hstep : ∀ k s t, Reaches body input x k s → I k s → body s (input k) = .inl t → I (k + 1) t)
    (hs : Reaches body input x k s) : I k s := by
  induction k generalizing s with
  | zero => exact hx s hs
  | succ k ih =>
    obtain ⟨s', hs', hbody⟩ := reaches_succ_iff.mp hs
    exact hstep k s' s hs' (ih hs') hbody

/-- **The termination rule**: the loop ends if its rounds decrease a measure. -/
theorem halts_of_measure {α : Type} [LT α] [WellFoundedLT α] (m : σ → α)
    (hdec : ∀ k s t, Reaches body input x k s → body s (input k) = .inl t → m t < m s) :
    Halts body input x := by
  -- the induction is on the measure of the state in which some round begins
  have hfrom : ∀ a k s, Reaches body input x k s → m s = a → Halts body input x := by
    intro a
    induction a using WellFoundedLT.induction with
    | ind a ih =>
      intro k s hs ha
      rcases hbody : body s (input k) with t | r
      · have ht : Reaches body input x (k + 1) t := reaches_succ_iff.mpr ⟨s, hs, hbody⟩
        have hlt : m t < a := ha ▸ hdec k s t hs hbody
        exact ih (m t) hlt (k + 1) t ht rfl
      · exact ⟨r, ends_of_round hs hbody⟩
  rcases x with s | r
  · exact hfrom (m s) 0 s (reaches_zero s) rfl
  · exact ⟨r, 0, rfl⟩

/-- **The divergence rule**: the loop does not end if an invariant makes each round go on. -/
theorem not_halts_of_inv {I : σ → Prop}
    (hstep : ∀ k s, I s → ∃ t, body s (input k) = .inl t ∧ I t) (hs : I s) :
    ¬ Halts body input (.inl s) := by
  have hgo : ∀ k, ∃ t, Reaches body input (.inl s) k t ∧ I t := by
    intro k
    induction k with
    | zero => exact ⟨s, reaches_zero s, hs⟩
    | succ k ih =>
      obtain ⟨t, ht, hi⟩ := ih
      obtain ⟨u, hbody, hu⟩ := hstep k t hi
      exact ⟨u, reaches_succ_iff.mpr ⟨t, ht, hbody⟩, hu⟩
  rintro ⟨r, k, hk⟩
  obtain ⟨t, ht, -⟩ := hgo k
  exact Sum.inl_ne_inr (ht.symm.trans hk)

end MarketingSuite.Lib.Loops
