import Mathlib.Order.WellFounded
import Mathlib.Tactic.Common

/-! # Chains of links

Elements with at most one link each, to another element; `follow next k a` takes `k` links from `a`.
Where every link takes one off a rank, and the elements without a link have the least one, the rank
of an element says how long its chain is: it ends, exactly then, and meets no element twice. -/

namespace MarketingSuite.Lib.Chains

variable {α : Type} {next : α → Option α} {rank : α → ℕ} {least : ℕ} {S : α → Prop} {a b : α}
  {k : ℕ}

/-- The element that `k` links lead to, if there are so many. -/
def follow (next : α → Option α) : ℕ → α → Option α
  | 0, a => some a
  | k + 1, a => (next a).bind (follow next k)

/-- After `k` links comes an element without one. -/
def EndsAfter (next : α → Option α) (k : ℕ) (a : α) : Prop :=
  ∃ b, follow next k a = some b ∧ next b = none

/-- No element is met twice. -/
def NeverRepeats (next : α → Option α) (a : α) : Prop :=
  ∀ j k b, follow next j a = some b → follow next k a = some b → j = k

/-- The elements of `S` are linked to elements of `S` whose rank is one less, or have the least
rank. -/
structure Ranked (next : α → Option α) (rank : α → ℕ) (least : ℕ) (S : α → Prop) : Prop where
  last : ∀ a, S a → next a = none → rank a = least
  link : ∀ a b, S a → next a = some b → S b ∧ rank a = rank b + 1

theorem follow_succ (k : ℕ) (a : α) : follow next (k + 1) a = (next a).bind (follow next k) := rfl

namespace Ranked

theorem rank_follow (h : Ranked next rank least S) (ha : S a) (hk : follow next k a = some b) :
    S b ∧ rank a = rank b + k := by
  induction k generalizing a with
  | zero =>
    obtain rfl := Option.some.inj hk
    exact ⟨ha, rfl⟩
  | succ k ih =>
    rw [follow_succ] at hk
    obtain ⟨c, hc, hk⟩ := Option.bind_eq_some_iff.mp hk
    obtain ⟨hSc, hrank⟩ := h.link a c ha hc
    obtain ⟨hSb, hrank'⟩ := ih hSc hk
    exact ⟨hSb, by omega⟩

theorem least_le (h : Ranked next rank least S) (ha : S a) : least ≤ rank a := by
  induction hn : rank a generalizing a with
  | zero =>
    rcases hnext : next a with _ | b
    · have hlast := h.last a ha hnext
      omega
    · have hlink := (h.link a b ha hnext).2
      omega
  | succ n ih =>
    rcases hnext : next a with _ | b
    · have hlast := h.last a ha hnext
      omega
    · obtain ⟨hb, hlink⟩ := h.link a b ha hnext
      have hle := ih hb (by omega)
      omega

theorem exists_follow (h : Ranked next rank least S) (ha : S a) (hk : rank a = least + k) :
    ∃ b, follow next k a = some b := by
  induction k generalizing a with
  | zero => exact ⟨a, rfl⟩
  | succ k ih =>
    rcases hnext : next a with _ | c
    · have hlast := h.last a ha hnext
      omega
    · obtain ⟨hc, hlink⟩ := h.link a c ha hnext
      obtain ⟨b, hb⟩ := ih hc (by omega)
      refine ⟨b, ?_⟩
      rw [follow_succ, hnext]
      exact hb

theorem next_eq_none_iff (h : Ranked next rank least S) (ha : S a) :
    next a = none ↔ rank a = least := by
  constructor
  · exact h.last a ha
  · intro hrank
    rcases hnext : next a with _ | b
    · rfl
    · obtain ⟨hb, hlink⟩ := h.link a b ha hnext
      have hle := h.least_le hb
      omega

/-- **The length of a chain** is the rank, counted from the least one. -/
theorem endsAfter_iff (h : Ranked next rank least S) (ha : S a) :
    EndsAfter next k a ↔ rank a = least + k := by
  constructor
  · rintro ⟨b, hk, hb⟩
    obtain ⟨hSb, hrank⟩ := h.rank_follow ha hk
    have hlast := h.last b hSb hb
    omega
  · intro hrank
    obtain ⟨b, hk⟩ := h.exists_follow ha hrank
    obtain ⟨hSb, hrank'⟩ := h.rank_follow ha hk
    exact ⟨b, hk, (h.next_eq_none_iff hSb).mpr (by omega)⟩

theorem neverRepeats (h : Ranked next rank least S) (ha : S a) : NeverRepeats next a := by
  intro j k b hj hk
  have hj' := (h.rank_follow ha hj).2
  have hk' := (h.rank_follow ha hk).2
  omega

theorem wellFounded (h : Ranked next rank least S) :
    WellFounded fun b a => S a ∧ next a = some b := by
  refine Subrelation.wf (fun {b a} hab => ?_) (measure rank).wf
  have hlink := (h.link a b hab.1 hab.2).2
  show rank b < rank a
  omega

end Ranked

end MarketingSuite.Lib.Chains
