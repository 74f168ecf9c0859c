import Mathlib.Data.List.Nodup
import Mathlib.Tactic.Common

/-! # One-time tickets

A ticket is issued under a key for a purpose, waits with what belongs to it, and is redeemed by its
key, which takes it away. `Sound` says what issuing under fresh keys and redeeming keep true of the
tickets that wait, of those that have been issued and of those that have been redeemed. -/

namespace MarketingSuite.Lib.Tickets

variable {κ α β : Type}

/-- The tickets that wait, by key. -/
abbrev Waiting (κ α : Type) : Type := κ → Option α

/-- Nothing waits. -/
def Waiting.empty : Waiting κ α := fun _ => none

/-- **What holds of tickets**: no key is issued twice; what waits and what has been redeemed has
been issued, for its purpose; what has been redeemed waits no more, and no key has been redeemed twice;
what has been issued and not redeemed waits. -/
structure Sound (purpose : α → β) (t : Waiting κ α) (issued : List (κ × β))
    (redeemed : List (κ × α)) : Prop where
  keys : (issued.map Prod.fst).Nodup
  waiting : ∀ k a, t k = some a → (k, purpose a) ∈ issued
  bound : ∀ p ∈ redeemed, (p.1, purpose p.2) ∈ issued
  gone : ∀ p ∈ redeemed, t p.1 = none
  once : (redeemed.map Prod.fst).Nodup
  kept : ∀ p ∈ issued, (∃ a, t p.1 = some a ∧ purpose a = p.2) ∨
    ∃ q ∈ redeemed, q.1 = p.1 ∧ purpose q.2 = p.2

theorem sound_empty {purpose : α → β} : Sound purpose (Waiting.empty : Waiting κ α) [] [] :=
  ⟨List.nodup_nil, by simp [Waiting.empty], by simp, by simp, List.nodup_nil, by simp⟩

section Operations

variable [DecidableEq κ]

/-- Put a ticket under a key. -/
def Waiting.put (t : Waiting κ α) (k : κ) (a : α) : Waiting κ α :=
  fun k' => if k' = k then some a else t k'

/-- Take away what is under a key. -/
def Waiting.erase (t : Waiting κ α) (k : κ) : Waiting κ α :=
  fun k' => if k' = k then none else t k'

variable {t : Waiting κ α} {k k' : κ} {a b : α} {purpose : α → β} {issued : List (κ × β)}
  {redeemed : List (κ × α)}

theorem Waiting.put_eq_some (h : t.put k a k' = some b) : k' = k ∧ b = a ∨ t k' = some b := by
  unfold Waiting.put at h
  split_ifs at h with hk
  · exact Or.inl ⟨hk, (Option.some.inj h).symm⟩
  · exact Or.inr h

theorem Waiting.erase_eq_some (h : t.erase k k' = some b) : k' ≠ k ∧ t k' = some b := by
  unfold Waiting.erase at h
  split_ifs at h with hk
  exact ⟨hk, h⟩

theorem Sound.put (h : Sound purpose t issued redeemed) (hk : k ∉ issued.map Prod.fst) :
    Sound purpose (t.put k a) (issued ++ [(k, purpose a)]) redeemed where
  keys := by
    rw [List.map_append, List.nodup_append]
    refine ⟨h.keys, List.nodup_singleton _, fun x hx y hy => ?_⟩
    obtain rfl : y = k := by simpa using hy
    rintro rfl
    exact hk hx
  waiting k' b hb := by
    rcases Waiting.put_eq_some hb with ⟨rfl, rfl⟩ | hold
    · exact List.mem_append_right _ (List.mem_singleton.mpr rfl)
    · exact List.mem_append_left _ (h.waiting k' b hold)
  bound p hp := List.mem_append_left _ (h.bound p hp)
  gone p hp := by
    have hne : p.1 ≠ k := by
      rintro rfl
      exact hk (List.mem_map_of_mem (h.bound p hp))
    simpa [Waiting.put, hne] using h.gone p hp
  once := h.once
  kept p hp := by
    rcases List.mem_append.mp hp with hin | hin
    · have hne : p.1 ≠ k := by
        rintro rfl
        exact hk (List.mem_map_of_mem hin)
      simpa [Waiting.put, hne] using h.kept p hin
    · rw [List.mem_singleton.mp hin]
      exact Or.inl ⟨a, by simp [Waiting.put], rfl⟩

theorem Sound.redeem (h : Sound purpose t issued redeemed) (ha : t k = some a) :
    Sound purpose (t.erase k) issued (redeemed ++ [(k, a)]) where
  keys := h.keys
  waiting k' b hb := h.waiting k' b (Waiting.erase_eq_some hb).2
  bound p hp := by
    rcases List.mem_append.mp hp with hp | hp
    · exact h.bound p hp
    · rw [List.mem_singleton.mp hp]
      exact h.waiting k a ha
  gone p hp := by
    unfold Waiting.erase
    split_ifs with hk
    · rfl
    · rcases List.mem_append.mp hp with hp | hp
      · exact h.gone p hp
      · exact absurd (congrArg Prod.fst (List.mem_singleton.mp hp)) hk
  once := by
    rw [List.map_append, List.nodup_append]
    refine ⟨h.once, List.nodup_singleton _, fun x hx y hy => ?_⟩
    obtain rfl : y = k := by simpa using hy
    rintro rfl
    obtain ⟨p, hp, rfl⟩ := List.mem_map.mp hx
    have hgone := h.gone p hp
    rw [ha] at hgone
    exact absurd hgone (by simp)
  kept p hp := by
    by_cases hk : p.1 = k
    · refine Or.inr ⟨(k, a), by simp, hk.symm, ?_⟩
      rcases h.kept p hp with ⟨b, hb, hpurpose⟩ | ⟨q, hq, hqp, -⟩
      · rw [hk, ha] at hb
        rw [Option.some.inj hb]
        exact hpurpose
      · have hgone := h.gone q hq
        rw [hqp, hk, ha] at hgone
        exact absurd hgone (by simp)
    · rcases h.kept p hp with hwait | ⟨q, hq, hqp⟩
      · simpa [Waiting.erase, hk] using Or.inl hwait
      · exact Or.inr ⟨q, List.mem_append_left _ hq, hqp⟩

theorem Waiting.erase_of_none (h : t k = none) : t.erase k = t := by
  funext k'
  unfold Waiting.erase
  split_ifs with hk
  · rw [hk, h]
  · rfl

end Operations

end MarketingSuite.Lib.Tickets
