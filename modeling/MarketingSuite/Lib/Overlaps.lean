import MarketingSuite.Lib.Runs

/-! # Overlaps

In a system whose inputs name the actor that moves, an actor holds something first and is done with
it later. If nobody comes to hold what somebody else is done with, then two actors that are both
done with it held it at one time. -/

namespace MarketingSuite.Lib.Overlaps

open MarketingSuite.Lib.Runs

variable {σ ι : Type} {step : σ → ι → σ} {Holds Done : σ → ι → Prop} {I : σ → Prop} {s : σ}

/-- At some point of the run both actors hold it. -/
def Overlapped (step : σ → ι → σ) (Holds : σ → ι → Prop) (s : σ) (l : List ι) (i j : ι) : Prop :=
  ∃ pre, pre <+: l ∧ Holds (run step s pre) i ∧ Holds (run step s pre) j

theorem Overlapped.append {l : List ι} {i j : ι} (h : Overlapped step Holds s l i j) (l' : List ι) :
    Overlapped step Holds s (l ++ l') i j := by
  obtain ⟨pre, hpre, hi, hj⟩ := h
  exact ⟨pre, hpre.trans (List.prefix_append l l'), hi, hj⟩

/-- A step moves its own actor only; and that one was holding before, or was done, or takes hold of
it while nobody is done. -/
structure Claimed (step : σ → ι → σ) (Holds Done : σ → ι → Prop) (I : σ → Prop) : Prop where
  inv : ∀ s i, I s → I (step s i)
  holds_of_ne : ∀ s i j, j ≠ i → (Holds (step s i) j ↔ Holds s j)
  done_of_ne : ∀ s i j, j ≠ i → (Done (step s i) j ↔ Done s j)
  self : ∀ s i, I s → Holds (step s i) i ∨ Done (step s i) i →
    (Holds s i ∨ Done s i) ∨ Holds (step s i) i ∧ ∀ j, ¬ Done s j

theorem Claimed.of_ne (h : Claimed step Holds Done I) {i j : ι} (hne : j ≠ i)
    (hj : Holds (step s i) j ∨ Done (step s i) j) : Holds s j ∨ Done s j :=
  hj.imp (h.holds_of_ne s i j hne).mp (h.done_of_ne s i j hne).mp

/-- The actor that moves takes hold of it next to one that holds it. -/
theorem Claimed.meet (h : Claimed step Holds Done I) {i j : ι} (hne : j ≠ i)
    (hi : Holds (step s i) i ∧ ∀ j, ¬ Done s j) (hj : Holds s j ∨ Done s j) :
    Holds (step s i) i ∧ Holds (step s i) j :=
  ⟨hi.1, (h.holds_of_ne s i j hne).mpr (hj.resolve_right (hi.2 j))⟩

/-- **Two actors that come to it in one run held it at one time**, if they are not done with it
before. -/
theorem overlapped_of_claimed (h : Claimed step Holds Done I) (hs : I s)
    (hnone : ∀ i, ¬ (Holds s i ∨ Done s i)) (l : List ι) : ∀ i j, i ≠ j →
      Holds (run step s l) i ∨ Done (run step s l) i →
      Holds (run step s l) j ∨ Done (run step s l) j → Overlapped step Holds s l i j := by
  induction l using List.reverseRecOn with
  | nil => exact fun i j _ hi => absurd hi (hnone i)
  | append_singleton l m ih =>
    have hI : I (run step s l) := inv_run h.inv l hs
    have hlast : run step s (l ++ [m]) = step (run step s l) m := run_append s l [m]
    intro i j hne hi hj
    rw [hlast] at hi hj
    by_cases him : i = m
    · subst him
      have hj' := h.of_ne hne.symm hj
      rcases h.self _ i hI hi with hi' | hnew
      · exact (ih i j hne hi' hj').append [i]
      · obtain ⟨hhi, hhj⟩ := h.meet hne.symm hnew hj'
        exact ⟨l ++ [i], List.prefix_rfl, by rwa [hlast], by rwa [hlast]⟩
    · have hi' := h.of_ne him hi
      by_cases hjm : j = m
      · subst hjm
        rcases h.self _ j hI hj with hj' | hnew
        · exact (ih i j hne hi' hj').append [j]
        · obtain ⟨hhj, hhi⟩ := h.meet hne hnew hi'
          exact ⟨l ++ [j], List.prefix_rfl, by rwa [hlast], by rwa [hlast]⟩
      · exact (ih i j hne hi' (h.of_ne hjm hj)).append [m]

end MarketingSuite.Lib.Overlaps
