import MarketingSuite.Lib.Runs

/-! # Since when

`Since` is the operator of that name of temporal logic: some input of the run satisfied `P`, and
every later one `Q`. What holds at the end of a run, and holds after a step only if the step brought
it about or kept it, holds since a step brought it about, or was kept from the start. -/

namespace MarketingSuite.Lib.Origins

open MarketingSuite.Lib.Runs

variable {σ ι : Type} {step : σ → ι → σ}

/-- An input of the run satisfied `P` in the state that got it, and every later one `Q`. -/
def Since (step : σ → ι → σ) (P Q : σ → ι → Prop) (s : σ) (l : List ι) : Prop :=
  ∃ pre i post, l = pre ++ i :: post ∧ P (run step s pre) i ∧
    Along step Q (run step s (pre ++ [i])) post

variable {H I : σ → Prop} {P Q : σ → ι → Prop} {s : σ} {i : ι} {l : List ι}

theorem since_cons (h : Since step P Q (step s i) l) : Since step P Q s (i :: l) := by
  obtain ⟨pre, j, post, rfl, hP, hQ⟩ := h
  exact ⟨i :: pre, j, post, rfl, hP, hQ⟩

theorem since_here (hP : P s i) (hQ : Along step Q (step s i) l) : Since step P Q s (i :: l) :=
  ⟨[], i, l, rfl, hP, hQ⟩

/-- **The rule of origins.** -/
theorem since_of_holds (hinv : ∀ s i, I s → I (step s i))
    (hstep : ∀ s i, I s → H (step s i) → P s i ∨ H s ∧ Q s i) (hs : I s)
    (h : H (run step s l)) : Since step P Q s l ∨ H s ∧ Along step Q s l := by
  induction l generalizing s with
  | nil => exact Or.inr ⟨h, trivial⟩
  | cons i l ih =>
    rcases ih (hinv s i hs) h with hlater | ⟨hnext, halong⟩
    · exact Or.inl (since_cons hlater)
    · rcases hstep s i hs hnext with hset | ⟨hold, hkeep⟩
      · exact Or.inl (since_here hset halong)
      · exact Or.inr ⟨hold, hkeep, halong⟩

end MarketingSuite.Lib.Origins
