import Mathlib.Data.List.Infix
import Mathlib.Tactic.Common

/-! # Runs of a system

A system takes a step for each of a list of inputs. `Along P` says that a relation between a state
and the input it gets holds at every step of a run, `Always I` that a property holds in every state
of the run, its first one included. The rules reduce both to one step. -/

namespace MarketingSuite.Lib.Runs

variable {σ ι β : Type} {step : σ → ι → σ}

/-- The state after the inputs. -/
def run (step : σ → ι → σ) (s : σ) (l : List ι) : σ := l.foldl step s

@[simp] theorem run_nil (s : σ) : run step s [] = s := rfl

@[simp] theorem run_cons (s : σ) (i : ι) (l : List ι) :
    run step s (i :: l) = run step (step s i) l := rfl

theorem run_append (s : σ) (l l' : List ι) :
    run step s (l ++ l') = run step (run step s l) l' := List.foldl_append

/-- `P` holds of every state of the run together with the input it gets. -/
def Along (step : σ → ι → σ) (P : σ → ι → Prop) : σ → List ι → Prop
  | _, [] => True
  | s, i :: l => P s i ∧ Along step P (step s i) l

/-- `I` holds in every state of the run. -/
def Always (step : σ → ι → σ) (I : σ → Prop) : σ → List ι → Prop
  | s, [] => I s
  | s, i :: l => I s ∧ Always step I (step s i) l

instance instDecidableAlong {P : σ → ι → Prop} [∀ s i, Decidable (P s i)] :
    ∀ (s : σ) (l : List ι), Decidable (Along step P s l)
  | _, [] => isTrue trivial
  | s, i :: l => haveI : Decidable (Along step P (step s i) l) := instDecidableAlong _ l
    inferInstanceAs (Decidable (_ ∧ _))

instance instDecidableAlways {I : σ → Prop} [DecidablePred I] :
    ∀ (s : σ) (l : List ι), Decidable (Always step I s l)
  | s, [] => inferInstanceAs (Decidable (I s))
  | s, i :: l => haveI : Decidable (Always step I (step s i) l) := instDecidableAlways _ l
    inferInstanceAs (Decidable (_ ∧ _))

theorem always_iff {I : σ → Prop} {s : σ} {l : List ι} :
    Always step I s l ↔ ∀ pre, pre <+: l → I (run step s pre) := by
  induction l generalizing s with
  | nil => simp [Always]
  | cons i l ih =>
    simp only [Always, ih, List.prefix_cons_iff]
    constructor
    · rintro ⟨h0, h⟩ pre (rfl | ⟨pre, rfl, hp⟩)
      · exact h0
      · exact h pre hp
    · intro h
      exact ⟨h [] (Or.inl rfl), fun pre hp => h (i :: pre) (Or.inr ⟨pre, rfl, hp⟩)⟩

theorem along_iff {P : σ → ι → Prop} {s : σ} {l : List ι} :
    Along step P s l ↔ ∀ pre i, pre ++ [i] <+: l → P (run step s pre) i := by
  induction l generalizing s with
  | nil => simp [Along]
  | cons j l ih =>
    simp only [Along, ih]
    constructor
    · rintro ⟨h0, h⟩ pre i hp
      rcases pre with _ | ⟨k, pre⟩
      · obtain ⟨rfl, -⟩ := List.cons_prefix_cons.mp hp
        exact h0
      · obtain ⟨rfl, hp'⟩ := List.cons_prefix_cons.mp hp
        exact h pre i hp'
    · intro h
      refine ⟨h [] j (List.cons_prefix_cons.mpr ⟨rfl, List.nil_prefix⟩), fun pre i hp => ?_⟩
      exact h (j :: pre) i (List.cons_prefix_cons.mpr ⟨rfl, hp⟩)

/-! ### Rules -/

/-- **The invariant rule.** A property that every allowed step preserves holds always in a run of
allowed steps. -/
theorem always_of_along {I : σ → Prop} {Q : σ → ι → Prop}
    (hstep : ∀ s i, I s → Q s i → I (step s i)) {s : σ} {l : List ι} (hs : I s)
    (h : Along step Q s l) : Always step I s l := by
  induction l generalizing s with
  | nil => exact hs
  | cons i l ih => exact ⟨hs, ih (hstep s i hs h.1) h.2⟩

/-- **The exact invariant rule.** Under the invariant `J`, a step preserves `I` exactly when it is
allowed: then `I` holds always exactly in the runs of allowed steps. -/
theorem always_iff_along_of_inv {I J : σ → Prop} {Q : σ → ι → Prop}
    (hinv : ∀ s i, J s → J (step s i)) (hstep : ∀ s i, J s → I s → (I (step s i) ↔ Q s i))
    {s : σ} {l : List ι} (hj : J s) (hs : I s) : Always step I s l ↔ Along step Q s l := by
  induction l generalizing s with
  | nil => simpa [Always, Along] using hs
  | cons i l ih =>
    constructor
    · rintro ⟨-, h⟩
      have hi : I (step s i) := by
        rcases l with _ | ⟨j, l⟩
        · exact h
        · exact h.1
      exact ⟨(hstep s i hj hs).mp hi, (ih (hinv s i hj) hi).mp h⟩
    · rintro ⟨hq, h⟩
      have hi := (hstep s i hj hs).mpr hq
      exact ⟨hs, (ih (hinv s i hj) hi).mpr h⟩

theorem always_iff_along {I : σ → Prop} {Q : σ → ι → Prop}
    (hstep : ∀ s i, I s → (I (step s i) ↔ Q s i)) {s : σ} {l : List ι} (hs : I s) :
    Always step I s l ↔ Along step Q s l :=
  always_iff_along_of_inv (J := fun _ => True) (fun _ _ _ => trivial)
    (fun s i _ => hstep s i) trivial hs

theorem along_of_always {I : σ → Prop} {P : σ → ι → Prop} (h : ∀ s i, I s → P s i) {s : σ}
    {l : List ι} (hl : Always step I s l) : Along step P s l := by
  induction l generalizing s with
  | nil => exact trivial
  | cons i l ih => exact ⟨h s i hl.1, ih hl.2⟩

theorem along_congr {I : σ → Prop} {P Q : σ → ι → Prop} (hinv : ∀ s i, I s → I (step s i))
    (hpq : ∀ s i, I s → (P s i ↔ Q s i)) {s : σ} {l : List ι} (hs : I s) :
    Along step P s l ↔ Along step Q s l := by
  induction l generalizing s with
  | nil => exact Iff.rfl
  | cons i l ih => exact and_congr (hpq s i hs) (ih (hinv s i hs))

/-- A relation that follows from another one under an invariant that it preserves. -/
theorem along_of_along {I : σ → Prop} {P Q : σ → ι → Prop}
    (hinv : ∀ s i, I s → Q s i → I (step s i)) (hpq : ∀ s i, I s → Q s i → P s i)
    {s : σ} {l : List ι} (hs : I s) (h : Along step Q s l) : Along step P s l := by
  induction l generalizing s with
  | nil => exact trivial
  | cons i l ih => exact ⟨hpq s i hs h.1, ih (hinv s i hs h.1) h.2⟩

/-- What every step relates to its outcome, and composes, a run relates to its outcome. -/
theorem rel_run {R : σ → σ → Prop} (hrefl : ∀ s, R s s)
    (htrans : ∀ {s t u}, R s t → R t u → R s u) (hstep : ∀ s i, R s (step s i)) (s : σ)
    (l : List ι) : R s (run step s l) := by
  induction l generalizing s with
  | nil => exact hrefl s
  | cons i l ih => exact htrans (hstep s i) (ih (step s i))

theorem inv_run {I : σ → Prop} (hstep : ∀ s i, I s → I (step s i)) {s : σ} (l : List ι)
    (hs : I s) : I (run step s l) := by
  induction l generalizing s with
  | nil => exact hs
  | cons i l ih => exact ih (hstep s i hs)

/-- Once `A` holds in a run, `v` stays what it is. -/
def Stays (step : σ → ι → σ) (A : σ → Prop) (v : σ → β) (s : σ) (l : List ι) : Prop :=
  ∀ pre post, pre ++ post <+: l → A (run step s pre) →
    v (run step s (pre ++ post)) = v (run step s pre)

/-- **The rule for what stays**: it is a condition on single steps, if `A` does not end while `v`
stays. -/
theorem stays_iff_along {A : σ → Prop} {v : σ → β}
    (hA : ∀ s i, A s → v (step s i) = v s → A (step s i)) {s : σ} {l : List ι} :
    Stays step A v s l ↔ Along step (fun s i => A s → v (step s i) = v s) s l := by
  rw [along_iff]
  constructor
  · intro h pre i hpre hs
    simpa [run_append] using h pre [i] hpre hs
  · intro h pre post
    induction post generalizing pre with
    | nil => simp
    | cons i post ih =>
      intro hpre hs
      have hcons : pre ++ i :: post = pre ++ [i] ++ post := by simp
      rw [hcons] at hpre ⊢
      have hone := h pre i ((List.prefix_append _ _).trans hpre) hs
      have hstep : run step s (pre ++ [i]) = step (run step s pre) i := by simp [run_append]
      rw [ih (pre ++ [i]) hpre (by rw [hstep]; exact hA _ i hs hone), hstep, hone]

/-! ### Counting -/

/-- How many inputs of the run `p` holds of, in the state that gets them. -/
def count (step : σ → ι → σ) (p : σ → ι → Bool) : σ → List ι → ℕ
  | _, [] => 0
  | s, i :: l => (if p s i = true then 1 else 0) + count step p (step s i) l

section Gates

variable {p : σ → ι → Bool} {G : σ → Prop}

theorem count_eq_zero (hshut : ∀ s i, G s → p s i = false)
    (hstay : ∀ s i, G s → G (step s i)) {s : σ} (l : List ι) (hs : G s) :
    count step p s l = 0 := by
  induction l generalizing s with
  | nil => rfl
  | cons i l ih =>
    have htail : count step p (step s i) l = 0 := ih (hstay s i hs)
    simp [count, hshut s i hs, htail]

/-- **The gate rule.** What passes shuts the gate behind it, so it is one at most. -/
theorem count_le_one (hpass : ∀ s i, p s i = true → G (step s i))
    (hshut : ∀ s i, G s → p s i = false) (hstay : ∀ s i, G s → G (step s i)) (s : σ)
    (l : List ι) : count step p s l ≤ 1 := by
  induction l generalizing s with
  | nil => exact Nat.zero_le 1
  | cons i l ih =>
    by_cases hp : p s i = true
    · have htail : count step p (step s i) l = 0 := count_eq_zero hshut hstay l (hpass s i hp)
      simp [count, hp, htail]
    · have htail := ih (step s i)
      simpa [count, hp] using htail

end Gates

/-! ### Histories

A history is what a proof remembers of a run. It does not act on the run. -/

/-- A state with a history. -/
structure Recorded (σ η : Type) where
  state : σ
  history : η

variable {η : Type} {note : σ → ι → η → η}

/-- A step, and what is noted about it. -/
def record (step : σ → ι → σ) (note : σ → ι → η → η) (h : Recorded σ η) (i : ι) : Recorded σ η :=
  ⟨step h.state i, note h.state i h.history⟩

/-- What holds along a recorded run and does not look at the history holds along the run. -/
theorem along_record {P : σ → ι → Prop} {h : Recorded σ η} {l : List ι} :
    Along (record step note) (fun h i => P h.state i) h l ↔ Along step P h.state l := by
  induction l generalizing h with
  | nil => exact Iff.rfl
  | cons i l ih => exact and_congr Iff.rfl (ih (h := record step note h i))

end MarketingSuite.Lib.Runs
