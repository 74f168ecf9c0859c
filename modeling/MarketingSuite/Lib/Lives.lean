import MarketingSuite.Lib.Runs

/-! # Lives

A part of a system is looked at: there is nothing as long as it does not exist, and then something.
Its life in a run is what it becomes, one after the other. If every step leaves it as it is, brings
it about as `Born` says, or changes it along `R`, then every life is a walk of `R` that starts in
`Born`; and if there is a step for each of these, every such walk is a life. -/

namespace MarketingSuite.Lib.Lives

open MarketingSuite.Lib.Runs

variable {σ ι α : Type}

/-- What the part becomes in the run. -/
def life [DecidableEq α] (step : σ → ι → σ) (look : σ → Option α) : σ → List ι → List α
  | _, [] => []
  | s, i :: l =>
    if look (step s i) = look s then life step look (step s i) l
    else (look (step s i)).toList ++ life step look (step s i) l

/-- What can happen to the part at once. -/
inductive Grows (Born : α → Prop) (R : α → α → Prop) : Option α → Option α → Prop
  | born {a : α} (h : Born a) : Grows Born R none (some a)
  | moves {a b : α} (h : R a b) : Grows Born R (some a) (some b)

/-- A walk that goes on from what is there, or starts where something may be born. -/
def Walk (Born : α → Prop) (R : α → α → Prop) : Option α → List α → Prop
  | _, [] => True
  | o, a :: w => Grows Born R o (some a) ∧ Walk Born R (some a) w

variable {step : σ → ι → σ} {look : σ → Option α} {Born Born' : α → Prop} {R : α → α → Prop}
  {I : σ → Prop} {s : σ} {w : List α} {o : Option α}

theorem Grows.exists_some {o o' : Option α} (h : Grows Born R o o') : ∃ a, o' = some a := by
  cases h with
  | born h => exact ⟨_, rfl⟩
  | moves h => exact ⟨_, rfl⟩

theorem Grows.ne (hirrefl : ∀ a, ¬ R a a) {o o' : Option α} (h : Grows Born R o o') : o' ≠ o := by
  cases h with
  | born h => simp
  | moves h =>
    intro heq
    rw [Option.some.inj heq] at h
    exact hirrefl _ h

/-- **Every life is a walk**, if every step grows the part or leaves it as it is. -/
theorem walk_life [DecidableEq α] (hinv : ∀ s i, I s → I (step s i))
    (hstep : ∀ s i, I s → look (step s i) = look s ∨ Grows Born R (look s) (look (step s i)))
    (hs : I s) (l : List ι) : Walk Born R (look s) (life step look s l) := by
  induction l generalizing s with
  | nil => exact trivial
  | cons i l ih =>
    have hrest := ih (hinv s i hs)
    unfold life
    split_ifs with hsame
    · rw [hsame] at hrest
      exact hrest
    · have hgrows := (hstep s i hs).resolve_left hsame
      obtain ⟨a, ha⟩ := hgrows.exists_some
      rw [ha] at hgrows hrest ⊢
      exact ⟨hgrows, hrest⟩

/-- **Every walk is a life**, if there is a step for every way to grow. -/
theorem exists_life [DecidableEq α] (hirrefl : ∀ a, ¬ R a a)
    (hstep : ∀ s a, I s → Grows Born R (look s) (some a) →
      ∃ i, look (step s i) = some a ∧ I (step s i))
    (hs : I s) (hw : Walk Born R (look s) w) : ∃ l, life step look s l = w := by
  induction w generalizing s with
  | nil => exact ⟨[], rfl⟩
  | cons a w ih =>
    obtain ⟨hgrows, hrest⟩ := hw
    obtain ⟨i, hlook, hi⟩ := hstep s a hs hgrows
    rw [← hlook] at hgrows hrest
    obtain ⟨l, hl⟩ := ih hi hrest
    have hne := hgrows.ne hirrefl
    refine ⟨i :: l, ?_⟩
    rw [life, if_neg hne, hl, hlook]
    rfl

theorem walk_of_forall (hborn : ∀ a ∈ w, Born a → Born' a) (hw : Walk Born R o w) :
    Walk Born' R o w := by
  induction w generalizing o with
  | nil => exact trivial
  | cons b w ih =>
    obtain ⟨hgrows, hrest⟩ := hw
    refine ⟨?_, ih (fun a ha => hborn a (List.mem_cons_of_mem b ha)) hrest⟩
    cases hgrows with
    | born h => exact .born (hborn b List.mem_cons_self h)
    | moves h => exact .moves h

end MarketingSuite.Lib.Lives
