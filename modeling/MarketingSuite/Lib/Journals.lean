import MarketingSuite.Lib.Programs
import MarketingSuite.Lib.Runs

/-! # Journals

A system writes entries at the end of a log. A journal is a log with a reading of it: what an entry
says about a view of the state, if it may stand after that view at all. The log accounts for the
view if what was written since then leads from the view then to the view now. -/

namespace MarketingSuite.Lib.Journals

open MarketingSuite.Lib.Programs MarketingSuite.Lib.Runs

variable {σ ι ε ν κ : Type}

/-- A log, and how it is read. -/
structure Journal (σ ι ε ν κ : Type) where
  log : σ → List ε
  view : σ → ν
  /-- The view after an entry; `none` if the entry cannot stand there. -/
  apply : ν → ε → Option ν
  author : ε → κ
  caller : ι → κ

namespace Journal

/-- Reading entries one after the other. -/
def replay (J : Journal σ ι ε ν κ) (v : ν) : List ε → Option ν
  | [] => some v
  | e :: l => (J.apply v e).bind fun v' => J.replay v' l

/-- What the inputs `l` did from `s` to `s'` is in the log: the new entries, which their callers
wrote in this order, can be read from the view of `s`, and give the view of `s'`. -/
def Accounts (J : Journal σ ι ε ν κ) (s : σ) (l : List ι) (s' : σ) : Prop :=
  ∃ new, J.log s' = J.log s ++ new ∧ J.replay (J.view s) new = some (J.view s') ∧
    (new.map J.author).Sublist (l.map J.caller)

variable {J : Journal σ ι ε ν κ} {s s' s'' : σ} {l l' : List ι} {i : ι} {e : ε} {v v' : ν}

theorem replay_append (L L' : List ε) :
    J.replay v (L ++ L') = (J.replay v L).bind fun v' => J.replay v' L' := by
  induction L generalizing v with
  | nil => rfl
  | cons e L ih =>
    simp only [List.cons_append, replay]
    rcases J.apply v e with _ | v'
    · rfl
    · exact ih

theorem accounts_of_silent (hlog : J.log s' = J.log s) (hview : J.view s' = J.view s) :
    J.Accounts s l s' := by
  refine ⟨[], by rw [hlog, List.append_nil], ?_, List.nil_sublist _⟩
  rw [hview]
  rfl

theorem accounts_refl (s : σ) : J.Accounts s l s := accounts_of_silent rfl rfl

theorem accounts_of_entry (hlog : J.log s' = J.log s ++ [e]) (hauthor : J.author e = J.caller i)
    (hview : J.apply (J.view s) e = some (J.view s')) : J.Accounts s [i] s' := by
  refine ⟨[e], hlog, ?_, ?_⟩
  · simp [replay, hview]
  · simp [hauthor]

theorem accounts_append (h : J.Accounts s l s') (h' : J.Accounts s' l' s'') :
    J.Accounts s (l ++ l') s'' := by
  obtain ⟨L, hlog, hreplay, hauthors⟩ := h
  obtain ⟨L', hlog', hreplay', hauthors'⟩ := h'
  refine ⟨L ++ L', ?_, ?_, ?_⟩
  · rw [hlog', hlog, List.append_assoc]
  · rw [replay_append, hreplay]
    exact hreplay'
  · rw [List.map_append, List.map_append]
    exact hauthors.append hauthors'

/-- **A log that accounts for each step** from the states of an invariant accounts for every run. -/
theorem accounts_run {step : σ → ι → σ} {I : σ → Prop} (hinv : ∀ s i, I s → I (step s i))
    (hstep : ∀ s i, I s → J.Accounts s [i] (step s i)) {s : σ} (hs : I s) (l : List ι) :
    J.Accounts s l (run step s l) := by
  induction l generalizing s with
  | nil => exact accounts_refl s
  | cons i l ih =>
    rw [run_cons]
    exact accounts_append (hstep s i hs) (ih (hinv s i hs))

end Journal

/-! ### What a program writes -/

section Writes

variable {δ α β : Type} {log : σ → List ε} {P : ε → Prop} {s t s' : σ} {a : α} {b : β}

/-- A call that returns writes one entry, with `P`. -/
def Writes (log : σ → List ε) (P : ε → Prop) (p : Prog σ δ α) : Prop :=
  ∀ s a s', p.Returns s a s' → ∃ e, P e ∧ log s' = log s ++ [e]

theorem writes_modify {f : σ → σ} {e : ε} (he : P e) (hf : ∀ s, log (f s) = log s ++ [e]) :
    Writes log P (Prog.modify f : Prog σ δ Unit) := by
  intro s u s' h
  obtain rfl := Prog.returns_modify.mp h
  exact ⟨e, he, hf s⟩

theorem writes_bind {p : Prog σ δ α} {g : α → Prog σ δ β} (hp : Prog.Frames log p)
    (hg : ∀ a, Writes log P (g a)) : Writes log P (p >>= g) := by
  intro s b s' h
  obtain ⟨a, t, hp', hg'⟩ := Prog.returns_bind.mp h
  obtain ⟨e, he, hlog⟩ := hg a t b s' hg'
  exact ⟨e, he, by rw [hlog, hp.returns hp']⟩

theorem writes_bind_frames {p : Prog σ δ α} {g : α → Prog σ δ β} (hp : Writes log P p)
    (hg : ∀ a, Prog.Frames log (g a)) : Writes log P (p >>= g) := by
  intro s b s' h
  obtain ⟨a, t, hp', hg'⟩ := Prog.returns_bind.mp h
  obtain ⟨e, he, hlog⟩ := hp s a t hp'
  exact ⟨e, he, by rw [(hg a).returns hg', hlog]⟩

end Writes

end MarketingSuite.Lib.Journals
