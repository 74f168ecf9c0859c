import MarketingSuite.Lib.Runs

/-! # Unwinding

Several domains act on one state, each action belongs to one of them and is answered. A domain is
not interfered with if it cannot tell two runs with the same actions of its own apart, whatever the
others do in between. Unwinding reduces this to single actions: a relation `Same` of the states that
look alike to the domain is kept by its own actions, which are answered alike, and by an action of
another domain on one side. An invariant of the state and of what is still to come may be used. -/

namespace MarketingSuite.Lib.Unwinding

open MarketingSuite.Lib.Runs

/-- A system that several domains share. -/
structure Shared (σ ι δ ω : Type) where
  domain : ι → δ
  step : σ → ι → σ
  answer : σ → ι → ω

namespace Shared

variable {σ ι δ ω : Type} [DecidableEq δ] (M : Shared σ ι δ ω)

/-- The actions of one domain in a run. -/
def purge (d : δ) (l : List ι) : List ι := l.filter fun a => M.domain a = d

/-- What one domain is answered in a run. -/
def answers (d : δ) : σ → List ι → List ω
  | _, [] => []
  | s, a :: l =>
    if M.domain a = d then M.answer s a :: answers d (M.step s a) l else answers d (M.step s a) l

/-- **The unwinding conditions** for a domain, under an invariant of the state and the actions still
to come. -/
structure Unwinds (d : δ) (I : σ → List ι → Prop) (Same : σ → σ → Prop) : Prop where
  symm : ∀ {s t}, Same s t → Same t s
  next : ∀ {s a l}, I s (a :: l) → I (M.step s a) l
  own : ∀ {s t a l m}, I s (a :: l) → I t (a :: m) → M.domain a = d → Same s t →
    M.answer s a = M.answer t a ∧ Same (M.step s a) (M.step t a)
  other : ∀ {s t a l}, I s (a :: l) → M.domain a ≠ d → Same s t → Same (M.step s a) t

variable {M} {d : δ} {I : σ → List ι → Prop} {Same : σ → σ → Prop} {s t : σ} {a : ι}
  {l m : List ι}

theorem purge_cons_own (h : M.domain a = d) : M.purge d (a :: l) = a :: M.purge d l :=
  List.filter_cons_of_pos (by simpa using h)

theorem purge_cons_other (h : M.domain a ≠ d) : M.purge d (a :: l) = M.purge d l :=
  List.filter_cons_of_neg (by simpa using h)

theorem answers_cons_own (h : M.domain a = d) :
    M.answers d s (a :: l) = M.answer s a :: M.answers d (M.step s a) l := if_pos h

theorem answers_cons_other (h : M.domain a ≠ d) :
    M.answers d s (a :: l) = M.answers d (M.step s a) l := if_neg h

/-- The actions of the others before the domain acts next leave it where it was. -/
theorem Unwinds.skip (h : M.Unwinds d I Same) (hl : M.purge d l = a :: m) (hI : I s l)
    (hs : Same s t) : ∃ s' l', I s' (a :: l') ∧ M.domain a = d ∧ M.purge d l' = m ∧ Same s' t ∧
      M.answers d s l = M.answers d s' (a :: l') ∧ run M.step s l = run M.step s' (a :: l') := by
  induction l generalizing s with
  | nil => exact absurd hl.symm (List.cons_ne_nil a m)
  | cons b l ih =>
    by_cases hb : M.domain b = d
    · rw [purge_cons_own hb] at hl
      obtain ⟨rfl, rfl⟩ := List.cons.inj hl
      exact ⟨s, l, hI, hb, rfl, hs, rfl, rfl⟩
    · rw [purge_cons_other hb] at hl
      obtain ⟨s', l', hI', hd, hm, hs', hans, hrun⟩ := ih hl (h.next hI) (h.other hI hb hs)
      exact ⟨s', l', hI', hd, hm, hs', (answers_cons_other hb).trans hans, hrun⟩

/-- A run of the others leaves the domain where it was, without an answer. -/
theorem Unwinds.quiet (h : M.Unwinds d I Same) (hl : M.purge d l = []) (hI : I s l)
    (hs : Same s t) : M.answers d s l = [] ∧ Same (run M.step s l) t := by
  induction l generalizing s with
  | nil => exact ⟨rfl, hs⟩
  | cons b l ih =>
    by_cases hb : M.domain b = d
    · rw [purge_cons_own hb] at hl
      exact absurd hl (List.cons_ne_nil b _)
    · rw [purge_cons_other hb] at hl
      obtain ⟨hans, hrun⟩ := ih hl (h.next hI) (h.other hI hb hs)
      exact ⟨(answers_cons_other hb).trans hans, hrun⟩

/-- **Unwinding**: two runs with the same actions of the domain, from states that look alike to it,
answer it alike and end in states that look alike. -/
theorem Unwinds.noninterference (h : M.Unwinds d I Same) (hl : I s l) (hm : I t m) (hs : Same s t)
    (hpurge : M.purge d l = M.purge d m) :
    M.answers d s l = M.answers d t m ∧ Same (run M.step s l) (run M.step t m) := by
  generalize hp : M.purge d l = p at hpurge
  induction p generalizing s t l m with
  | nil =>
    obtain ⟨hans, hrun⟩ := h.quiet hp hl hs
    obtain ⟨hans', hrun'⟩ := h.quiet hpurge.symm hm (h.symm hrun)
    exact ⟨hans.trans hans'.symm, h.symm hrun'⟩
  | cons a p ih =>
    obtain ⟨s', l', hl', ha, hp', hs', hans, hrun⟩ := h.skip hp hl hs
    obtain ⟨t', m', hm', -, hq', ht', hans', hrun'⟩ := h.skip hpurge.symm hm (h.symm hs')
    obtain ⟨hanswer, hnext⟩ := h.own hl' hm' ha (h.symm ht')
    obtain ⟨htail, hend⟩ := ih (h.next hl') (h.next hm') hnext hp' hq'.symm
    refine ⟨?_, ?_⟩
    · rw [hans, hans', answers_cons_own ha, answers_cons_own ha, hanswer, htail]
    · rw [hrun, hrun']
      exact hend

end Shared

end MarketingSuite.Lib.Unwinding
