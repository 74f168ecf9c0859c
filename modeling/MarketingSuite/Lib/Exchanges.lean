import MarketingSuite.Lib.Programs
import Mathlib.Data.List.Basic
import Mathlib.Data.List.Infix

/-! # Programs that exchange messages

The state of such a program is the list of its exchanges so far, each a request with its answer or
with what was raised instead. The partner answers as it likes, also according to what came before.
Some exchanges are of a kind that matters: a program is quiet if it makes none of them, and it
commits last if it makes one at most, makes nothing after it, and returns exactly what it reads in
it. Quiet parts may come before a part that commits last. -/

namespace MarketingSuite.Lib.Exchanges

open MarketingSuite.Lib.Programs

/-- A request, and its answer or what is raised instead. -/
structure Exchange (ι ε ρ : Type) where
  request : ι
  answer : Except ε ρ

variable {ι ε ρ α β : Type}

/-- A partner, who remembers the exchanges before. -/
abbrev Partner (ι ε ρ : Type) : Type := List (Exchange ι ε ρ) → ι → Except ε ρ

/-- A program that exchanges messages. -/
abbrev Talk (ι ε ρ α : Type) : Type := Prog (List (Exchange ι ε ρ)) ε α

/-- Send a request. -/
def exchange (w : Partner ι ε ρ) (i : ι) : Talk ι ε ρ ρ := fun s => (w s i, s ++ [⟨i, w s i⟩])

/-- `p` makes no exchange of the kind `C`. -/
def Quiet (C : Exchange ι ε ρ → Prop) (p : Talk ι ε ρ α) : Prop :=
  ∀ s, ∃ l, (p s).2 = s ++ l ∧ ∀ q ∈ l, ¬ C q

/-- The list ends with an exchange of the kind `C` in which `a` is read. -/
def EndsWith (C : Exchange ι ε ρ → Prop) (read : Exchange ι ε ρ → Option α)
    (l : List (Exchange ι ε ρ)) (a : α) : Prop :=
  ∃ q, l.getLast? = some q ∧ C q ∧ read q = some a

/-- **`p` commits last**: of the exchanges that it makes only the last one may be of the kind `C`, and
then is of the kind `K`, and it returns exactly what is read in that one. -/
def CommitsLast (C K : Exchange ι ε ρ → Prop) (read : Exchange ι ε ρ → Option α)
    (p : Talk ι ε ρ α) : Prop :=
  ∀ s, ∃ l, (p s).2 = s ++ l ∧ (∀ q ∈ l.dropLast, ¬ C q) ∧ (∀ q ∈ l, C q → K q) ∧
    ∀ a, (p s).1 = .ok a ↔ EndsWith C read l a

variable {C K : Exchange ι ε ρ → Prop} {read : Exchange ι ε ρ → Option α}

/-! ### Quiet programs -/

theorem quiet_of_silent {p : Talk ι ε ρ α} (hp : p.Frames id) : Quiet C p :=
  fun s => ⟨[], (hp s).trans (List.append_nil s).symm, fun _ hq => absurd hq List.not_mem_nil⟩

theorem quiet_exchange {w : Partner ι ε ρ} {i : ι} (hi : ∀ x, ¬ C ⟨i, x⟩) :
    Quiet C (exchange w i) := by
  intro s
  refine ⟨[⟨i, w s i⟩], rfl, fun q hq => ?_⟩
  rw [List.mem_singleton.mp hq]
  exact hi (w s i)

theorem quiet_bind {p : Talk ι ε ρ α} {f : α → Talk ι ε ρ β} (hp : Quiet C p)
    (hf : ∀ a, Quiet C (f a)) : Quiet C (p >>= f) := by
  intro s
  obtain ⟨l, hl, hquiet⟩ := hp s
  rcases p.returns_or_raises s with ⟨a, t, hret⟩ | ⟨e, t, hraise⟩
  · obtain ⟨l', hl', hquiet'⟩ := hf a t
    have ht : t = s ++ l := by rw [← hl, hret]
    refine ⟨l ++ l', ?_, fun q hq => ?_⟩
    · rw [Prog.bind_of_returns hret, hl', ht, List.append_assoc]
    · rcases List.mem_append.mp hq with hq | hq
      · exact hquiet q hq
      · exact hquiet' q hq
  · refine ⟨l, ?_, hquiet⟩
    rw [Prog.bind_of_raises hraise, ← hl, hraise]

/-! ### Programs that commit last -/

theorem not_endsWith {l : List (Exchange ι ε ρ)} (hl : ∀ q ∈ l, ¬ C q) (a : α) :
    ¬ EndsWith C read l a := by
  rintro ⟨q, hq, hC, -⟩
  exact hl q (List.mem_of_getLast? hq) hC

theorem endsWith_append {l l' : List (Exchange ι ε ρ)} (hl : ∀ q ∈ l, ¬ C q) (a : α) :
    EndsWith C read (l ++ l') a ↔ EndsWith C read l' a := by
  rcases List.eq_nil_or_concat l' with rfl | ⟨l', q, rfl⟩
  · rw [List.append_nil]
    exact iff_of_false (not_endsWith hl a) (not_endsWith (by simp) a)
  · simp [EndsWith]

theorem dropLast_append {l l' : List (Exchange ι ε ρ)} (hl : ∀ q ∈ l, ¬ C q)
    (hl' : ∀ q ∈ l'.dropLast, ¬ C q) : ∀ q ∈ (l ++ l').dropLast, ¬ C q := by
  intro q hq
  rcases List.eq_nil_or_concat l' with rfl | ⟨l', q', rfl⟩
  · rw [List.append_nil] at hq
    exact hl q (List.mem_of_mem_dropLast hq)
  · rw [List.concat_eq_append] at hq hl'
    rw [← List.append_assoc, List.dropLast_concat] at hq
    rw [List.dropLast_concat] at hl'
    rcases List.mem_append.mp hq with hq | hq
    · exact hl q hq
    · exact hl' q hq

/-- **Quiet parts come before.** -/
theorem commitsLast_bind {p : Talk ι ε ρ β} {f : β → Talk ι ε ρ α} (hp : Quiet C p)
    (hf : ∀ b, CommitsLast C K read (f b)) : CommitsLast C K read (p >>= f) := by
  intro s
  obtain ⟨l, hl, hquiet⟩ := hp s
  rcases p.returns_or_raises s with ⟨b, t, hret⟩ | ⟨e, t, hraise⟩
  · obtain ⟨l', hl', hdrop, hkind, hends⟩ := hf b t
    have ht : t = s ++ l := by rw [← hl, hret]
    refine ⟨l ++ l', ?_, dropLast_append hquiet hdrop, fun q hq hC => ?_, fun a => ?_⟩
    · rw [Prog.bind_of_returns hret, hl', ht, List.append_assoc]
    · rcases List.mem_append.mp hq with hq | hq
      · exact absurd hC (hquiet q hq)
      · exact hkind q hq hC
    · rw [Prog.bind_of_returns hret, endsWith_append hquiet, hends]
  · refine ⟨l, ?_, fun q hq => hquiet q (List.mem_of_mem_dropLast hq),
      fun q hq hC => absurd hC (hquiet q hq), fun a => ?_⟩
    · rw [Prog.bind_of_raises hraise, ← hl, hraise]
    · rw [Prog.bind_of_raises hraise]
      exact iff_of_false (by simp) (not_endsWith hquiet a)

/-- **The exchange that commits**, and what is made of its answer without another one. -/
theorem commitsLast_exchange {w : Partner ι ε ρ} {i : ι} {f : ρ → Talk ι ε ρ α}
    (hi : ∀ x, C ⟨i, x⟩ ∧ K ⟨i, x⟩) (hsilent : ∀ r, (f r).Frames id)
    (hread : ∀ x a s, read ⟨i, x⟩ = some a ↔ ∃ r, x = .ok r ∧ (f r).Returns s a s) :
    CommitsLast C K read (exchange w i >>= f) := by
  intro s
  have hends : ∀ a, EndsWith C read [⟨i, w s i⟩] a ↔ read ⟨i, w s i⟩ = some a := by
    intro a
    simp [EndsWith, hi]
  refine ⟨[⟨i, w s i⟩], ?_, by simp, by simp [hi], fun a => ?_⟩
  · rcases hw : w s i with e | r
    · have hraise : (exchange w i).Raises s e (s ++ [⟨i, .error e⟩]) := by
        simp [exchange, Prog.Raises, hw]
      rw [Prog.bind_of_raises hraise]
    · have hret : (exchange w i).Returns s r (s ++ [⟨i, .ok r⟩]) := by
        simp [exchange, Prog.Returns, hw]
      rw [Prog.bind_of_returns hret]
      exact hsilent r _
  · rw [hends, hread _ _ (s ++ [⟨i, w s i⟩])]
    rcases hw : w s i with e | r
    · have hraise : (exchange w i).Raises s e (s ++ [⟨i, .error e⟩]) := by
        simp [exchange, Prog.Raises, hw]
      rw [Prog.bind_of_raises hraise]
      simp
    · have hret : (exchange w i).Returns s r (s ++ [⟨i, .ok r⟩]) := by
        simp [exchange, Prog.Returns, hw]
      rw [Prog.bind_of_returns hret]
      constructor
      · intro h
        exact ⟨r, rfl, Prod.ext h (hsilent r _)⟩
      · rintro ⟨r', hr, h⟩
        obtain rfl := Except.ok.inj hr
        exact congrArg Prod.fst h

end MarketingSuite.Lib.Exchanges
