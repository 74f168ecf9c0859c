import MarketingSuite.Lib.Programs
import Mathlib.Data.List.Basic

/-! # Programs that keep what they hear

The state of such a program is the list of the answers that it has had, in their order. It heeds a
kind of answers if it raises an exception of some kind at the first of them, and an exception of
another kind for nothing else. -/

namespace MarketingSuite.Lib.Traces

open MarketingSuite.Lib.Programs

variable {ρ ε α β γ : Type}

/-- Have an answer, which may depend on those before. -/
def hear (x : List ρ → Except ε ρ) : Prog (List ρ) ε ρ := fun s =>
  match x s with
  | .ok r => (.ok r, s ++ [r])
  | .error e => (.error e, s)

/-- What `p` hears when it begins with `s`. -/
def Hears (p : Prog (List ρ) ε α) (s l : List ρ) : Prop := (p s).2 = s ++ l

/-- **`p` heeds the answers in `Bad`**: it raises an exception in `Q` if it hears one, and an exception
in `P` only then. -/
def Heeds (Bad : ρ → Prop) (Q P : ε → Prop) (p : Prog (List ρ) ε α) : Prop :=
  ∀ s, ∃ l, Hears p s l ∧ ((∃ r ∈ l, Bad r) → ∃ e, Q e ∧ (p s).1 = .error e) ∧
    ∀ e, P e → (p s).1 = .error e → ∃ r ∈ l, Bad r

variable {Bad : ρ → Prop} {Q P : ε → Prop}

theorem heeds_of_silent {p : Prog (List ρ) ε α} (hp : p.Frames id)
    (hraises : p.RaisesOnly fun e => ¬ P e) : Heeds Bad Q P p := by
  intro s
  refine ⟨[], (hp s).trans (List.append_nil s).symm, fun h => ?_, fun e he hout => ?_⟩
  · obtain ⟨r, hr, -⟩ := h
    exact absurd hr List.not_mem_nil
  · exact absurd he (hraises s e (p s).2 (Prod.ext hout rfl))

theorem heeds_pure (a : α) : Heeds Bad Q P (pure a : Prog (List ρ) ε α) :=
  heeds_of_silent (Prog.frames_pure a) (Prog.raisesOnly_pure a)

theorem heeds_raise {e : ε} (he : ¬ P e) : Heeds Bad Q P (Prog.raise e : Prog (List ρ) ε α) :=
  heeds_of_silent (Prog.frames_raise e) (Prog.raisesOnly_raise he)

theorem heeds_ofExcept {x : Except ε α} (hx : Prog.ErrorsOnly (fun e => ¬ P e) x) :
    Heeds Bad Q P (Prog.ofExcept x : Prog (List ρ) ε α) :=
  heeds_of_silent (Prog.frames_ofExcept x) (Prog.raisesOnly_ofExcept hx)

theorem heeds_ite {c : Prop} [Decidable c] {p q : Prog (List ρ) ε α} (hp : Heeds Bad Q P p)
    (hq : Heeds Bad Q P q) : Heeds Bad Q P (if c then p else q) := by
  split_ifs
  · exact hp
  · exact hq

theorem heeds_bind {p : Prog (List ρ) ε α} {f : α → Prog (List ρ) ε β} (hp : Heeds Bad Q P p)
    (hf : ∀ a, Heeds Bad Q P (f a)) : Heeds Bad Q P (p >>= f) := by
  intro s
  obtain ⟨l, hl, hbad, honly⟩ := hp s
  unfold Hears at hl
  rcases hps : p s with ⟨e | a, t⟩
  · rw [hps] at hl hbad honly
    have hbind : (p >>= f) s = (.error e, t) := Prog.bind_of_raises hps
    refine ⟨l, by rw [Hears, hbind]; exact hl, fun h => ?_, fun e' he' h => honly e' he' ?_⟩
    · obtain ⟨e', he', h⟩ := hbad h
      exact ⟨e', he', by rw [hbind]; exact congrArg Except.error (Except.error.inj h)⟩
    · rw [hbind] at h
      exact congrArg Except.error (Except.error.inj h)
  · rw [hps] at hl hbad
    have hbind : (p >>= f) s = f a t := Prog.bind_of_returns hps
    have hquiet : ∀ r ∈ l, ¬ Bad r := by
      intro r hr hbad'
      obtain ⟨e, -, h⟩ := hbad ⟨r, hr, hbad'⟩
      cases h
    obtain ⟨l', hl', hbad', honly'⟩ := hf a t
    refine ⟨l ++ l', ?_, fun h => ?_, fun e he h => ?_⟩
    · have hl : t = s ++ l := hl
      rw [Hears, hbind, hl', hl, List.append_assoc]
    · obtain ⟨r, hr, hb⟩ := h
      rw [hbind]
      rcases List.mem_append.mp hr with hr | hr
      · exact absurd hb (hquiet r hr)
      · exact hbad' ⟨r, hr, hb⟩
    · rw [hbind] at h
      obtain ⟨r, hr, hb⟩ := honly' e he h
      exact ⟨r, List.mem_append_right _ hr, hb⟩

theorem heeds_gather {f : γ → Prog (List ρ) ε (List α)} (hf : ∀ c, Heeds Bad Q P (f c))
    (l : List γ) : Heeds Bad Q P (Prog.gather f l) := by
  induction l with
  | nil => exact heeds_pure []
  | cons c l ih =>
    exact heeds_bind (hf c) fun a => heeds_bind ih fun rest => heeds_pure (a ++ rest)

/-- **An answer, and what follows it.** -/
theorem heeds_hear {x : List ρ → Except ε ρ} {f : ρ → Prog (List ρ) ε α}
    (hx : ∀ s e, x s = .error e → ¬ P e)
    (hbad : ∀ r, Bad r → ∀ s, ∃ e, Q e ∧ f r s = (.error e, s))
    (hf : ∀ r, ¬ Bad r → Heeds Bad Q P (f r)) : Heeds Bad Q P (hear x >>= f) := by
  intro s
  rcases hxs : x s with e | r
  · have hraises : (hear x).Raises s e s := by simp [hear, Prog.Raises, hxs]
    have hbind : (hear x >>= f) s = (.error e, s) := Prog.bind_of_raises hraises
    refine ⟨[], by rw [Hears, hbind, List.append_nil], fun h => ?_, fun e' he' h => ?_⟩
    · obtain ⟨r, hr, -⟩ := h
      exact absurd hr List.not_mem_nil
    · rw [hbind] at h
      obtain rfl := Except.error.inj h
      exact absurd he' (hx s e hxs)
  · have hreturns : (hear x).Returns s r (s ++ [r]) := by simp [hear, Prog.Returns, hxs]
    have hbind : (hear x >>= f) s = f r (s ++ [r]) := Prog.bind_of_returns hreturns
    by_cases hr : Bad r
    · obtain ⟨e, he, hout⟩ := hbad r hr (s ++ [r])
      refine ⟨[r], by rw [Hears, hbind, hout], fun _ => ⟨e, he, by rw [hbind, hout]⟩,
        fun _ _ _ => ⟨r, List.mem_singleton_self r, hr⟩⟩
    · obtain ⟨l, hl, hbad', honly⟩ := hf r hr (s ++ [r])
      refine ⟨r :: l, ?_, fun h => ?_, fun e he h => ?_⟩
      · rw [Hears, hbind, hl, List.append_assoc, List.singleton_append]
      · obtain ⟨r', hr', hb⟩ := h
        rw [hbind]
        rcases List.mem_cons.mp hr' with rfl | hr'
        · exact absurd hb hr
        · exact hbad' ⟨r', hr', hb⟩
      · rw [hbind] at h
        obtain ⟨r', hr', hb⟩ := honly e he h
        exact ⟨r', List.mem_cons_of_mem r hr', hb⟩

theorem heeds_start {p : Prog (List ρ) ε α} (h : Heeds Bad Q P p) :
    ((∃ r ∈ (p []).2, Bad r) → ∃ e, Q e ∧ (p []).1 = .error e) ∧
      ∀ e, P e → (p []).1 = .error e → ∃ r ∈ (p []).2, Bad r := by
  obtain ⟨l, hl, hbad, honly⟩ := h []
  have hl : (p []).2 = l := hl
  rw [hl]
  exact ⟨hbad, honly⟩

/-! ### Programs for which the past does not matter -/

/-- Whatever it has heard before, `p` ends with `x`. -/
def Always (x : Except ε α) (p : Prog (List ρ) ε α) : Prop := ∀ s, (p s).1 = x

theorem always_ofExcept (x : Except ε α) : Always x (Prog.ofExcept x : Prog (List ρ) ε α) :=
  fun _ => rfl

theorem always_hear_bind {x : Except ε ρ} {k : ρ → Except ε α} :
    Always (x >>= k) (hear (fun _ => x) >>= fun r => Prog.ofExcept (k r)) := by
  intro s
  rcases x with e | r
  · rfl
  · rfl

theorem always_bind {x : Except ε α} {p : Prog (List ρ) ε α} {k : α → Except ε β}
    {f : α → Prog (List ρ) ε β} (hp : Always x p) (hf : ∀ a, Always (k a) (f a)) :
    Always (x >>= k) (p >>= f) := by
  intro s
  have hps := hp s
  rcases hout : p s with ⟨e | a, t⟩
  · rw [hout] at hps
    rw [Prog.bind_of_raises hout, ← hps]
    rfl
  · rw [hout] at hps
    rw [Prog.bind_of_returns hout, ← hps]
    exact hf a t

theorem always_gather {k : γ → Except ε (List α)} {f : γ → Prog (List ρ) ε (List α)}
    (h : ∀ c, Always (k c) (f c)) (l : List γ) : Always (Prog.collect k l) (Prog.gather f l) := by
  induction l with
  | nil => exact always_ofExcept (.ok [])
  | cons c l ih =>
    exact always_bind (h c) fun a => always_bind ih fun rest => always_ofExcept (.ok (a ++ rest))

end MarketingSuite.Lib.Traces
