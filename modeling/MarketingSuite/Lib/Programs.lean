import Mathlib.Logic.Basic
import Mathlib.Tactic.Common

/-! # Programs that change a state and may raise

A program takes a state to an outcome and a state. What it wrote before it raised stays written, as
in a language with exceptions; `settle` is the transactional reading, in which a program that raises
leaves nothing behind. `Returns` and `Raises` are the big-step relations, with one lemma for each
way to build a program, and `Frames` says that a program leaves a part of the state alone. -/

namespace MarketingSuite.Lib.Programs

/-- A program over the state `σ` that returns an `α` or raises an `ε`. -/
def Prog (σ ε α : Type) : Type := σ → Except ε α × σ

namespace Prog

variable {σ τ ε α β γ δ : Type}

instance : Monad (Prog σ ε) where
  pure a := fun s => (.ok a, s)
  bind p f := fun s =>
    match p s with
    | (.ok a, s') => f a s'
    | (.error e, s') => (.error e, s')

/-- Raise. -/
def raise (e : ε) : Prog σ ε α := fun s => (.error e, s)

/-- Read the state. -/
def gets (f : σ → α) : Prog σ ε α := fun s => (.ok (f s), s)

/-- Change the state. -/
def modify (f : σ → σ) : Prog σ ε Unit := fun s => (.ok (), f s)

/-- Raise `e` unless `c` holds. -/
def require (c : Prop) [Decidable c] (e : ε) : Prog σ ε Unit := if c then pure () else raise e

/-- The value of an outcome, or its exception. -/
def ofExcept (x : Except ε α) : Prog σ ε α := fun s => (x, s)

/-- Run the handler on what `p` raises, in the state `p` left. -/
def handle (p : Prog σ ε α) (h : ε → Prog σ ε α) : Prog σ ε α := fun s =>
  match p s with
  | (.ok a, s') => (.ok a, s')
  | (.error e, s') => h e s'

/-- Run `f` on the elements of a list, in order. -/
def forEach (f : γ → Prog σ ε Unit) : List γ → Prog σ ε Unit
  | [] => pure ()
  | c :: l => do f c; forEach f l

/-- Run `f` on the elements of a list, in order, and put the results together. -/
def gather (f : γ → Prog σ ε (List δ)) : List γ → Prog σ ε (List δ)
  | [] => pure []
  | c :: l => do
    let a ← f c
    let rest ← gather f l
    pure (a ++ rest)

/-- Run a program on a part of the state, which `get` reads and `set` writes. -/
def focus (get : τ → σ) (set : τ → σ → τ) (p : Prog σ ε α) : Prog τ ε α := fun t =>
  ((p (get t)).1, set t (p (get t)).2)

/-- The outcome of `p` in the state `s`, and the state it leaves. -/
def run (p : Prog σ ε α) (s : σ) : Except ε α × σ := p s

/-- The state after a transaction: that of a program which returned, or the old one. -/
def settle (p : Prog σ ε α) (s : σ) : σ :=
  match p s with
  | (.ok _, s') => s'
  | (.error _, _) => s

/-- The program returns. -/
def succeeds (p : Prog σ ε α) (s : σ) : Bool :=
  match (p s).1 with
  | .ok _ => true
  | .error _ => false

/-! ### Outcomes -/

/-- `p` returns `a` from `s`, leaving `s'`. -/
def Returns (p : Prog σ ε α) (s : σ) (a : α) (s' : σ) : Prop := p s = (.ok a, s')

/-- `p` raises `e` from `s`, leaving `s'`. -/
def Raises (p : Prog σ ε α) (s : σ) (e : ε) (s' : σ) : Prop := p s = (.error e, s')

instance [DecidableEq α] [DecidableEq ε] [DecidableEq σ] (p : Prog σ ε α) (s : σ) (a : α) (s' : σ) :
    Decidable (p.Returns s a s') := by
  unfold Returns; infer_instance

theorem returns_of_fst {p : Prog σ ε α} {s : σ} {a : α} (h : (p s).1 = .ok a) :
    p.Returns s a (p s).2 := Prod.ext h rfl

theorem returns_unique {p : Prog σ ε α} {s s' t : σ} {a b : α} (h : p.Returns s a s')
    (h' : p.Returns s b t) : b = a ∧ t = s' := by
  obtain ⟨hval, hst⟩ := Prod.mk.inj (h'.symm.trans h)
  exact ⟨Except.ok.inj hval, hst⟩

theorem returns_or_raises (p : Prog σ ε α) (s : σ) :
    (∃ a s', p.Returns s a s') ∨ ∃ e s', p.Raises s e s' := by
  unfold Returns Raises
  rcases p s with ⟨a | e, s'⟩
  · exact Or.inr ⟨a, s', rfl⟩
  · exact Or.inl ⟨e, s', rfl⟩

@[simp] theorem returns_pure {a b : α} {s s' : σ} :
    (pure a : Prog σ ε α).Returns s b s' ↔ b = a ∧ s' = s := by
  simp [Returns, pure, eq_comm]

@[simp] theorem returns_raise {e : ε} {b : α} {s s' : σ} :
    (raise e : Prog σ ε α).Returns s b s' ↔ False := by
  simp [Returns, raise]

@[simp] theorem returns_gets {f : σ → α} {b : α} {s s' : σ} :
    (gets f : Prog σ ε α).Returns s b s' ↔ b = f s ∧ s' = s := by
  simp [Returns, gets, eq_comm]

@[simp] theorem returns_modify {f : σ → σ} {b : Unit} {s s' : σ} :
    (modify f : Prog σ ε Unit).Returns s b s' ↔ s' = f s := by
  simp [Returns, modify, eq_comm]

@[simp] theorem returns_require {c : Prop} [Decidable c] {e : ε} {b : Unit} {s s' : σ} :
    (require c e : Prog σ ε Unit).Returns s b s' ↔ c ∧ s' = s := by
  unfold require
  split_ifs with h <;> simp [h]

@[simp] theorem returns_ofExcept {x : Except ε α} {b : α} {s s' : σ} :
    (ofExcept x : Prog σ ε α).Returns s b s' ↔ x = .ok b ∧ s' = s := by
  simp [Returns, ofExcept, eq_comm]

@[simp] theorem returns_bind {p : Prog σ ε α} {f : α → Prog σ ε β} {s s' : σ} {b : β} :
    (p >>= f).Returns s b s' ↔ ∃ a t, p.Returns s a t ∧ (f a).Returns t b s' := by
  simp only [Returns, bind]
  rcases p s with ⟨e | a, t⟩
  · simp
  · simp

/-- In the state `s` the program passes exactly if `c`, and changes nothing. -/
def Tests (p : Prog σ ε Unit) (s : σ) (c : Prop) : Prop := ∀ u t, p.Returns s u t ↔ c ∧ t = s

theorem tests_require {c : Prop} [Decidable c] {e : ε} {s : σ} :
    (require c e : Prog σ ε Unit).Tests s c := fun _ _ => returns_require

theorem Tests.returns_bind {p : Prog σ ε Unit} {f : Unit → Prog σ ε β} {s s' : σ} {b : β}
    {c : Prop} (h : p.Tests s c) : (p >>= f).Returns s b s' ↔ c ∧ (f ()).Returns s b s' := by
  rw [Prog.returns_bind]
  constructor
  · rintro ⟨u, t, hp, hf⟩
    obtain ⟨hc, rfl⟩ := (h u t).mp hp
    exact ⟨hc, hf⟩
  · rintro ⟨hc, hf⟩
    exact ⟨(), s, (h () s).mpr ⟨hc, rfl⟩, hf⟩

theorem Tests.bind {p : Prog σ ε Unit} {f : Unit → Prog σ ε Unit} {s : σ} {c c' : Prop}
    (h : p.Tests s c) (h' : (f ()).Tests s c') : (p >>= f).Tests s (c ∧ c') := by
  intro u t
  rw [h.returns_bind, h' u t, and_assoc]

theorem returns_bind_pure {p : Prog σ ε α} {g : α → β} {s s' : σ} {b : β} :
    (p >>= fun a => (pure (g a) : Prog σ ε β)).Returns s b s' ↔ ∃ a, p.Returns s a s' ∧ b = g a := by
  simp only [returns_bind, returns_pure]
  constructor
  · rintro ⟨a, t, h, rfl, rfl⟩
    exact ⟨a, h, rfl⟩
  · rintro ⟨a, h, rfl⟩
    exact ⟨a, s', h, rfl, rfl⟩

@[simp] theorem returns_ite {c : Prop} [Decidable c] {p q : Prog σ ε α} {s s' : σ} {b : α} :
    (if c then p else q).Returns s b s' ↔ if c then p.Returns s b s' else q.Returns s b s' := by
  split_ifs <;> rfl

theorem returns_handle {p : Prog σ ε α} {h : ε → Prog σ ε α} {s s' : σ} {b : α} :
    (p.handle h).Returns s b s' ↔
      p.Returns s b s' ∨ ∃ e t, p.Raises s e t ∧ (h e).Returns t b s' := by
  simp only [Returns, Raises, handle]
  rcases p s with ⟨e | a, t⟩
  · simp
  · simp

theorem settle_of_returns {p : Prog σ ε α} {s s' : σ} {a : α} (h : p.Returns s a s') :
    p.settle s = s' := by
  unfold settle; rw [h]

theorem settle_of_raises {p : Prog σ ε α} {s s' : σ} {e : ε} (h : p.Raises s e s') :
    p.settle s = s := by
  unfold settle; rw [h]

theorem succeeds_of_returns {p : Prog σ ε α} {s s' : σ} {a : α} (h : p.Returns s a s') :
    p.succeeds s = true := by
  unfold succeeds; rw [h]

theorem succeeds_iff {p : Prog σ ε α} {s : σ} :
    p.succeeds s = true ↔ ∃ a s', p.Returns s a s' := by
  unfold succeeds Returns
  rcases p s with ⟨e | a, s'⟩
  · simp
  · simp

theorem bind_assoc (p : Prog σ ε α) (f : α → Prog σ ε β) (g : β → Prog σ ε γ) :
    p >>= f >>= g = p >>= fun a => f a >>= g := by
  funext s
  simp only [bind]
  rcases p s with ⟨e | a, t⟩
  · rfl
  · rfl

theorem pure_bind (a : α) (f : α → Prog σ ε β) : (pure a >>= f) = f a := rfl

theorem bind_pure (p : Prog σ ε α) : (p >>= fun a => pure a) = p := by
  funext s
  simp only [bind, pure]
  rcases p s with ⟨e | a, t⟩ <;> rfl

theorem ite_bind {c : Prop} [Decidable c] (p q : Prog σ ε α) (f : α → Prog σ ε β) :
    (if c then p else q) >>= f = if c then p >>= f else q >>= f := by
  split_ifs <;> rfl

theorem bind_of_returns {p : Prog σ ε α} {f : α → Prog σ ε β} {s t : σ} {a : α}
    (h : p.Returns s a t) : (p >>= f) s = f a t := by
  unfold Returns at h
  simp only [bind, h]

theorem bind_of_raises {p : Prog σ ε α} {f : α → Prog σ ε β} {s t : σ} {e : ε}
    (h : p.Raises s e t) : (p >>= f) s = (.error e, t) := by
  unfold Raises at h
  simp only [bind, h]

theorem succeeds_bind {p : Prog σ ε α} {f : α → Prog σ ε β} {s t : σ} {a : α}
    (h : p.Returns s a t) : (p >>= f).succeeds s = (f a).succeeds t := by
  unfold Returns at h
  simp only [succeeds, bind, h]

theorem succeeds_bind_pure {p : Prog σ ε α} {g : α → β} {s : σ} :
    (p >>= fun a => (pure (g a) : Prog σ ε β)).succeeds s = p.succeeds s := by
  simp only [succeeds, bind]
  rcases p s with ⟨e | a, t⟩
  · rfl
  · rfl

theorem succeeds_require {c : Prop} [Decidable c] {e : ε} {f : Unit → Prog σ ε β} {s : σ} (h : c) :
    (require c e >>= f).succeeds s = (f ()).succeeds s :=
  succeeds_bind (returns_require.mpr ⟨h, rfl⟩)

theorem settle_cases (p : Prog σ ε α) (s : σ) :
    (∃ a, p.Returns s a (p.settle s)) ∨ (p.settle s = s ∧ ∀ a s', ¬ p.Returns s a s') := by
  rcases p.returns_or_raises s with ⟨a, s', h⟩ | ⟨e, s', h⟩
  · exact Or.inl ⟨a, by rw [settle_of_returns h]; exact h⟩
  · refine Or.inr ⟨settle_of_raises h, fun a t ht => ?_⟩
    unfold Returns at ht
    unfold Raises at h
    rw [h] at ht
    simp at ht

/-- What holds before and after a program that returns holds after its transaction. -/
theorem settle_inv {I : σ → Prop} {p : Prog σ ε α} {s : σ} (hs : I s)
    (h : ∀ a s', p.Returns s a s' → I s') : I (p.settle s) := by
  rcases p.settle_cases s with ⟨a, hret⟩ | ⟨hsame, -⟩
  · exact h a _ hret
  · rw [hsame]
    exact hs

/-- What holds before a transaction holds after it under a condition, if the condition decides about
every way to return and holds of a program that does not. -/
theorem settle_iff {I : σ → Prop} {c : Prop} {p : Prog σ ε α} {s : σ} (hs : I s)
    (hret : ∀ a s', p.Returns s a s' → (I s' ↔ c)) (hfail : ¬ p.succeeds s = true → c) :
    I (p.settle s) ↔ c := by
  rcases p.settle_cases s with ⟨a, h⟩ | ⟨hsame, hno⟩
  · exact hret a _ h
  · rw [hsame]
    refine iff_of_true hs (hfail fun hsucc => ?_)
    obtain ⟨a, s', h⟩ := succeeds_iff.mp hsucc
    exact hno a s' h

/-! ### Programs whose failure leaves no trace -/

/-- If `p` raises it has changed nothing. -/
def Atomic (p : Prog σ ε α) : Prop := ∀ s e s', p.Raises s e s' → s' = s

theorem raises_bind {p : Prog σ ε α} {f : α → Prog σ ε β} {s s' : σ} {e : ε} :
    (p >>= f).Raises s e s' ↔ p.Raises s e s' ∨ ∃ a t, p.Returns s a t ∧ (f a).Raises t e s' := by
  simp only [Returns, Raises, bind]
  rcases p s with ⟨e' | a, t⟩
  · simp
  · simp

/-- What is raised after a part that returned is raised by the rest. -/
theorem raises_bind_of_returns {p : Prog σ ε α} {f : α → Prog σ ε β} {s t s' : σ} {a : α} {e : ε}
    (h : p.Returns s a t) : (p >>= f).Raises s e s' ↔ (f a).Raises t e s' := by
  unfold Returns at h
  simp only [Raises, bind, h]

theorem raises_bind_of_raises {p : Prog σ ε α} {f : α → Prog σ ε β} {s t s' : σ} {e e' : ε}
    (h : p.Raises s e t) : (p >>= f).Raises s e' s' ↔ e' = e ∧ s' = t := by
  unfold Raises at h
  simp [Raises, bind, h, eq_comm]

theorem raises_require {c : Prop} [Decidable c] {e e' : ε} {s s' : σ} :
    (require c e : Prog σ ε Unit).Raises s e' s' ↔ ¬ c ∧ e' = e ∧ s' = s := by
  unfold require
  split_ifs with h <;> simp [h, Raises, raise, pure, eq_comm]

theorem raises_bind_of_pass {c : Prop} [Decidable c] {f : Unit → Prog σ ε α} {s s' : σ} {e e' : ε}
    (h : c) : (require c e >>= f).Raises s e' s' ↔ (f ()).Raises s e' s' :=
  raises_bind_of_returns (returns_require.mpr ⟨h, rfl⟩)

theorem raises_handle {p : Prog σ ε α} {h : ε → Prog σ ε α} {s s' : σ} {e : ε} :
    (p.handle h).Raises s e s' ↔ ∃ e' t, p.Raises s e' t ∧ (h e').Raises t e s' := by
  simp only [Raises, handle]
  rcases p s with ⟨e' | a, t⟩
  · simp
  · simp

theorem returns_focus {get : τ → σ} {set : τ → σ → τ} {p : Prog σ ε α} {t t' : τ} {a : α} :
    (focus get set p).Returns t a t' ↔ ∃ s', p.Returns (get t) a s' ∧ t' = set t s' := by
  simp only [Returns, focus, Prod.mk.injEq]
  constructor
  · rintro ⟨h, rfl⟩
    exact ⟨(p (get t)).2, Prod.ext h rfl, rfl⟩
  · rintro ⟨s', h, rfl⟩
    simp [h]

theorem Tests.focus {get : τ → σ} {set : τ → σ → τ} {p : Prog σ ε Unit} {t : τ} {c : Prop}
    (h : p.Tests (get t) c) (hset : set t (get t) = t) : (Prog.focus get set p).Tests t c := by
  intro u t'
  rw [returns_focus]
  constructor
  · rintro ⟨s', hp, rfl⟩
    obtain ⟨hc, rfl⟩ := (h u s').mp hp
    exact ⟨hc, hset⟩
  · rintro ⟨hc, rfl⟩
    exact ⟨_, (h u _).mpr ⟨hc, rfl⟩, hset.symm⟩

theorem raises_focus {get : τ → σ} {set : τ → σ → τ} {p : Prog σ ε α} {t t' : τ} {e : ε} :
    (focus get set p).Raises t e t' ↔ ∃ s', p.Raises (get t) e s' ∧ t' = set t s' := by
  simp only [Raises, focus, Prod.mk.injEq]
  constructor
  · rintro ⟨h, rfl⟩
    exact ⟨(p (get t)).2, Prod.ext h rfl, rfl⟩
  · rintro ⟨s', h, rfl⟩
    simp [h]

theorem not_raises_of_returns {p : Prog σ ε α} {s t s' : σ} {a : α} {e : ε}
    (h : p.Returns s a t) : ¬ p.Raises s e s' := by
  unfold Returns at h
  unfold Raises
  rw [h]
  simp

theorem not_raises_pure {a : α} {s s' : σ} {e : ε} : ¬ (pure a : Prog σ ε α).Raises s e s' := by
  simp [Raises, pure]

theorem atomic_pure (a : α) : Atomic (pure a : Prog σ ε α) :=
  fun _ _ _ h => absurd h not_raises_pure

theorem atomic_raise (e : ε) : Atomic (raise e : Prog σ ε α) := by
  intro s e' s' h
  unfold Raises raise at h
  exact (Prod.mk.inj h).2.symm

theorem atomic_gets (f : σ → α) : Atomic (gets f : Prog σ ε α) := by
  intro s e s' h
  simp [Raises, gets] at h

theorem atomic_modify (f : σ → σ) : Atomic (modify f : Prog σ ε Unit) := by
  intro s e s' h
  simp [Raises, modify] at h

theorem atomic_require (c : Prop) [Decidable c] (e : ε) :
    Atomic (require c e : Prog σ ε Unit) := by
  unfold require
  split_ifs
  · exact atomic_pure ()
  · exact atomic_raise e

theorem atomic_bind {p : Prog σ ε α} {f : α → Prog σ ε β} (hp : Atomic p)
    (hread : ∀ s a t, p.Returns s a t → t = s) (hf : ∀ a, Atomic (f a)) : Atomic (p >>= f) := by
  intro s e s' h
  rcases raises_bind.mp h with h | ⟨a, t, hret, h⟩
  · exact hp s e s' h
  · rw [hf a t e s' h, hread s a t hret]

theorem atomic_bind_pure {p : Prog σ ε α} {f : α → β} (hp : Atomic p) :
    Atomic (p >>= fun a => (pure (f a) : Prog σ ε β)) := by
  intro s e s' h
  rcases raises_bind.mp h with h | ⟨a, t, -, h⟩
  · exact hp s e s' h
  · exact absurd h not_raises_pure

/-! ### Frames -/

/-- `p` leaves what `f` reads off the state unchanged, however it ends. -/
def Frames (f : σ → β) (p : Prog σ ε α) : Prop := ∀ s, f (p s).2 = f s

section Frames

variable {f : σ → δ}

theorem frames_pure (a : α) : Frames f (pure a : Prog σ ε α) := fun _ => rfl

theorem frames_raise (e : ε) : Frames f (raise e : Prog σ ε α) := fun _ => rfl

theorem frames_gets (g : σ → α) : Frames f (gets g : Prog σ ε α) := fun _ => rfl

theorem frames_require (c : Prop) [Decidable c] (e : ε) :
    Frames f (require c e : Prog σ ε Unit) := by
  unfold require
  split_ifs
  · exact frames_pure ()
  · exact frames_raise e

theorem frames_bind {p : Prog σ ε α} {g : α → Prog σ ε β} (hp : Frames f p)
    (hg : ∀ a, Frames f (g a)) : Frames f (p >>= g) := by
  intro s
  have h := hp s
  simp only [bind]
  rcases hps : p s with ⟨e | a, t⟩
  · rw [hps] at h; exact h
  · rw [hps] at h
    show f (g a t).2 = f s
    rw [hg a t]; exact h

/-- A rest that leaves a part of the state alone does not matter to it. -/
theorem snd_bind_of_frames {p : Prog σ ε α} {g : α → Prog σ ε β} (hg : ∀ a, Frames f (g a))
    (s : σ) : f ((p >>= g) s).2 = f (p s).2 := by
  simp only [bind]
  rcases p s with ⟨e | a, t⟩
  · rfl
  · exact hg a t

theorem snd_handle_of_frames {p : Prog σ ε α} {h : ε → Prog σ ε α} (hh : ∀ e, Frames f (h e))
    (s : σ) : f ((p.handle h) s).2 = f (p s).2 := by
  simp only [handle]
  rcases p s with ⟨e | a, t⟩
  · exact hh e t
  · rfl

theorem frames_ite {c : Prop} [Decidable c] {p q : Prog σ ε α} (hp : Frames f p)
    (hq : Frames f q) : Frames f (if c then p else q) := by
  split_ifs
  · exact hp
  · exact hq

theorem frames_ofExcept (x : Except ε α) : Frames f (ofExcept x : Prog σ ε α) := fun _ => rfl

theorem frames_modify {g : σ → σ} (hg : ∀ s, f (g s) = f s) :
    Frames f (modify g : Prog σ ε Unit) := hg

theorem frames_of_id {p : Prog σ ε α} (hp : Frames id p) : Frames f p :=
  fun s => congrArg f (hp s)

/-- What is read off the part of the state that a focused program runs on. -/
theorem frames_focus {get : τ → σ} {set : τ → σ → τ} {p : Prog σ ε α} (hp : Frames f p)
    (hget : ∀ t s, get (set t s) = s) : Frames (fun t => f (get t)) (focus get set p) := by
  intro t
  have h := hp (get t)
  simp only [focus, hget]
  exact h

theorem frames_focus_rest {get : τ → σ} {set : τ → σ → τ} {p : Prog σ ε α} {g : τ → δ}
    (hset : ∀ t s, g (set t s) = g t) : Frames g (focus get set p) :=
  fun t => hset t _

theorem Frames.returns {p : Prog σ ε α} (h : Frames f p) {s s' : σ} {a : α}
    (hr : p.Returns s a s') : f s' = f s := by
  have := h s
  unfold Returns at hr
  rw [hr] at this
  exact this

theorem Frames.raises {p : Prog σ ε α} (h : Frames f p) {s s' : σ} {e : ε}
    (hr : p.Raises s e s') : f s' = f s := by
  have := h s
  unfold Raises at hr
  rw [hr] at this
  exact this

end Frames

theorem atomic_of_frames {p : Prog σ ε α} (h : Frames id p) : Atomic p := fun _ _ _ hr => h.raises hr

/-! ### Invariants -/

/-- `p` preserves `I`, however it ends. -/
def Preserves (I : σ → Prop) (p : Prog σ ε α) : Prop := ∀ s, I s → I (p s).2

section Preserves

variable {I : σ → Prop}

theorem preserves_pure (a : α) : Preserves I (pure a : Prog σ ε α) := fun _ h => h

theorem preserves_raise (e : ε) : Preserves I (raise e : Prog σ ε α) := fun _ h => h

theorem preserves_gets (f : σ → α) : Preserves I (gets f : Prog σ ε α) := fun _ h => h

theorem preserves_ofExcept (x : Except ε α) : Preserves I (ofExcept x : Prog σ ε α) :=
  fun _ h => h

theorem preserves_modify {f : σ → σ} (hf : ∀ s, I s → I (f s)) :
    Preserves I (modify f : Prog σ ε Unit) := hf

theorem preserves_require (c : Prop) [Decidable c] (e : ε) :
    Preserves I (require c e : Prog σ ε Unit) := by
  unfold require
  split_ifs
  · exact preserves_pure ()
  · exact preserves_raise e

theorem preserves_of_frames {p : Prog σ ε α} (h : Frames id p) : Preserves I p := by
  intro s hs
  have heq : (p s).2 = s := h s
  rw [heq]
  exact hs

theorem preserves_bind {p : Prog σ ε α} {g : α → Prog σ ε β} (hp : Preserves I p)
    (hg : ∀ a, Preserves I (g a)) : Preserves I (p >>= g) := by
  intro s hs
  have h := hp s hs
  simp only [bind]
  rcases hps : p s with ⟨e | a, t⟩
  · rw [hps] at h
    exact h
  · rw [hps] at h
    exact hg a t h

theorem preserves_handle {p : Prog σ ε α} {h : ε → Prog σ ε α} (hp : Preserves I p)
    (hh : ∀ e, Preserves I (h e)) : Preserves I (p.handle h) := by
  intro s hs
  have hinv := hp s hs
  simp only [handle]
  rcases hps : p s with ⟨e | a, t⟩
  · rw [hps] at hinv
    exact hh e t hinv
  · rw [hps] at hinv
    exact hinv

theorem preserves_ite {c : Prop} [Decidable c] {p q : Prog σ ε α} (hp : Preserves I p)
    (hq : Preserves I q) : Preserves I (if c then p else q) := by
  split_ifs
  · exact hp
  · exact hq

end Preserves

/-! ### What is raised -/

/-- All that `p` raises satisfies `P`. -/
def RaisesOnly (P : ε → Prop) (p : Prog σ ε α) : Prop := ∀ s e s', p.Raises s e s' → P e

section RaisesOnly

variable {P : ε → Prop}

theorem raisesOnly_pure (a : α) : RaisesOnly P (pure a : Prog σ ε α) :=
  fun _ _ _ h => absurd h not_raises_pure

theorem raisesOnly_gets (f : σ → α) : RaisesOnly P (gets f : Prog σ ε α) := by
  intro s e s' h
  simp [Raises, gets] at h

theorem raisesOnly_modify (f : σ → σ) : RaisesOnly P (modify f : Prog σ ε Unit) := by
  intro s e s' h
  simp [Raises, modify] at h

theorem raisesOnly_raise {e : ε} (he : P e) : RaisesOnly P (raise e : Prog σ ε α) := by
  intro s e' s' h
  unfold Raises raise at h
  obtain rfl := Except.error.inj (Prod.mk.inj h).1
  exact he

theorem raisesOnly_require (c : Prop) [Decidable c] {e : ε} (he : P e) :
    RaisesOnly P (require c e : Prog σ ε Unit) := by
  unfold require
  split_ifs
  · exact raisesOnly_pure ()
  · exact raisesOnly_raise he

theorem raisesOnly_ofExcept {x : Except ε α} (hx : ∀ e, x = .error e → P e) :
    RaisesOnly P (ofExcept x : Prog σ ε α) := fun _ e _ h => hx e (Prod.mk.inj h).1

theorem raisesOnly_bind {p : Prog σ ε α} {g : α → Prog σ ε β} (hp : RaisesOnly P p)
    (hg : ∀ a, RaisesOnly P (g a)) : RaisesOnly P (p >>= g) := by
  intro s e s' h
  rcases raises_bind.mp h with h | ⟨a, t, -, h⟩
  · exact hp s e s' h
  · exact hg a t e s' h

theorem raisesOnly_ite {c : Prop} [Decidable c] {p q : Prog σ ε α} (hp : RaisesOnly P p)
    (hq : RaisesOnly P q) : RaisesOnly P (if c then p else q) := by
  split_ifs
  · exact hp
  · exact hq

theorem raisesOnly_handle {p : Prog σ ε α} {h : ε → Prog σ ε α} (hh : ∀ e, RaisesOnly P (h e)) :
    RaisesOnly P (p.handle h) := by
  intro s e s' hraises
  obtain ⟨e', t, -, hraises⟩ := raises_handle.mp hraises
  exact hh e' t e s' hraises

end RaisesOnly

/-! ### Loops -/

/-- **The loop rule**: what one round that returns preserves, the loop preserves. -/
theorem forEach_inv {g : γ → Prog σ ε Unit} {I : σ → Prop}
    (hg : ∀ c s s', I s → (g c).Returns s () s' → I s') (l : List γ) {s s' : σ} (hs : I s)
    (h : (forEach g l).Returns s () s') : I s' := by
  induction l generalizing s with
  | nil =>
    simp only [forEach, returns_pure] at h
    rw [h.2]; exact hs
  | cons c l ih =>
    simp only [forEach, returns_bind] at h
    obtain ⟨_, t, h1, h2⟩ := h
    exact ih (hg c s t hs h1) h2

theorem frames_forEach {g : γ → Prog σ ε Unit} {f : σ → δ} (hg : ∀ c, Frames f (g c)) (l : List γ) :
    Frames f (forEach g l) := by
  induction l with
  | nil => exact frames_pure ()
  | cons c l ih => exact frames_bind (hg c) fun _ => ih

theorem returns_forEach_append {g : γ → Prog σ ε Unit} {l l' : List γ} {s s' : σ} :
    (forEach g (l ++ l')).Returns s () s' ↔
      ∃ t, (forEach g l).Returns s () t ∧ (forEach g l').Returns t () s' := by
  induction l generalizing s with
  | nil => simp [forEach]
  | cons c l ih =>
    simp only [List.cons_append, forEach, returns_bind, ih]
    constructor
    · rintro ⟨_, t, h1, t', h2, h3⟩
      exact ⟨t', ⟨(), t, h1, h2⟩, h3⟩
    · rintro ⟨t', ⟨_, t, h1, h2⟩, h3⟩
      exact ⟨(), t, h1, t', h2, h3⟩

/-- **Reading element by element**: if `f` reads `g c` off the state wherever `ok c` holds, the loop
returns all of it, and leaves the state. -/
theorem returns_gather {f : γ → Prog σ ε (List δ)} {ok : γ → Prop} {g : γ → List δ} {s : σ}
    (hf : ∀ c a s', (f c).Returns s a s' ↔ ok c ∧ a = g c ∧ s' = s) {l : List γ} {a : List δ}
    {s' : σ} : (gather f l).Returns s a s' ↔ (∀ c ∈ l, ok c) ∧ a = l.flatMap g ∧ s' = s := by
  induction l generalizing a s' with
  | nil => simp [gather]
  | cons c l ih =>
    simp only [gather, returns_bind, hf, List.forall_mem_cons, List.flatMap_cons]
    constructor
    · rintro ⟨_, _, ⟨hc, rfl, rfl⟩, _, _, hrest, hpure⟩
      obtain ⟨hl, rfl, rfl⟩ := ih.mp hrest
      obtain ⟨rfl, rfl⟩ := returns_pure.mp hpure
      exact ⟨⟨hc, hl⟩, rfl, rfl⟩
    · rintro ⟨⟨hc, hl⟩, rfl, rfl⟩
      exact ⟨g c, s', ⟨hc, rfl, rfl⟩, l.flatMap g, s', ih.mpr ⟨hl, rfl, rfl⟩,
        returns_pure.mpr ⟨rfl, rfl⟩⟩

theorem ok_bind {a : α} {k : α → Except ε β} : (.ok a >>= k : Except ε β) = k a := rfl

theorem ofExcept_ok_bind {a : α} {f : α → Prog σ ε β} :
    (ofExcept (.ok a) >>= f : Prog σ ε β) = f a := rfl

theorem pure_eq_ok {a b : α} : (pure a : Except ε α) = .ok b ↔ b = a := by
  constructor
  · exact fun h => (Except.ok.inj h).symm
  · rintro rfl
    rfl

theorem bind_eq_ok {x : Except ε α} {k : α → Except ε β} {b : β} :
    (x >>= k) = .ok b ↔ ∃ a, x = .ok a ∧ k a = .ok b := by
  rcases x with e | a
  · simp [bind, Except.bind]
  · simp [bind, Except.bind]

/-- What `f` reads off the elements of a list, in order, if it can read all of them. -/
def collect (f : γ → Except ε (List δ)) : List γ → Except ε (List δ)
  | [] => .ok []
  | c :: l => do
    let a ← f c
    let rest ← collect f l
    return a ++ rest

/-- If it is known which elements `f` can read, and what it reads off them, so it is of a list. -/
theorem collect_eq_ok {f : γ → Except ε (List δ)} {Ok : γ → Prop} {g : γ → List δ}
    (h : ∀ c a, f c = .ok a ↔ Ok c ∧ a = g c) {l : List γ} {a : List δ} :
    collect f l = .ok a ↔ (∀ c ∈ l, Ok c) ∧ a = l.flatMap g := by
  induction l generalizing a with
  | nil =>
    simp only [collect, List.not_mem_nil, false_implies, implies_true, true_and, List.flatMap_nil]
    exact ⟨fun h => (Except.ok.inj h).symm, fun h => by rw [h]⟩
  | cons c l ih =>
    simp only [collect, bind_eq_ok, h, ih, List.forall_mem_cons, List.flatMap_cons]
    constructor
    · rintro ⟨_, ⟨hc, rfl⟩, _, ⟨hl, rfl⟩, h⟩
      exact ⟨⟨hc, hl⟩, (Except.ok.inj h).symm⟩
    · rintro ⟨⟨hc, hl⟩, rfl⟩
      exact ⟨_, ⟨hc, rfl⟩, _, ⟨hl, rfl⟩, rfl⟩

/-- What is read off a list all of whose elements can be read. -/
theorem collect_of_forall {f : γ → Except ε (List δ)} {g : γ → List δ} {l : List γ}
    (h : ∀ c ∈ l, f c = .ok (g c)) : collect f l = .ok (l.flatMap g) := by
  induction l with
  | nil => rfl
  | cons c l ih =>
    obtain ⟨hc, hl⟩ := List.forall_mem_cons.mp h
    refine bind_eq_ok.mpr ⟨g c, hc, bind_eq_ok.mpr ⟨l.flatMap g, ih hl, ?_⟩⟩
    rw [List.flatMap_cons]
    rfl

/-- **Reading while writing is reading first.** If a round writes what it reads off an element, the
loop writes what is read off all of them. -/
theorem returns_forEach_collect {f : γ → Except ε (List δ)} {g : δ → Prog σ ε Unit}
    {p : γ → Prog σ ε Unit}
    (hp : ∀ c s s', (p c).Returns s () s' ↔ ∃ a, f c = .ok a ∧ (forEach g a).Returns s () s')
    {l : List γ} {s s' : σ} : (forEach p l).Returns s () s' ↔
      ∃ a, collect f l = .ok a ∧ (forEach g a).Returns s () s' := by
  induction l generalizing s with
  | nil => simp [forEach, collect]
  | cons c l ih =>
    simp only [forEach, returns_bind, hp, ih, collect]
    constructor
    · rintro ⟨_, t, ⟨a, ha, h1⟩, b, hb, h2⟩
      refine ⟨a ++ b, ?_, returns_forEach_append.mpr ⟨t, h1, h2⟩⟩
      exact bind_eq_ok.mpr ⟨a, ha, bind_eq_ok.mpr ⟨b, hb, rfl⟩⟩
    · rintro ⟨l', hl', h⟩
      obtain ⟨a, ha, hl'⟩ := bind_eq_ok.mp hl'
      obtain ⟨b, hb, hl'⟩ := bind_eq_ok.mp hl'
      obtain rfl := Except.ok.inj hl'
      obtain ⟨t, h1, h2⟩ := returns_forEach_append.mp h
      exact ⟨(), t, ⟨a, ha, h1⟩, b, hb, h2⟩

/-! ### What is raised by a reader -/

/-- All that `x` raises satisfies `P`. -/
def ErrorsOnly (P : ε → Prop) (x : Except ε α) : Prop := ∀ e, x = .error e → P e

section ErrorsOnly

variable {P : ε → Prop}

theorem errorsOnly_ok (a : α) : ErrorsOnly P (.ok a : Except ε α) := by
  intro e h
  cases h

theorem errorsOnly_error {e : ε} (he : P e) : ErrorsOnly P (.error e : Except ε α) := by
  intro e' h
  rw [← Except.error.inj h]
  exact he

theorem errorsOnly_ite {c : Prop} [Decidable c] {x y : Except ε α} (hx : ErrorsOnly P x)
    (hy : ErrorsOnly P y) : ErrorsOnly P (if c then x else y) := by
  split_ifs
  · exact hx
  · exact hy

theorem errorsOnly_bind {x : Except ε α} {k : α → Except ε β} (hx : ErrorsOnly P x)
    (hk : ∀ a, ErrorsOnly P (k a)) : ErrorsOnly P (x >>= k) := by
  intro e h
  rcases x with e' | a
  · exact hx e (congrArg Except.error (Except.error.inj h))
  · exact hk a e h

theorem errorsOnly_map {x : Except ε α} {g : α → β} (hx : ErrorsOnly P x) :
    ErrorsOnly P (x.map g) := by
  intro e h
  rcases x with e' | a
  · exact hx e (congrArg Except.error (Except.error.inj h))
  · cases h

/-- All that is raised on the way through a list is raised at an element. -/
theorem errorsOnly_collect {f : γ → Except ε (List δ)} (hf : ∀ c, ErrorsOnly P (f c)) (l : List γ) :
    ErrorsOnly P (collect f l) := by
  induction l with
  | nil => exact errorsOnly_ok []
  | cons c l ih =>
    exact errorsOnly_bind (hf c) fun a => errorsOnly_bind ih fun rest => errorsOnly_ok (a ++ rest)

end ErrorsOnly

end Prog

end MarketingSuite.Lib.Programs
