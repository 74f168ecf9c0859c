import MarketingSuite.Lib.Sessions

/-! # Two runs of a program

A program run from two states gives the same outcome twice: `Together` says this with what holds of
the two states it leaves, for each value that is returned and for an exception. There is one rule
for each way to build a program; what is returned can be relied on in the rest. -/

namespace MarketingSuite.Lib.Relations

open MarketingSuite.Lib.Programs MarketingSuite.Lib.Sessions

variable {σ τ ε α β : Type}

/-- From `s` and from `t`, the program returns the same value, leaving states that are in the
relation `S` for it, or raises the same exception, leaving states in the relation `E`. -/
def Together (p : Prog σ ε α) (s t : σ) (S : α → σ → σ → Prop) (E : σ → σ → Prop) : Prop :=
  (∃ a s' t', p.Returns s a s' ∧ p.Returns t a t' ∧ S a s' t') ∨
    ∃ e s' t', p.Raises s e s' ∧ p.Raises t e t' ∧ E s' t'

variable {p : Prog σ ε α} {f : α → Prog σ ε β} {s t : σ} {S S' : α → σ → σ → Prop}
  {T : β → σ → σ → Prop} {E E' : σ → σ → Prop}

/-- **The outcomes are equal**, and the states related, however the runs end. -/
theorem Together.outcome {R : σ → σ → Prop} (h : Together p s t (fun _ => R) R) :
    (p s).1 = (p t).1 ∧ R (p s).2 (p t).2 := by
  rcases h with ⟨a, s', t', hs, ht, hR⟩ | ⟨e, s', t', hs, ht, hR⟩
  · unfold Prog.Returns at hs ht
    rw [hs, ht]
    exact ⟨rfl, hR⟩
  · unfold Prog.Raises at hs ht
    rw [hs, ht]
    exact ⟨rfl, hR⟩

theorem together_of_returns {a : α} {s' t' : σ} (hs : p.Returns s a s') (ht : p.Returns t a t')
    (h : S a s' t') : Together p s t S E := Or.inl ⟨a, s', t', hs, ht, h⟩

theorem together_of_raises {e : ε} {s' t' : σ} (hs : p.Raises s e s') (ht : p.Raises t e t')
    (h : E s' t') : Together p s t S E := Or.inr ⟨e, s', t', hs, ht, h⟩

theorem Together.mono (h : Together p s t S E) (hS : ∀ a s' t', S a s' t' → S' a s' t')
    (hE : ∀ s' t', E s' t' → E' s' t') : Together p s t S' E' := by
  rcases h with ⟨a, s', t', hs, ht, hR⟩ | ⟨e, s', t', hs, ht, hR⟩
  · exact together_of_returns hs ht (hS a s' t' hR)
  · exact together_of_raises hs ht (hE s' t' hR)

theorem together_pure {a : α} (h : S a s t) : Together (pure a : Prog σ ε α) s t S E :=
  together_of_returns rfl rfl h

theorem together_raise {e : ε} (h : E s t) : Together (Prog.raise e : Prog σ ε α) s t S E :=
  together_of_raises rfl rfl h

theorem together_gets {g : σ → α} (hg : g s = g t) (h : S (g s) s t) :
    Together (Prog.gets g : Prog σ ε α) s t S E := by
  refine together_of_returns rfl ?_ h
  rw [hg]
  exact Prog.returns_gets.mpr ⟨rfl, rfl⟩

theorem together_modify {g : σ → σ} {S : Unit → σ → σ → Prop} (h : S () (g s) (g t)) :
    Together (Prog.modify g : Prog σ ε Unit) s t S E := together_of_returns rfl rfl h

theorem together_ofExcept {x : Except ε α} (hS : ∀ a, x = .ok a → S a s t) (hE : E s t) :
    Together (Prog.ofExcept x : Prog σ ε α) s t S E := by
  rcases x with e | a
  · exact together_of_raises rfl rfl hE
  · exact together_of_returns rfl rfl (hS a rfl)

theorem together_require {c : Prop} [Decidable c] {e : ε} {S : Unit → σ → σ → Prop}
    (hS : c → S () s t) (hE : E s t) :
    Together (Prog.require c e : Prog σ ε Unit) s t S E := by
  unfold Prog.require
  split_ifs with hc
  · exact together_pure (hS hc)
  · exact together_raise hE

/-- **The rule of sequences.** -/
theorem together_bind (hp : Together p s t S E)
    (hf : ∀ a s' t', S a s' t' → Together (f a) s' t' T E) : Together (p >>= f) s t T E := by
  rcases hp with ⟨a, s', t', hs, ht, hR⟩ | ⟨e, s', t', hs, ht, hR⟩
  · rcases hf a s' t' hR with ⟨b, s₂, t₂, hs', ht', hR'⟩ | ⟨e, s₂, t₂, hs', ht', hR'⟩
    · exact together_of_returns (Prog.returns_bind.mpr ⟨a, s', hs, hs'⟩)
        (Prog.returns_bind.mpr ⟨a, t', ht, ht'⟩) hR'
    · exact together_of_raises (Prog.raises_bind.mpr (Or.inr ⟨a, s', hs, hs'⟩))
        (Prog.raises_bind.mpr (Or.inr ⟨a, t', ht, ht'⟩)) hR'
  · exact together_of_raises (Prog.raises_bind.mpr (Or.inl hs))
      (Prog.raises_bind.mpr (Or.inl ht)) hR

theorem together_bind_pure {g : α → β}
    (h : Together p s t (fun a s' t' => T (g a) s' t') E) :
    Together (p >>= fun a => (pure (g a) : Prog σ ε β)) s t T E :=
  together_bind h fun _ _ _ hT => together_pure hT

theorem together_ite {c : Prop} [Decidable c] {q : Prog σ ε α} (hp : c → Together p s t S E)
    (hq : ¬ c → Together q s t S E) : Together (if c then p else q) s t S E := by
  split_ifs with hc
  · exact hp hc
  · exact hq hc

theorem together_handle {h : ε → Prog σ ε α} (hp : Together p s t S E')
    (hh : ∀ e s' t', E' s' t' → Together (h e) s' t' S E) : Together (p.handle h) s t S E := by
  rcases hp with ⟨a, s', t', hs, ht, hR⟩ | ⟨e, s', t', hs, ht, hR⟩
  · exact together_of_returns (Prog.returns_handle.mpr (Or.inl hs))
      (Prog.returns_handle.mpr (Or.inl ht)) hR
  · rcases hh e s' t' hR with ⟨a, s₂, t₂, hs', ht', hR'⟩ | ⟨e', s₂, t₂, hs', ht', hR'⟩
    · exact together_of_returns (Prog.returns_handle.mpr (Or.inr ⟨e, s', hs, hs'⟩))
        (Prog.returns_handle.mpr (Or.inr ⟨e, t', ht, ht'⟩)) hR'
    · exact together_of_raises (Prog.raises_handle.mpr ⟨e, s', hs, hs'⟩)
        (Prog.raises_handle.mpr ⟨e, t', ht, ht'⟩) hR'

theorem together_focus {get : τ → σ} {set : τ → σ → τ} {x y : τ} {S : α → τ → τ → Prop}
    {E : τ → τ → Prop} (h : Together p (get x) (get y) (fun a s' t' => S a (set x s') (set y t'))
      fun s' t' => E (set x s') (set y t')) :
    Together (Prog.focus get set p) x y S E := by
  rcases h with ⟨a, s', t', hs, ht, hR⟩ | ⟨e, s', t', hs, ht, hR⟩
  · exact together_of_returns (Prog.returns_focus.mpr ⟨s', hs, rfl⟩)
      (Prog.returns_focus.mpr ⟨t', ht, rfl⟩) hR
  · exact together_of_raises (Prog.raises_focus.mpr ⟨s', hs, rfl⟩)
      (Prog.raises_focus.mpr ⟨t', ht, rfl⟩) hR

/-! ### Reading -/

/-- Both runs only read: they return the same value, of which `P` holds, or raise the same
exception, and leave the states as they were. -/
def Looks (p : Prog σ ε α) (s t : σ) (P : α → Prop) : Prop :=
  Together p s t (fun a s' t' => s' = s ∧ t' = t ∧ P a) fun s' t' => s' = s ∧ t' = t

section Looks

variable {P : α → Prop} {Q : β → Prop}

theorem Looks.together (h : Looks p s t P) (hS : ∀ a, P a → S a s t) (hE : E s t) :
    Together p s t S E := by
  refine Together.mono h ?_ ?_
  · rintro a s' t' ⟨rfl, rfl, ha⟩
    exact hS a ha
  · rintro s' t' ⟨rfl, rfl⟩
    exact hE

theorem Looks.bind (h : Looks p s t P) (hf : ∀ a, P a → Together (f a) s t T E) (hE : E s t) :
    Together (p >>= f) s t T E := by
  refine together_bind (h.together (S := fun a s' t' => s' = s ∧ t' = t ∧ P a)
    (fun a ha => ⟨rfl, rfl, ha⟩) hE) ?_
  rintro a s' t' ⟨rfl, rfl, ha⟩
  exact hf a ha

theorem looks_pure {a : α} (h : P a) : Looks (pure a : Prog σ ε α) s t P :=
  together_pure ⟨rfl, rfl, h⟩

theorem looks_raise {e : ε} : Looks (Prog.raise e : Prog σ ε α) s t P := together_raise ⟨rfl, rfl⟩

theorem looks_gets {g : σ → α} (hg : g s = g t) (h : P (g s)) :
    Looks (Prog.gets g : Prog σ ε α) s t P := together_gets hg ⟨rfl, rfl, h⟩

theorem looks_require {c : Prop} [Decidable c] {e : ε} :
    Looks (Prog.require c e : Prog σ ε Unit) s t fun _ => c :=
  together_require (fun hc => ⟨rfl, rfl, hc⟩) ⟨rfl, rfl⟩

theorem looks_ofExcept {x : Except ε α} :
    Looks (Prog.ofExcept x : Prog σ ε α) s t fun a => x = .ok a :=
  together_ofExcept (fun _ ha => ⟨rfl, rfl, ha⟩) ⟨rfl, rfl⟩

theorem looks_bind (h : Looks p s t P) (hf : ∀ a, P a → Looks (f a) s t Q) :
    Looks (p >>= f) s t Q := h.bind hf ⟨rfl, rfl⟩

theorem Looks.mono {P' : α → Prop} (h : Looks p s t P) (hP : ∀ a, P a → P' a) :
    Looks p s t P' := h.together (fun a ha => ⟨rfl, rfl, hP a ha⟩) ⟨rfl, rfl⟩

end Looks

/-! ### Sessions -/

section Sessions

variable {x y : Session σ} {S : α → Session σ → Session σ → Prop}
  {E : Session σ → Session σ → Prop}

theorem raises_exec {e : ε} {s' : σ} (h : p.Raises x.view e s') :
    (Session.exec p).Raises x e ⟨x.committed, some s'⟩ := by
  unfold Prog.Raises at h
  simp [Prog.Raises, Session.exec, h]

theorem together_exec (h : Together p x.view y.view
      (fun a s' t' => S a ⟨x.committed, some s'⟩ ⟨y.committed, some t'⟩)
      fun s' t' => E ⟨x.committed, some s'⟩ ⟨y.committed, some t'⟩) :
    Together (Session.exec p) x y S E := by
  rcases h with ⟨a, s', t', hs, ht, hR⟩ | ⟨e, s', t', hs, ht, hR⟩
  · exact together_of_returns (Session.returns_exec.mpr ⟨s', hs, rfl⟩)
      (Session.returns_exec.mpr ⟨t', ht, rfl⟩) hR
  · exact together_of_raises (raises_exec hs) (raises_exec ht) hR

/-- **Read in a session, and go on.** -/
theorem Looks.exec_bind {P : α → Prop} {q : α → Prog (Session σ) ε β}
    {T : β → Session σ → Session σ → Prop} (h : Looks p x.view y.view P)
    (hq : ∀ a, P a →
      Together (q a) ⟨x.committed, some x.view⟩ ⟨y.committed, some y.view⟩ T E)
    (hE : E ⟨x.committed, some x.view⟩ ⟨y.committed, some y.view⟩) :
    Together (Session.exec p >>= q) x y T E := by
  rcases h with ⟨a, _, _, hs, ht, rfl, rfl, ha⟩ | ⟨e, _, _, hs, ht, rfl, rfl⟩
  · rcases hq a ha with ⟨b, x', y', hx, hy, hR⟩ | ⟨e, x', y', hx, hy, hR⟩
    · exact together_of_returns
        (Prog.returns_bind.mpr ⟨a, _, Session.returns_exec.mpr ⟨_, hs, rfl⟩, hx⟩)
        (Prog.returns_bind.mpr ⟨a, _, Session.returns_exec.mpr ⟨_, ht, rfl⟩, hy⟩) hR
    · exact together_of_raises
        (Prog.raises_bind.mpr (Or.inr ⟨a, _, Session.returns_exec.mpr ⟨_, hs, rfl⟩, hx⟩))
        (Prog.raises_bind.mpr (Or.inr ⟨a, _, Session.returns_exec.mpr ⟨_, ht, rfl⟩, hy⟩)) hR
  · exact together_of_raises (Prog.raises_bind.mpr (Or.inl (raises_exec hs)))
      (Prog.raises_bind.mpr (Or.inl (raises_exec ht))) hE

theorem together_outside (h : Together p x.committed y.committed
      (fun a s' t' => S a ⟨s', x.pending⟩ ⟨t', y.pending⟩)
      fun s' t' => E ⟨s', x.pending⟩ ⟨t', y.pending⟩) :
    Together (Session.outside p) x y S E := by
  rcases h with ⟨a, s', t', hs, ht, hR⟩ | ⟨e, s', t', hs, ht, hR⟩
  · unfold Prog.Returns at hs ht
    refine together_of_returns (a := a) ?_ ?_ hR
    · simp [Prog.Returns, Session.outside, hs]
    · simp [Prog.Returns, Session.outside, ht]
  · unfold Prog.Raises at hs ht
    refine together_of_raises (e := e) ?_ ?_ hR
    · simp [Prog.Raises, Session.outside, hs]
    · simp [Prog.Raises, Session.outside, ht]

theorem together_commit {S : Unit → Session σ → Session σ → Prop}
    (h : S () ⟨x.view, none⟩ ⟨y.view, none⟩) :
    Together (Session.commit : Prog (Session σ) ε Unit) x y S E :=
  together_of_returns rfl rfl h

theorem together_rollback {S : Unit → Session σ → Session σ → Prop}
    (h : S () ⟨x.committed, none⟩ ⟨y.committed, none⟩) :
    Together (Session.rollback : Prog (Session σ) ε Unit) x y S E :=
  together_of_returns rfl rfl h

theorem together_serve {q : Prog (Session σ) ε α} {S : α → σ → σ → Prop} {E : σ → σ → Prop}
    (h : Together q (Session.fresh s) (Session.fresh t)
      (fun a x y => S a x.committed y.committed) fun x y => E x.committed y.committed) :
    Together (Session.serve q) s t S E := by
  rcases h with ⟨a, x, y, hs, ht, hR⟩ | ⟨e, x, y, hs, ht, hR⟩
  · exact together_of_returns (Session.returns_serve.mpr ⟨x, hs, rfl⟩)
      (Session.returns_serve.mpr ⟨y, ht, rfl⟩) hR
  · exact together_of_raises (Session.raises_serve.mpr ⟨x, hs, rfl⟩)
      (Session.raises_serve.mpr ⟨y, ht, rfl⟩) hR

end Sessions

end MarketingSuite.Lib.Relations
