import MarketingSuite.Lib.Programs

/-! # Database sessions

A session sees the committed state under its own pending writes. `commit` publishes what it sees,
closing it without a commit drops what is pending, and `outside` runs a program in another session
while this one stays open. `serve` opens a session for a program and closes it whatever happens. -/

namespace MarketingSuite.Lib.Sessions

open MarketingSuite.Lib.Programs

/-- A session: the committed state, and what the session sees if it has pending writes. -/
structure Session (σ : Type) where
  committed : σ
  pending : Option σ

namespace Session

variable {σ ε α β : Type}

/-- A fresh session. -/
def fresh (c : σ) : Session σ := ⟨c, none⟩

/-- What the session sees. -/
def view (s : Session σ) : σ := s.pending.getD s.committed

/-- Run a program on what the session sees; its writes are pending. -/
def exec (p : Prog σ ε α) : Prog (Session σ) ε α := fun s =>
  ((p s.view).1, ⟨s.committed, some (p s.view).2⟩)

/-- Publish the pending writes. -/
def commit : Prog (Session σ) ε Unit := fun s => (.ok (), ⟨s.view, none⟩)

/-- Drop the pending writes. -/
def rollback : Prog (Session σ) ε Unit := fun s => (.ok (), ⟨s.committed, none⟩)

/-- Run a program of other sessions on the committed state. -/
def outside (p : Prog σ ε α) : Prog (Session σ) ε α := fun s =>
  ((p s.committed).1, ⟨(p s.committed).2, s.pending⟩)

/-- Open a session for `p` on the committed state, and close it. -/
def serve (p : Prog (Session σ) ε α) : Prog σ ε α := fun c =>
  ((p (fresh c)).1, (p (fresh c)).2.committed)

@[simp] theorem view_fresh (c : σ) : (fresh c).view = c := rfl

@[simp] theorem view_pending (c v : σ) : (⟨c, some v⟩ : Session σ).view = v := rfl

@[simp] theorem view_idle (c : σ) : (⟨c, none⟩ : Session σ).view = c := rfl

@[simp] theorem returns_exec {p : Prog σ ε α} {s s' : Session σ} {a : α} :
    (exec p).Returns s a s' ↔ ∃ v, p.Returns s.view a v ∧ s' = ⟨s.committed, some v⟩ := by
  simp only [Prog.Returns, exec, Prod.mk.injEq]
  constructor
  · rintro ⟨h1, rfl⟩
    exact ⟨(p s.view).2, Prod.ext h1 rfl, rfl⟩
  · rintro ⟨v, h, rfl⟩
    simp [h]

@[simp] theorem returns_commit {s s' : Session σ} {u : Unit} :
    (commit : Prog (Session σ) ε Unit).Returns s u s' ↔ s' = ⟨s.view, none⟩ := by
  simp [Prog.Returns, commit, eq_comm]

theorem returns_serve {p : Prog (Session σ) ε α} {c c' : σ} {a : α} :
    (serve p).Returns c a c' ↔ ∃ s', p.Returns (fresh c) a s' ∧ s'.committed = c' := by
  simp only [Prog.Returns, serve, Prod.mk.injEq]
  constructor
  · rintro ⟨h1, rfl⟩
    exact ⟨(p (fresh c)).2, Prod.ext h1 rfl, rfl⟩
  · rintro ⟨s', h, rfl⟩
    simp [h]

theorem raises_serve {p : Prog (Session σ) ε α} {c c' : σ} {e : ε} :
    (serve p).Raises c e c' ↔ ∃ s', p.Raises (fresh c) e s' ∧ s'.committed = c' := by
  simp only [Prog.Raises, serve, Prod.mk.injEq]
  constructor
  · rintro ⟨h1, rfl⟩
    exact ⟨(p (fresh c)).2, Prod.ext h1 rfl, rfl⟩
  · rintro ⟨s', h, rfl⟩
    simp [h]

/-! ### What a session leaves alone -/

section Keeps

variable {δ : Type} {f : σ → δ}

/-- `p` leaves what `f` reads unchanged, in the committed state and in the pending one. -/
def Keeps (f : σ → δ) (p : Prog (Session σ) ε α) : Prop :=
  ∀ s x, f s.view = x → f s.committed = x → f (p s).2.view = x ∧ f (p s).2.committed = x

theorem keeps_pure (a : α) : Keeps f (pure a : Prog (Session σ) ε α) := fun _ _ hv hc => ⟨hv, hc⟩

theorem keeps_raise (e : ε) : Keeps f (Prog.raise e : Prog (Session σ) ε α) :=
  fun _ _ hv hc => ⟨hv, hc⟩

theorem keeps_exec {p : Prog σ ε α} (h : p.Frames f) : Keeps f (exec p) :=
  fun s _ hv hc => ⟨(h s.view).trans hv, hc⟩

theorem keeps_commit : Keeps f (commit : Prog (Session σ) ε Unit) := fun _ _ hv _ => ⟨hv, hv⟩

theorem keeps_outside {p : Prog σ ε α} (h : p.Frames f) : Keeps f (outside p) := by
  rintro ⟨c, _ | v⟩ x hv hc
  · exact ⟨(h c).trans hc, (h c).trans hc⟩
  · exact ⟨hv, (h c).trans hc⟩

theorem keeps_bind {p : Prog (Session σ) ε α} {q : α → Prog (Session σ) ε β} (hp : Keeps f p)
    (hq : ∀ a, Keeps f (q a)) : Keeps f (p >>= q) := by
  intro s x hv hc
  obtain ⟨hv', hc'⟩ := hp s x hv hc
  simp only [bind]
  rcases hps : p s with ⟨e | a, t⟩
  · rw [hps] at hv' hc'; exact ⟨hv', hc'⟩
  · rw [hps] at hv' hc'; exact hq a t x hv' hc'

theorem keeps_handle {p : Prog (Session σ) ε α} {q : ε → Prog (Session σ) ε α} (hp : Keeps f p)
    (hq : ∀ e, Keeps f (q e)) : Keeps f (p.handle q) := by
  intro s x hv hc
  obtain ⟨hv', hc'⟩ := hp s x hv hc
  simp only [Prog.handle]
  rcases hps : p s with ⟨e | a, t⟩
  · rw [hps] at hv' hc'; exact hq e t x hv' hc'
  · rw [hps] at hv' hc'; exact ⟨hv', hc'⟩

theorem frames_serve {p : Prog (Session σ) ε α} (h : Keeps f p) : (serve p).Frames f :=
  fun c => (h (fresh c) (f c) rfl rfl).2

end Keeps

/-! ### Endpoints that commit and endpoints that do not -/

/-- Programs that never publish anything. -/
def Uncommitted (p : Prog (Session σ) ε α) : Prop := p.Frames committed

theorem uncommitted_exec (p : Prog σ ε α) : Uncommitted (exec p) := fun _ => rfl

/-- **Closing without a commit drops the writes**: the state is the old one, whatever was returned.
-/
theorem serve_of_uncommitted {p : Prog (Session σ) ε α} (h : Uncommitted p) (c : σ) :
    (serve p c).2 = c := h (fresh c)

/-- **A program that commits at its end is a transaction**: it returns where the program that it
executes does, and leaves what that one leaves. -/
theorem returns_serve_exec_commit {p : Prog σ ε α} {g : α → β} {c c' : σ} {b : β} :
    (serve (do let a ← exec p; commit; pure (g a))).Returns c b c' ↔
      ∃ a, p.Returns c a c' ∧ b = g a := by
  rw [returns_serve]
  constructor
  · rintro ⟨s', hbody, rfl⟩
    obtain ⟨a, s₁, hexec, hrest⟩ := Prog.returns_bind.mp hbody
    obtain ⟨t, ha, rfl⟩ := returns_exec.mp hexec
    obtain ⟨_, hcommit, rfl⟩ := Prog.returns_bind_pure.mp hrest
    obtain rfl := returns_commit.mp hcommit
    exact ⟨a, ha, rfl⟩
  · rintro ⟨a, ha, rfl⟩
    exact ⟨_, Prog.returns_bind.mpr ⟨a, _, returns_exec.mpr ⟨c', ha, rfl⟩,
      Prog.returns_bind_pure.mpr ⟨(), returns_commit.mpr rfl, rfl⟩⟩, rfl⟩

/-- A session that runs a program and commits. -/
def transact (p : Prog σ ε α) : Prog σ ε α :=
  serve do
    let a ← exec p
    commit
    pure a

theorem returns_transact {p : Prog σ ε α} {c c' : σ} {a : α} :
    (transact p).Returns c a c' ↔ p.Returns c a c' := by
  refine returns_serve_exec_commit.trans ⟨?_, fun h => ⟨a, h, rfl⟩⟩
  rintro ⟨b, h, rfl⟩
  exact h

theorem transact_snd (p : Prog σ ε α) (c : σ) : (transact p c).2 = p.settle c := by
  rcases p.returns_or_raises c with ⟨a, c', h⟩ | ⟨e, c', h⟩
  · rw [Prog.settle_of_returns h]
    unfold Prog.Returns at h
    simp [transact, serve, exec, commit, bind, pure, h, fresh, view]
  · rw [Prog.settle_of_raises h]
    unfold Prog.Raises at h
    simp [transact, serve, exec, bind, h, fresh, view]

theorem transact_succeeds (p : Prog σ ε α) (c : σ) :
    (transact p).succeeds c = p.succeeds c := by
  rw [Bool.eq_iff_iff, Prog.succeeds_iff, Prog.succeeds_iff]
  constructor
  · rintro ⟨a, c', h⟩
    obtain ⟨b, hb, -⟩ := returns_serve_exec_commit.mp h
    exact ⟨b, c', hb⟩
  · rintro ⟨a, c', h⟩
    exact ⟨a, c', returns_serve_exec_commit.mpr ⟨a, h, rfl⟩⟩

/-- **A request whose first part raises leaves nothing**, whatever would have come after it. -/
theorem serve_exec_bind_raises {p : Prog σ ε α} {f : α → Prog (Session σ) ε β} {c c' : σ} {e : ε}
    (h : p.Raises c e c') : serve (exec p >>= f) c = (.error e, c) := by
  unfold Prog.Raises at h
  simp [serve, exec, bind, h, fresh, view]

theorem raises_transact {p : Prog σ ε α} {c c' : σ} {e : ε} (h : p.Raises c e c') :
    (transact p).Raises c e c := serve_exec_bind_raises h

end Session

end MarketingSuite.Lib.Sessions
