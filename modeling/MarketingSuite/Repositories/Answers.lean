import MarketingSuite.Repositories.Base

/-! # What a caller is answered

A service that returns or raises an `HTTPException` answers its caller. Any other exception, be it
one of Python or one of the database, ends the request with a server error. -/

namespace MarketingSuite.Repositories.Answers

open MarketingSuite.Lib.Programs MarketingSuite.Lib.Tables
open MarketingSuite.Base.Values MarketingSuite.Base.Schema
open MarketingSuite.Repositories.Base

/-- `isinstance(e, HTTPException)`. -/
def isHttp : Exc → Bool
  | .http _ _ => true
  | _ => false

/-- All that `p` raises in the state `s` is an `HTTPException`. -/
def Answered {σ α : Type} (p : Prog σ Exc α) (s : σ) : Prop :=
  ∀ e s', p.Raises s e s' → isHttp e = true

variable {σ α β : Type} {p : Prog σ Exc α} {f : α → Prog σ Exc β} {s s' t : σ} {a : α} {e : Exc}

theorem answered_of_returns (h : p.Returns s a s') : Answered p s :=
  fun _ _ h' => absurd h' (Prog.not_raises_of_returns h)

theorem answered_of_raises (h : p.Raises s e s') : Answered p s ↔ isHttp e = true := by
  constructor
  · exact fun h' => h' e s' h
  · intro he e' t h'
    obtain ⟨h', -⟩ := Prod.mk.inj (h'.symm.trans h)
    rw [Except.error.inj h']
    exact he

theorem answered_bind_of_returns (h : p.Returns s a t) :
    Answered (p >>= f) s ↔ Answered (f a) t := by
  unfold Answered
  simp only [Prog.raises_bind_of_returns h]

theorem answered_bind_of_raises (h : p.Raises s e t) :
    Answered (p >>= f) s ↔ isHttp e = true :=
  answered_of_raises ((Prog.raises_bind_of_raises h).mpr ⟨rfl, rfl⟩)

theorem answered_bind_of_answered (h : ∀ a t, Answered (f a) t) :
    Answered (p >>= f) s ↔ Answered p s := by
  constructor
  · intro hp e s' hraises
    exact hp e s' (Prog.raises_bind.mpr (Or.inl hraises))
  · intro hp e s' hraises
    rcases Prog.raises_bind.mp hraises with hraises | ⟨a, t, -, hraises⟩
    · exact hp e s' hraises
    · exact h a t e s' hraises

theorem answered_bind_pure {g : α → β} :
    Answered (p >>= fun a => (pure (g a) : Prog σ Exc β)) s ↔ Answered p s :=
  answered_bind_of_answered fun _ _ => answered_of_returns (Prog.returns_pure.mpr ⟨rfl, rfl⟩)

theorem answered_pass {c : Prop} [Decidable c] {g : Unit → Prog σ Exc β} (h : c) :
    Answered (Prog.require c e >>= g) s ↔ Answered (g ()) s :=
  answered_bind_of_returns (Prog.returns_require.mpr ⟨h, rfl⟩)

theorem answered_fail {c : Prop} [Decidable c] {g : Unit → Prog σ Exc β} (h : ¬ c) :
    Answered (Prog.require c e >>= g) s ↔ isHttp e = true :=
  answered_bind_of_raises (Prog.raises_require.mpr ⟨h, rfl, rfl⟩)

/-! ### Writes -/

section Writes

variable {ρ : Type} [Keyed ρ Uuid] [Model ρ] {db : Database} {r : ρ} {i : Uuid} {g : ρ → ρ}

theorem answered_create : Answered (create r) db ↔
    Model.references db r = true ∧ ∃ T, (table db : Table ρ).insert r = some T := by
  constructor
  · intro h
    by_contra hno
    have hforbid : Model.references db r = false ∨ ∀ T, (table db : Table ρ).insert r ≠ some T := by
      rcases href : Model.references db r with _ | _
      · exact Or.inl rfl
      · exact Or.inr fun T hT => hno ⟨href, T, hT⟩
    exact absurd ((answered_of_raises (raises_create hforbid)).mp h) Bool.noConfusion
  · rintro ⟨href, T, hT⟩
    exact answered_of_returns (returns_create.mpr ⟨rfl, href, T, hT, rfl⟩)

/-- A row that is there can be changed unless a constraint forbids it. -/
theorem answered_update (hr : r ∈ (table db : Table ρ).rows) (hk : Keyed.key r = i) :
    Answered (update i g) db ↔
      Model.references db (g r) = true ∧ ∃ T, (table db : Table ρ).modify i g = some T := by
  constructor
  · intro h
    by_contra hno
    have hforbid : Model.references db (g r) = false ∨
        ∀ T, (table db : Table ρ).modify i g ≠ some T := by
      rcases href : Model.references db (g r) with _ | _
      · exact Or.inl rfl
      · exact Or.inr fun T hT => hno ⟨href, T, hT⟩
    exact absurd ((answered_of_raises (raises_update hr hk hforbid)).mp h) Bool.noConfusion
  · rintro ⟨href, T, hT⟩
    exact answered_of_returns (returns_update.mpr ⟨r, hr, hk, rfl, href, T, hT, rfl⟩)

end Writes

end MarketingSuite.Repositories.Answers
