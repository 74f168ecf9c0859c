import Mathlib.Logic.Function.Basic
import Mathlib.Tactic.Common

/-! # Upserts into a keyed map

A map from keys to optional rows, and a list of entries that are written into it one after the
other: an entry changes the row with its key, or makes one. If an entry overwrites whatever an
earlier entry with its key wrote, the last entry for a key decides what is there, whatever came
before. -/

namespace MarketingSuite.Lib.Upserts

variable {κ ρ ε : Type} [DecidableEq κ] {key : ε → κ} {put : ε → Option ρ → ρ}

/-- Write one entry. -/
def upsert (key : ε → κ) (put : ε → Option ρ → ρ) (m : κ → Option ρ) (e : ε) : κ → Option ρ :=
  Function.update m (key e) (some (put e (m (key e))))

/-- Write the entries in order. -/
def upserts (key : ε → κ) (put : ε → Option ρ → ρ) (m : κ → Option ρ) (l : List ε) : κ → Option ρ :=
  l.foldl (upsert key put) m

/-- The last entry for a key. -/
def lastFor (key : ε → κ) : List ε → κ → Option ε
  | [], _ => none
  | e :: l, k => (lastFor key l k).or (if key e = k then some e else none)

theorem upsert_self (m : κ → Option ρ) (e : ε) :
    upsert key put m e (key e) = some (put e (m (key e))) := Function.update_self _ _ _

theorem upsert_of_ne (m : κ → Option ρ) {e : ε} {k : κ} (h : k ≠ key e) :
    upsert key put m e k = m k := Function.update_of_ne h _ _

theorem mem_of_lastFor {l : List ε} {k : κ} {e : ε} (h : lastFor key l k = some e) :
    e ∈ l ∧ key e = k := by
  induction l with
  | nil => simp [lastFor] at h
  | cons a l ih =>
    simp only [lastFor, Option.or_eq_some_iff] at h
    rcases h with h | ⟨-, h⟩
    · obtain ⟨hl, hk⟩ := ih h
      exact ⟨List.mem_cons_of_mem a hl, hk⟩
    · split_ifs at h with hk
      obtain rfl := Option.some.inj h
      exact ⟨List.mem_cons_self, hk⟩

/-- A change of the entries that keeps their keys keeps which one is the last. -/
theorem lastFor_map {δ : Type} {key' : δ → κ} {f : ε → δ} (hf : ∀ e, key' (f e) = key e)
    (l : List ε) (k : κ) : lastFor key' (l.map f) k = (lastFor key l k).map f := by
  induction l with
  | nil => rfl
  | cons a l ih =>
    simp only [List.map_cons, lastFor, ih, hf, Option.map_or]
    split_ifs <;> rfl

theorem exists_lastFor {l : List ε} {e : ε} (h : e ∈ l) : ∃ e', lastFor key l (key e) = some e' := by
  induction l with
  | nil => exact absurd h List.not_mem_nil
  | cons a l ih =>
    simp only [lastFor]
    rcases hl : lastFor key l (key e) with _ | e'
    · rcases List.mem_cons.mp h with rfl | hmem
      · exact ⟨e, by rw [Option.none_or, if_pos rfl]⟩
      · obtain ⟨e', he'⟩ := ih hmem
        rw [hl] at he'
        cases he'
    · exact ⟨e', rfl⟩

/-- What holds of every key that has a last entry holds of the keys of all entries. -/
theorem forall_lastFor_iff {l : List ε} {P : κ → Prop} :
    (∀ k e, lastFor key l k = some e → P k) ↔ ∀ e ∈ l, P (key e) := by
  constructor
  · intro h e he
    obtain ⟨last, hlast⟩ : ∃ last, lastFor key l (key e) = some last := exists_lastFor he
    exact h (key e) last hlast
  · intro h k e he
    obtain ⟨hmem, hk⟩ := mem_of_lastFor he
    rw [← hk]
    exact h e hmem

/-- **The last entry decides.** -/
theorem upserts_apply (hput : ∀ e e' o, key e = key e' → put e (some (put e' o)) = put e o)
    (l : List ε) (m : κ → Option ρ) (k : κ) : upserts key put m l k =
      match lastFor key l k with
      | none => m k
      | some e => some (put e (m k)) := by
  induction l generalizing m with
  | nil => rfl
  | cons a l ih =>
    rw [show upserts key put m (a :: l) k = upserts key put (upsert key put m a) l k from rfl, ih]
    simp only [lastFor]
    rcases hl : lastFor key l k with _ | e
    · by_cases hk : key a = k
      · subst hk
        simp [upsert_self]
      · simp [hk, upsert_of_ne m (Ne.symm hk)]
    · by_cases hk : key a = k
      · subst hk
        simp [upsert_self, hput e a _ (mem_of_lastFor hl).2]
      · simp [upsert_of_ne m (Ne.symm hk)]

/-- Writing entries changes nothing exactly if every row is there already, as the last entry for its
key would leave it. -/
theorem upserts_eq_iff (hput : ∀ e e' o, key e = key e' → put e (some (put e' o)) = put e o)
    {l : List ε} {m : κ → Option ρ} : upserts key put m l = m ↔
      ∀ k e, lastFor key l k = some e → ∃ r, m k = some r ∧ put e (some r) = r := by
  constructor
  · intro h k e he
    have hk := congrFun h k
    rw [upserts_apply hput, he] at hk
    have hk : m k = some (put e (m k)) := hk.symm
    refine ⟨put e (m k), hk, ?_⟩
    rw [hput e e _ rfl]
  · intro h
    funext k
    rw [upserts_apply hput]
    rcases he : lastFor key l k with _ | e
    · rfl
    · obtain ⟨r, hr, hput⟩ := h k e he
      rw [hr]
      exact congrArg some hput

end MarketingSuite.Lib.Upserts
