import MarketingSuite.Lib.Tables
import Mathlib.Logic.Function.Basic

/-! # A table as a map

Keys are unique, so a table is a map from keys to rows; inserting and changing a row update this map
at one key. -/

namespace MarketingSuite.Lib.Tables.Table

open Keyed (key)

variable {ρ κ : Type} [DecidableEq κ] [Keyed ρ κ] {T T' : Table ρ} {r : ρ} {k : κ} {f : ρ → ρ}

/-- The row with key `k`. -/
def lookup (T : Table ρ) (k : κ) : Option ρ := T.rows.find? fun r => key r = k

theorem lookup_eq_some : T.lookup k = some r ↔ r ∈ T.rows ∧ key r = k := by
  constructor
  · intro h
    have hk : key r = k := by simpa using List.find?_some h
    exact ⟨List.mem_of_find?_eq_some h, hk⟩
  · rintro ⟨hr, hk⟩
    rcases hq : T.lookup k with _ | q
    · have hne := List.find?_eq_none.mp hq r hr
      simp [hk] at hne
    · have hqk : key q = k := by simpa using List.find?_some hq
      rw [T.eq_of_key_eq (List.mem_of_find?_eq_some hq) hr (hqk.trans hk.symm)]

theorem lookup_eq_none : T.lookup k = none ↔ ∀ r ∈ T.rows, key r ≠ k := by
  simp [lookup, List.find?_eq_none]

theorem lookup_of_insert (h : T.insert r = some T') : T.lookup (key r) = none :=
  lookup_eq_none.mpr fun _ hs => (apart_of_insert h hs).1

theorem lookup_insert (h : T.insert r = some T') :
    T'.lookup = Function.update T.lookup (key r) (some r) := by
  funext k
  rw [lookup, insert_eq_some.mp h, List.find?_append]
  by_cases hk : k = key r
  · subst hk
    have hnone : T.rows.find? (fun s => key s = key r) = none := lookup_of_insert h
    rw [hnone, Function.update_self]
    simp
  · have hne : ¬ key r = k := fun h => hk h.symm
    rw [Function.update_of_ne hk]
    simp [lookup, hne]

theorem lookup_modify (h : T.modify k f = some T') (hkey : ∀ r, key (f r) = key r) :
    T'.lookup = Function.update T.lookup k ((T.lookup k).map f) := by
  funext j
  refine Option.ext fun s => ?_
  rw [lookup_eq_some, mem_modify h]
  by_cases hj : j = k
  · subst hj
    rw [Function.update_self, Option.map_eq_some_iff]
    constructor
    · rintro ⟨⟨-, hne⟩ | ⟨r, hr, hk, rfl⟩, hs⟩
      · exact absurd hs hne
      · exact ⟨r, lookup_eq_some.mpr ⟨hr, hk⟩, rfl⟩
    · rintro ⟨r, hr, rfl⟩
      obtain ⟨hmem, hk⟩ := lookup_eq_some.mp hr
      exact ⟨Or.inr ⟨r, hmem, hk, rfl⟩, (hkey r).trans hk⟩
  · rw [Function.update_of_ne hj, lookup_eq_some]
    constructor
    · rintro ⟨⟨hs, -⟩ | ⟨r, hr, hk, rfl⟩, hsj⟩
      · exact ⟨hs, hsj⟩
      · exact absurd (hsj.symm.trans ((hkey r).trans hk)) hj
    · rintro ⟨hs, hsj⟩
      exact ⟨Or.inl ⟨hs, fun hk => hj (hsj.symm.trans hk)⟩, hsj⟩

/-! ### Rows that go -/

/-- Delete the row with key `k`. -/
def erase (T : Table ρ) (k : κ) : Table ρ := ⟨T.rows.filter fun r => key r ≠ k, T.apart.filter _⟩

theorem mem_erase {k : κ} : r ∈ (T.erase k).rows ↔ r ∈ T.rows ∧ key r ≠ k := by
  simp [erase]

end MarketingSuite.Lib.Tables.Table
