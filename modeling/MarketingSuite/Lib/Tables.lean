import Mathlib.Data.List.Nodup
import Mathlib.Data.List.Pairwise
import Mathlib.Tactic.Common

/-! # Tables with keys and unique constraints

A table is a list of rows no two of which violate its primary key or one of its unique constraints:
the constraints are a field, so a table that breaks one cannot be built, and a write that would
break one (`insert`, `modify`) yields nothing. A unique constraint, plain, composite or partial, is
a symmetric test `compatible` on two rows. -/

namespace MarketingSuite.Lib.Tables

/-- Rows with a primary key in `κ`, and the test that the unique constraints make of two rows. -/
class Keyed (ρ : Type) (κ : outParam Type) where
  key : ρ → κ
  compatible : ρ → ρ → Bool
  symm : ∀ r s : ρ, compatible r s = compatible s r

open Keyed

variable {ρ κ : Type} [Keyed ρ κ]

/-- Two rows that may stand in one table. -/
def Apart (r s : ρ) : Prop := key r ≠ key s ∧ compatible r s = true

instance [DecidableEq κ] (r s : ρ) : Decidable (Apart r s) := by unfold Apart; infer_instance

instance : Std.Symm (Apart : ρ → ρ → Prop) where
  symm r s h := ⟨Ne.symm h.1, by rw [Keyed.symm]; exact h.2⟩

variable (ρ) in
/-- A table: rows, pairwise apart. -/
structure Table where
  rows : List ρ
  apart : rows.Pairwise Apart

namespace Table

/-- The table without rows. -/
def empty : Table ρ := ⟨[], List.Pairwise.nil⟩

/-- The rows that satisfy `p`, in table order. -/
def select (T : Table ρ) (p : ρ → Bool) : List ρ := T.rows.filter p

@[simp] theorem mem_select {T : Table ρ} {p : ρ → Bool} {r : ρ} :
    r ∈ T.select p ↔ r ∈ T.rows ∧ p r = true := List.mem_filter

theorem of_select_eq_cons {T : Table ρ} {p : ρ → Bool} {r : ρ} {l : List ρ}
    (h : T.select p = r :: l) : r ∈ T.rows ∧ p r = true := by
  refine mem_select.mp ?_
  rw [h]
  exact List.mem_cons_self

theorem apart_of_mem (T : Table ρ) {r s : ρ} (hr : r ∈ T.rows) (hs : s ∈ T.rows) (hne : r ≠ s) :
    Apart r s :=
  T.apart.forall hr hs hne

theorem eq_of_key_eq (T : Table ρ) {r s : ρ} (hr : r ∈ T.rows) (hs : s ∈ T.rows)
    (h : key r = key s) : r = s := by
  by_contra hne
  exact (T.apart_of_mem hr hs hne).1 h

/-- Rows that a unique constraint would not let stand together are one row. -/
theorem eq_of_not_compatible (T : Table ρ) {r s : ρ} (hr : r ∈ T.rows) (hs : s ∈ T.rows)
    (h : compatible r s = false) : r = s := by
  by_contra hne
  rw [(T.apart_of_mem hr hs hne).2] at h
  exact Bool.noConfusion h

theorem nodup (T : Table ρ) : T.rows.Nodup :=
  T.apart.imp fun h hrs => h.1 (by rw [hrs])

/-- Among two or more rows of a table there is one besides a given row. -/
theorem exists_ne (T : Table ρ) {l : List ρ} (hl : l.Sublist T.rows) (h : 1 < l.length) (r : ρ) :
    ∃ s ∈ l, s ≠ r := by
  by_contra hall
  have heq : l = List.replicate l.length r := by
    refine List.eq_replicate_of_mem fun s hs => ?_
    by_contra hne
    exact hall ⟨s, hs, hne⟩
  have hnd := T.nodup.sublist hl
  rw [heq, List.nodup_replicate] at hnd
  omega

theorem exists_bound {ρ : Type} [Keyed ρ ℕ] (T : Table ρ) : ∃ n, ∀ r ∈ T.rows, key r < n := by
  have hbound : ∀ l : List ρ, ∃ n, ∀ r ∈ l, key r < n := by
    intro l
    induction l with
    | nil => exact ⟨0, by simp⟩
    | cons q l ih =>
      obtain ⟨n, hn⟩ := ih
      refine ⟨key q + 1 + n, fun r hr => ?_⟩
      rcases List.mem_cons.mp hr with rfl | hr
      · omega
      · have hlt := hn r hr
        omega
  exact hbound T.rows

/-- Among rows of which no two satisfy a condition, at most one does. -/
theorem length_select_le_one {T : Table ρ} {p : ρ → Bool}
    (h : ∀ r ∈ T.rows, ∀ q ∈ T.rows, p r = true → p q = true → q = r) :
    (T.select p).length ≤ 1 := by
  by_contra hlen
  obtain ⟨r, hr⟩ := List.exists_mem_of_length_pos (l := T.select p) (by omega)
  obtain ⟨q, hq, hne⟩ := T.exists_ne List.filter_sublist (Nat.lt_of_not_le hlen) r
  obtain ⟨hr, hpr⟩ := mem_select.mp hr
  obtain ⟨hq, hpq⟩ := mem_select.mp hq
  exact hne (h r hr q hq hpr hpq)

theorem select_eq_singleton (T : Table ρ) {p : ρ → Bool} {r : ρ} (hr : r ∈ T.rows) (hp : p r = true)
    (h : ∀ s ∈ T.rows, p s = true → s = r) : T.select p = [r] := by
  have hsel : r ∈ T.select p := mem_select.mpr ⟨hr, hp⟩
  by_contra hne
  rcases ((T.nodup.filter p).ne_singleton_iff r).mp hne with hnil | ⟨s, hs, hsr⟩
  · rw [select, hnil] at hsel
    exact absurd hsel List.not_mem_nil
  · obtain ⟨hs, hps⟩ := mem_select.mp hs
    exact hsr (h s hs hps)

/-- Rows stay apart under a change that keeps the keys, if no constraint forbids more of the new
rows than of the old ones. -/
theorem pairwise_map_apart (T : Table ρ) {g : ρ → ρ} (hkey : ∀ r, key (g r) = key r)
    (hcomp : ∀ r s, compatible r s = true → compatible (g r) s = true) :
    (T.rows.map g).Pairwise Apart := by
  refine List.pairwise_map.mpr (T.apart.imp fun {r s} h => ⟨?_, ?_⟩)
  · rw [hkey r, hkey s]
    exact h.1
  · refine hcomp r _ ?_
    rw [Keyed.symm]
    refine hcomp s r ?_
    rw [Keyed.symm]
    exact h.2

/-! ### Writes -/

variable [DecidableEq κ]

/-- The table with these rows, if the constraints allow them. -/
def ofRows (rows : List ρ) : Option (Table ρ) :=
  if h : rows.Pairwise Apart then some ⟨rows, h⟩ else none

/-- There is a row with key `k`. -/
def has (T : Table ρ) (k : κ) : Bool := T.rows.any fun r => key r = k

/-- Add a row. -/
def insert (T : Table ρ) (r : ρ) : Option (Table ρ) := ofRows (T.rows ++ [r])

/-- Change the rows that satisfy `p`. -/
def modifyAll (T : Table ρ) (p : ρ → Bool) (f : ρ → ρ) : Option (Table ρ) :=
  ofRows (T.rows.map fun r => if p r = true then f r else r)

/-- Change the row with key `k`. -/
def modify (T : Table ρ) (k : κ) (f : ρ → ρ) : Option (Table ρ) :=
  ofRows (T.rows.map fun r => if key r = k then f r else r)

theorem has_iff {T : Table ρ} {k : κ} : T.has k = true ↔ ∃ r ∈ T.rows, key r = k := by
  simp [has]

theorem ofRows_eq_some {rows : List ρ} {T : Table ρ} : ofRows rows = some T ↔ T.rows = rows := by
  unfold ofRows
  constructor
  · intro h
    split_ifs at h
    rw [← Option.some.inj h]
  · rintro rfl
    rw [dif_pos T.apart]

theorem insert_eq_some {T T' : Table ρ} {r : ρ} :
    T.insert r = some T' ↔ T'.rows = T.rows ++ [r] := ofRows_eq_some

theorem modify_eq_some {T T' : Table ρ} {k : κ} {f : ρ → ρ} :
    T.modify k f = some T' ↔ T'.rows = T.rows.map fun r => if key r = k then f r else r :=
  ofRows_eq_some

theorem modifyAll_eq_some {T T' : Table ρ} {p : ρ → Bool} {f : ρ → ρ} :
    T.modifyAll p f = some T' ↔ T'.rows = T.rows.map fun r => if p r = true then f r else r :=
  ofRows_eq_some

theorem apart_of_insert {T T' : Table ρ} {r s : ρ} (h : T.insert r = some T') (hs : s ∈ T.rows) :
    Apart s r := by
  have h' := T'.apart
  rw [insert_eq_some.mp h, List.pairwise_append] at h'
  exact h'.2.2 s hs r (by simp)

theorem mem_insert {T T' : Table ρ} {r s : ρ} (h : T.insert r = some T') :
    s ∈ T'.rows ↔ s ∈ T.rows ∨ s = r := by
  rw [insert_eq_some.mp h]; simp

theorem mem_insert_self {T T' : Table ρ} {r : ρ} (h : T.insert r = some T') : r ∈ T'.rows :=
  (mem_insert h).mpr (Or.inr rfl)

/-- **What an insertion keeps**: what held of every row, and holds of the new one. -/
theorem forall_insert {T T' : Table ρ} {r : ρ} {P : ρ → Prop} (h : T.insert r = some T')
    (hold : ∀ s ∈ T.rows, P s) (hr : P r) : ∀ s ∈ T'.rows, P s := by
  intro s hs
  rcases (mem_insert h).mp hs with hs | rfl
  · exact hold s hs
  · exact hr

/-- **A selection after an insertion**: the new row comes last, if it satisfies the condition. -/
theorem select_insert {T T' : Table ρ} {r : ρ} (h : T.insert r = some T') (p : ρ → Bool) :
    T'.select p = T.select p ++ if p r = true then [r] else [] := by
  rw [select, select, insert_eq_some.mp h, List.filter_append]
  congr 1
  by_cases hp : p r = true
  · simp [hp]
  · simp [hp]

theorem exists_insert {T : Table ρ} {r : ρ} (h : ∀ s ∈ T.rows, Apart s r) :
    ∃ T', T.insert r = some T' := by
  have hp : (T.rows ++ [r]).Pairwise Apart := by
    refine List.pairwise_append.mpr ⟨T.apart, List.pairwise_singleton _ _, fun s hs q hq => ?_⟩
    rw [List.mem_singleton.mp hq]
    exact h s hs
  exact ⟨⟨_, hp⟩, insert_eq_some.mpr rfl⟩

theorem exists_modify_of_imp {T : Table ρ} {k : κ} {f : ρ → ρ} (hkey : ∀ r, key (f r) = key r)
    (hcomp : ∀ r s, compatible r s = true → compatible (f r) s = true) :
    ∃ T', T.modify k f = some T' := by
  refine ⟨⟨_, T.pairwise_map_apart (g := fun r => if key r = k then f r else r) (fun r => ?_)
    fun r s h => ?_⟩, modify_eq_some.mpr rfl⟩
  · split_ifs
    · exact hkey r
    · rfl
  · split_ifs
    · exact hcomp r s h
    · exact h

/-- A change that touches neither the key nor what the constraints look at goes through. -/
theorem exists_modify {T : Table ρ} {k : κ} {f : ρ → ρ} (hkey : ∀ r, key (f r) = key r)
    (hcomp : ∀ r s, compatible (f r) s = compatible r s) : ∃ T', T.modify k f = some T' :=
  exists_modify_of_imp hkey fun r s h => (hcomp r s).trans h

theorem modify_of_fixed {T : Table ρ} {k : κ} {f : ρ → ρ}
    (hf : ∀ r ∈ T.rows, key r = k → f r = r) : T.modify k f = some T := by
  refine modify_eq_some.mpr ?_
  have hid : ∀ r ∈ T.rows, (if key r = k then f r else r) = id r := by
    intro r hr
    split_ifs with hk
    · exact hf r hr hk
    · rfl
  rw [List.map_congr_left hid, List.map_id]

/-- **The rows after a change**: the changed row with key `k`, and the other rows as they were. -/
theorem mem_modify {T T' : Table ρ} {k : κ} {f : ρ → ρ} (h : T.modify k f = some T') {s : ρ} :
    s ∈ T'.rows ↔ (s ∈ T.rows ∧ key s ≠ k) ∨ ∃ r ∈ T.rows, key r = k ∧ s = f r := by
  rw [modify_eq_some.mp h, List.mem_map]
  constructor
  · rintro ⟨r, hr, rfl⟩
    split_ifs with hk
    · exact Or.inr ⟨r, hr, hk, rfl⟩
    · exact Or.inl ⟨hr, hk⟩
  · rintro (⟨hs, hk⟩ | ⟨r, hr, hk, rfl⟩)
    · exact ⟨s, hs, if_neg hk⟩
    · exact ⟨r, hr, if_pos hk⟩

/-- **A change goes through** exactly if the changed row is compatible with the other rows. -/
theorem exists_modify_iff {T : Table ρ} {r : ρ} {k : κ} {f : ρ → ρ} (hr : r ∈ T.rows)
    (hk : key r = k) (hkey : ∀ r, key (f r) = key r) :
    (∃ T', T.modify k f = some T') ↔ ∀ q ∈ T.rows, q ≠ r → compatible (f r) q = true := by
  constructor
  · rintro ⟨T', hT'⟩ q hq hne
    have hqk : key q ≠ k := fun hqk => hne (T.eq_of_key_eq hq hr (hqk.trans hk.symm))
    have hr' : f r ∈ T'.rows := (mem_modify hT').mpr (Or.inr ⟨r, hr, hk, rfl⟩)
    have hq' : q ∈ T'.rows := (mem_modify hT').mpr (Or.inl ⟨hq, hqk⟩)
    refine (T'.apart_of_mem hr' hq' fun heq => hqk ?_).2
    rw [← heq, hkey, hk]
  · intro hcomp
    have hone : ∀ q ∈ T.rows, key q = k → q = r := fun q hq hqk =>
      T.eq_of_key_eq hq hr (hqk.trans hk.symm)
    have hp : (T.rows.map fun r => if key r = k then f r else r).Pairwise Apart := by
      refine List.pairwise_map.mpr (T.apart.imp_of_mem fun {p q} hp hq h => ?_)
      have hne : p ≠ q := fun heq => h.1 (by rw [heq])
      split_ifs with hpk hqk hqk
      · exact absurd (hpk.trans hqk.symm) h.1
      · obtain rfl := hone p hp hpk
        exact ⟨by rw [hkey]; exact h.1, hcomp q hq hne.symm⟩
      · obtain rfl := hone q hq hqk
        refine ⟨by rw [hkey]; exact h.1, ?_⟩
        rw [Keyed.symm]
        exact hcomp p hp hne
      · exact h
    exact ⟨⟨_, hp⟩, modify_eq_some.mpr rfl⟩

/-- A change that a condition does not see keeps the selection, in its order. -/
theorem select_modify {T T' : Table ρ} {k : κ} {f : ρ → ρ} {p : ρ → Bool} (hp : ∀ r, p (f r) = p r)
    (h : T.modify k f = some T') :
    T'.select p = (T.select p).map fun r => if key r = k then f r else r := by
  rw [select, select, modify_eq_some.mp h, List.filter_map]
  congr 1
  refine List.filter_congr fun r _ => ?_
  simp only [Function.comp]
  split_ifs
  · exact hp r
  · rfl

theorem mem_modifyAll {T T' : Table ρ} {p : ρ → Bool} {f : ρ → ρ} (h : T.modifyAll p f = some T')
    {s : ρ} : s ∈ T'.rows ↔ ∃ r ∈ T.rows, s = if p r = true then f r else r := by
  rw [modifyAll_eq_some.mp h, List.mem_map]
  simp only [eq_comm]

theorem mem_modify_of_ne {T T' : Table ρ} {k : κ} {f : ρ → ρ} (h : T.modify k f = some T') {s : ρ}
    (hs : s ∈ T.rows) (hk : key s ≠ k) : s ∈ T'.rows :=
  (mem_modify h).mpr (Or.inl ⟨hs, hk⟩)

theorem mem_modify_self {T T' : Table ρ} {k : κ} {f : ρ → ρ} (h : T.modify k f = some T') {r : ρ}
    (hr : r ∈ T.rows) (hk : key r = k) : f r ∈ T'.rows :=
  (mem_modify h).mpr (Or.inr ⟨r, hr, hk, rfl⟩)

/-- **What a change keeps**: what held of every row, and holds of the changed one. -/
theorem forall_modify {T T' : Table ρ} {k : κ} {f : ρ → ρ} {P : ρ → Prop}
    (h : T.modify k f = some T') (hold : ∀ r ∈ T.rows, P r)
    (hf : ∀ r ∈ T.rows, key r = k → P (f r)) : ∀ s ∈ T'.rows, P s := by
  intro s hs
  rcases (mem_modify h).mp hs with ⟨hs, -⟩ | ⟨r, hr, hk, rfl⟩
  · exact hold s hs
  · exact hf r hr hk

section Related

variable {T T' : Table ρ} {k : κ} {f : ρ → ρ} {R : ρ → ρ → Prop} (h : T.modify k f = some T')
  (hrefl : ∀ r, R r r) (hf : ∀ r ∈ T.rows, key r = k → R r (f r))

include h hrefl hf

/-- Every row is there after a change, as what the change makes of it. -/
theorem exists_after_modify : ∀ r ∈ T.rows, ∃ s ∈ T'.rows, R r s := by
  intro r hr
  by_cases hk : key r = k
  · exact ⟨f r, mem_modify_self h hr hk, hf r hr hk⟩
  · exact ⟨r, mem_modify_of_ne h hr hk, hrefl r⟩

theorem exists_before_modify : ∀ s ∈ T'.rows, ∃ r ∈ T.rows, R r s :=
  forall_modify h (fun r hr => ⟨r, hr, hrefl r⟩) fun r hr hk => ⟨r, hr, hf r hr hk⟩

end Related

end Table

end MarketingSuite.Lib.Tables
