import MarketingSuite.Base.Schema
import Mathlib.Data.List.Sort

/-! # The base repository

`app/repositories/base.py`, once for every ORM class. A read gives rows, a write flushes: it raises
`integrity` if a constraint or a foreign key forbids it. For each operation there is one lemma that
says when it returns, with what, and in which state. -/

namespace MarketingSuite.Repositories.Base

open MarketingSuite.Lib.Programs MarketingSuite.Lib.Tables
open MarketingSuite.Base.Values MarketingSuite.Base.Schema

/-- A service: a program over what its session sees. -/
abbrev Svc (α : Type) : Type := Prog Database Exc α

/-- The value of an option, or an exception. -/
def orRaise {σ α : Type} (o : Option α) (e : Exc) : Prog σ Exc α :=
  match o with
  | some a => pure a
  | none => Prog.raise e

@[simp] theorem returns_orRaise {σ α : Type} {o : Option α} {e : Exc} {s s' : σ} {a : α} :
    (orRaise o e).Returns s a s' ↔ o = some a ∧ s' = s := by
  cases o <;> simp [orRaise, eq_comm]

theorem raises_orRaise {σ α : Type} {o : Option α} {e e' : Exc} {s s' : σ} :
    (orRaise o e).Raises s e' s' ↔ o = none ∧ e' = e ∧ s' = s := by
  cases o <;> simp [orRaise, Prog.Raises, Prog.raise, pure, eq_comm]

/-- `Result.scalar_one_or_none`. -/
def scalarOneOrNone {α : Type} : List α → Svc (Option α)
  | [] => pure none
  | [a] => pure (some a)
  | _ => Prog.raise .multipleResults

theorem returns_scalarOneOrNone {α : Type} {l : List α} {s s' : Database} {o : Option α} :
    (scalarOneOrNone l).Returns s o s' ↔ l = o.toList ∧ s' = s := by
  rcases l with _ | ⟨a, _ | ⟨b, l⟩⟩ <;> rcases o with _ | c <;>
    simp [scalarOneOrNone, eq_comm]

/-- `select(model).where(p)`, at most one row. -/
def selectOne {ρ : Type} [Keyed ρ Uuid] [Model ρ] (p : ρ → Bool) : Svc (Option ρ) := do
  let rows ← Prog.gets fun db => (table db : Table ρ).select p
  scalarOneOrNone rows

/-- `select(model).where(p)`, all rows. -/
def selectAll {ρ : Type} [Keyed ρ Uuid] [Model ρ] (p : ρ → Bool) : Svc (List ρ) :=
  Prog.gets fun db => (table db : Table ρ).select p

/-- `.order_by(…).offset(skip).limit(limit)` of the rows that satisfy a condition. The database puts
them in an order (`arrange`) and refuses a negative number. -/
def selectPage {σ ρ : Type} (rows : σ → List ρ) (arrange : List ρ → List ρ) (skip limit : ℤ) :
    Prog σ Exc (List ρ) := do
  Prog.require (0 ≤ skip ∧ 0 ≤ limit) .dataError
  let rows ← Prog.gets rows
  pure (((arrange rows).drop skip.toNat).take limit.toNat)

theorem returns_selectPage {σ ρ : Type} {rows : σ → List ρ} {arrange : List ρ → List ρ}
    {skip limit : ℕ} {s s' : σ} {l : List ρ} :
    (selectPage rows arrange skip limit).Returns s l s' ↔
      l = ((arrange (rows s)).drop skip).take limit ∧ s' = s := by
  simp [selectPage, and_comm]

section Repository

variable {ρ : Type} [Keyed ρ Uuid] [Model ρ]

/-- `BaseRepository.get_by_id`. -/
def getById (ρ : Type) [Keyed ρ Uuid] [Model ρ] (id : Uuid) : Svc (Option ρ) :=
  selectOne fun r : ρ => Keyed.key r = id && (Model.deletedAt r).isNone

/-- The row object with this id that a caller hands to a service. -/
def load (ρ : Type) [Keyed ρ Uuid] [Model ρ] (id : Uuid) : Svc ρ := do
  let found ← selectOne fun r : ρ => Keyed.key r = id
  orRaise found (.http 404 "Not Found")

/-- `BaseRepository.get_all` with its default page and order, of the rows that satisfy the filters.
-/
def getAll (p : ρ → Bool) (createdAt : ρ → Time) : Svc (List ρ) := do
  let rows ← selectAll fun r : ρ => (Model.deletedAt r).isNone && p r
  pure ((rows.insertionSort fun r q => createdAt q ≤ createdAt r).take 100)

/-- `.offset(skip).limit(limit).order_by(model.created_at.desc())`, of the rows that satisfy `p`. The
database refuses a negative number. -/
def newestPage (p : ρ → Bool) (createdAt : ρ → Time) (skip limit : ℤ) : Svc (List ρ) := do
  Prog.require (0 ≤ skip ∧ 0 ≤ limit) .dataError
  let rows ← selectAll p
  pure (((rows.insertionSort fun r q => createdAt q ≤ createdAt r).drop skip.toNat).take limit.toNat)

/-- `BaseRepository.create`, of a row with its id. -/
def create (r : ρ) : Svc ρ := do
  let db ← Prog.gets id
  Prog.require (Model.references db r = true) .integrity
  let T ← orRaise ((table db : Table ρ).insert r) .integrity
  Prog.modify fun db => setTable db T
  pure r

/-- `BaseRepository.update`: set fields of the row with this id, and flush. -/
def update (id : Uuid) (f : ρ → ρ) : Svc ρ := do
  let db ← Prog.gets fun db => db
  let r ← orRaise ((table db : Table ρ).rows.find? fun r => Keyed.key r = id) .attributeError
  Prog.require (Model.references db (f r) = true) .integrity
  let T ← orRaise ((table db : Table ρ).modify id f) .integrity
  Prog.modify fun db => setTable db T
  pure (f r)

/-- Set fields of the row that `get_by_id` finds, if it satisfies `c`, and flush. -/
def updateWhere (id : Uuid) (c : ρ → Bool) (f : ρ → ρ) : Svc (Option ρ) := do
  let found ← getById ρ id
  match found with
  | none => pure none
  | some r =>
    if c r = true then do
      let r ← update id f
      pure (some r)
    else pure (some r)

/-- `BaseRepository.delete` of a class with a `deleted_at`, which `mark` sets. -/
def softDelete (id : Uuid) (mark : ρ → ρ) : Svc Bool := do
  let found ← updateWhere id (fun _ => true) mark
  pure found.isSome

/-- `update(model).where(p).values(…)`, and flush: the number of the rows that it changed. -/
def updateAll (p : ρ → Bool) (f : ρ → ρ) : Svc ℕ := do
  let db ← Prog.gets fun db => db
  let T ← orRaise ((table db : Table ρ).modifyAll p f) .integrity
  Prog.modify fun db => setTable db T
  pure ((table db : Table ρ).select p).length

variable {s s' : Database} {o : Option ρ} {r a : ρ} {i : Uuid} {f : ρ → ρ} {c p : ρ → Bool}

/-- `T` is the old table with `f` applied to the row with id `i`, and `s'` the state with it. -/
def Updated (i : Uuid) (f : ρ → ρ) (s s' : Database) : Prop :=
  ∃ T, (table s : Table ρ).modify i f = some T ∧ s' = setTable s T

theorem returns_selectOne :
    (selectOne p).Returns s o s' ↔ (table s : Table ρ).select p = o.toList ∧ s' = s := by
  unfold selectOne
  simp only [Prog.returns_bind, Prog.returns_gets]
  constructor
  · rintro ⟨_, _, ⟨rfl, rfl⟩, h⟩
    exact returns_scalarOneOrNone.mp h
  · rintro ⟨h, rfl⟩
    exact ⟨_, _, ⟨rfl, rfl⟩, returns_scalarOneOrNone.mpr ⟨h, rfl⟩⟩

/-- What a selection of at most one row found: exactly the rows that satisfy the condition. -/
theorem selectOne_spec (h : (selectOne p).Returns s o s') :
    s' = s ∧ ∀ r : ρ, o = some r ↔ r ∈ (table s : Table ρ).rows ∧ p r = true := by
  obtain ⟨hsel, rfl⟩ := returns_selectOne.mp h
  refine ⟨rfl, fun r => ?_⟩
  rw [← Table.mem_select, hsel]
  cases o <;> simp [eq_comm]

theorem returns_selectOne_some (hr : r ∈ (table s : Table ρ).rows) (hp : p r = true)
    (h : ∀ q ∈ (table s : Table ρ).rows, p q = true → q = r) :
    (selectOne p).Returns s (some r) s :=
  returns_selectOne.mpr ⟨(table s : Table ρ).select_eq_singleton hr hp h, rfl⟩

theorem returns_selectOne_none (h : ∀ q ∈ (table s : Table ρ).rows, p q ≠ true) :
    (selectOne p).Returns s none s :=
  returns_selectOne.mpr ⟨List.filter_eq_nil_iff.mpr h, rfl⟩

theorem getById_spec (h : (getById ρ i).Returns s o s') :
    s' = s ∧ ∀ r : ρ, o = some r ↔
      r ∈ (table s : Table ρ).rows ∧ Keyed.key r = i ∧ Model.deletedAt r = none := by
  obtain ⟨rfl, h⟩ := selectOne_spec h
  refine ⟨rfl, fun r => ?_⟩
  rw [h r]
  simp

theorem getById_returns (hr : r ∈ (table s : Table ρ).rows) (hk : Keyed.key r = i)
    (hd : Model.deletedAt r = none) : (getById ρ i).Returns s (some r) s := by
  refine returns_selectOne_some hr (by simp [hk, hd]) fun q hq hp => ?_
  simp only [Bool.and_eq_true, decide_eq_true_eq] at hp
  exact (table s : Table ρ).eq_of_key_eq hq hr (hp.1.trans hk.symm)

theorem getById_returns_none (h : ∀ r ∈ (table s : Table ρ).rows, Keyed.key r ≠ i) :
    (getById ρ i).Returns s none s := by
  refine returns_selectOne_none fun r hr hp => ?_
  simp only [Bool.and_eq_true, decide_eq_true_eq] at hp
  exact h r hr hp.1

theorem exists_getById (s : Database) (i : Uuid) : ∃ o, (getById ρ i).Returns s o s := by
  by_cases hfound : ∃ r ∈ (table s : Table ρ).rows, Keyed.key r = i ∧ Model.deletedAt r = none
  · obtain ⟨r, hr, hk, hd⟩ := hfound
    exact ⟨some r, getById_returns hr hk hd⟩
  · refine ⟨none, returns_selectOne_none fun r hr hp => hfound ?_⟩
    simp only [Bool.and_eq_true, decide_eq_true_eq, Option.isNone_iff_eq_none] at hp
    exact ⟨r, hr, hp.1, hp.2⟩

theorem load_spec (h : (load ρ i).Returns s r s') :
    s' = s ∧ r ∈ (table s : Table ρ).rows ∧ Keyed.key r = i := by
  unfold load at h
  rw [Prog.returns_bind] at h
  obtain ⟨found, t, hsel, h⟩ := h
  obtain ⟨rfl, hf⟩ := selectOne_spec hsel
  obtain ⟨rfl, rfl⟩ := returns_orRaise.mp h
  obtain ⟨hr, hk⟩ := (hf r).mp rfl
  exact ⟨rfl, hr, by simpa using hk⟩

/-- **`create`**: the row is new, its foreign keys hold, and it is added. -/
theorem returns_create :
    (create r).Returns s a s' ↔ a = r ∧ Model.references s r = true ∧
      ∃ T, (table s : Table ρ).insert r = some T ∧ s' = setTable s T := by
  simp only [create, Prog.returns_bind, Prog.returns_gets, Prog.returns_require, returns_orRaise,
    Prog.returns_modify, Prog.returns_pure, id]
  constructor
  · rintro ⟨_, _, ⟨rfl, rfl⟩, _, _, ⟨hr, rfl⟩, T, _, ⟨hT, rfl⟩, _, _, rfl, rfl, rfl⟩
    exact ⟨rfl, hr, T, hT, rfl⟩
  · rintro ⟨rfl, hr, T, hT, rfl⟩
    exact ⟨_, _, ⟨rfl, rfl⟩, (), _, ⟨hr, rfl⟩, T, _, ⟨hT, rfl⟩, (), _, rfl, rfl, rfl⟩

theorem raises_create
    (h : Model.references s r = false ∨ ∀ T, (table s : Table ρ).insert r ≠ some T) :
    (create r).Raises s .integrity s := by
  rcases href : Model.references s r with _ | _
  · simp [create, Prog.Raises, Prog.gets, Prog.require, Prog.raise, bind, href]
  · have hnone : (table s : Table ρ).insert r = none := by
      rcases h with h | h
      · rw [href] at h
        exact absurd h (by simp)
      · exact Option.eq_none_iff_forall_ne_some.mpr h
    simp [create, Prog.Raises, Prog.gets, Prog.require, Prog.raise, bind, pure, orRaise, href, hnone]

theorem find_row (hr : r ∈ (table s : Table ρ).rows) (hk : Keyed.key r = i) :
    (table s : Table ρ).rows.find? (fun r => Keyed.key r = i) = some r := by
  rcases hq : (table s : Table ρ).rows.find? (fun r => Keyed.key r = i) with _ | q
  · have := List.find?_eq_none.mp hq r hr
    simp [hk] at this
  · have hqk : Keyed.key q = i := by simpa using List.find?_some hq
    rw [(table s : Table ρ).eq_of_key_eq (List.mem_of_find?_eq_some hq) hr (hqk.trans hk.symm)]

/-- **`update`**: the row is there, its new foreign keys hold, and it is changed. -/
theorem returns_update :
    (update i f).Returns s a s' ↔ ∃ r ∈ (table s : Table ρ).rows, Keyed.key r = i ∧ a = f r ∧
      Model.references s (f r) = true ∧
      ∃ T, (table s : Table ρ).modify i f = some T ∧ s' = setTable s T := by
  simp only [update, Prog.returns_bind, Prog.returns_gets, Prog.returns_require, returns_orRaise,
    Prog.returns_modify, Prog.returns_pure]
  constructor
  · rintro ⟨_, _, ⟨rfl, rfl⟩, r, _, ⟨hr, rfl⟩, _, _, ⟨hf, rfl⟩, T, _, ⟨hT, rfl⟩, _, _, rfl, rfl, rfl⟩
    have hk := List.find?_some hr
    exact ⟨r, List.mem_of_find?_eq_some hr, by simpa using hk, rfl, hf, T, hT, rfl⟩
  · rintro ⟨r, hr, hk, rfl, hf, T, hT, rfl⟩
    have hfind := find_row hr hk
    exact ⟨_, _, ⟨rfl, rfl⟩, r, _, ⟨hfind, rfl⟩, (), _, ⟨hf, rfl⟩, T, _, ⟨hT, rfl⟩, (), _, rfl, rfl,
      rfl⟩

theorem raises_update (hr : r ∈ (table s : Table ρ).rows) (hk : Keyed.key r = i)
    (h : Model.references s (f r) = false ∨ ∀ T, (table s : Table ρ).modify i f ≠ some T) :
    (update i f).Raises s .integrity s := by
  have hfind := find_row hr hk
  rcases href : Model.references s (f r) with _ | _
  · simp [update, Prog.Raises, Prog.gets, Prog.require, Prog.raise, bind, pure, orRaise, hfind, href]
  · have hnone : (table s : Table ρ).modify i f = none := by
      rcases h with h | h
      · rw [href] at h
        exact absurd h (by simp)
      · exact Option.eq_none_iff_forall_ne_some.mpr h
    simp [update, Prog.Raises, Prog.gets, Prog.require, Prog.raise, bind, pure, orRaise, hfind, href,
      hnone]

theorem atomic_orRaise {σ α : Type} (o : Option α) (e : Exc) :
    Prog.Atomic (orRaise o e : Prog σ Exc α) := by
  cases o
  · exact Prog.atomic_raise e
  · exact Prog.atomic_pure _

theorem atomic_selectOne : Prog.Atomic (selectOne p) := by
  refine Prog.atomic_bind (Prog.atomic_gets _) (fun s l t h => (Prog.returns_gets.mp h).2)
    fun l => ?_
  rcases l with _ | ⟨a, _ | ⟨b, l⟩⟩
  · exact Prog.atomic_pure _
  · exact Prog.atomic_pure _
  · exact Prog.atomic_raise _

theorem atomic_update : Prog.Atomic (update i f) := by
  refine Prog.atomic_bind (Prog.atomic_gets _) (fun s l t h => (Prog.returns_gets.mp h).2)
    fun db => ?_
  refine Prog.atomic_bind (atomic_orRaise _ _) (fun s l t h => (returns_orRaise.mp h).2) fun r => ?_
  refine Prog.atomic_bind (Prog.atomic_require _ _)
    (fun s l t h => (Prog.returns_require.mp h).2) fun _ => ?_
  refine Prog.atomic_bind (atomic_orRaise _ _) (fun s l t h => (returns_orRaise.mp h).2) fun T => ?_
  exact Prog.atomic_bind_pure (Prog.atomic_modify _)

theorem updateWhere_spec (h : (updateWhere i c f).Returns s o s') :
    (s' = s ∧ ∀ r : ρ, r ∈ (table s : Table ρ).rows → Keyed.key r = i → Model.deletedAt r = none →
      o = some r ∧ c r = false) ∨
    ∃ r : ρ, r ∈ (table s : Table ρ).rows ∧ Keyed.key r = i ∧ Model.deletedAt r = none ∧
      c r = true ∧ o = some (f r) ∧ Updated i f s s' := by
  obtain ⟨found, t, hget, h⟩ := Prog.returns_bind.mp h
  obtain ⟨rfl, hf⟩ := getById_spec hget
  rcases found with _ | r
  · obtain ⟨-, rfl⟩ := Prog.returns_pure.mp h
    exact Or.inl ⟨rfl, fun r hr hk hd => absurd ((hf r).mpr ⟨hr, hk, hd⟩) (by simp)⟩
  · obtain ⟨hr, hk, hd⟩ := (hf r).mp rfl
    simp only [Prog.returns_ite] at h
    split_ifs at h with hc
    · obtain ⟨r', hu, rfl⟩ := Prog.returns_bind_pure.mp h
      obtain ⟨q, hq, hqk, rfl, -, T, hT, rfl⟩ := returns_update.mp hu
      have : q = r := (table t : Table ρ).eq_of_key_eq hq hr (hqk.trans hk.symm)
      subst this
      exact Or.inr ⟨q, hq, hk, hd, hc, rfl, T, hT, rfl⟩
    · obtain ⟨rfl, rfl⟩ := Prog.returns_pure.mp h
      refine Or.inl ⟨rfl, fun q hq hqk _ => ?_⟩
      have : q = r := (table s' : Table ρ).eq_of_key_eq hq hr (hqk.trans hk.symm)
      subst this
      exact ⟨rfl, by simpa using hc⟩

/-- The update goes through if the row is there and no constraint forbids it. -/
theorem updateWhere_returns {T : Table ρ} (hr : r ∈ (table s : Table ρ).rows)
    (hk : Keyed.key r = i) (hd : Model.deletedAt r = none) (hc : c r = true)
    (href : Model.references s (f r) = true)
    (hT : (table s : Table ρ).modify i f = some T) :
    (updateWhere i c f).Returns s (some (f r)) (setTable s T) := by
  refine Prog.returns_bind.mpr ⟨some r, s, getById_returns hr hk hd, ?_⟩
  simp only [if_pos hc]
  exact Prog.returns_bind_pure.mpr ⟨f r, returns_update.mpr ⟨r, hr, hk, rfl, href, T, hT, rfl⟩, rfl⟩

/-- The foreign keys of the row hold after an update that went through. -/
theorem references_of_updateWhere (h : (updateWhere i c f).Returns s o s')
    (hr : r ∈ (table s : Table ρ).rows) (hk : Keyed.key r = i) (hd : Model.deletedAt r = none)
    (hc : c r = true) : Model.references s (f r) = true := by
  obtain ⟨found, t, hget, h⟩ := Prog.returns_bind.mp h
  obtain ⟨rfl, hf⟩ := getById_spec hget
  obtain rfl := (hf r).mpr ⟨hr, hk, hd⟩
  simp only [if_pos hc] at h
  obtain ⟨a, u, hu, -⟩ := Prog.returns_bind.mp h
  obtain ⟨q, hq, hqk, -, href, -⟩ := returns_update.mp hu
  rw [← (table t : Table ρ).eq_of_key_eq hq hr (hqk.trans hk.symm)]
  exact href

theorem updateAll_spec {n : ℕ} (h : (updateAll p f).Returns s n s') :
    ∃ T, (table s : Table ρ).modifyAll p f = some T ∧ s' = setTable s T := by
  unfold updateAll at h
  rw [Prog.returns_bind] at h
  obtain ⟨db, t, hget, h⟩ := h
  obtain ⟨rfl, rfl⟩ := Prog.returns_gets.mp hget
  rw [Prog.returns_bind] at h
  obtain ⟨T, t', hT, h⟩ := h
  obtain ⟨hT, rfl⟩ := returns_orRaise.mp hT
  obtain ⟨_, hmod, -⟩ := Prog.returns_bind_pure.mp h
  exact ⟨T, hT, Prog.returns_modify.mp hmod⟩

theorem softDelete_spec {b : Bool} (h : (softDelete i f).Returns s b s') :
    s' = s ∨ Updated i f s s' := by
  unfold softDelete at h
  rw [Prog.returns_bind] at h
  obtain ⟨o, t, hu, h⟩ := h
  obtain ⟨-, rfl⟩ := Prog.returns_pure.mp h
  rcases updateWhere_spec hu with ⟨rfl, -⟩ | ⟨-, -, -, -, -, -, hu⟩
  · exact Or.inl rfl
  · exact Or.inr hu

/-- A soft delete that returns has marked the row, unless it was deleted before. -/
theorem softDelete_marks {b : Bool} (hr : r ∈ (table s : Table ρ).rows) (hk : Keyed.key r = i)
    (h : (softDelete i f).Returns s b s') :
    (s' = s ∧ Model.deletedAt r ≠ none) ∨ ∃ T : Table ρ, f r ∈ T.rows ∧ s' = setTable s T := by
  unfold softDelete at h
  obtain ⟨o, hu, -⟩ := Prog.returns_bind_pure.mp h
  rcases updateWhere_spec hu with ⟨rfl, hno⟩ | ⟨-, -, -, -, -, -, T, hT, rfl⟩
  · exact Or.inl ⟨rfl, fun hd => absurd (hno r hr hk hd).2 (by simp)⟩
  · exact Or.inr ⟨T, Table.mem_modify_self hT hr hk, rfl⟩

/-- A page that holds the table gives the rows that satisfy the condition. -/
theorem exists_newestPage (p : ρ → Bool) (createdAt : ρ → Time) {limit : ℤ}
    (h : ((table s : Table ρ).rows.length : ℤ) ≤ limit) :
    ∃ l, (newestPage p createdAt 0 limit).Returns s l s ∧
      l.Perm ((table s : Table ρ).select p) := by
  have hlimit : 0 ≤ limit := Int.le_trans (Int.natCast_nonneg _) h
  have hlen : ((table s : Table ρ).select p).length ≤ limit.toNat := by
    have hle : ((table s : Table ρ).select p).length ≤ (table s : Table ρ).rows.length :=
      List.length_filter_le _ _
    omega
  refine ⟨((table s : Table ρ).select p).insertionSort fun r q => createdAt q ≤ createdAt r, ?_,
    List.perm_insertionSort _ _⟩
  refine Prog.returns_bind.mpr ⟨(), s, Prog.returns_require.mpr ⟨⟨Int.le_refl 0, hlimit⟩, rfl⟩, ?_⟩
  refine Prog.returns_bind.mpr ⟨_, s, Prog.returns_gets.mpr ⟨rfl, rfl⟩, ?_⟩
  refine Prog.returns_pure.mpr ⟨?_, rfl⟩
  rw [Int.toNat_zero, List.drop_zero, List.take_of_length_le]
  rw [List.length_insertionSort]
  exact hlen

/-! ### Frames -/

variable {δ : Type} {g : Database → δ}

theorem frames_orRaise {α : Type} (o : Option α) (e : Exc) :
    Prog.Frames g (orRaise o e : Svc α) := by
  cases o
  · exact Prog.frames_raise e
  · exact Prog.frames_pure _

theorem frames_scalarOneOrNone {α : Type} (l : List α) : Prog.Frames g (scalarOneOrNone l) := by
  rcases l with _ | ⟨a, _ | ⟨b, l⟩⟩
  · exact Prog.frames_pure _
  · exact Prog.frames_pure _
  · exact Prog.frames_raise _

theorem frames_selectOne : Prog.Frames g (selectOne p) :=
  Prog.frames_bind (Prog.frames_gets _) fun _ => frames_scalarOneOrNone _

theorem frames_getById : Prog.Frames g (getById ρ i) := frames_selectOne

theorem frames_create (hg : ∀ db (T : Table ρ), g (setTable db T) = g db) :
    Prog.Frames g (create r) := by
  refine Prog.frames_bind (Prog.frames_gets _) fun db => ?_
  refine Prog.frames_bind (Prog.frames_require _ _) fun _ => ?_
  refine Prog.frames_bind (frames_orRaise _ _) fun T => ?_
  exact Prog.frames_bind (fun db => hg db T) fun _ => Prog.frames_pure _

theorem frames_update (hg : ∀ db (T : Table ρ), g (setTable db T) = g db) :
    Prog.Frames g (update i f) := by
  refine Prog.frames_bind (Prog.frames_gets _) fun db => ?_
  refine Prog.frames_bind (frames_orRaise _ _) fun r => ?_
  refine Prog.frames_bind (Prog.frames_require _ _) fun _ => ?_
  refine Prog.frames_bind (frames_orRaise _ _) fun T => ?_
  exact Prog.frames_bind (fun db => hg db T) fun _ => Prog.frames_pure _

theorem frames_updateWhere (hg : ∀ db (T : Table ρ), g (setTable db T) = g db) :
    Prog.Frames g (updateWhere i c f) := by
  refine Prog.frames_bind frames_getById fun found => ?_
  rcases found with _ | r
  · exact Prog.frames_pure _
  · exact Prog.frames_ite (Prog.frames_bind (frames_update hg) fun _ => Prog.frames_pure _)
      (Prog.frames_pure _)

/-! ### What is raised -/

variable {P : Exc → Prop}

theorem raisesOnly_orRaise {σ α : Type} (o : Option α) {e : Exc} (he : P e) :
    Prog.RaisesOnly P (orRaise o e : Prog σ Exc α) := by
  cases o
  · exact Prog.raisesOnly_raise he
  · exact Prog.raisesOnly_pure _

theorem raisesOnly_selectOne (hm : P .multipleResults) : Prog.RaisesOnly P (selectOne p) := by
  refine Prog.raisesOnly_bind (Prog.raisesOnly_gets _) fun l => ?_
  rcases l with _ | ⟨a, _ | ⟨b, l⟩⟩
  · exact Prog.raisesOnly_pure _
  · exact Prog.raisesOnly_pure _
  · exact Prog.raisesOnly_raise hm

theorem raisesOnly_create (hi : P .integrity) : Prog.RaisesOnly P (create r) := by
  refine Prog.raisesOnly_bind (Prog.raisesOnly_gets _) fun db => ?_
  refine Prog.raisesOnly_bind (Prog.raisesOnly_require _ hi) fun _ => ?_
  refine Prog.raisesOnly_bind (raisesOnly_orRaise _ hi) fun T => ?_
  exact Prog.raisesOnly_bind (Prog.raisesOnly_modify _) fun _ => Prog.raisesOnly_pure _

theorem raisesOnly_update (hi : P .integrity) (ha : P .attributeError) :
    Prog.RaisesOnly P (update i f) := by
  refine Prog.raisesOnly_bind (Prog.raisesOnly_gets _) fun db => ?_
  refine Prog.raisesOnly_bind (raisesOnly_orRaise _ ha) fun r => ?_
  refine Prog.raisesOnly_bind (Prog.raisesOnly_require _ hi) fun _ => ?_
  refine Prog.raisesOnly_bind (raisesOnly_orRaise _ hi) fun T => ?_
  exact Prog.raisesOnly_bind (Prog.raisesOnly_modify _) fun _ => Prog.raisesOnly_pure _

end Repository

end MarketingSuite.Repositories.Base
