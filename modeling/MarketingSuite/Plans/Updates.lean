import MarketingSuite.Plans.Service
import MarketingSuite.Repositories.Answers

/-! # Writing plans

`update_plan` of `app/services/plan.py` looks for other plans with the new slug and the new name
before it writes. It does not look whether a column may be null. -/

namespace MarketingSuite.Plans.Updates

open MarketingSuite.Lib.Programs MarketingSuite.Lib.Tables
open MarketingSuite.Base.Values MarketingSuite.Repositories.Base MarketingSuite.Repositories.Answers
open MarketingSuite.Plans.Service

variable {T : Table Plan} {p : Plan} {data : PlanUpdate} {column : Plan → String}

/-- The new value of a column is the old one, null, or that of no row. -/
def Free (T : Table Plan) (column : Plan → String) (old : String) (new : PatchField String) : Prop :=
  ∀ x, new = some (some x) → x ≠ old → ∀ q ∈ T.rows, column q ≠ x

/-- A check passes if no row has the value, and is answered otherwise. -/
def Checks (T : Table Plan) (column : Plan → String) (check : Option String → PlanSvc Unit) : Prop :=
  ∀ o, ((∀ q ∈ T.rows, some (column q) ≠ o) ∧ (check o).Returns T () T) ∨
    ∃ q ∈ T.rows, some (column q) = o ∧ ∃ text, (check o).Raises T (.http 400 text) T

theorem checks_slug (T : Table Plan) : Checks T Plan.slug checkSlug := by
  intro o
  rcases hfind : T.rows.find? fun p => decide (some p.slug = o) with _ | q
  · have hnone : ∀ q ∈ T.rows, some q.slug ≠ o := fun q hq heq =>
      List.find?_eq_none.mp hfind q hq (by simpa using heq)
    have hget : (getBySlug o).Returns T none T := Prog.returns_gets.mpr ⟨hfind.symm, rfl⟩
    exact Or.inl ⟨hnone, Prog.returns_bind.mpr
      ⟨none, T, hget, Prog.returns_require.mpr ⟨rfl, rfl⟩⟩⟩
  · have hq : some q.slug = o := by simpa using List.find?_some hfind
    refine Or.inr ⟨q, List.mem_of_find?_eq_some hfind, hq, "Plan slug already exists.", ?_⟩
    have hget : (getBySlug o).Returns T (some q) T := Prog.returns_gets.mpr ⟨hfind.symm, rfl⟩
    exact (Prog.raises_bind_of_returns hget).mpr
      (Prog.raises_require.mpr ⟨Bool.false_ne_true, rfl, rfl⟩)

theorem checks_name (T : Table Plan) : Checks T Plan.name checkName := by
  intro o
  rcases hsel : T.select fun p => decide (some p.name = o) with _ | ⟨q, l⟩
  · have hnone : ∀ q ∈ T.rows, some q.name ≠ o := fun q hq heq => by
      have hmem : q ∈ T.select fun p => decide (some p.name = o) :=
        Table.mem_select.mpr ⟨hq, decide_eq_true heq⟩
      rw [hsel] at hmem
      exact absurd hmem List.not_mem_nil
    have hget : (getByName o).Returns T [] T := Prog.returns_gets.mpr ⟨by rw [hsel]; rfl, rfl⟩
    exact Or.inl ⟨hnone, Prog.returns_bind.mpr ⟨[], T, hget, Prog.returns_require.mpr ⟨rfl, rfl⟩⟩⟩
  · obtain ⟨hq, heq⟩ := Table.of_select_eq_cons hsel
    have hget : (getByName o).Returns T [q] T := Prog.returns_gets.mpr ⟨by rw [hsel]; rfl, rfl⟩
    refine Or.inr ⟨q, hq, of_decide_eq_true heq, "Plan name already exists.", ?_⟩
    exact (Prog.raises_bind_of_returns hget).mpr
      (Prog.raises_require.mpr ⟨Bool.false_ne_true, rfl, rfl⟩)

/-- **A check before a write** passes if the new value is free, and is answered otherwise. -/
theorem whenChanged_cases {check : Option String → PlanSvc Unit} (hcheck : Checks T column check)
    (p : Plan) (new : PatchField String) :
    (Free T column (column p) new ∧ (whenChanged check (column p) new).Returns T () T) ∨
      ¬ Free T column (column p) new ∧
        ∃ text, (whenChanged check (column p) new).Raises T (.http 400 text) T := by
  rcases new with _ | new
  · exact Or.inl ⟨fun x hx => absurd hx (by simp), Prog.returns_pure.mpr ⟨rfl, rfl⟩⟩
  · by_cases hsame : new = some (column p)
    · simp only [whenChanged, if_pos hsame]
      refine Or.inl ⟨fun x hx hne => ?_, Prog.returns_pure.mpr ⟨rfl, rfl⟩⟩
      exact absurd (Option.some.inj ((Option.some.inj hx).symm.trans hsame)) hne
    · simp only [whenChanged, if_neg hsame]
      rcases hcheck new with ⟨hnone, hret⟩ | ⟨q, hq, heq, text, hraises⟩
      · refine Or.inl ⟨fun x hx _ q hq heq => hnone q hq ?_, hret⟩
        rw [heq]
        exact (Option.some.inj hx).symm
      · refine Or.inr ⟨fun hfree => ?_, text, hraises⟩
        refine hfree (column q) (by rw [heq]) (fun hqp => hsame ?_) q hq rfl
        rw [← heq, hqp]

theorem patched_ne {old : String} {new : PatchField String} {x : String} (hold : old ≠ x)
    (hnew : ∀ y, new = some (some y) → y ≠ old → x ≠ y) :
    (new.getD (some old)).getD old ≠ x := by
  rcases new with _ | _ | y
  · exact hold
  · exact hold
  · by_cases hsame : y = old
    · rw [hsame]
      exact hold
    · exact (hnew y rfl hsame).symm

/-- A slug and a name that are free leave both of them unique. -/
theorem exists_modify_of_free (hp : p ∈ T.rows) (hslug : Free T Plan.slug p.slug data.slug)
    (hname : Free T Plan.name p.name data.name) : ∃ T', T.modify p.id (patch data) = some T' := by
  refine (Table.exists_modify_iff (f := patch data) hp rfl fun _ => rfl).mpr fun q hq hne => ?_
  have hapart : (decide (p.name ≠ q.name) && decide (p.slug ≠ q.slug)) = true :=
    (T.apart_of_mem hp hq hne.symm).2
  simp only [Bool.and_eq_true, decide_eq_true_eq] at hapart
  have hn : (patch data p).name ≠ q.name :=
    patched_ne hapart.1 fun y hy hy' => hname y hy hy' q hq
  have hs : (patch data p).slug ≠ q.slug :=
    patched_ne hapart.2 fun y hy hy' => hslug y hy hy' q hq
  simp [Keyed.compatible, hn, hs]

theorem updateRow_returns {f : Plan → Plan} {T' : Table Plan} (hp : p ∈ T.rows)
    (hT : T.modify p.id f = some T') : (updateRow p.id f).Returns T (f p) T' := by
  have hfind : T.rows.find? (fun q => decide (q.id = p.id)) = some p := by
    rcases hf : T.rows.find? fun q => decide (q.id = p.id) with _ | q
    · exact absurd (List.find?_eq_none.mp hf p hp) (by simp)
    · have hid : q.id = p.id := by simpa using List.find?_some hf
      rw [hf, T.eq_of_key_eq (List.mem_of_find?_eq_some hf) hp hid]
  refine Prog.returns_bind.mpr ⟨T, T, Prog.returns_gets.mpr ⟨rfl, rfl⟩, ?_⟩
  refine Prog.returns_bind.mpr ⟨p, T, returns_orRaise.mpr ⟨hfind, rfl⟩, ?_⟩
  refine Prog.returns_bind.mpr ⟨T', T, returns_orRaise.mpr ⟨hT, rfl⟩, ?_⟩
  exact Prog.returns_bind.mpr ⟨(), T', Prog.returns_modify.mpr rfl, Prog.returns_pure.mpr ⟨rfl, rfl⟩⟩

/-- **Exactly when an update is answered**: where there is something to change, and slug and name
are free, no column that must have a value gets null. -/
theorem answered_updatePlan (hp : p ∈ T.rows) : Answered (updatePlan p data) T ↔
    (data.isEmpty = false → Free T Plan.slug p.slug data.slug → Free T Plan.name p.name data.name →
      data.storable) := by
  unfold updatePlan
  rcases hempty : data.isEmpty with _ | _
  · rw [if_neg Bool.false_ne_true]
    rcases whenChanged_cases (checks_slug T) p data.slug with ⟨hslug, hret⟩ | ⟨hslug, text, hraises⟩
    · rw [answered_bind_of_returns hret]
      rcases whenChanged_cases (checks_name T) p data.name with ⟨hname, hret⟩ |
        ⟨hname, text, hraises⟩
      · rw [answered_bind_of_returns hret]
        by_cases hstore : data.storable
        · rw [answered_pass hstore]
          obtain ⟨T', hT⟩ := exists_modify_of_free hp hslug hname
          exact iff_of_true (answered_of_returns (updateRow_returns hp hT)) fun _ _ _ => hstore
        · refine iff_of_false (fun h => ?_) fun h => hstore (h rfl hslug hname)
          exact Bool.noConfusion ((answered_fail hstore).mp h)
      · exact iff_of_true ((answered_bind_of_raises hraises).mpr rfl) fun _ _ h => absurd h hname
    · exact iff_of_true ((answered_bind_of_raises hraises).mpr rfl) fun _ h => absurd h hslug
  · rw [if_pos rfl]
    exact iff_of_true (answered_of_returns (Prog.returns_pure.mpr ⟨rfl, rfl⟩)) fun h =>
      absurd h (by simp)

end MarketingSuite.Plans.Updates
