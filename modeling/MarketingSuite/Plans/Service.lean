import MarketingSuite.Repositories.Base
import Mathlib.Algebra.Field.Rat

/-! # Plans

`app/services/plan.py` and `app/repositories/plan.py`. The plans are listed by their monthly price,
which many of them may share. -/

namespace MarketingSuite.Plans.Service

open MarketingSuite.Lib.Programs MarketingSuite.Lib.Tables
open MarketingSuite.Base.Values MarketingSuite.Repositories.Base

/-- A row of `plans`. The checks of the table forbid negative numbers. -/
structure Plan where
  id : Uuid
  name : String
  slug : String
  description : Option String
  monthlyPrice : ℚ≥0
  yearlyPrice : ℚ≥0
  maxUsers : ℕ
  maxWorkspaces : ℕ
  maxAiCredits : ℕ
  features : Option Json
  isActive : Bool
  createdAt : Time

instance : Keyed Plan Uuid where
  key := Plan.id
  compatible p q := p.name ≠ q.name && p.slug ≠ q.slug
  symm p q := by simp [eq_comm]

/-- A service over the plans. -/
abbrev PlanSvc (α : Type) : Type := Prog (Table Plan) Exc α

/-- `PlanUpdate`. -/
structure PlanUpdate where
  name : PatchField String := none
  slug : PatchField String := none
  description : PatchField String := none
  monthlyPrice : PatchField ℚ≥0 := none
  yearlyPrice : PatchField ℚ≥0 := none
  maxUsers : PatchField ℕ := none
  maxWorkspaces : PatchField ℕ := none
  maxAiCredits : PatchField ℕ := none
  features : PatchField Json := none
  isActive : PatchField Bool := none

/-- `PlanRepository.get_by_slug`. No row has a null slug. -/
def getBySlug (slug : Option String) : PlanSvc (Option Plan) :=
  Prog.gets fun T => T.rows.find? fun p => some p.slug = slug

/-- `plan_repo.get_all(filters={"name": name}, limit=1)`, of which one row is the most. -/
def getByName (name : Option String) : PlanSvc (List Plan) :=
  Prog.gets fun T => (T.select fun p => some p.name = name).take 1

/-- The rows that `get_plans` selects from. -/
def listed (activeOnly : Bool) (p : Plan) : Bool := !activeOnly || p.isActive

/-- `PlanService.get_plans`. -/
def getPlans (arrange : List Plan → List Plan) (skip limit : ℤ) (activeOnly : Bool) :
    PlanSvc (List Plan) :=
  selectPage (fun T => T.select (listed activeOnly)) arrange skip limit

/-- `PlanService.get_plan`. -/
def getPlan (planId : Uuid) : PlanSvc Plan := do
  let found ← Prog.gets fun T => T.rows.find? fun p => p.id = planId
  orRaise found (.http 404 "Plan not found")

/-- "Plan slug already exists." -/
def checkSlug (slug : Option String) : PlanSvc Unit := do
  let existing ← getBySlug slug
  Prog.require (existing.isNone = true) (.http 400 "Plan slug already exists.")

/-- "Plan name already exists." -/
def checkName (name : Option String) : PlanSvc Unit := do
  let existing ← getByName name
  Prog.require (existing.isEmpty = true) (.http 400 "Plan name already exists.")

/-- `model_dump(exclude_unset=True)` is empty. -/
def PlanUpdate.isEmpty (data : PlanUpdate) : Bool :=
  data.name.isNone && data.slug.isNone && data.description.isNone && data.monthlyPrice.isNone &&
    data.yearlyPrice.isNone && data.maxUsers.isNone && data.maxWorkspaces.isNone &&
    data.maxAiCredits.isNone && data.features.isNone && data.isActive.isNone

/-- The request sets no NOT NULL column to null. -/
def PlanUpdate.storable (data : PlanUpdate) : Prop :=
  data.name ≠ some none ∧ data.slug ≠ some none ∧ data.monthlyPrice ≠ some none ∧
    data.yearlyPrice ≠ some none ∧ data.maxUsers ≠ some none ∧ data.maxWorkspaces ≠ some none ∧
    data.maxAiCredits ≠ some none ∧ data.isActive ≠ some none

instance (data : PlanUpdate) : Decidable data.storable := by
  unfold PlanUpdate.storable
  infer_instance

/-- The fields of a plan that `model_dump(exclude_unset=True)` sets. -/
def patch (data : PlanUpdate) (p : Plan) : Plan :=
  { p with
    name := (data.name.getD (some p.name)).getD p.name
    slug := (data.slug.getD (some p.slug)).getD p.slug
    description := data.description.getD p.description
    monthlyPrice := (data.monthlyPrice.getD (some p.monthlyPrice)).getD p.monthlyPrice
    yearlyPrice := (data.yearlyPrice.getD (some p.yearlyPrice)).getD p.yearlyPrice
    maxUsers := (data.maxUsers.getD (some p.maxUsers)).getD p.maxUsers
    maxWorkspaces := (data.maxWorkspaces.getD (some p.maxWorkspaces)).getD p.maxWorkspaces
    maxAiCredits := (data.maxAiCredits.getD (some p.maxAiCredits)).getD p.maxAiCredits
    features := data.features.getD p.features
    isActive := (data.isActive.getD (some p.isActive)).getD p.isActive }

/-- `BaseRepository.update` of a plan. -/
def updateRow (planId : Uuid) (f : Plan → Plan) : PlanSvc Plan := do
  let T ← Prog.gets fun T => T
  let p ← orRaise (T.rows.find? fun p => p.id = planId) .attributeError
  let T' ← orRaise (T.modify planId f) .integrity
  Prog.modify fun _ => T'
  pure (f p)

/-- A check of a key that the dictionary has, with another value than the row. -/
def whenChanged (check : Option String → PlanSvc Unit) (old : String) :
    PatchField String → PlanSvc Unit
  | none => pure ()
  | some new => if new = some old then pure () else check new

/-- `PlanService.update_plan`. -/
def updatePlan (plan : Plan) (data : PlanUpdate) : PlanSvc Plan :=
  if data.isEmpty = true then pure plan else do
    whenChanged checkSlug plan.slug data.slug
    whenChanged checkName plan.name data.name
    -- a null breaks the NOT NULL of its column
    Prog.require data.storable .integrity
    updateRow plan.id (patch data)

end MarketingSuite.Plans.Service
