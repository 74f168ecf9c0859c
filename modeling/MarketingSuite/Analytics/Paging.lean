import MarketingSuite.Lib.Paging
import MarketingSuite.Plans.Service

/-! # Reading a listing page by page

The plans, which `PlanService.get_plans` orders by their price, and the rows of
`app/repositories/analytics.py`, which `get_by_workspace_id` does not order at all. What the order
leaves open the database decides anew for each query. -/

namespace MarketingSuite.Analytics.Paging

open MarketingSuite.Lib.Programs MarketingSuite.Lib.Tables MarketingSuite.Lib.Paging
open MarketingSuite.Base.Values MarketingSuite.Repositories.Base
open MarketingSuite.Plans.Service

/-! ### The analytics repositories -/

/-- A row of `campaign_analytics`, which has one for each campaign. -/
structure CampaignAnalytics where
  id : Uuid
  workspaceId : Uuid
  campaignId : Uuid
  impressions : ℕ
  reach : ℕ
  clicks : ℕ
  likes : ℕ
  comments : ℕ
  shares : ℕ
  saves : ℕ

/-- A row of `ai_usage`. -/
structure AIUsage where
  id : Uuid
  workspaceId : Uuid
  provider : String
  model : String
  generations : ℤ
  successCount : ℤ
  failureCount : ℤ
  totalTokens : ℤ

instance : Keyed CampaignAnalytics Uuid where
  key := CampaignAnalytics.id
  compatible r q := r.campaignId ≠ q.campaignId
  symm r q := by simp [eq_comm]

instance : Keyed AIUsage Uuid where
  key := AIUsage.id
  compatible _ _ := true
  symm _ _ := rfl

/-- The rows of a workspace, or of one of its campaigns. -/
def ofCampaign (workspaceId : Uuid) (campaignId : Option Uuid) (r : CampaignAnalytics) : Bool :=
  r.workspaceId = workspaceId && campaignId.all fun c => r.campaignId = c

/-- `CampaignAnalyticsRepository.get_by_workspace_id`. -/
def campaignAnalyticsByWorkspace (arrange : List CampaignAnalytics → List CampaignAnalytics)
    (workspaceId : Uuid) (skip limit : ℤ) (campaignId : Option Uuid) :
    Prog (Table CampaignAnalytics) Exc (List CampaignAnalytics) :=
  selectPage (fun T => T.select (ofCampaign workspaceId campaignId)) arrange skip limit

/-- `AIUsageRepository.get_by_workspace_id`. -/
def aiUsageByWorkspace (arrange : List AIUsage → List AIUsage) (workspaceId : Uuid)
    (skip limit : ℤ) : Prog (Table AIUsage) Exc (List AIUsage) :=
  selectPage (fun T => T.select fun r => r.workspaceId = workspaceId) arrange skip limit

/-! ### Reading -/

/-- However the database arranges the rows for each query: the queries return, and the pages up to
the first short one have every row of `l` once. -/
def Partitions {σ ρ β : Type} [LinearOrder β] (key : ρ → β)
    (query : (List ρ → List ρ) → ℤ → ℤ → Prog σ Exc (List ρ)) (s : σ) (n : ℕ) (l : List ρ) : Prop :=
  ∀ arrange : ℕ → List ρ → List ρ, (∀ i, Orders key (arrange i)) →
    ∃ pages, (∀ i : ℕ, (query (arrange i) (i * n : ℕ) n).Returns s (pages i) s) ∧
      ∃ read, Gathers pages n 0 read ∧ read.Perm l

/-- The listings. -/
inductive Listing
  | plans (T : Table Plan) (activeOnly : Bool)
  | campaignAnalytics (T : Table CampaignAnalytics) (workspaceId : Uuid) (campaignId : Option Uuid)
  | aiUsage (T : Table AIUsage) (workspaceId : Uuid)

/-- Its pages of size `n` have every matching row once. Rows without an order all tie. -/
def PagesPartition (n : ℕ) : Listing → Prop
  | .plans T activeOnly => Partitions Plan.monthlyPrice
      (fun arrange skip limit => getPlans arrange skip limit activeOnly) T n
      (T.select (listed activeOnly))
  | .campaignAnalytics T w c => Partitions (fun _ => ())
      (fun arrange skip limit => campaignAnalyticsByWorkspace arrange w skip limit c) T n
      (T.select (ofCampaign w c))
  | .aiUsage T w => Partitions (fun _ => ())
      (fun arrange skip limit => aiUsageByWorkspace arrange w skip limit) T n
      (T.select fun r => r.workspaceId = w)

/-- No page of plans ends among plans of the same price, and the rows that have no order fit on one
page. -/
def Undivided (n : ℕ) : Listing → Prop
  | .plans T activeOnly =>
    ∀ j, ¬ Divided Plan.monthlyPrice (T.select (listed activeOnly)) (j * n)
  | .campaignAnalytics T w c => (T.select (ofCampaign w c)).length ≤ n
  | .aiUsage T w => (T.select fun r => r.workspaceId = w).length ≤ n

/-- **The rule for a query** that selects a page of rows. -/
theorem partitions_iff {ρ κ β : Type} [Keyed ρ κ] [LinearOrder β] {key : ρ → β} {p : ρ → Bool}
    {query : (List ρ → List ρ) → ℤ → ℤ → Prog (Table ρ) Exc (List ρ)} {T : Table ρ} {n : ℕ}
    (hquery : query = selectPage fun T => T.select p) (hn : 0 < n) :
    Partitions key query T n (T.select p) ↔ ∀ j, ¬ Divided key (T.select p) (j * n) := by
  have hnodup : (T.select p).Nodup := T.nodup.filter _
  rw [← gathers_iff hnodup hn]
  constructor
  · intro h arr harr
    choose arrange horders harrange using fun i => exists_orders (harr i)
    obtain ⟨pages, hpages, hread⟩ := h arrange horders
    have heq : pages = fun i => page (arr i) (i * n) n := by
      funext i
      have hret := hpages i
      rw [hquery] at hret
      rw [(returns_selectPage.mp hret).1, harrange i]
      rfl
    rwa [heq] at hread
  · intro h arrange horders
    refine ⟨fun i => page (arrange i (T.select p)) (i * n) n, fun i => ?_,
      h _ fun i => horders i _⟩
    rw [hquery]
    exact returns_selectPage.mpr ⟨rfl, rfl⟩

/-- **Exactly when the pages of a listing partition it.** -/
theorem pagesPartition_iff (listing : Listing) {n : ℕ} (hn : 0 < n) :
    PagesPartition n listing ↔ Undivided n listing := by
  cases listing with
  | plans T activeOnly =>
    have hquery : (fun arrange skip limit => getPlans arrange skip limit activeOnly) =
        selectPage fun T => T.select (listed activeOnly) := rfl
    exact partitions_iff hquery hn
  | campaignAnalytics T w c =>
    have hquery : (fun arrange skip limit => campaignAnalyticsByWorkspace arrange w skip limit c) =
        selectPage fun T => T.select (ofCampaign w c) := rfl
    exact (partitions_iff hquery hn).trans (not_divided_of_const (v := ()) hn fun _ _ => rfl)
  | aiUsage T w =>
    have hquery : (fun arrange skip limit => aiUsageByWorkspace arrange w skip limit) =
        selectPage fun T => T.select fun r => r.workspaceId = w := rfl
    exact (partitions_iff hquery hn).trans (not_divided_of_const (v := ()) hn fun _ _ => rfl)

/-! ### Three plans -/

/-- An active plan. -/
def planNamed (id : Uuid) (name : String) (price : ℚ≥0) : Plan where
  id := id
  name := name
  slug := name
  description := none
  monthlyPrice := price
  yearlyPrice := price
  maxUsers := 1
  maxWorkspaces := 1
  maxAiCredits := 0
  features := none
  isActive := true
  createdAt := 0

/-- Two of the three plans cost the same. -/
def offer : Table Plan :=
  ⟨[planNamed 1 "free" 0, planNamed 2 "team" 10, planNamed 3 "solo" 10], by decide⟩

/-- Pages of three leave the two together. -/
theorem offer_in_threes : PagesPartition 3 (.plans offer true) :=
  (pagesPartition_iff _ (by decide)).mpr fun j => by
    rcases j with _ | j
    · rintro ⟨a, -, hlow, -⟩
      exact absurd hlow (Nat.not_lt_zero _)
    · exact not_divided_of_length_le (Nat.le_mul_of_pos_left 3 (Nat.succ_pos j))

/-- **Pages of two do not**: the same plan can be on both pages, and the other one on none. -/
theorem offer_in_twos : ¬ PagesPartition 2 (.plans offer true) := by
  intro h
  have hquery : (fun arrange skip limit => getPlans arrange skip limit true) =
      selectPage fun T => T.select (listed true) := rfl
  refine (partitions_iff hquery (by decide)).mp h 1 ⟨planNamed 2 "team" 10, ?_, ?_⟩
  · simp [offer, listed, planNamed]
  · decide

end MarketingSuite.Analytics.Paging
