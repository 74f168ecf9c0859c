import MarketingSuite.Campaigns.Awareness
import MarketingSuite.Content.Service
import MarketingSuite.Plans.Updates
import MarketingSuite.Workspaces.Updates

/-! # Partial updates

The services that copy the fields of a body which are set into a row: `update_workspace`,
`update_campaign`, `update_content` and `update_plan`. The bodies admit null in every field, and the
columns do not. -/

namespace MarketingSuite.Api.PartialUpdates

open MarketingSuite.Lib.Programs MarketingSuite.Lib.Tables
open MarketingSuite.Base.Values MarketingSuite.Base.Models MarketingSuite.Base.Schema
open MarketingSuite.Repositories.Base MarketingSuite.Repositories.Answers
open MarketingSuite.Campaigns.Service MarketingSuite.Campaigns.Awareness
open MarketingSuite.Content.Service (CampaignContentUpdate updateContent getContent
  getContent_returns IsContent)
open MarketingSuite.Plans.Service (Plan PlanSvc PlanUpdate getPlan updatePlan)
open MarketingSuite.Plans.Updates
open MarketingSuite.Workspaces.Updates

/-- A service over the plans. -/
def onPlans {α : Type} (p : PlanSvc α) : StoreSvc α :=
  Prog.focus Store.plans (fun s T => { s with plans := T }) p

/-- The partial updates, of a row with this id. -/
inductive Call
  | workspace (d : Draws) (user : User) (workspaceId : Uuid) (data : WorkspaceUpdate)
  | campaign (workspaceId campaignId : Uuid) (data : CampaignUpdate)
  | content (workspaceId campaignId contentId : Uuid) (data : CampaignContentUpdate)
  | plan (planId : Uuid) (data : PlanUpdate)

/-- The service behind a call, after the row was loaded. -/
def serve : Call → StoreSvc Unit
  | .workspace d user i data => do
    let w ← onDb (load Workspace i)
    let _ ← updateWorkspace d user w data
    pure ()
  | .campaign w i data => do
    let _ ← onDb (updateCampaign w i data)
    pure ()
  | .content w c i data => do
    let _ ← onDb (updateContent w c i data)
    pure ()
  | .plan i data => do
    let p ← onPlans (getPlan i)
    let _ ← onPlans (updatePlan p data)
    pure ()

/-- The call returns a row, whose columns have their values, or raises an `HTTPException`; no
statement of it breaks a NOT NULL. -/
structure Kept (s : Store) (call : Call) : Prop where
  answered : Answered (serve call) s
  statements : ∀ s', ¬ (serve call).Raises s .integrity s'

/-- Where the call gets to a write, it writes no null to a column that has none, keeps the foreign
keys and the unique names, compares dates of one kind, and gives the audit log no identifier. -/
def Sound (s : Store) : Call → Prop
  | .workspace _ _ i data => ∀ w ∈ s.db.workspaces.rows, w.id = i → data.dump.isEmpty = false →
    SlugFree s w data → Accepts s w data ∧ ¬ RawIds s w data
  | .campaign w i data => SameKind s.db (.update w i data) ∧ Storable s.db (.update w i data)
  | .content w c i data => ∀ r, IsContent s.db w c i r →
    data.storable ∧ Model.references s.db (Content.Service.patch data r) = true
  | .plan i data => ∀ p ∈ s.plans.rows, p.id = i → data.isEmpty = false →
    Free s.plans Plan.slug p.slug data.slug → Free s.plans Plan.name p.name data.name →
      data.storable

variable {s : Store} {db : Database} {w c i : Uuid}

theorem kept_iff_answered {call : Call} : Kept s call ↔ Answered (serve call) s :=
  ⟨Kept.answered, fun h => ⟨h, fun s' h' => Bool.noConfusion (h _ s' h')⟩⟩

/-! ### Parts of a store -/

section Focus

variable {σ τ α : Type} {get : τ → σ} {set : τ → σ → τ} {p : Prog σ Exc α} {t : τ}

/-- A service that works on a part is answered as on the part. -/
theorem answered_focus : Answered (Prog.focus get set p) t ↔ Answered p (get t) := by
  constructor
  · intro h e s' hraises
    exact h e _ (Prog.raises_focus.mpr ⟨s', hraises, rfl⟩)
  · intro h e t' hraises
    obtain ⟨s', hraises, -⟩ := Prog.raises_focus.mp hraises
    exact h e s' hraises

end Focus

/-! ### Rows that are not there -/

theorem answered_load {f : Workspace → StoreSvc Unit} :
    Answered (onDb (load Workspace i) >>= f) s ↔
      ∀ w ∈ s.db.workspaces.rows, w.id = i → Answered (f w) s := by
  by_cases hex : ∃ w ∈ s.db.workspaces.rows, w.id = i
  · obtain ⟨w, hw, hid⟩ := hex
    have hsel : (selectOne fun r : Workspace => Keyed.key r = i).Returns s.db (some w) s.db := by
      refine returns_selectOne_some hw (decide_eq_true hid) fun q hq hp => ?_
      exact s.db.workspaces.eq_of_key_eq hq hw ((of_decide_eq_true hp).trans hid.symm)
    have hload : (onDb (load Workspace i)).Returns s w s := Prog.returns_focus.mpr
      ⟨s.db, Prog.returns_bind.mpr ⟨_, _, hsel, returns_orRaise.mpr ⟨rfl, rfl⟩⟩, rfl⟩
    rw [answered_bind_of_returns hload]
    constructor
    · intro h v hv hvi
      obtain rfl : v = w := s.db.workspaces.eq_of_key_eq hv hw (hvi.trans hid.symm)
      exact h
    · exact fun h => h w hw hid
  · have hsel : (selectOne fun r : Workspace => Keyed.key r = i).Returns s.db none s.db :=
      returns_selectOne_none fun q hq hp => hex ⟨q, hq, of_decide_eq_true hp⟩
    have hload : (onDb (load Workspace i)).Raises s (.http 404 "Not Found") s :=
      Prog.raises_focus.mpr ⟨s.db, (Prog.raises_bind_of_returns hsel).mpr
        (raises_orRaise.mpr ⟨rfl, rfl, rfl⟩), rfl⟩
    exact iff_of_true ((answered_bind_of_raises hload).mpr rfl) fun w hw hid =>
      absurd ⟨w, hw, hid⟩ hex

theorem answered_getPlan {f : Plan → StoreSvc Unit} :
    Answered (onPlans (getPlan i) >>= f) s ↔
      ∀ p ∈ s.plans.rows, p.id = i → Answered (f p) s := by
  rcases hfind : s.plans.rows.find? fun p => decide (p.id = i) with _ | p
  · have hnone : ∀ p ∈ s.plans.rows, p.id ≠ i := fun p hp hid =>
      List.find?_eq_none.mp hfind p hp (decide_eq_true hid)
    have hread : (Prog.gets fun T => T.rows.find? fun p => decide (p.id = i) :
        PlanSvc (Option Plan)).Returns s.plans none s.plans :=
      Prog.returns_gets.mpr ⟨hfind.symm, rfl⟩
    have hget : (onPlans (getPlan i)).Raises s (.http 404 "Plan not found") s :=
      Prog.raises_focus.mpr ⟨s.plans, (Prog.raises_bind_of_returns hread).mpr
        (raises_orRaise.mpr ⟨rfl, rfl, rfl⟩), rfl⟩
    exact iff_of_true ((answered_bind_of_raises hget).mpr rfl) fun p hp hid =>
      absurd hid (hnone p hp)
  · have hp : p ∈ s.plans.rows := List.mem_of_find?_eq_some hfind
    have hid : p.id = i := by simpa using List.find?_some hfind
    have hget : (onPlans (getPlan i)).Returns s p s := Prog.returns_focus.mpr
      ⟨s.plans, Prog.returns_bind.mpr ⟨_, _, Prog.returns_gets.mpr ⟨hfind.symm, rfl⟩,
        returns_orRaise.mpr ⟨rfl, rfl⟩⟩, rfl⟩
    rw [answered_bind_of_returns hget]
    constructor
    · intro h q hq hqi
      obtain rfl : q = p := s.plans.eq_of_key_eq hq hp (hqi.trans hid.symm)
      exact h
    · exact fun h => h p hp hid

theorem answered_getContent {α : Type} {f : CampaignContent → Svc α} :
    Answered (getContent w c i >>= f) db ↔ ∀ r, IsContent db w c i r → Answered (f r) db := by
  by_cases hex : ∃ r, IsContent db w c i r
  · obtain ⟨r, hr⟩ := hex
    rw [answered_bind_of_returns (getContent_returns hr)]
    constructor
    · intro h q hq
      obtain rfl : q = r := db.campaignContents.eq_of_key_eq hq.1 hr.1 (hq.2.1.trans hr.2.1.symm)
      exact h
    · exact fun h => h r hr
  · have hraises : (getContent w c i).Raises db (.http 404 "Content not found") db := by
      obtain ⟨found, hget⟩ := exists_getById (ρ := CampaignContent) db i
      have hf := (getById_spec hget).2
      unfold getContent
      rw [Prog.raises_bind_of_returns hget]
      rcases found with _ | r
      · exact (Prog.raises_bind_of_raises (raises_orRaise.mpr ⟨rfl, rfl, rfl⟩)).mpr ⟨rfl, rfl⟩
      · obtain ⟨hm, hk, hd⟩ := (hf r).mp rfl
        have hwc : ¬ (r.workspaceId = w ∧ r.campaignId = c) := fun h => hex ⟨r, hm, hk, hd, h⟩
        rw [Prog.raises_bind_of_returns (returns_orRaise.mpr ⟨rfl, rfl⟩)]
        exact (Prog.raises_bind_of_raises (Prog.raises_require.mpr ⟨hwc, rfl, rfl⟩)).mpr ⟨rfl, rfl⟩
    exact iff_of_true ((answered_bind_of_raises hraises).mpr rfl) fun r hr => absurd ⟨r, hr⟩ hex

/-! ### The calls -/

theorem answered_updateContent {data : CampaignContentUpdate} :
    Answered (updateContent w c i data) db ↔ ∀ r, IsContent db w c i r →
      data.storable ∧ Model.references db (Content.Service.patch data r) = true := by
  unfold updateContent
  rw [answered_getContent]
  refine forall_congr' fun r => forall_congr' fun hr => ?_
  by_cases hstore : data.storable
  · -- no constraint looks at the fields of a content
    have hfree : ∃ T, db.campaignContents.modify r.id (Content.Service.patch data) = some T :=
      Table.exists_modify (fun _ => rfl) fun _ _ => rfl
    rw [answered_pass hstore, answered_update (i := r.id) hr.1 rfl, and_iff_right hstore]
    exact and_iff_left hfree
  · refine iff_of_false (fun h => ?_) fun h => hstore h.1
    exact Bool.noConfusion ((answered_fail hstore).mp h)

/-- **Exactly when a partial update is kept.** -/
theorem kept_updates_iff (s : Store) (call : Call) : Kept s call ↔ Sound s call := by
  rw [kept_iff_answered]
  cases call with
  | workspace d user i data =>
    rw [serve, answered_load]
    refine forall_congr' fun w => forall_congr' fun hw => imp_congr_right fun _ => ?_
    rw [answered_bind_pure]
    exact answered_updateWorkspace hw
  | campaign w i data =>
    rw [serve, answered_bind_pure, onDb, answered_focus]
    exact answered_updateCampaign
  | content w c i data =>
    rw [serve, answered_bind_pure, onDb, answered_focus]
    exact answered_updateContent
  | plan i data =>
    rw [serve, answered_getPlan]
    refine forall_congr' fun p => forall_congr' fun hp => imp_congr_right fun _ => ?_
    rw [answered_bind_pure, onPlans, answered_focus]
    exact answered_updatePlan hp

/-- The campaign of a workspace, and no plans. -/
def launchedStore : Store where
  db := launched
  plans := ⟨[], by simp⟩
  updatedBy _ := none

/-- A body that sets the name of a campaign to null. -/
def nameless : CampaignUpdate := { campaignName := some none }

/-- **A null for the name** passes the schema and the service, and ends in an `IntegrityError`. -/
theorem null_breaks_column : ¬ Kept launchedStore (.campaign 10 30 nameless) := by
  intro h
  have hraises : (serve (.campaign 10 30 nameless)).Raises launchedStore .integrity launchedStore :=
    rfl
  exact h.statements launchedStore hraises

end MarketingSuite.Api.PartialUpdates
