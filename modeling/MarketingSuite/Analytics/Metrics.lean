import MarketingSuite.Campaigns.Service
import MarketingSuite.Tenants.Events

/-! # The dashboard counts

`app/services/analytics/workspace_metrics.py`, `campaign_metrics.py` and `publishing_metrics.py` count
rows with queries of their own, next to the queries of the repositories. Those leave the deleted rows
out, these do not. -/

namespace MarketingSuite.Analytics.Metrics

open MarketingSuite.Lib.Programs MarketingSuite.Lib.Tables MarketingSuite.Lib.Runs
open MarketingSuite.Base.Values MarketingSuite.Base.Models MarketingSuite.Base.Schema
open MarketingSuite.Repositories.Base MarketingSuite.Campaigns.Service
open MarketingSuite.Workspaces

/-! ### The queries -/

/-- What `WorkspaceMetricsService.get_metrics` returns. -/
structure WorkspaceMetrics where
  connectedAccounts : ℕ
  members : ℕ

/-- What `CampaignMetricsService.get_metrics` returns. -/
structure CampaignMetrics where
  totalCampaigns : ℕ
  activeCampaigns : ℕ
  completedCampaigns : ℕ

/-- What `PublishingMetricsService.get_metrics` returns. -/
structure PublishingMetrics where
  publishedPosts : ℕ
  failedPosts : ℕ
  pendingPosts : ℕ

/-- `select(func.count(model.id)).where(p)`. -/
def countRows {ρ : Type} [Keyed ρ Uuid] [Model ρ] (p : ρ → Bool) : Svc ℕ :=
  Prog.gets fun db => ((table db : Table ρ).select p).length

/-- `WorkspaceMetricsService.get_metrics`. -/
def workspaceMetrics (workspaceId : Uuid) : Svc WorkspaceMetrics := do
  let accounts ← countRows fun a : SocialAccount => a.workspaceId = workspaceId
  let members ← countRows fun m : WorkspaceMember => m.workspaceId = workspaceId
  pure ⟨accounts, members⟩

/-- `CampaignMetricsService.get_metrics`. -/
def campaignMetrics (workspaceId : Uuid) : Svc CampaignMetrics := do
  let total ← countRows fun c : Campaign => c.workspaceId = workspaceId
  let active ← countRows fun c : Campaign => c.workspaceId = workspaceId && c.status = .active
  let completed ← countRows fun c : Campaign => c.workspaceId = workspaceId && c.status = .completed
  pure ⟨total, active, completed⟩

/-- The rows of the publish history of a workspace with a status. -/
def isPublication (workspaceId : Uuid) (status : PublishStatus) (h : PublishHistory) : Bool :=
  h.workspaceId = workspaceId && h.status = status

/-- `PublishingMetricsService.get_metrics`. -/
def publishingMetrics (workspaceId : Uuid) : Svc PublishingMetrics := do
  let published ← countRows (isPublication workspaceId .published)
  let failed ← countRows (isPublication workspaceId .failed)
  let pending ← countRows (isPublication workspaceId .pending)
  pure ⟨published, failed, pending⟩

/-- `WorkspaceMemberRepository.get_by_workspace`. -/
def getByWorkspace (workspaceId : Uuid) : Svc (List WorkspaceMember) :=
  selectAll fun m : WorkspaceMember => m.workspaceId = workspaceId && m.deletedAt.isNone

/-! ### Connecting an account -/

/-- `get_account_info("mock_token")` of the provider that the factory gives. Google's takes another
argument; the answer of LinkedIn is one of the network. -/
def accountInfo (hex : String) (linkedin : Except Exc (String × String)) :
    ApiProvider → Except Exc (String × String)
  | .meta => .error (.raised "Facebook OAuth not yet implemented")
  | .instagram => .error (.raised "Instagram OAuth not yet implemented")
  | .twitter => .error (.raised "Twitter OAuth not yet implemented")
  | .google => .error .typeError
  | .linkedin => linkedin
  | _ => .ok ("mock_acc_" ++ hex, "Mock Social Page")

/-- The row of a connected account. -/
def accountOf (d : Draws) (workspaceId : Uuid) (provider : ApiProvider) (info : String × String) :
    SocialAccount where
  id := d.uuid 0
  workspaceId := workspaceId
  provider := provider
  accountId := info.1
  name := info.2
  accessToken := "mock_access_token_value"
  refreshToken := some "mock_refresh_token_value"
  expiresAt := none
  isActive := true
  createdAt := d.now 0
  deletedAt := none

/-- `SocialAccountService.connect_account`. -/
def connectAccount (d : Draws) (hex : String) (linkedin : Except Exc (String × String))
    (workspaceId : Uuid) (provider : ApiProvider) : Svc SocialAccount := do
  let info ← Prog.ofExcept (accountInfo hex linkedin provider)
  create (accountOf d workspaceId provider info)

/-! ### The system -/

/-- The writing calls of the campaign service. -/
inductive CampaignCall
  | create (d : Draws) (ownerId : Uuid) (data : CampaignCreate)
  | update (campaignId : Uuid) (data : CampaignUpdate)
  | delete (d : Draws) (campaignId : Uuid)
  | changeStatus (campaignId : Uuid) (newStatus : CampaignStatus)

/-- What can happen to members, campaigns and social accounts. -/
inductive Event
  | tenant (e : Tenants.Events.Event)
  | campaign (workspaceId : Uuid) (c : CampaignCall)
  | connect (d : Draws) (hex : String) (linkedin : Except Exc (String × String))
      (workspaceId : Uuid) (provider : ApiProvider)

/-- The call of the campaign service. -/
def perform (w : Uuid) : CampaignCall → Svc Campaign
  | .create d ownerId data => createCampaign d w ownerId data
  | .update campaignId data => updateCampaign w campaignId data
  | .delete d campaignId => deleteCampaign d w campaignId
  | .changeStatus campaignId newStatus => changeStatus w campaignId newStatus

/-- The call behind an event. -/
def serve (lower : String → String) : Event → Svc Unit
  | .tenant e => Tenants.Events.serve lower e
  | .campaign w c => do
    let _ ← perform w c
    pure ()
  | .connect d hex linkedin w provider => do
    let _ ← connectAccount d hex linkedin w provider
    pure ()

/-- The state after an event. -/
def step (lower : String → String) (s : Database) (e : Event) : Database := (serve lower e).settle s

/-! ### Agreement -/

/-- The number of members is that of the members listed. -/
def MembersAgree (s : Database) (w : Uuid) : Prop :=
  ∃ m l, (workspaceMetrics w).Returns s m s ∧ (getByWorkspace w).Returns s l s ∧
    m.members = l.length

/-- The numbers of campaigns are those of the campaigns listed on a page that holds them all. -/
def CampaignsAgree (s : Database) (w : Uuid) : Prop :=
  ∀ limit : ℤ, s.campaigns.rows.length ≤ limit → ∃ m all active completed,
    (campaignMetrics w).Returns s m s ∧ (getByWorkspaceId w 0 limit).Returns s all s ∧
    (getByStatus w .active 0 limit).Returns s active s ∧
    (getByStatus w .completed 0 limit).Returns s completed s ∧
    m.totalCampaigns = all.length ∧ m.activeCampaigns = active.length ∧
    m.completedCampaigns = completed.length

/-- The dashboard of every workspace agrees with its lists. -/
def Agree (s : Database) : Prop := ∀ w, MembersAgree s w ∧ CampaignsAgree s w

/-- No member and no campaign is deleted. -/
structure Undeleted (s : Database) : Prop where
  members : ∀ m ∈ s.workspaceMembers.rows, m.deletedAt = none
  campaigns : ∀ c ∈ s.campaigns.rows, c.deletedAt = none

/-- The event removes a member or deletes a campaign. -/
def Event.hides : Event → Bool
  | .tenant (.call (.on _ _ _ (.removeMember _))) => true
  | .campaign _ (.delete _ _) => true
  | _ => false

/-- The event is no removal of a member and no deletion of a campaign that is accepted. -/
def Keeps (lower : String → String) (s : Database) (e : Event) : Prop :=
  e.hides = true → (serve lower e).succeeds s = false

variable {lower : String → String} {s s' : Database} {w : Uuid} {e : Event}

/-- A query that leaves deleted rows out counts as many as one that does not, exactly if no row is
deleted. -/
theorem length_filter_and {α : Type} {l : List α} {p q : α → Bool} :
    (l.filter p).length = (l.filter fun a => p a && q a).length ↔
      ∀ a ∈ l, p a = true → q a = true := by
  have hsplit : (l.filter fun a => p a && q a) = (l.filter p).filter q := by
    rw [List.filter_filter]
    exact List.filter_congr fun a _ => Bool.and_comm _ _
  rw [hsplit, eq_comm, List.length_filter_eq_length_iff]
  constructor
  · exact fun h a ha hp => h a (List.mem_filter.mpr ⟨ha, hp⟩)
  · exact fun h a ha => h a (List.mem_filter.mp ha).1 (List.mem_filter.mp ha).2

theorem membersAgree_iff : MembersAgree s w ↔
    ∀ m ∈ s.workspaceMembers.rows, m.workspaceId = w → m.deletedAt = none := by
  have hcount := length_filter_and (l := s.workspaceMembers.rows)
    (p := fun m => decide (m.workspaceId = w)) (q := fun m => m.deletedAt.isNone)
  simp only [decide_eq_true_eq, Option.isNone_iff_eq_none] at hcount
  rw [← hcount]
  constructor
  · rintro ⟨m, l, hm, hl, heq⟩
    obtain ⟨rfl, -⟩ := Prog.returns_gets.mp hl
    have hm' : m.members =
        (s.workspaceMembers.rows.filter fun m => decide (m.workspaceId = w)).length := by
      obtain ⟨rfl, -⟩ := Prog.returns_unique hm (Prog.returns_of_fst rfl)
      rfl
    exact hm'.symm.trans heq
  · exact fun heq => ⟨_, _, Prog.returns_of_fst rfl, Prog.returns_gets.mpr ⟨rfl, rfl⟩, heq⟩

theorem campaignsAgree_iff : CampaignsAgree s w ↔
    ∀ c ∈ s.campaigns.rows, c.workspaceId = w → c.deletedAt = none := by
  have hcount (p : Campaign → Bool) := length_filter_and (l := s.campaigns.rows)
    (p := p) (q := fun c => c.deletedAt.isNone)
  have hpage (p : Campaign → Bool) {limit : ℤ} (h : (s.campaigns.rows.length : ℤ) ≤ limit) :=
    exists_newestPage p Campaign.createdAt h
  constructor
  · intro h
    obtain ⟨m, all, -, -, hm, hall, -, -, htotal, -, -⟩ := h _ (Int.le_refl _)
    obtain ⟨l, hl, hperm⟩ := hpage (fun c => c.workspaceId = w && c.deletedAt.isNone) (Int.le_refl _)
    obtain ⟨rfl, -⟩ := Prog.returns_unique hl hall
    obtain ⟨rfl, -⟩ := Prog.returns_unique (Prog.returns_of_fst rfl) hm
    simpa using (hcount fun c => c.workspaceId = w).mp (htotal.trans hperm.length_eq)
  · intro h limit hlimit
    obtain ⟨all, hall, hperm⟩ := hpage (fun c => c.workspaceId = w && c.deletedAt.isNone) hlimit
    obtain ⟨active, hactive, hperm'⟩ := hpage
      (fun c => c.workspaceId = w && c.status = .active && c.deletedAt.isNone) hlimit
    obtain ⟨completed, hcompleted, hperm''⟩ := hpage
      (fun c => c.workspaceId = w && c.status = .completed && c.deletedAt.isNone) hlimit
    have hkept {p : Campaign → Bool} (hp : ∀ c, p c = true → c.workspaceId = w) :
        (s.campaigns.rows.filter p).length =
          (s.campaigns.rows.filter fun c => p c && c.deletedAt.isNone).length :=
      (hcount p).mpr fun c hc hpc => Option.isNone_iff_eq_none.mpr (h c hc (hp c hpc))
    refine ⟨_, all, active, completed, Prog.returns_of_fst rfl, hall, hactive, hcompleted, ?_, ?_, ?_⟩
    · rw [hperm.length_eq]
      exact hkept fun c hp => of_decide_eq_true hp
    · rw [hperm'.length_eq]
      refine hkept (p := fun c => c.workspaceId = w && c.status = .active) fun c hp => ?_
      exact of_decide_eq_true (Bool.and_eq_true_iff.mp hp).1
    · rw [hperm''.length_eq]
      refine hkept (p := fun c => c.workspaceId = w && c.status = .completed) fun c hp => ?_
      exact of_decide_eq_true (Bool.and_eq_true_iff.mp hp).1

/-- **The dashboards agree** with the lists exactly if nothing is deleted. -/
theorem agree_iff_undeleted : Agree s ↔ Undeleted s := by
  constructor
  · exact fun h => ⟨fun m hm => membersAgree_iff.mp (h m.workspaceId).1 m hm rfl,
      fun c hc => campaignsAgree_iff.mp (h c.workspaceId).2 c hc rfl⟩
  · exact fun h w => ⟨membersAgree_iff.mpr fun m hm _ => h.members m hm,
      campaignsAgree_iff.mpr fun c hc _ => h.campaigns c hc⟩

/-! ### What an event does -/

section Rows

variable {ρ : Type} [Keyed ρ Uuid] {del : ρ → Option Time} {T T' : Table ρ} {r : ρ} {i : Uuid}
  {f : ρ → ρ}

theorem undeleted_modify (hT : T.modify i f = some T') (hf : ∀ r, del (f r) = del r)
    (h : ∀ r ∈ T.rows, del r = none) : ∀ r ∈ T'.rows, del r = none :=
  Table.forall_modify hT h fun r hr _ => (hf r).trans (h r hr)

end Rows

/-- Whatever a call of the workspace system does besides a removal, it deletes no row. -/
theorem undeleted_effect {c : System.Call} (h : System.Effect lower s c s') (hs : Undeleted s)
    (hc : (Event.tenant (.call c)).hides = false) : Undeleted s' := by
  cases h with
  | kept hI => exact ⟨hs.members, hs.campaigns⟩
  | invited hw hI hins => exact ⟨hs.members, hs.campaigns⟩
  | reassigned hw hm hp ho hg hT =>
    exact ⟨undeleted_modify hT (fun _ => rfl) hs.members, hs.campaigns⟩
  | suspended hm hp hT => exact ⟨undeleted_modify hT (fun _ => rfl) hs.members, hs.campaigns⟩
  | reactivated hm hT => exact ⟨undeleted_modify hT (fun _ => rfl) hs.members, hs.campaigns⟩
  | removed hm hp hT => exact absurd hc (by simp [Event.hides])
  | transferred hw howner hm hn hact ho hT hT' hW =>
    have hfirst := undeleted_modify hT (fun _ => rfl) hs.members
    refine ⟨?_, hs.campaigns⟩
    rcases hT' with ⟨rfl, -⟩ | ⟨m', -, -, -, -, hT'⟩
    · exact hfirst
    · exact undeleted_modify hT' (fun _ => rfl) hfirst
  | accepted hu hi htok hpend hT hI =>
    refine ⟨?_, hs.campaigns⟩
    rcases hT with rfl | hT
    · exact hs.members
    · exact Table.forall_insert hT hs.members rfl

theorem not_undeleted_removeMember {d : Draws} {actor i : Uuid} {u : Unit}
    (h : (System.serve lower (.on d actor w (.removeMember i))).Returns s u s') :
    ¬ Undeleted s' := by
  obtain ⟨user, -, -, workspace, -, -, hop⟩ := System.serve_on h
  obtain ⟨m, hm, -, -, T, N, L, hT, rfl⟩ := Members.removeMember_spec hop
  intro hs
  exact Option.some_ne_none _ (hs.members _ (Table.mem_modify_self hT hm.1 hm.2.1))

theorem undeleted_tenant {e : Tenants.Events.Event} {u : Unit}
    (h : (Tenants.Events.serve lower e).Returns s u s') (hs : Undeleted s) :
    Undeleted s' ↔ (Event.tenant e).hides = false := by
  cases e with
  | call c =>
    rcases hc : (Event.tenant (.call c)).hides with _ | _
    · exact iff_of_true (undeleted_effect (System.effect_serve h) hs hc) rfl
    · refine iff_of_false ?_ Bool.noConfusion
      rcases c with ⟨d, actor, w, op⟩ | ⟨d, actor, token⟩
      · cases op with
        | removeMember i => exact not_undeleted_removeMember h
        | _ => simp [Event.hides] at hc
      · simp [Event.hides] at hc
  | createWorkspace d actor data =>
    obtain ⟨user, -, -, a, hcreate⟩ := Tenants.Events.serve_createWorkspace h
    obtain ⟨o, W, T, L, -, -, -, hT, rfl⟩ := Service.createWorkspace_spec hcreate
    exact iff_of_true ⟨Table.forall_insert hT hs.members rfl, hs.campaigns⟩ rfl
  | deleteWorkspace d actor w =>
    obtain ⟨user, -, -, workspace, -, -, hdelete⟩ := Tenants.Events.serve_deleteWorkspace h
    obtain ⟨-, W, L, rfl, -⟩ := Service.deleteWorkspace_spec hdelete
    exact iff_of_true ⟨hs.members, hs.campaigns⟩ rfl
  | cloneSystemRole d i w name =>
    obtain ⟨a, h, -⟩ := Prog.returns_bind_pure.mp h
    rcases Repositories.cloneSystemRoleToWorkspace_spec h with rfl | ⟨r, -, -, R, G, -, -, rfl⟩
    · exact iff_of_true hs rfl
    · exact iff_of_true ⟨hs.members, hs.campaigns⟩ rfl
  | expireInvites now =>
    obtain ⟨n, h, -⟩ := Prog.returns_bind_pure.mp h
    obtain ⟨I, -, rfl⟩ := Invitations.expireInvites_evolved h
    exact iff_of_true ⟨hs.members, hs.campaigns⟩ rfl
  | signIn d payload =>
    obtain ⟨a, h, -⟩ := Prog.returns_bind_pure.mp h
    rcases Tenants.Events.getOrCreateUser_spec h with rfl | ⟨U, -, rfl⟩
    · exact iff_of_true hs rfl
    · exact iff_of_true ⟨hs.members, hs.campaigns⟩ rfl

theorem undeleted_campaign {c : CampaignCall} {a : Campaign} (h : (perform w c).Returns s a s')
    (hs : Undeleted s) : Undeleted s' ↔ (Event.campaign w c).hides = false := by
  cases c with
  | create d o data =>
    unfold perform createCampaign at h
    rw [Prog.returns_bind] at h
    obtain ⟨_, s₁, hdates, h⟩ := h
    obtain ⟨-, rfl⟩ := returns_checkDates.mp hdates
    rw [Prog.returns_bind] at h
    obtain ⟨_, s₂, hkit, h⟩ := h
    obtain ⟨-, rfl⟩ := returns_checkBrandKit.mp hkit
    obtain ⟨rfl, -, T, hT, rfl⟩ := returns_create.mp h
    exact iff_of_true ⟨hs.members, Table.forall_insert hT hs.campaigns rfl⟩ rfl
  | update i data =>
    obtain ⟨c, -, -, -, T, hT, rfl⟩ := returns_updateCampaign.mp h
    exact iff_of_true ⟨hs.members, undeleted_modify hT (fun _ => rfl) hs.campaigns⟩ rfl
  | delete d i =>
    refine iff_of_false (fun hs' => ?_) Bool.noConfusion
    obtain ⟨c, -, rfl, -⟩ := deleteCampaign_spec h
    exact Option.some_ne_none _ (hs'.campaigns _ (mem_of_deleteCampaign h))
  | changeStatus i new =>
    obtain ⟨c, -, ⟨-, -, rfl⟩ | ⟨-, -, -, -, T, hT, rfl⟩⟩ := returns_changeStatus.mp h
    · exact iff_of_true hs rfl
    · exact iff_of_true ⟨hs.members, undeleted_modify hT (fun _ => rfl) hs.campaigns⟩ rfl

/-- An event that returns deletes a row exactly if it is made for that. -/
theorem undeleted_serve {u : Unit} (h : (serve lower e).Returns s u s') (hs : Undeleted s) :
    Undeleted s' ↔ e.hides = false := by
  cases e with
  | tenant e => exact undeleted_tenant h hs
  | campaign w c =>
    obtain ⟨a, h, -⟩ := Prog.returns_bind_pure.mp h
    exact undeleted_campaign h hs
  | connect d hex linkedin w provider =>
    obtain ⟨a, hconnect, -⟩ := Prog.returns_bind_pure.mp h
    obtain ⟨info, t, hinfo, hcreate⟩ := Prog.returns_bind.mp hconnect
    obtain ⟨-, rfl⟩ := Prog.returns_ofExcept.mp hinfo
    obtain ⟨-, -, T, -, rfl⟩ := returns_create.mp hcreate
    exact iff_of_true ⟨hs.members, hs.campaigns⟩ rfl

/-- **A step deletes no row** exactly if it is no accepted removal or deletion. -/
theorem undeleted_step (hs : Undeleted s) : Undeleted (step lower s e) ↔ Keeps lower s e := by
  unfold step Keeps
  rcases (serve lower e).settle_cases s with ⟨u, h⟩ | ⟨heq, hfails⟩
  · rw [undeleted_serve h hs, Prog.succeeds_of_returns h]
    rcases e.hides <;> simp
  · rw [heq]
    refine iff_of_true hs fun _ => Bool.eq_false_of_not_eq_true fun hok => ?_
    obtain ⟨u, s', h⟩ := Prog.succeeds_iff.mp hok
    exact hfails u s' h

/-- **The dashboards agree with the lists in every state of a run** exactly if no removal of a
member and no deletion of a campaign is accepted in it. -/
theorem dashboards_agree_iff (lower : String → String) {s : Database} (hs : Undeleted s)
    (l : List Event) :
    Always (step lower) Agree s l ↔ Along (step lower) (Keeps lower) s l := by
  refine always_iff_along (fun s e h => ?_) (agree_iff_undeleted.mpr hs)
  rw [agree_iff_undeleted]
  exact undeleted_step (agree_iff_undeleted.mp h)

/-- A campaign is made and started in a workspace. -/
def started : List Event :=
  [.campaign 10 (.create (drawsFrom 30 0 "") 1 { campaignName := "Launch" }),
    .campaign 10 (.changeStatus 30 .active)]

theorem started_agrees : Always (step id) Agree twoStudios started :=
  (dashboards_agree_iff id ⟨by decide, by decide⟩ started).mpr
    ⟨fun h => absurd h Bool.false_ne_true, fun h => absurd h Bool.false_ne_true, trivial⟩

/-- **A deleted campaign is still counted**, and no longer listed. -/
theorem deleted_is_counted : ¬ Always (step id) Agree twoStudios
    [.campaign 10 (.create (drawsFrom 30 0 "") 1 { campaignName := "Launch" }),
      .campaign 10 (.delete (drawsFrom 40 1 "") 30)] := by
  rintro ⟨-, -, h⟩
  have hundeleted := agree_iff_undeleted.mp h
  exact absurd hundeleted.campaigns (by decide)

end MarketingSuite.Analytics.Metrics
