import MarketingSuite.Api.Access
import MarketingSuite.Lib.Sessions
import MarketingSuite.Tenants.Events

/-! # The routes of a workspace

The endpoints under `/workspaces/{workspace_id}`, each with the dependencies that it runs before its
body, and `/audit/workspace/{workspace_id}` of `app/operations/audit/router.py`. All of them but the
last ask for the workspace and for a permission. The audit route asks for the permission only, which
a suspended member still has. -/

namespace MarketingSuite.Api.Routes

open MarketingSuite.Lib.Programs MarketingSuite.Lib.Tables MarketingSuite.Lib.Sessions
open MarketingSuite.Lib.Runs
open MarketingSuite.Base.Values MarketingSuite.Base.Models MarketingSuite.Base.Schema
open MarketingSuite.Repositories.Base
open MarketingSuite.Api.Dependencies MarketingSuite.Api.Access
open MarketingSuite.Workspaces

/-! ### Endpoints and their dependencies -/

/-- The two dependencies of an endpoint: which one runs first, and the permission. -/
structure Guard where
  workspaceFirst : Bool
  resource : String
  action : String

/-- The endpoints under `/workspaces/{workspace_id}`. -/
inductive Route
  | getWorkspace | updateWorkspace | deleteWorkspace | transferOwnership
  | getMembers | getMember | updateMember | removeMember | suspendMember | reactivateMember
  | createInvite | getInvites | revokeInvite | resendInvite
  | createCampaign | listCampaigns | getCampaign | updateCampaign | deleteCampaign
  | changeCampaignStatus
  | generateAiContent | createCampaignContent | listCampaignContents | getCampaignContent
  | updateCampaignContent | deleteCampaignContent
  | connectSocialAccount | listSocialAccounts
  | publishContent | listPublishHistory
  | getDashboard | getAnalyticsOverview | listCampaignAnalytics | listAiUsageAnalytics

/-- What an endpoint depends on. A dependency of the decorator runs before those of the parameters.
-/
def Route.guard : Route → Guard
  | .getWorkspace => ⟨true, "workspace", "read"⟩
  | .updateWorkspace => ⟨true, "workspace", "update"⟩
  | .deleteWorkspace => ⟨true, "workspace", "delete"⟩
  | .transferOwnership => ⟨true, "workspace", "update"⟩
  | .getMembers => ⟨true, "workspace_member", "read"⟩
  | .getMember => ⟨true, "workspace_member", "read"⟩
  | .updateMember => ⟨true, "workspace_member", "update"⟩
  | .removeMember => ⟨true, "workspace_member", "delete"⟩
  | .suspendMember => ⟨true, "workspace_member", "update"⟩
  | .reactivateMember => ⟨true, "workspace_member", "update"⟩
  | .createInvite => ⟨true, "workspace_invite", "create"⟩
  | .getInvites => ⟨true, "workspace_invite", "read"⟩
  | .revokeInvite => ⟨true, "workspace_invite", "delete"⟩
  | .resendInvite => ⟨true, "workspace_invite", "update"⟩
  | .createCampaign => ⟨false, "campaign", "create"⟩
  | .listCampaigns => ⟨false, "campaign", "read"⟩
  | .getCampaign => ⟨false, "campaign", "read"⟩
  | .updateCampaign => ⟨false, "campaign", "update"⟩
  | .deleteCampaign => ⟨false, "campaign", "delete"⟩
  | .changeCampaignStatus => ⟨false, "campaign", "update"⟩
  | .generateAiContent => ⟨false, "ai", "create"⟩
  | .createCampaignContent => ⟨false, "content", "create"⟩
  | .listCampaignContents => ⟨false, "content", "read"⟩
  | .getCampaignContent => ⟨false, "content", "read"⟩
  | .updateCampaignContent => ⟨false, "content", "update"⟩
  | .deleteCampaignContent => ⟨false, "content", "delete"⟩
  | .connectSocialAccount => ⟨false, "social_accounts", "manage"⟩
  | .listSocialAccounts => ⟨false, "social_accounts", "read"⟩
  | .publishContent => ⟨false, "content", "publish"⟩
  | .listPublishHistory => ⟨false, "content", "read"⟩
  | .getDashboard => ⟨false, "analytics", "dashboard"⟩
  | .getAnalyticsOverview => ⟨false, "analytics", "read"⟩
  | .listCampaignAnalytics => ⟨false, "analytics", "read"⟩
  | .listAiUsageAnalytics => ⟨false, "analytics", "read"⟩

/-- Run the two dependencies for a user. -/
def Guard.check (g : Guard) (w : Uuid) (user : User) : Svc Unit :=
  if g.workspaceFirst = true then do
    let _ ← getCurrentWorkspace w user
    requirePermission g.resource g.action w user
  else do
    requirePermission g.resource g.action w user
    let _ ← getCurrentWorkspace w user
    pure ()

/-- All dependencies of an endpoint. -/
def dependencies (lower : String → String) (d : Draws) (caller : Caller) (g : Guard) (w : Uuid) :
    Svc User := do
  let user ← getCurrentUser lower d caller
  g.check w user
  pure user

/-- `AuditLogRepository.get_by_workspace`. -/
def getByWorkspace (w : Uuid) (limit offset : ℕ) : Svc (List AuditLog) :=
  Prog.gets fun db => (((db.auditLogs.filter fun l => l.workspaceId = some w).insertionSort
    fun l l' => l'.timestamp ≤ l.timestamp).drop offset).take limit

/-- `get_workspace_audit_logs`, with the bounds of its query parameters. -/
def getWorkspaceAuditLogs (lower : String → String) (d : Draws) (caller : Caller) (w : Uuid)
    (limit offset : ℤ) : Svc (List AuditLog) := do
  let _ ← permitted lower d caller "workspace" "read" w
  Prog.require (1 ≤ limit ∧ limit ≤ 1000 ∧ 0 ≤ offset) .validation
  getByWorkspace w limit.toNat offset.toNat

/-- A request to a workspace: an endpoint with the body that it runs for an admitted user, whatever
it does, or the audit route. -/
inductive Request (α : Type)
  | route (route : Route) (body : User → Prog (Session Database) Exc α)
  | auditLogs (limit offset : ℤ)

/-- What a request answers. -/
inductive Answer (α : Type)
  | body (a : α)
  | logs (l : List AuditLog)

/-- A request in its session. -/
def respond {α : Type} (lower : String → String) (d : Draws) (caller : Caller) (w : Uuid) :
    Request α → Svc (Answer α)
  | .route route body => Session.serve do
    let user ← Session.exec (dependencies lower d caller route.guard w)
    let a ← body user
    pure (.body a)
  | .auditLogs limit offset => Session.serve do
    let l ← Session.exec (getWorkspaceAuditLogs lower d caller w limit offset)
    pure (.logs l)

/-- The request raises, and nothing is committed. -/
def Refused {α : Type} (lower : String → String) (d : Draws) (caller : Caller) (w : Uuid)
    (s : Database) (q : Request α) : Prop :=
  (respond lower d caller w q).succeeds s = false ∧ (respond lower d caller w q s).2 = s

/-- The user neither owns the workspace nor is an active member. -/
def Outsider (s : Database) (w u : Uuid) : Prop :=
  (∀ ws ∈ s.workspaces.rows, ws.id = w → ws.ownerId ≠ u) ∧
    ∀ m, IsLive s w u m → m.status ≠ .active

/-- The request is for a page of the audit log, and the user has a live member row, in whatever
status, with a role that may read the workspace. -/
def ReadsLogs {α : Type} (s : Database) (w u : Uuid) : Request α → Prop
  | .auditLogs limit offset => (1 ≤ limit ∧ limit ≤ 1000 ∧ 0 ≤ offset) ∧
    ∃ m, IsLive s w u m ∧ Grants s m.roleId "workspace" "read"
  | .route _ _ => False

variable {lower : String → String} {d : Draws} {caller : Caller} {s t : Database} {w : Uuid}
  {user : User} {resource action : String} {α : Type}

/-! ### The tables that the dependencies read -/

/-- The tables that decide who is admitted to a workspace. -/
def accessTables (db : Database) :
    Table WorkspaceMember × Table Workspace × Table Permission × Table RolePermission :=
  (db.workspaceMembers, db.workspaces, db.permissions, db.rolePermissions)

theorem accessTables_of_getCurrentUser (h : (getCurrentUser lower d caller).Returns s user t) :
    accessTables t = accessTables s :=
  (frames_getCurrentUser (f := accessTables) fun _ _ => rfl).returns h

theorem permitted_congr (h : accessTables t = accessTables s) {u : Uuid} :
    Permitted t w u resource action ↔ Permitted s w u resource action := by
  obtain ⟨hm, hw, hp, hr⟩ : t.workspaceMembers = s.workspaceMembers ∧ t.workspaces = s.workspaces ∧
      t.permissions = s.permissions ∧ t.rolePermissions = s.rolePermissions := by
    simpa [accessTables] using h
  unfold Permitted IsLive Access.IsOpen Grants
  rw [hm, hw, hp, hr]

theorem enters_congr (h : accessTables t = accessTables s) {u : Uuid} :
    Enters t w u ↔ Enters s w u := by
  obtain ⟨hm, hw, -⟩ : t.workspaceMembers = s.workspaceMembers ∧ t.workspaces = s.workspaces ∧
      t.permissions = s.permissions ∧ t.rolePermissions = s.rolePermissions := by
    simpa [accessTables] using h
  unfold Enters IsLive Access.IsOpen
  rw [hm, hw]

/-! ### Who is admitted -/

theorem getCurrentWorkspace_returns (h : Enters s w user.id) :
    ∃ ws, (getCurrentWorkspace w user).Returns s ws s := by
  obtain ⟨ws, t, hret⟩ := Prog.succeeds_iff.mp (getCurrentWorkspace_succeeds_iff.mpr h)
  have hsame : t = s := (frames_getCurrentWorkspace (f := fun db => db)).returns hret
  subst hsame
  exact ⟨ws, hret⟩

theorem requirePermission_returns (h : Permitted s w user.id resource action) :
    (requirePermission resource action w user).Returns s () s := by
  obtain ⟨_, t, hret⟩ := Prog.succeeds_iff.mp (requirePermission_succeeds_iff.mpr h)
  have hsame : t = s := (frames_requirePermission (f := fun db => db)).returns hret
  subst hsame
  exact hret

theorem fails_bind {p : Svc α} {β : Type} {f : α → Svc β} (h : ¬ p.succeeds s = true) :
    ¬ (p >>= f).succeeds s = true := by
  intro h'
  obtain ⟨b, t, hret⟩ := Prog.succeeds_iff.mp h'
  obtain ⟨a, t', hp, -⟩ := Prog.returns_bind.mp hret
  exact h (Prog.succeeds_of_returns hp)

/-- **The two dependencies together**, in either order. -/
theorem check_succeeds_iff {g : Guard} : (g.check w user).succeeds s = true ↔
    Enters s w user.id ∧ Permitted s w user.id g.resource g.action := by
  unfold Guard.check
  by_cases he : Enters s w user.id
  · obtain ⟨ws, hget⟩ := getCurrentWorkspace_returns he
    split_ifs
    · rw [Prog.succeeds_bind hget, requirePermission_succeeds_iff]
      exact ⟨fun hp => ⟨he, hp⟩, fun h => h.2⟩
    · by_cases hp : Permitted s w user.id g.resource g.action
      · rw [Prog.succeeds_bind (requirePermission_returns hp), Prog.succeeds_bind hget]
        exact iff_of_true rfl ⟨he, hp⟩
      · refine iff_of_false (fails_bind ?_) fun h => hp h.2
        rw [requirePermission_succeeds_iff]
        exact hp
  · have hfail : ¬ (getCurrentWorkspace w user).succeeds s = true := by
      rw [getCurrentWorkspace_succeeds_iff]
      exact he
    refine iff_of_false ?_ fun h => he h.1
    split_ifs
    · exact fails_bind hfail
    · by_cases hp : Permitted s w user.id g.resource g.action
      · rw [Prog.succeeds_bind (requirePermission_returns hp)]
        exact fails_bind hfail
      · refine fails_bind ?_
        rw [requirePermission_succeeds_iff]
        exact hp

theorem dependencies_succeed_iff {g : Guard} (hu : (getCurrentUser lower d caller).Returns s user t) :
    (dependencies lower d caller g w).succeeds s = true ↔
      Enters s w user.id ∧ Permitted s w user.id g.resource g.action := by
  have htables := accessTables_of_getCurrentUser hu
  unfold dependencies
  rw [Prog.succeeds_bind hu, Prog.succeeds_bind_pure, check_succeeds_iff, enters_congr htables,
    permitted_congr htables]

/-! ### Who is locked out -/

theorem not_enters_of_outsider {u : Uuid} (h : Outsider s w u) : ¬ Enters s w u := by
  rintro ⟨ws, hopen, ⟨m, hm, hact⟩ | howner⟩
  · exact h.2 m hm hact
  · exact h.1 ws hopen.1 hopen.2.1 howner

/-- The permission of an outsider is that of a member row that he still has. -/
theorem permitted_iff_of_outsider {u : Uuid} (h : Outsider s w u) :
    Permitted s w u resource action ↔ ∃ m, IsLive s w u m ∧ Grants s m.roleId resource action := by
  refine ⟨?_, Or.inl⟩
  rintro (hm | ⟨-, ws, hopen, howner⟩)
  · exact hm
  · exact absurd howner (h.1 ws hopen.1 hopen.2.1)

theorem auditLogs_succeeds_iff {limit offset : ℤ}
    (hu : (getCurrentUser lower d caller).Returns s user t) :
    (getWorkspaceAuditLogs lower d caller w limit offset).succeeds s = true ↔
      Permitted s w user.id "workspace" "read" ∧ (1 ≤ limit ∧ limit ≤ 1000 ∧ 0 ≤ offset) := by
  have htables := accessTables_of_getCurrentUser hu
  by_cases hp : Permitted s w user.id "workspace" "read"
  · have hpermitted : (permitted lower d caller "workspace" "read" w).Returns s user t := by
      refine Prog.returns_bind.mpr ⟨user, t, hu, Prog.returns_bind.mpr ⟨(), t, ?_, ?_⟩⟩
      · exact requirePermission_returns ((permitted_congr htables).mpr hp)
      · exact Prog.returns_pure.mpr ⟨rfl, rfl⟩
    unfold getWorkspaceAuditLogs
    rw [Prog.succeeds_bind hpermitted]
    by_cases hl : 1 ≤ limit ∧ limit ≤ 1000 ∧ 0 ≤ offset
    · rw [Prog.succeeds_require hl]
      exact iff_of_true rfl ⟨hp, hl⟩
    · refine iff_of_false (fails_bind ?_) fun h => hl h.2
      rw [succeeds_require_iff]
      exact hl
  · refine iff_of_false (fails_bind ?_) fun h => hp h.1
    unfold permitted
    rw [Prog.succeeds_bind hu, Prog.succeeds_bind_pure, requirePermission_succeeds_iff,
      permitted_congr htables]
    exact hp

theorem refused_of_fails {p : Svc α} {β : Type} {f : α → Prog (Session Database) Exc β}
    (h : ¬ p.succeeds s = true) : (Session.serve (Session.exec p >>= f)).succeeds s = false ∧
      (Session.serve (Session.exec p >>= f) s).2 = s := by
  rcases p.returns_or_raises s with ⟨a, s', hret⟩ | ⟨e, s', hraise⟩
  · exact absurd (Prog.succeeds_of_returns hret) h
  · have hserve := Session.serve_exec_bind_raises (f := f) hraise
    refine ⟨?_, by rw [hserve]⟩
    unfold Prog.succeeds
    rw [hserve]

/-- **Who is no active member is locked out, except from the audit log**: every request by someone
else than the owner and the active members is refused, if it does not ask for the audit log on the
strength of a member row that is left. -/
theorem refused_iff (lower : String → String) (d : Draws) (caller : Caller) (s : Database) (w : Uuid)
    (q : Request α) (hu : (getCurrentUser lower d caller).Returns s user t)
    (ho : Outsider s w user.id) :
    Refused lower d caller w s q ↔ ¬ ReadsLogs s w user.id q := by
  cases q with
  | route route body =>
    refine iff_of_true (refused_of_fails ?_) fun h => h
    rw [dependencies_succeed_iff hu]
    exact fun h => not_enters_of_outsider ho h.1
  | auditLogs limit offset =>
    have hcond : (getWorkspaceAuditLogs lower d caller w limit offset).succeeds s = true ↔
        ReadsLogs (α := α) s w user.id (.auditLogs limit offset) := by
      rw [auditLogs_succeeds_iff hu, permitted_iff_of_outsider ho]
      exact And.comm
    by_cases hreads : ReadsLogs (α := α) s w user.id (.auditLogs limit offset)
    · refine iff_of_false ?_ (not_not.mpr hreads)
      rintro ⟨hfail, -⟩
      obtain ⟨l, s', hret⟩ := Prog.succeeds_iff.mp (hcond.mpr hreads)
      have hserve : (respond (α := α) lower d caller w (.auditLogs limit offset)).Returns s (.logs l)
          s := Session.returns_serve.mpr ⟨⟨s, some s'⟩, Prog.returns_bind_pure.mpr
            ⟨l, Session.returns_exec.mpr ⟨s', hret, rfl⟩, rfl⟩, rfl⟩
      rw [Prog.succeeds_of_returns hserve] at hfail
      exact absurd hfail (by decide)
    · refine iff_of_true (refused_of_fails ?_) hreads
      rw [hcond]
      exact hreads

/-- The second user became an admin (member 30) of the first one's workspace and is suspended. -/
def suspended : Database :=
  run (Tenants.Events.step id) Tenants.Events.chartered
    [.call (.on (drawsFrom 20 0 "t") 1 10 (.createInvite "admin@example.com" 6)),
      .call (.acceptInvite (drawsFrom 30 0 "") 2 "t"),
      .call (.on (drawsFrom 40 0 "") 1 10 (.suspendMember 30))]

/-- The second user's token. -/
def adminToken : Caller := .ok ⟨.id 2, some "admin@example.com"⟩

theorem outsider_suspended : Outsider suspended 10 2 := by
  refine ⟨by decide, fun m hm => ?_⟩
  have hall : ∀ m ∈ suspended.workspaceMembers.rows, m.userId = 2 → m.status ≠ .active := by decide
  exact hall m hm.1 hm.2.2.1

theorem refused_iff_suspended :
    Refused id (drawsFrom 50 0 "") adminToken 10 suspended
      (.route .getWorkspace fun _ => pure () : Request Unit) ↔
    ¬ ReadsLogs suspended 10 (userOf 2 "admin@example.com").id
      (.route .getWorkspace fun _ => pure () : Request Unit) :=
  refused_iff id (drawsFrom 50 0 "") adminToken suspended 10 _ (Prog.returns_of_fst (by decide))
    outsider_suspended

/-- The suspended admin reads the audit log of the workspace. -/
theorem suspended_admin_reads_logs :
    Outsider suspended 10 2 ∧ ¬ Refused id (drawsFrom 50 0 "") adminToken 10 suspended
      (.auditLogs 100 0 : Request Unit) ∧
    ∃ l, (respond id (drawsFrom 50 0 "") adminToken 10
      (.auditLogs 100 0 : Request Unit)).Returns suspended (.logs l) suspended ∧
      ∃ log ∈ l, log.workspaceId = some 10 := by
  refine ⟨outsider_suspended, fun h => absurd h.1 (by decide), _, rfl, ?_⟩
  decide

end MarketingSuite.Api.Routes
