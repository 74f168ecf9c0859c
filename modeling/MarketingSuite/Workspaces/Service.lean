import MarketingSuite.Workspaces.Members

/-! # The workspace service

`create_workspace`, `transfer_ownership` and `delete_workspace` of `app/services/workspace.py`. -/

namespace MarketingSuite.Workspaces.Service

open MarketingSuite.Lib.Programs MarketingSuite.Lib.Tables
open MarketingSuite.Base.Values MarketingSuite.Base.Models MarketingSuite.Base.Schema
open MarketingSuite.Repositories.Base MarketingSuite.Repositories.Records
open MarketingSuite.Workspaces.Repositories (getBySlug getOwnerRole ownerRoleOf getMember
  getMember_spec setMember_spec transferOwnership_spec)

/-! ### Creating -/

/-- The characters that `[^a-z0-9]` does not match. -/
def isSlugChar (c : Char) : Bool := 'a' ≤ c && c ≤ 'z' || '0' ≤ c && c ≤ '9'

/-- `re.sub(r"[^a-z0-9]+", "-", …)`; `inRun` says that the run of matches goes on. -/
def dashRuns (inRun : Bool) : List Char → List Char
  | [] => []
  | c :: l =>
    if isSlugChar c then c :: dashRuns false l
    else if inRun then dashRuns true l
    else '-' :: dashRuns true l

/-- `WorkspaceService._generate_slug`. -/
def generateSlug (lower : String → String) (name : String) : String :=
  stripOf (fun c => c = '-') (String.ofList (dashRuns false (lower name).toList))

/-- `WorkspaceCreateInternal`. -/
structure WorkspaceCreateInternal where
  name : String
  slug : Option String := none
  logoUrl : Option String := none
  timezone : String := "UTC"
  industry : Option String := none
  country : Option String := none
  defaultLanguage : String := "en"
  status : WorkspaceStatus := .active
  planId : Option Uuid := none
  ownerId : Uuid
  createdBy : Uuid

/-- The row made of a request to create a workspace. -/
def workspaceOf (d : Draws) (data : WorkspaceCreateInternal) (slug : String) : Workspace where
  id := d.uuid 0
  name := data.name
  slug := slug
  logoUrl := data.logoUrl
  timezone := data.timezone
  industry := data.industry
  country := data.country
  defaultLanguage := data.defaultLanguage
  status := data.status
  planId := data.planId
  ownerId := data.ownerId
  createdBy := some data.createdBy
  deletedAt := none

/-- The membership of the creator. -/
def founder (d : Draws) (workspaceId userId ownerRoleId : Uuid) : WorkspaceMember where
  id := d.uuid 1
  workspaceId := workspaceId
  userId := userId
  roleId := ownerRoleId
  status := .active
  invitedBy := none
  acceptedAt := none
  joinedAt := some (d.now 0)
  deletedAt := none

/-- The audit log of an operation on a workspace. -/
def auditWorkspace (d : Draws) (user : User) (workspace : Workspace) (action : String)
    (oldValues newValues : Option (List (String × Json))) : Svc Unit :=
  createAuditLog
    { workspaceId := some workspace.id, actorId := some user.id, action := action,
      resourceType := "workspace", resourceId := workspace.id, oldValues := oldValues,
      newValues := newValues, timestamp := d.now 1 }

/-- `WorkspaceService.create_workspace`. -/
def createWorkspace (lower : String → String) (d : Draws) (user : User)
    (data : WorkspaceCreateInternal) : Svc Workspace := do
  let slug := orElse data.slug (generateSlug lower data.name)
  let existing ← getBySlug slug true
  Prog.require (existing.isNone = true) (.http 400 "Workspace slug already exists.")
  let workspace ← create (workspaceOf d data slug)
  let found ← getOwnerRole
  let ownerRole ← orRaise found (.http 500 "System Owner role not found")
  let _ ← create (founder d workspace.id user.id ownerRole.id)
  auditWorkspace d user workspace "CREATE" none
    (some [("name", .str workspace.name), ("slug", .str workspace.slug)])
  pure workspace

/-! ### Transferring and deleting -/

/-- `WorkspaceService.transfer_ownership`. -/
def transferOwnership (d : Draws) (user : User) (workspace : Workspace)
    (newOwnerId newRoleId : Uuid) : Svc Workspace := do
  Prog.require (workspace.ownerId = user.id) (.http 403 "Only the owner can transfer ownership.")
  let found ← getMember workspace.id newOwnerId
  let newOwnerMember ← orRaise found (.http 400 "New owner must be an active member.")
  Prog.require (newOwnerMember.status = .active)
    (.http 400 "New owner must be an active member.")
  let foundRole ← getOwnerRole
  let ownerRole ← orRaise foundRole (.http 500 "System Owner role not found")
  let workspace ← update workspace.id fun w : Workspace => { w with ownerId := newOwnerId }
  let _ ← Repositories.changeRole newOwnerMember.id ownerRole.id
  let _ ← Repositories.transferOwnership workspace.id user.id newOwnerId newRoleId
  auditWorkspace d user workspace "TRANSFER_OWNERSHIP" (some [("owner_id", .id user.id)])
    (some [("owner_id", .id newOwnerId)])
  notify (d.uuid 0) workspace.id newOwnerId "Workspace Ownership Transferred"
    s!"You are now the owner of {workspace.name}." .system .high (d.now 2)
  pure workspace

/-- `WorkspaceService.delete_workspace`. -/
def deleteWorkspace (d : Draws) (user : User) (workspace : Workspace) : Svc Unit := do
  Prog.require (workspace.ownerId = user.id) (.http 403 "Only the owner can delete the workspace.")
  let _ ← softDelete workspace.id fun w : Workspace => { w with deletedAt := some (d.now 0) }
  auditWorkspace d user workspace "DELETE" none none

/-! ### What a call that returns did -/

variable {s s' : Database} {d : Draws} {user : User} {workspace : Workspace}
  {lower : String → String} {data : WorkspaceCreateInternal} {a : Workspace} {n r : Uuid} {u : Unit}

/-- **`create_workspace`** adds the workspace, and its creator as an active member with the Owner
role. -/
theorem createWorkspace_spec (h : (createWorkspace lower d user data).Returns s a s') :
    ∃ o W T L, ownerRoleOf s = some o ∧
      a = workspaceOf d data (orElse data.slug (generateSlug lower data.name)) ∧
      s.workspaces.insert a = some W ∧
      s.workspaceMembers.insert (founder d a.id user.id o.id) = some T ∧
      s' = { s with workspaces := W, workspaceMembers := T, auditLogs := L } := by
  unfold createWorkspace at h
  rw [Prog.returns_bind] at h
  obtain ⟨_, t₁, hslug, h⟩ := h
  obtain ⟨rfl, -⟩ := selectOne_spec hslug
  rw [Prog.returns_bind] at h
  obtain ⟨_, t₂, hreq, h⟩ := h
  obtain ⟨-, rfl⟩ := Prog.returns_require.mp hreq
  rw [Prog.returns_bind] at h
  obtain ⟨w, t₃, hw, h⟩ := h
  obtain ⟨rfl, -, W, hW, rfl⟩ := returns_create.mp hw
  rw [Prog.returns_bind] at h
  obtain ⟨_, t₄, hrole, h⟩ := h
  obtain ⟨rfl, rfl⟩ := Repositories.returns_getOwnerRole.mp hrole
  rw [Prog.returns_bind] at h
  obtain ⟨o, t₅, hraise, h⟩ := h
  obtain ⟨ho, rfl⟩ := returns_orRaise.mp hraise
  rw [Prog.returns_bind] at h
  obtain ⟨_, t₆, hm, h⟩ := h
  obtain ⟨-, -, T, hT, rfl⟩ := returns_create.mp hm
  rw [Prog.returns_bind] at h
  obtain ⟨_, t₇, hlog, h⟩ := h
  obtain rfl := Prog.returns_modify.mp hlog
  obtain ⟨rfl, rfl⟩ := Prog.returns_pure.mp h
  exact ⟨o, W, T, _, ho, rfl, hW, hT, rfl⟩

/-- **`transfer_ownership`**: the owner made an active member the owner and gave them the Owner
role; after that, whatever live row is the caller's got the new role, which is there then. -/
theorem transferOwnership_spec (h : (transferOwnership d user workspace n r).Returns s a s') :
    workspace.ownerId = user.id ∧
    ∃ m ∈ s.workspaceMembers.rows, m.workspaceId = workspace.id ∧ m.userId = n ∧
      m.deletedAt = none ∧ m.status = .active ∧ ∃ o, ownerRoleOf s = some o ∧ ∃ W T T' N L,
      s.workspaces.modify workspace.id (fun w => { w with ownerId := n }) = some W ∧
      s.workspaceMembers.modify m.id (fun m => { m with roleId := o.id }) = some T ∧
      ((T' = T ∧ ∀ m ∈ T.rows, m.workspaceId = workspace.id → m.userId = user.id →
          m.deletedAt ≠ none) ∨
        ∃ m' ∈ T.rows, m'.workspaceId = workspace.id ∧ m'.userId = user.id ∧ m'.deletedAt = none ∧
          T.modify m'.id (fun m => { m with roleId := r }) = some T') ∧
      (T' = T ∨ s.roles.has r = true) ∧
      s' = { s with workspaces := W, workspaceMembers := T', notifications := N,
                    auditLogs := L } := by
  unfold transferOwnership at h
  rw [Prog.returns_bind] at h
  obtain ⟨_, t₁, hreq, h⟩ := h
  obtain ⟨howner, rfl⟩ := Prog.returns_require.mp hreq
  rw [Prog.returns_bind] at h
  obtain ⟨_, t₂, hget, h⟩ := h
  obtain ⟨rfl, hf⟩ := getMember_spec hget
  rw [Prog.returns_bind] at h
  obtain ⟨m, t₃, hraise, h⟩ := h
  obtain ⟨rfl, rfl⟩ := returns_orRaise.mp hraise
  obtain ⟨hm, hw, hn, hd⟩ := (hf m).mp rfl
  rw [Prog.returns_bind] at h
  obtain ⟨_, t₄, hreq, h⟩ := h
  obtain ⟨hact, rfl⟩ := Prog.returns_require.mp hreq
  rw [Prog.returns_bind] at h
  obtain ⟨_, t₅, hrole, h⟩ := h
  obtain ⟨rfl, rfl⟩ := Repositories.returns_getOwnerRole.mp hrole
  rw [Prog.returns_bind] at h
  obtain ⟨o, t₆, hraise, h⟩ := h
  obtain ⟨ho, rfl⟩ := returns_orRaise.mp hraise
  rw [Prog.returns_bind] at h
  obtain ⟨w, t₇, hupd, h⟩ := h
  obtain ⟨w₀, -, hk, rfl, -, W, hW, rfl⟩ := returns_update.mp hupd
  have hid : w₀.id = workspace.id := hk
  rw [Prog.returns_bind] at h
  obtain ⟨_, t₈, hch, h⟩ := h
  obtain ⟨-, T, hT, rfl⟩ := setMember_spec hch hm rfl hd
  rw [Prog.returns_bind] at h
  obtain ⟨_, t₉, htr, h⟩ := h
  rw [Prog.returns_bind] at h
  obtain ⟨_, t₁₀, hlog, h⟩ := h
  rw [Prog.returns_bind] at h
  obtain ⟨_, t₁₁, hnot, h⟩ := h
  obtain ⟨-, rfl⟩ := Prog.returns_pure.mp h
  have hrec := recorded_trans (recorded_of_createAuditLog hlog) (recorded_of_notify hnot)
  refine ⟨howner, m, hm, hw, hn, hd, hact, o, ho, W, T, ?_⟩
  rw [← hid]
  rcases Repositories.transferOwnership_spec htr with
    ⟨rfl, hno⟩ | ⟨m', hm', hw', hu', hd', hrole, T', hT', rfl⟩
  · obtain ⟨N, L, rfl⟩ := hrec
    exact ⟨T, N, L, by rw [hid]; exact hW, hT, Or.inl ⟨rfl, hno⟩, Or.inl rfl, rfl⟩
  · obtain ⟨N, L, rfl⟩ := hrec
    exact ⟨T', N, L, by rw [hid]; exact hW, hT, Or.inr ⟨m', hm', hw', hu', hd', hT'⟩,
      Or.inr hrole, rfl⟩

theorem deleteWorkspace_spec (h : (deleteWorkspace d user workspace).Returns s u s') :
    workspace.ownerId = user.id ∧ ∃ W L, s' = { s with workspaces := W, auditLogs := L } ∧
      (W = s.workspaces ∨ s.workspaces.modify workspace.id
        (fun w => { w with deletedAt := some (d.now 0) }) = some W) := by
  unfold deleteWorkspace at h
  rw [Prog.returns_bind] at h
  obtain ⟨_, t₁, hreq, h⟩ := h
  obtain ⟨howner, rfl⟩ := Prog.returns_require.mp hreq
  rw [Prog.returns_bind] at h
  obtain ⟨_, t₂, hdel, h⟩ := h
  obtain rfl := Prog.returns_modify.mp h
  rcases softDelete_spec hdel with rfl | ⟨W, hW, rfl⟩
  · exact ⟨howner, _, _, rfl, Or.inl rfl⟩
  · exact ⟨howner, W, _, rfl, Or.inr hW⟩

theorem deleteWorkspace_deletes (hw : workspace ∈ s.workspaces.rows)
    (h : (deleteWorkspace d user workspace).Returns s u s') :
    ∃ w ∈ s'.workspaces.rows, w.id = workspace.id ∧ w.deletedAt ≠ none := by
  unfold deleteWorkspace at h
  rw [Prog.returns_bind] at h
  obtain ⟨_, t₁, hreq, h⟩ := h
  obtain ⟨-, rfl⟩ := Prog.returns_require.mp hreq
  rw [Prog.returns_bind] at h
  obtain ⟨_, t₂, hdel, h⟩ := h
  obtain rfl := Prog.returns_modify.mp h
  rcases softDelete_marks (ρ := Workspace) hw rfl hdel with ⟨rfl, hd⟩ | ⟨W, hmem, rfl⟩
  · exact ⟨workspace, hw, rfl, hd⟩
  · exact ⟨_, hmem, rfl, Option.some_ne_none _⟩

end MarketingSuite.Workspaces.Service
