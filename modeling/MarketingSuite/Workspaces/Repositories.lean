import MarketingSuite.Repositories.Records
import Mathlib.Data.List.Sort

/-! # Users, roles, workspaces, members and invites

The queries of `app/repositories` that the workspace services make: `user.py`, `rbac.py`,
`workspace.py`, `workspace_member.py` and `workspace_invite.py`. -/

namespace MarketingSuite.Workspaces.Repositories

open MarketingSuite.Lib.Programs MarketingSuite.Lib.Tables
open MarketingSuite.Base.Values MarketingSuite.Base.Models MarketingSuite.Base.Schema
open MarketingSuite.Repositories.Base

/-! ### Users and workspaces -/

/-- `UserRepository.get_by_email`. -/
def getByEmail (email : String) : Svc (Option User) :=
  selectOne fun u : User => u.email = email && u.deletedAt.isNone

/-- `WorkspaceRepository.get_by_slug`. -/
def getBySlug (slug : String) (includeDeleted : Bool) : Svc (Option Workspace) :=
  selectOne fun w : Workspace => w.slug = slug && (includeDeleted || w.deletedAt.isNone)

/-- `WorkspaceRepository.get_user_workspaces`. -/
def getUserWorkspaces (userId : Uuid) : Svc (List Workspace) :=
  Prog.gets fun db => db.workspaces.select fun w => (w.ownerId = userId ||
    db.workspaceMembers.rows.any fun m => m.workspaceId = w.id && m.userId = userId) &&
      w.deletedAt.isNone

/-! ### Roles -/

/-- The system roles, by name. -/
def systemRoles (db : Database) : List Role :=
  (db.roles.select fun r => r.isSystem).insertionSort fun r r' => r.name ≤ r'.name

/-- The role that every service picks out of the system roles as the Owner role. -/
def ownerRoleOf (db : Database) : Option Role := (systemRoles db).find? fun r => r.name = "Owner"

/-- `RoleRepository.get_system_roles`. -/
def getSystemRoles : Svc (List Role) := Prog.gets systemRoles

/-- `next((r for r in system_roles if r.name == "Owner"), None)`. -/
def getOwnerRole : Svc (Option Role) := do
  let systemRoles ← getSystemRoles
  pure (systemRoles.find? fun r => r.name = "Owner")

@[simp] theorem returns_getOwnerRole {s s' : Database} {o : Option Role} :
    getOwnerRole.Returns s o s' ↔ o = ownerRoleOf s ∧ s' = s := by
  unfold getOwnerRole getSystemRoles
  simp only [Prog.returns_bind, Prog.returns_gets, Prog.returns_pure]
  constructor
  · rintro ⟨_, _, ⟨rfl, rfl⟩, rfl, rfl⟩
    exact ⟨rfl, rfl⟩
  · rintro ⟨rfl, rfl⟩
    exact ⟨_, _, ⟨rfl, rfl⟩, rfl, rfl⟩

/-- The role that `clone_system_role_to_workspace` makes. -/
def customRole (d : Draws) (systemRole : Role) (workspaceId : Uuid) (newName : String) : Role where
  id := d.uuid 0
  workspaceId := some workspaceId
  name := newName
  description := systemRole.description
  roleType := .custom
  isSystem := false

/-- One of the grants that it copies, under the next id. -/
def cloneGrant (d : Draws) (roleId : Uuid) (x : RolePermission × ℕ) : Svc Unit := do
  let rp : RolePermission := ⟨d.uuid (x.2 + 1), roleId, x.1.permissionId⟩
  let _ ← create rp
  pure ()

/-- `RoleRepository.clone_system_role_to_workspace`. -/
def cloneSystemRoleToWorkspace (d : Draws) (systemRoleId workspaceId : Uuid) (newName : String) :
    Svc (Option Role) := do
  let systemRole ← selectOne fun r : Role => r.id = systemRoleId && r.isSystem
  match systemRole with
  | none => pure none
  | some systemRole => do
    let newRole ← create (customRole d systemRole workspaceId newName)
    let granted ← selectAll fun rp : RolePermission => rp.roleId = systemRole.id
    Prog.forEach (cloneGrant d newRole.id) granted.zipIdx
    pure (some newRole)

/-! ### Members -/

/-- The rows of `get_active_members` with this role. -/
def activeHolders (db : Database) (workspaceId roleId : Uuid) : List WorkspaceMember :=
  (db.workspaceMembers.select fun m => m.workspaceId = workspaceId && m.status = .active &&
    m.deletedAt.isNone).filter fun m => m.roleId = roleId

/-- `WorkspaceMemberRepository.get_active_members`. -/
def getActiveMembers (workspaceId : Uuid) : Svc (List WorkspaceMember) :=
  selectAll fun m : WorkspaceMember =>
    m.workspaceId = workspaceId && m.status = .active && m.deletedAt.isNone

/-- `WorkspaceMemberRepository.get_member`. -/
def getMember (workspaceId userId : Uuid) : Svc (Option WorkspaceMember) :=
  selectOne fun m : WorkspaceMember =>
    m.workspaceId = workspaceId && m.userId = userId && m.deletedAt.isNone

/-- What the member repository's writes share: the row found by `get_by_id` is changed. -/
def setMember (memberId : Uuid) (f : WorkspaceMember → WorkspaceMember) :
    Svc (Option WorkspaceMember) :=
  updateWhere memberId (fun _ => true) f

/-- `WorkspaceMemberRepository.change_role`. -/
def changeRole (memberId newRoleId : Uuid) : Svc (Option WorkspaceMember) :=
  setMember memberId fun m => { m with roleId := newRoleId }

/-- `WorkspaceMemberRepository.suspend_member`. -/
def suspendMember (memberId : Uuid) : Svc (Option WorkspaceMember) :=
  setMember memberId fun m => { m with status := .suspended }

/-- `WorkspaceMemberRepository.reactivate_member`. -/
def reactivateMember (memberId : Uuid) : Svc (Option WorkspaceMember) :=
  setMember memberId fun m => { m with status := .active }

/-- `WorkspaceMemberRepository.remove_member`. -/
def removeMember (memberId : Uuid) (now : Time) : Svc (Option WorkspaceMember) :=
  setMember memberId fun m => { m with status := .removed, deletedAt := some now }

/-- `WorkspaceMemberRepository.transfer_ownership`: the old owner's row gets the new role. -/
def transferOwnership (workspaceId oldOwnerId _newOwnerId newRoleId : Uuid) : Svc Bool := do
  let oldOwnerMember ← getMember workspaceId oldOwnerId
  match oldOwnerMember with
  | none => pure true
  | some m => do
    let _ ← update m.id fun m : WorkspaceMember => { m with roleId := newRoleId }
    pure true

variable {s s' : Database} {o : Option WorkspaceMember} {w u i r : Uuid}
  {f : WorkspaceMember → WorkspaceMember}

/-- `G` holds the grants of `s`, and besides them only grants of the role `r`. -/
def Granted (r : Uuid) (s : Database) (G : Table RolePermission) : Prop :=
  (∀ rp ∈ s.rolePermissions.rows, rp ∈ G.rows) ∧
    ∀ rp ∈ G.rows, rp ∈ s.rolePermissions.rows ∨ rp.roleId = r

theorem cloneGrants_spec {d : Draws} {l : List (RolePermission × ℕ)}
    (h : (Prog.forEach (cloneGrant d r) l).Returns s () s') :
    ∃ G, Granted r s G ∧ s' = { s with rolePermissions := G } := by
  refine Prog.forEach_inv
    (I := fun t => ∃ G, Granted r s G ∧ t = { s with rolePermissions := G }) ?_ l
    ⟨s.rolePermissions, ⟨fun _ h => h, fun _ h => Or.inl h⟩, rfl⟩ h
  rintro x t t' ⟨G, hG, rfl⟩ hx
  obtain ⟨_, hc, -⟩ := Prog.returns_bind_pure.mp hx
  obtain ⟨-, -, G', hG', rfl⟩ := returns_create.mp hc
  refine ⟨G', ⟨fun rp hrp => (Table.mem_insert hG').mpr (Or.inl (hG.1 rp hrp)), fun rp hrp => ?_⟩,
    rfl⟩
  rcases (Table.mem_insert hG').mp hrp with hold | rfl
  · exact hG.2 rp hold
  · exact Or.inr rfl

/-- **Cloning a system role** adds one role, of the workspace, with grants of its own. -/
theorem cloneSystemRoleToWorkspace_spec {d : Draws} {name : String} {a : Option Role}
    (h : (cloneSystemRoleToWorkspace d i w name).Returns s a s') :
    s' = s ∨ ∃ r ∈ s.roles.rows, r.isSystem = true ∧ ∃ R G,
      s.roles.insert (customRole d r w name) = some R ∧ Granted (d.uuid 0) s G ∧
      s' = { s with roles := R, rolePermissions := G } := by
  unfold cloneSystemRoleToWorkspace at h
  rw [Prog.returns_bind] at h
  obtain ⟨found, t, hget, h⟩ := h
  obtain ⟨rfl, hf⟩ := selectOne_spec hget
  rcases found with _ | r
  · obtain ⟨-, rfl⟩ := Prog.returns_pure.mp h
    exact Or.inl rfl
  · obtain ⟨hr, hp⟩ := (hf r).mp rfl
    simp only [Bool.and_eq_true, decide_eq_true_eq] at hp
    rw [Prog.returns_bind] at h
    obtain ⟨r', t₁, hc, h⟩ := h
    obtain ⟨rfl, -, R, hR, rfl⟩ := returns_create.mp hc
    rw [Prog.returns_bind] at h
    obtain ⟨l, t₂, hl, h⟩ := h
    obtain ⟨-, rfl⟩ := Prog.returns_gets.mp hl
    obtain ⟨_, hloop, -⟩ := Prog.returns_bind_pure.mp h
    obtain ⟨G, hG, rfl⟩ := cloneGrants_spec hloop
    exact Or.inr ⟨r, hr, hp.2, R, G, hR, hG, rfl⟩

theorem activeHolders_sublist : (activeHolders s w r).Sublist s.workspaceMembers.rows := by
  unfold activeHolders Table.select
  exact List.filter_sublist.trans List.filter_sublist

theorem mem_activeHolders {m : WorkspaceMember} : m ∈ activeHolders s w r ↔
    m ∈ s.workspaceMembers.rows ∧ m.workspaceId = w ∧ m.status = .active ∧ m.deletedAt = none ∧
      m.roleId = r := by
  simp only [activeHolders, List.mem_filter, Table.mem_select, Bool.and_eq_true,
    decide_eq_true_eq, Option.isNone_iff_eq_none, and_assoc]

theorem getMember_spec (h : (getMember w u).Returns s o s') : s' = s ∧ ∀ m, o = some m ↔
    m ∈ s.workspaceMembers.rows ∧ m.workspaceId = w ∧ m.userId = u ∧ m.deletedAt = none := by
  obtain ⟨rfl, h⟩ := selectOne_spec h
  refine ⟨rfl, fun m => ?_⟩
  rw [h m]
  simp only [Bool.and_eq_true, decide_eq_true_eq, Option.isNone_iff_eq_none, and_assoc]
  rfl

/-- The lookup does not fail: the unique constraint leaves one row for a user and a workspace. -/
theorem getMember_returns (s : Database) (w u : Uuid) : ∃ o, (getMember w u).Returns s o s := by
  by_cases h : ∃ m ∈ s.workspaceMembers.rows, m.workspaceId = w ∧ m.userId = u ∧ m.deletedAt = none
  · obtain ⟨m, hm, hw, hu, hd⟩ := h
    refine ⟨some m, returns_selectOne_some hm (by simp [hw, hu, hd]) fun q hq hp => ?_⟩
    simp only [Bool.and_eq_true, decide_eq_true_eq] at hp
    refine s.workspaceMembers.eq_of_not_compatible hq hm ?_
    simp [Keyed.compatible, hp.1.1, hp.1.2, hw, hu]
  · refine ⟨none, returns_selectOne_none fun q hq hp => h ?_⟩
    simp only [Bool.and_eq_true, decide_eq_true_eq, Option.isNone_iff_eq_none] at hp
    exact ⟨q, hq, hp.1.1, hp.1.2, hp.2⟩

theorem setMember_spec (h : (setMember i f).Returns s o s') {m : WorkspaceMember}
    (hm : m ∈ s.workspaceMembers.rows) (hi : m.id = i) (hd : m.deletedAt = none) :
    o = some (f m) ∧ ∃ T, s.workspaceMembers.modify i f = some T ∧
      s' = { s with workspaceMembers := T } := by
  rcases updateWhere_spec h with ⟨-, hno⟩ | ⟨m', hm', hk, -, -, rfl, T, hT, rfl⟩
  · exact absurd (hno m hm hi hd).2 (by simp)
  · have : m' = m := s.workspaceMembers.eq_of_key_eq hm' hm (hk.trans hi.symm)
    subst this
    exact ⟨rfl, T, hT, rfl⟩

theorem transferOwnership_spec {b : Bool} {v : Uuid}
    (h : (transferOwnership w u v r).Returns s b s') :
    (s' = s ∧ ∀ m ∈ s.workspaceMembers.rows, m.workspaceId = w → m.userId = u →
      m.deletedAt ≠ none) ∨
    ∃ m ∈ s.workspaceMembers.rows, m.workspaceId = w ∧ m.userId = u ∧ m.deletedAt = none ∧
      s.roles.has r = true ∧
      ∃ T, s.workspaceMembers.modify m.id (fun m => { m with roleId := r }) = some T ∧
        s' = { s with workspaceMembers := T } := by
  unfold transferOwnership at h
  rw [Prog.returns_bind] at h
  obtain ⟨found, t, hget, h⟩ := h
  obtain ⟨rfl, hf⟩ := getMember_spec hget
  rcases found with _ | m
  · obtain ⟨-, rfl⟩ := Prog.returns_pure.mp h
    exact Or.inl ⟨rfl, fun m hm hw hu hd => absurd ((hf m).mpr ⟨hm, hw, hu, hd⟩) (by simp)⟩
  · obtain ⟨hm, hw, hu, hd⟩ := (hf m).mp rfl
    rw [Prog.returns_bind] at h
    obtain ⟨_, v, hv, h⟩ := h
    obtain ⟨q, -, -, -, href, T, hT, rfl⟩ := returns_update.mp hv
    simp only [Model.references, Bool.and_eq_true] at href
    obtain ⟨-, rfl⟩ := Prog.returns_pure.mp h
    exact Or.inr ⟨m, hm, hw, hu, hd, href.1.2, T, hT, rfl⟩

/-! ### Invites -/

/-- The row that `create_invitation` adds. -/
def invitation (lower : String → String) (d : Draws) (workspaceId : Uuid) (email : String)
    (roleId inviterId : Uuid) (expiresAt : Time) : WorkspaceInvite where
  id := d.uuid 0
  workspaceId := workspaceId
  email := strip (lower email)
  roleId := roleId
  inviterId := some inviterId
  token := d.token
  status := .pending
  acceptedAt := none
  revokedAt := none
  expiresAt := expiresAt

/-- `WorkspaceInviteRepository.create_invitation`. -/
def createInvitation (lower : String → String) (d : Draws) (workspaceId : Uuid) (email : String)
    (roleId inviterId : Uuid) (expiresAt : Time) : Svc WorkspaceInvite :=
  create (invitation lower d workspaceId email roleId inviterId expiresAt)

/-- `WorkspaceInviteRepository.get_by_token`. -/
def getByToken (token : String) : Svc (Option WorkspaceInvite) :=
  selectOne fun i : WorkspaceInvite => i.token = token

/-- `WorkspaceInviteRepository.get_pending_invites`. -/
def getPendingInvites (workspaceId : Uuid) : Svc (List WorkspaceInvite) :=
  selectAll fun i : WorkspaceInvite => i.workspaceId = workspaceId && i.status = .pending

/-- `WorkspaceInviteRepository.accept_invite`; `now` is read by the test, `acceptedAt` by the write.
-/
def acceptInvite (inviteId : Uuid) (now acceptedAt : Time) : Svc (Option WorkspaceInvite) := do
  let invite ← getById WorkspaceInvite inviteId
  match invite with
  | none => pure none
  | some i =>
    if i.status = .pending ∧ now < i.expiresAt then do
      let i ← update i.id fun i : WorkspaceInvite =>
        { i with status := .accepted, acceptedAt := some acceptedAt }
      pure (some i)
    else pure none

/-- `WorkspaceInviteRepository.revoke_invite`. -/
def revokeInvite (inviteId : Uuid) (now : Time) : Svc (Option WorkspaceInvite) :=
  updateWhere inviteId (fun i : WorkspaceInvite => i.status = .pending)
    fun i => { i with status := .revoked, revokedAt := some now }

/-- `WorkspaceInviteRepository.expire_invites`. -/
def expireInvites (now : Time) : Svc ℕ :=
  updateAll (fun i : WorkspaceInvite => i.status = .pending && i.expiresAt ≤ now)
    fun i => { i with status := .expired }

/-- A value bound to a `TIMESTAMP WITHOUT TIME ZONE` column: the driver refuses an aware one. -/
def bindNaive (t : DateTime) : Except Exc Time :=
  if t.aware = true then .error .dataError else .ok t.instant

/-- `WorkspaceInviteRepository.resend_invite`. -/
def resendInvite (inviteId : Uuid) (newExpiresAt : DateTime) : Svc (Option WorkspaceInvite) := do
  let invite ← getById WorkspaceInvite inviteId
  match invite with
  | none => pure none
  | some i =>
    if i.status = .pending then do
      let expiresAt ← Prog.ofExcept (bindNaive newExpiresAt)
      let i ← update i.id fun i : WorkspaceInvite => { i with expiresAt := expiresAt }
      pure (some i)
    else pure (some i)

end MarketingSuite.Workspaces.Repositories
