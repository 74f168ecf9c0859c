import MarketingSuite.Workspaces.Repositories

/-! # The member service

`app/services/workspace_member.py`. For each operation there is one lemma that says what a call that
returns did: it read nothing but the member row, its guard passed, and it wrote that one row besides
a notification and an audit log. -/

namespace MarketingSuite.Workspaces.Members

open MarketingSuite.Lib.Programs MarketingSuite.Lib.Tables
open MarketingSuite.Base.Values MarketingSuite.Base.Models MarketingSuite.Base.Schema
open MarketingSuite.Repositories.Base MarketingSuite.Repositories.Records
open MarketingSuite.Workspaces.Repositories (ownerRoleOf getOwnerRole activeHolders mem_activeHolders
  getActiveMembers setMember_spec)

/-- `WorkspaceMemberService.get_member`. -/
def getMember (workspaceId memberId : Uuid) : Svc WorkspaceMember := do
  let found ← getById WorkspaceMember memberId
  let member ← orRaise found (.http 404 "Member not found")
  Prog.require (member.workspaceId = workspaceId) (.http 404 "Member not found")
  pure member

/-- `WorkspaceMemberService._protect_owner_role`. -/
def protectOwnerRole (workspaceId : Uuid) (memberToModify : WorkspaceMember) : Svc Unit := do
  let ownerRole ← getOwnerRole
  match ownerRole with
  | none => pure ()
  | some ownerRole =>
    if memberToModify.roleId = ownerRole.id ∧ memberToModify.status = .active then do
      let members ← getActiveMembers workspaceId
      let activeOwners := members.filter fun m => m.roleId = ownerRole.id
      Prog.require (1 < activeOwners.length)
        (.http 400 "Cannot remove or demote the last active owner of the workspace.")
    else pure ()

/-- The audit log and the notification at the end of every operation on a member. -/
def record (d : Draws) (user : User) (workspace : Workspace) (member : WorkspaceMember)
    (action : String) (oldValues newValues : Option (List (String × Json))) (title body : String)
    (type : NotificationType) (priority : NotificationPriority) : Svc Unit := do
  createAuditLog
    { workspaceId := some workspace.id, actorId := some user.id, action := action,
      resourceType := "workspace_member", resourceId := member.id, oldValues := oldValues,
      newValues := newValues, timestamp := d.now 1 }
  notify (d.uuid 0) workspace.id member.userId title body type priority (d.now 2)

/-- `WorkspaceMemberService.change_role`. -/
def changeRole (d : Draws) (user : User) (workspace : Workspace) (memberId newRoleId : Uuid) :
    Svc WorkspaceMember := do
  let member ← getMember workspace.id memberId
  if member.roleId = newRoleId then pure member else do
    protectOwnerRole workspace.id member
    let found ← getById Role newRoleId
    let role ← orRaise found (.http 404 "Role not found")
    let ownerRole ← getOwnerRole
    -- `owner_role.id` is read without a test for `None`
    let ownerRole ← orRaise ownerRole .attributeError
    Prog.require (newRoleId = ownerRole.id ∨ member.roleId = ownerRole.id →
        workspace.ownerId = user.id)
      (.http 403 "Only the workspace owner can assign or remove the Owner role.")
    let oldRoleId := member.roleId
    let changed ← Repositories.changeRole member.id newRoleId
    let member ← orRaise changed .attributeError
    record d user workspace member "UPDATE_MEMBER_ROLE" (some [("role_id", .id oldRoleId)])
      (some [("role_id", .id newRoleId)]) "Role Updated"
      s!"Your role in {workspace.name} has been updated to {role.name}." .system .normal
    pure member

/-- What `suspend_member`, `reactivate_member` and `remove_member` share: unless the row is as it
should be already, the guard, the write, the audit log and the notification. -/
def setStatus (d : Draws) (user : User) (workspace : Workspace) (memberId : Uuid)
    (already : WorkspaceMember → Prop) [DecidablePred already] (guard : WorkspaceMember → Svc Unit)
    (write : Uuid → Svc (Option WorkspaceMember)) (action title body : String)
    (type : NotificationType) (priority : NotificationPriority) : Svc WorkspaceMember := do
  let member ← getMember workspace.id memberId
  if already member then pure member else do
    guard member
    let changed ← write member.id
    let member ← orRaise changed .attributeError
    record d user workspace member action none none title body type priority
    pure member

/-- `WorkspaceMemberService.suspend_member`. -/
def suspendMember (d : Draws) (user : User) (workspace : Workspace) (memberId : Uuid) :
    Svc WorkspaceMember :=
  setStatus d user workspace memberId (fun m => m.status = .suspended)
    (protectOwnerRole workspace.id) Repositories.suspendMember "SUSPEND_MEMBER" "Account Suspended"
    s!"Your access to {workspace.name} has been suspended." .alert .high

/-- `WorkspaceMemberService.reactivate_member`. -/
def reactivateMember (d : Draws) (user : User) (workspace : Workspace) (memberId : Uuid) :
    Svc WorkspaceMember :=
  setStatus d user workspace memberId (fun m => m.status = .active) (fun _ => pure ())
    Repositories.reactivateMember "REACTIVATE_MEMBER" "Account Reactivated"
    s!"Your access to {workspace.name} has been restored." .system .normal

/-- The two checks of `remove_member`. -/
def checkRemoval (user : User) (workspace : Workspace) (member : WorkspaceMember) : Svc Unit := do
  Prog.require (workspace.ownerId = user.id)
    (.http 403 "Only the workspace owner can remove members.")
  protectOwnerRole workspace.id member

/-- `WorkspaceMemberService.remove_member`. -/
def removeMember (d : Draws) (user : User) (workspace : Workspace) (memberId : Uuid) :
    Svc Unit := do
  let _ ← setStatus d user workspace memberId (fun _ => False) (checkRemoval user workspace)
    (fun id => Repositories.removeMember id (d.now 0)) "REMOVE_MEMBER" "Removed from Workspace"
    s!"You have been removed from {workspace.name}." .alert .high
  pure ()

/-! ### What a call that returns did -/

variable {s s' : Database} {d : Draws} {user : User} {workspace : Workspace} {i r w : Uuid}
  {m a : WorkspaceMember}

/-- The member row with id `i`, if it is a live row of `w`. -/
def IsMember (s : Database) (w i : Uuid) (m : WorkspaceMember) : Prop :=
  m ∈ s.workspaceMembers.rows ∧ m.id = i ∧ m.deletedAt = none ∧ m.workspaceId = w

/-- `_protect_owner_role` lets a change of `m` pass. -/
def MayLose (s : Database) (w : Uuid) (m : WorkspaceMember) : Prop :=
  ∀ o, ownerRoleOf s = some o → m.roleId = o.id → m.status = .active →
    1 < (activeHolders s w o.id).length

/-- One member row was changed, besides notifications and audit logs. -/
def Changed (i : Uuid) (f : WorkspaceMember → WorkspaceMember) (s s' : Database) : Prop :=
  ∃ T N L, s.workspaceMembers.modify i f = some T ∧
    s' = { s with workspaceMembers := T, notifications := N, auditLogs := L }

theorem changed_of_recorded {f : WorkspaceMember → WorkspaceMember} {T : Table WorkspaceMember}
    (hT : s.workspaceMembers.modify i f = some T)
    (h : Recorded { s with workspaceMembers := T } s') : Changed i f s s' := by
  obtain ⟨N, L, rfl⟩ := h
  exact ⟨T, N, L, hT, rfl⟩

theorem getMember_spec (h : (getMember w i).Returns s m s') : s' = s ∧ IsMember s w i m := by
  unfold getMember at h
  rw [Prog.returns_bind] at h
  obtain ⟨found, t, hget, h⟩ := h
  obtain ⟨rfl, hf⟩ := getById_spec hget
  rw [Prog.returns_bind] at h
  obtain ⟨q, t, hq, h⟩ := h
  obtain ⟨rfl, rfl⟩ := returns_orRaise.mp hq
  rw [Prog.returns_bind] at h
  obtain ⟨_, t, hreq, h⟩ := h
  obtain ⟨hw, rfl⟩ := Prog.returns_require.mp hreq
  obtain ⟨rfl, rfl⟩ := Prog.returns_pure.mp h
  obtain ⟨hm, hk, hd⟩ := (hf m).mp rfl
  exact ⟨rfl, hm, hk, hd, hw⟩

theorem protectOwnerRole_spec {u : Unit} (h : (protectOwnerRole w m).Returns s u s') :
    s' = s ∧ MayLose s w m := by
  unfold protectOwnerRole at h
  rw [Prog.returns_bind] at h
  obtain ⟨o, t, ho, h⟩ := h
  obtain ⟨rfl, rfl⟩ := Repositories.returns_getOwnerRole.mp ho
  rcases hr : ownerRoleOf t with _ | o
  · rw [hr] at h
    obtain ⟨-, rfl⟩ := Prog.returns_pure.mp h
    refine ⟨rfl, fun o ho => ?_⟩
    rw [hr] at ho; exact absurd ho (by simp)
  · rw [hr] at h
    simp only [Prog.returns_ite] at h
    split_ifs at h with hc
    · rw [Prog.returns_bind] at h
      obtain ⟨l, t', hl, h⟩ := h
      obtain ⟨rfl, rfl⟩ := Prog.returns_gets.mp hl
      obtain ⟨hlt, rfl⟩ := Prog.returns_require.mp h
      refine ⟨rfl, fun o' ho' _ _ => ?_⟩
      rw [hr] at ho'
      obtain rfl := Option.some.inj ho'
      exact hlt
    · obtain ⟨-, rfl⟩ := Prog.returns_pure.mp h
      refine ⟨rfl, fun o' ho' h1 h2 => ?_⟩
      rw [hr] at ho'
      obtain rfl := Option.some.inj ho'
      exact absurd ⟨h1, h2⟩ hc

theorem checkRemoval_spec {u : Unit} (h : (checkRemoval user workspace m).Returns s u s') :
    s' = s ∧ workspace.ownerId = user.id ∧ MayLose s workspace.id m := by
  unfold checkRemoval at h
  rw [Prog.returns_bind] at h
  obtain ⟨_, t, hreq, h⟩ := h
  obtain ⟨ho, rfl⟩ := Prog.returns_require.mp hreq
  obtain ⟨rfl, hp⟩ := protectOwnerRole_spec h
  exact ⟨rfl, ho, hp⟩

theorem record_spec {action title body : String} {old new : Option (List (String × Json))}
    {type : NotificationType} {priority : NotificationPriority} {u : Unit}
    (h : (record d user workspace m action old new title body type priority).Returns s u s') :
    Recorded s s' := by
  unfold record at h
  rw [Prog.returns_bind] at h
  obtain ⟨_, t, hl, h⟩ := h
  exact recorded_trans (recorded_of_createAuditLog hl) (recorded_of_notify h)

/-- **`change_role`**: nothing to do, or the row has the new role, which is there, and whoever
touched the Owner role owned the workspace. -/
theorem changeRole_spec (h : (changeRole d user workspace i r).Returns s a s') :
    ∃ m, IsMember s workspace.id i m ∧ ((m.roleId = r ∧ s' = s) ∨
      m.roleId ≠ r ∧ MayLose s workspace.id m ∧ s.roles.has r = true ∧
      (∃ o, ownerRoleOf s = some o ∧
        (r = o.id ∨ m.roleId = o.id → workspace.ownerId = user.id)) ∧
      Changed i (fun m => { m with roleId := r }) s s') := by
  unfold changeRole at h
  rw [Prog.returns_bind] at h
  obtain ⟨m, t, hm, h⟩ := h
  obtain ⟨rfl, hm⟩ := getMember_spec hm
  refine ⟨m, hm, ?_⟩
  simp only [Prog.returns_ite] at h
  split_ifs at h with hr
  · obtain ⟨-, rfl⟩ := Prog.returns_pure.mp h
    exact Or.inl ⟨hr, rfl⟩
  · rw [Prog.returns_bind] at h
    obtain ⟨_, t', hp, h⟩ := h
    obtain ⟨rfl, hp⟩ := protectOwnerRole_spec hp
    rw [Prog.returns_bind] at h
    obtain ⟨found, t', hget, h⟩ := h
    obtain ⟨rfl, hfound⟩ := getById_spec hget
    rw [Prog.returns_bind] at h
    obtain ⟨role, t', hrole, h⟩ := h
    obtain ⟨rfl, rfl⟩ := returns_orRaise.mp hrole
    obtain ⟨hmem, hkey, -⟩ := (hfound role).mp rfl
    rw [Prog.returns_bind] at h
    obtain ⟨_, t', ho, h⟩ := h
    obtain ⟨rfl, rfl⟩ := Repositories.returns_getOwnerRole.mp ho
    rw [Prog.returns_bind] at h
    obtain ⟨o, t', ho, h⟩ := h
    obtain ⟨ho, rfl⟩ := returns_orRaise.mp ho
    rw [Prog.returns_bind] at h
    obtain ⟨_, t', hreq, h⟩ := h
    obtain ⟨hg, rfl⟩ := Prog.returns_require.mp hreq
    rw [Prog.returns_bind] at h
    obtain ⟨_, t', hc, h⟩ := h
    obtain ⟨rfl, T, hT, rfl⟩ := setMember_spec hc hm.1 rfl hm.2.2.1
    rw [Prog.returns_bind] at h
    obtain ⟨_, t', he, h⟩ := h
    obtain ⟨-, rfl⟩ := returns_orRaise.mp he
    rw [Prog.returns_bind] at h
    obtain ⟨_, t', hl, h⟩ := h
    obtain ⟨-, rfl⟩ := Prog.returns_pure.mp h
    rw [hm.2.1] at hT
    exact Or.inr ⟨hr, hp, Table.has_iff.mpr ⟨role, hmem, hkey⟩, ⟨o, ho, hg⟩,
      changed_of_recorded hT (record_spec hl)⟩

section SetStatus

variable {already : WorkspaceMember → Prop} [DecidablePred already]
  {guard : WorkspaceMember → Svc Unit} {write : Uuid → Svc (Option WorkspaceMember)}
  {f : WorkspaceMember → WorkspaceMember} {P : Database → WorkspaceMember → Prop}
  {action title body : String} {type : NotificationType} {priority : NotificationPriority}

theorem setStatus_spec (hwrite : write = fun i => Repositories.setMember i f)
    (hguard : ∀ {m u t}, (guard m).Returns s u t → t = s ∧ P s m)
    (h : (setStatus d user workspace i already guard write action title body type
      priority).Returns s a s') :
    ∃ m, IsMember s workspace.id i m ∧
      ((already m ∧ s' = s) ∨ ¬ already m ∧ P s m ∧ Changed i f s s') := by
  subst hwrite
  unfold setStatus at h
  rw [Prog.returns_bind] at h
  obtain ⟨m, t, hm, h⟩ := h
  obtain ⟨rfl, hm⟩ := getMember_spec hm
  refine ⟨m, hm, ?_⟩
  simp only [Prog.returns_ite] at h
  split_ifs at h with hal
  · obtain ⟨-, rfl⟩ := Prog.returns_pure.mp h
    exact Or.inl ⟨hal, rfl⟩
  · rw [Prog.returns_bind] at h
    obtain ⟨_, t', hg, h⟩ := h
    obtain ⟨rfl, hp⟩ := hguard hg
    rw [Prog.returns_bind] at h
    obtain ⟨_, t', hc, h⟩ := h
    obtain ⟨rfl, T, hT, rfl⟩ := setMember_spec hc hm.1 rfl hm.2.2.1
    rw [Prog.returns_bind] at h
    obtain ⟨_, t', he, h⟩ := h
    obtain ⟨-, rfl⟩ := returns_orRaise.mp he
    rw [Prog.returns_bind] at h
    obtain ⟨_, t', hl, h⟩ := h
    obtain ⟨-, rfl⟩ := Prog.returns_pure.mp h
    rw [hm.2.1] at hT
    exact Or.inr ⟨hal, hp, changed_of_recorded hT (record_spec hl)⟩

end SetStatus

theorem suspendMember_spec (h : (suspendMember d user workspace i).Returns s a s') :
    ∃ m, IsMember s workspace.id i m ∧ ((m.status = .suspended ∧ s' = s) ∨
      m.status ≠ .suspended ∧ MayLose s workspace.id m ∧
        Changed i (fun m => { m with status := .suspended }) s s') :=
  setStatus_spec (P := fun s m => MayLose s workspace.id m) rfl protectOwnerRole_spec h

theorem reactivateMember_spec (h : (reactivateMember d user workspace i).Returns s a s') :
    ∃ m, IsMember s workspace.id i m ∧ ((m.status = .active ∧ s' = s) ∨
      m.status ≠ .active ∧ Changed i (fun m => { m with status := .active }) s s') := by
  obtain ⟨m, hm, h⟩ := setStatus_spec (P := fun _ _ => True) rfl
    (fun hg => ⟨(Prog.returns_pure.mp hg).2, trivial⟩) h
  rcases h with h | ⟨h1, -, h2⟩
  · exact ⟨m, hm, Or.inl h⟩
  · exact ⟨m, hm, Or.inr ⟨h1, h2⟩⟩

theorem removeMember_spec {u : Unit} (h : (removeMember d user workspace i).Returns s u s') :
    ∃ m, IsMember s workspace.id i m ∧ workspace.ownerId = user.id ∧ MayLose s workspace.id m ∧
      Changed i (fun m => { m with status := .removed, deletedAt := some (d.now 0) }) s s' := by
  unfold removeMember at h
  rw [Prog.returns_bind] at h
  obtain ⟨a, t, h, h'⟩ := h
  obtain ⟨-, rfl⟩ := Prog.returns_pure.mp h'
  obtain ⟨m, hm, ⟨hf, -⟩ | ⟨-, ⟨ho, hp⟩, hc⟩⟩ :=
    setStatus_spec (P := fun s m => workspace.ownerId = user.id ∧ MayLose s workspace.id m) rfl
      checkRemoval_spec h
  · exact hf.elim
  · exact ⟨m, hm, ho, hp, hc⟩

end MarketingSuite.Workspaces.Members
