import MarketingSuite.Lib.Journals
import MarketingSuite.Lib.Lookups
import MarketingSuite.Tenants.Events

/-! # The audit trail

What the audit log tells of the tenants. Every entry that the workspace services write can be read
as a report; a reader who knows how the members and the workspaces stood can go through the reports
one by one, and each must fit what the earlier ones told: who is suspended was not, and whoever
removes a member, hands a workspace over or deletes it owns it at that time. Invites are written
about as well, but their expiry and the revocation of duplicates are not. -/

namespace MarketingSuite.Tenants.AuditTrail

open MarketingSuite.Lib.Programs MarketingSuite.Lib.Tables MarketingSuite.Lib.Runs
open MarketingSuite.Lib.Journals
open MarketingSuite.Base.Values MarketingSuite.Base.Models MarketingSuite.Base.Schema
open MarketingSuite.Repositories.Base MarketingSuite.Repositories.Records
open MarketingSuite.Api.Dependencies (getOrCreateUser)
open MarketingSuite.Workspaces
open MarketingSuite.Workspaces.Members (IsMember)
open MarketingSuite.Tenants.Events (Event serve step)

/-! ### Reports -/

/-- What an entry tells. -/
inductive Report
  | suspended (member : Uuid)
  | reactivated (member : Uuid)
  | removed (workspace actor member : Uuid)
  | reassigned (member : Uuid)
  | created (workspace actor : Uuid)
  | transferred (workspace actor old new : Uuid)
  | deleted (workspace actor : Uuid)
  | other

/-- The report of an entry about a member. -/
def readMember (log : AuditLog) (workspace actor : Uuid) : Report :=
  if log.action = "SUSPEND_MEMBER" then .suspended log.resourceId
  else if log.action = "REACTIVATE_MEMBER" then .reactivated log.resourceId
  else if log.action = "REMOVE_MEMBER" then .removed workspace actor log.resourceId
  else if log.action = "UPDATE_MEMBER_ROLE" then .reassigned log.resourceId
  else .other

/-- The owner in the values of an entry. -/
def ownerIn : Option (List (String × Json)) → Option Uuid
  | some [(key, .id i)] => if key = "owner_id" then some i else none
  | _ => none

/-- The report of an entry about a workspace. -/
def readWorkspace (log : AuditLog) (actor : Uuid) : Report :=
  if log.action = "CREATE" then .created log.resourceId actor
  else if log.action = "DELETE" then .deleted log.resourceId actor
  else if log.action = "TRANSFER_OWNERSHIP" then
    match ownerIn log.oldValues, ownerIn log.newValues with
    | some old, some new => .transferred log.resourceId actor old new
    | _, _ => .other
  else .other

/-- The report of an entry. -/
def readLog (log : AuditLog) : Report :=
  match log.workspaceId, log.actorId with
  | some workspace, some actor =>
    if log.resourceType = "workspace_member" then readMember log workspace actor
    else if log.resourceType = "workspace" then readWorkspace log actor
    else .other
  | _, _ => .other

/-! ### How the tenants stand -/

/-- The status of each member row, `none` if it is deleted; the owner of each workspace, `none` if
there is none; and which workspaces are deleted. Who is no member yet will be an active one. -/
@[ext] structure Standing where
  member : Uuid → Option MemberStatus
  owner : Uuid → Option Uuid
  closed : Uuid → Bool

/-- The status of a row, if it is not deleted. -/
def statusOf : Option WorkspaceMember → Option MemberStatus
  | none => some .active
  | some m => if m.deletedAt.isNone = true then some m.status else none

/-- How the tenants stand in a database. -/
def standing (s : Database) : Standing where
  member i := statusOf (s.workspaceMembers.lookup i)
  owner w := (s.workspaces.lookup w).map Workspace.ownerId
  closed w := (s.workspaces.lookup w).any fun r => r.deletedAt.isSome

/-- A member whose status is admitted gets a new one. -/
def Standing.turn (v : Standing) (i : Uuid) (admits : MemberStatus → Bool)
    (new : Option MemberStatus) : Option Standing :=
  if (v.member i).any admits = true then
    some { v with member := Function.update v.member i new }
  else none

/-- How the tenants stand after a report, if it can be true. -/
def Standing.after (v : Standing) : Report → Option Standing
  | .suspended i => v.turn i (fun st => st ≠ .suspended) (some .suspended)
  | .reactivated i => v.turn i (fun st => st ≠ .active) (some .active)
  | .removed w actor i => if v.owner w = some actor then v.turn i (fun _ => true) none else none
  | .reassigned i => v.turn i (fun _ => true) (v.member i)
  | .created w actor =>
    if v.owner w = none then some { v with owner := Function.update v.owner w (some actor) }
    else none
  | .transferred w actor old new =>
    if v.owner w = some actor ∧ old = actor then
      some { v with owner := Function.update v.owner w (some new) }
    else none
  | .deleted w actor =>
    if v.owner w = some actor then some { v with closed := Function.update v.closed w true }
    else none
  | .other => some v

/-- Who asks for an event. -/
def callerOf : Event → Option Uuid
  | .call (.on _ actor _ _) => some actor
  | .call (.acceptInvite _ actor _) => some actor
  | .createWorkspace _ actor _ => some actor
  | .deleteWorkspace _ actor _ => some actor
  | .cloneSystemRole .. => none
  | .expireInvites _ => none
  | .signIn .. => none

/-- **The audit log as a journal** of how the tenants stand. -/
def trail : Journal Database Event AuditLog Standing (Option Uuid) where
  log := Database.auditLogs
  view := standing
  apply v log := v.after (readLog log)
  author := AuditLog.actorId
  caller := callerOf

/-! ### What the services write -/

variable {lower : String → String} {s s' : Database} {d : Draws} {user : User}
  {workspace : Workspace} {i r n w : Uuid} {a m : WorkspaceMember} {u : Unit} {e : Event}
  {old new : Option (List (String × Json))} {action title body : String} {type : NotificationType}
  {priority : NotificationPriority}

/-- The entry of an operation on a member. -/
def memberEntry (d : Draws) (user : User) (workspace : Workspace) (member : Uuid) (action : String)
    (old new : Option (List (String × Json))) : AuditLog where
  workspaceId := some workspace.id
  actorId := some user.id
  action := action
  resourceType := "workspace_member"
  resourceId := member
  oldValues := old
  newValues := new
  timestamp := d.now 1

/-- The entry of an operation on a workspace. -/
def workspaceEntry (d : Draws) (user : User) (workspace : Uuid) (action : String)
    (old new : Option (List (String × Json))) : AuditLog where
  workspaceId := some workspace
  actorId := some user.id
  action := action
  resourceType := "workspace"
  resourceId := workspace
  oldValues := old
  newValues := new
  timestamp := d.now 1

/-- An entry about an invite, which the user wrote. -/
def IsInviteEntry (user : User) (log : AuditLog) : Prop :=
  log.resourceType = "workspace_invite" ∧ log.actorId = some user.id

theorem frames_notify {i w v : Uuid} {t : Time} :
    Prog.Frames Database.auditLogs (notify i w v title body type priority t) :=
  Prog.frames_bind (frames_create fun _ _ => rfl) fun _ => Prog.frames_pure _

theorem auditLogs_record
    (h : (Members.record d user workspace m action old new title body type
      priority).Returns s u s') :
    s'.auditLogs = s.auditLogs ++ [memberEntry d user workspace m.id action old new] := by
  obtain ⟨_, t, hlog, hnotify⟩ := Prog.returns_bind.mp h
  obtain rfl := Prog.returns_modify.mp hlog
  exact frames_notify.returns hnotify

theorem auditLogs_setMember {f : WorkspaceMember → WorkspaceMember}
    (hf : ∀ m : WorkspaceMember, (f m).id = m.id) (hm : IsMember s w i m)
    {k : Svc WorkspaceMember} (hk : k = do
      let changed ← Repositories.setMember m.id f
      let member ← orRaise changed .attributeError
      Members.record d user workspace member action old new title body type priority
      pure member) (h : k.Returns s a s') :
    s'.auditLogs = s.auditLogs ++ [memberEntry d user workspace i action old new] := by
  subst hk
  rw [Prog.returns_bind] at h
  obtain ⟨changed, t, hc, h⟩ := h
  obtain ⟨hsome, T, -, rfl⟩ := Repositories.setMember_spec hc hm.1 rfl hm.2.2.1
  rw [Prog.returns_bind] at h
  obtain ⟨member, t, hr, h⟩ := h
  obtain ⟨hmem, rfl⟩ := returns_orRaise.mp hr
  obtain ⟨_, hrecord, -⟩ := Prog.returns_bind_pure.mp h
  obtain rfl : f m = member := Option.some.inj (hsome.symm.trans hmem)
  have hid : (f m).id = i := (hf m).trans hm.2.1
  rw [auditLogs_record hrecord, hid]

theorem isMember_unique (h : IsMember s w i m) (h' : IsMember s w i a) : m = a :=
  s.workspaceMembers.eq_of_key_eq h.1 h'.1 (h.2.1.trans h'.2.1.symm)

/-- **What `setStatus` writes**: nothing if there is nothing to do. -/
theorem auditLogs_setStatus {already : WorkspaceMember → Prop} [DecidablePred already]
    {guard : WorkspaceMember → Svc Unit} {f : WorkspaceMember → WorkspaceMember}
    (hguard : ∀ m, Prog.Frames id (guard m)) (hf : ∀ m : WorkspaceMember, (f m).id = m.id)
    (hm : IsMember s workspace.id i m) (hal : ¬ already m)
    (h : (Members.setStatus d user workspace i already guard (fun i => Repositories.setMember i f)
      action title body type priority).Returns s a s') :
    s'.auditLogs = s.auditLogs ++ [memberEntry d user workspace i action none none] := by
  unfold Members.setStatus at h
  rw [Prog.returns_bind] at h
  obtain ⟨m', t, hget, h⟩ := h
  obtain ⟨rfl, hm'⟩ := Members.getMember_spec hget
  obtain rfl := isMember_unique hm hm'
  rw [Prog.returns_ite, if_neg hal] at h
  rw [Prog.returns_bind] at h
  obtain ⟨_, t', hg, h⟩ := h
  obtain rfl : t' = t := (hguard m).returns hg
  exact auditLogs_setMember hf hm rfl h

theorem frames_protectOwnerRole {m : WorkspaceMember} :
    Prog.Frames id (Members.protectOwnerRole w m) := by
  refine Prog.frames_bind (Prog.frames_bind (Prog.frames_gets _) fun _ => Prog.frames_pure _)
    fun o => ?_
  rcases o with _ | o
  · exact Prog.frames_pure _
  · refine Prog.frames_ite ?_ (Prog.frames_pure _)
    exact Prog.frames_bind (Prog.frames_gets _) fun _ => Prog.frames_require _ _

/-- **What `suspend_member` writes.** -/
theorem auditLogs_suspendMember (hm : IsMember s workspace.id i m) (hne : m.status ≠ .suspended)
    (h : (Members.suspendMember d user workspace i).Returns s a s') : s'.auditLogs =
      s.auditLogs ++ [memberEntry d user workspace i "SUSPEND_MEMBER" none none] := by
  have hguard : ∀ m, Prog.Frames id (Members.protectOwnerRole workspace.id m) :=
    fun _ => frames_protectOwnerRole
  exact auditLogs_setStatus (f := fun m => { m with status := .suspended }) hguard (fun _ => rfl) hm
    hne h

/-- **What `reactivate_member` writes.** -/
theorem auditLogs_reactivateMember (hm : IsMember s workspace.id i m) (hne : m.status ≠ .active)
    (h : (Members.reactivateMember d user workspace i).Returns s a s') : s'.auditLogs =
      s.auditLogs ++ [memberEntry d user workspace i "REACTIVATE_MEMBER" none none] := by
  have hguard : ∀ _ : WorkspaceMember, Prog.Frames id (pure () : Svc Unit) :=
    fun _ => Prog.frames_pure _
  exact auditLogs_setStatus (f := fun m => { m with status := .active }) hguard (fun _ => rfl) hm
    hne h

/-- **What `remove_member` writes.** -/
theorem auditLogs_removeMember (hm : IsMember s workspace.id i m)
    (h : (Members.removeMember d user workspace i).Returns s u s') : s'.auditLogs =
      s.auditLogs ++ [memberEntry d user workspace i "REMOVE_MEMBER" none none] := by
  have hguard : ∀ m, Prog.Frames id (Members.checkRemoval user workspace m) := fun _ =>
    Prog.frames_bind (Prog.frames_require _ _) fun _ => frames_protectOwnerRole
  obtain ⟨a, hset, -⟩ := Prog.returns_bind_pure.mp h
  exact auditLogs_setStatus
    (f := fun m => { m with status := .removed, deletedAt := some (d.now 0) }) hguard (fun _ => rfl)
    hm not_false hset

/-- **What `change_role` writes.** -/
theorem auditLogs_changeRole (hm : IsMember s workspace.id i m) (hr : m.roleId ≠ r)
    (h : (Members.changeRole d user workspace i r).Returns s a s') :
    s'.auditLogs = s.auditLogs ++ [memberEntry d user workspace i "UPDATE_MEMBER_ROLE"
      (some [("role_id", .id m.roleId)]) (some [("role_id", .id r)])] := by
  unfold Members.changeRole at h
  rw [Prog.returns_bind] at h
  obtain ⟨m', t, hget, h⟩ := h
  obtain ⟨rfl, hm'⟩ := Members.getMember_spec hget
  obtain rfl := isMember_unique hm hm'
  rw [Prog.returns_ite, if_neg hr] at h
  rw [Prog.returns_bind] at h
  obtain ⟨_, t', hg, h⟩ := h
  obtain rfl : t' = t := frames_protectOwnerRole.returns hg
  rw [Prog.returns_bind] at h
  obtain ⟨found, t', hget, h⟩ := h
  obtain ⟨rfl, -⟩ := getById_spec hget
  rw [Prog.returns_bind] at h
  obtain ⟨role, t', hrole, h⟩ := h
  obtain ⟨-, rfl⟩ := returns_orRaise.mp hrole
  rw [Prog.returns_bind] at h
  obtain ⟨o, t', ho, h⟩ := h
  obtain ⟨-, rfl⟩ := Repositories.returns_getOwnerRole.mp ho
  rw [Prog.returns_bind] at h
  obtain ⟨o, t', ho, h⟩ := h
  obtain ⟨-, rfl⟩ := returns_orRaise.mp ho
  rw [Prog.returns_bind] at h
  obtain ⟨_, t', hreq, h⟩ := h
  obtain ⟨-, rfl⟩ := Prog.returns_require.mp hreq
  exact auditLogs_setMember (f := fun m => { m with roleId := r }) (fun _ => rfl) hm rfl h

theorem auditLogs_auditWorkspace {c : Workspace}
    (h : (Service.auditWorkspace d user c action old new).Returns s u s') :
    s'.auditLogs = s.auditLogs ++ [workspaceEntry d user c.id action old new] := by
  obtain rfl := Prog.returns_modify.mp h
  rfl

theorem frames_changeRole : Prog.Frames Database.auditLogs (Repositories.changeRole i r) :=
  frames_updateWhere fun _ _ => rfl

theorem frames_transferOwnership {v v' : Uuid} :
    Prog.Frames Database.auditLogs (Repositories.transferOwnership w v v' r) := by
  refine Prog.frames_bind frames_selectOne fun found => ?_
  rcases found with _ | m
  · exact Prog.frames_pure _
  · exact Prog.frames_bind (frames_update fun _ _ => rfl) fun _ => Prog.frames_pure _

theorem frames_getOwnerRole : Prog.Frames Database.auditLogs Repositories.getOwnerRole :=
  Prog.frames_bind (Prog.frames_gets _) fun _ => Prog.frames_pure _

/-- **What `create_workspace` writes.** -/
theorem auditLogs_createWorkspace {data : Service.WorkspaceCreateInternal} {c : Workspace}
    (h : (Service.createWorkspace lower d user data).Returns s c s') :
    s'.auditLogs = s.auditLogs ++ [workspaceEntry d user c.id "CREATE" none
      (some [("name", .str c.name), ("slug", .str c.slug)])] := by
  unfold Service.createWorkspace at h
  rw [Prog.returns_bind] at h
  obtain ⟨_, t₁, hslug, h⟩ := h
  obtain ⟨rfl, -⟩ := selectOne_spec hslug
  rw [Prog.returns_bind] at h
  obtain ⟨_, t₂, hreq, h⟩ := h
  obtain ⟨-, rfl⟩ := Prog.returns_require.mp hreq
  rw [Prog.returns_bind] at h
  obtain ⟨w, t₃, hw, h⟩ := h
  have hlog₃ : t₃.auditLogs = t₂.auditLogs := (frames_create fun _ _ => rfl).returns hw
  rw [Prog.returns_bind] at h
  obtain ⟨_, t₄, hrole, h⟩ := h
  obtain ⟨-, rfl⟩ := Repositories.returns_getOwnerRole.mp hrole
  rw [Prog.returns_bind] at h
  obtain ⟨o, t₅, hraise, h⟩ := h
  obtain ⟨-, rfl⟩ := returns_orRaise.mp hraise
  rw [Prog.returns_bind] at h
  obtain ⟨_, t₆, hm, h⟩ := h
  have hlog₆ : t₆.auditLogs = t₅.auditLogs := (frames_create fun _ _ => rfl).returns hm
  obtain ⟨_, hlog, rfl⟩ := Prog.returns_bind_pure.mp h
  rw [auditLogs_auditWorkspace hlog, hlog₆, hlog₃]

/-- **What `transfer_ownership` writes.** -/
theorem auditLogs_transferOwnership {c : Workspace}
    (h : (Service.transferOwnership d user workspace n r).Returns s c s') :
    s'.auditLogs = s.auditLogs ++ [workspaceEntry d user workspace.id "TRANSFER_OWNERSHIP"
      (some [("owner_id", .id user.id)]) (some [("owner_id", .id n)])] := by
  unfold Service.transferOwnership at h
  rw [Prog.returns_bind] at h
  obtain ⟨_, t₁, hreq, h⟩ := h
  obtain ⟨-, rfl⟩ := Prog.returns_require.mp hreq
  rw [Prog.returns_bind] at h
  obtain ⟨_, t₂, hget, h⟩ := h
  obtain ⟨rfl, -⟩ := Repositories.getMember_spec hget
  rw [Prog.returns_bind] at h
  obtain ⟨m, t₃, hraise, h⟩ := h
  obtain ⟨-, rfl⟩ := returns_orRaise.mp hraise
  rw [Prog.returns_bind] at h
  obtain ⟨_, t₄, hreq, h⟩ := h
  obtain ⟨-, rfl⟩ := Prog.returns_require.mp hreq
  rw [Prog.returns_bind] at h
  obtain ⟨_, t₅, hrole, h⟩ := h
  obtain ⟨-, rfl⟩ := Repositories.returns_getOwnerRole.mp hrole
  rw [Prog.returns_bind] at h
  obtain ⟨o, t₆, hraise, h⟩ := h
  obtain ⟨-, rfl⟩ := returns_orRaise.mp hraise
  rw [Prog.returns_bind] at h
  obtain ⟨w, t₇, hupd, h⟩ := h
  have hlog₇ : t₇.auditLogs = t₆.auditLogs := (frames_update fun _ _ => rfl).returns hupd
  obtain ⟨w₀, -, hk, rfl, -⟩ := returns_update.mp hupd
  have hid : w₀.id = workspace.id := hk
  rw [Prog.returns_bind] at h
  obtain ⟨_, t₈, hch, h⟩ := h
  have hlog₈ : t₈.auditLogs = t₇.auditLogs := frames_changeRole.returns hch
  rw [Prog.returns_bind] at h
  obtain ⟨_, t₉, htr, h⟩ := h
  have hlog₉ : t₉.auditLogs = t₈.auditLogs := frames_transferOwnership.returns htr
  rw [Prog.returns_bind] at h
  obtain ⟨_, t₁₀, hlog, h⟩ := h
  obtain ⟨_, hnotify, -⟩ := Prog.returns_bind_pure.mp h
  rw [frames_notify.returns hnotify, auditLogs_auditWorkspace hlog, hlog₉, hlog₈, hlog₇, ← hid]

/-- **What `delete_workspace` writes.** -/
theorem auditLogs_deleteWorkspace (h : (Service.deleteWorkspace d user workspace).Returns s u s') :
    s'.auditLogs = s.auditLogs ++ [workspaceEntry d user workspace.id "DELETE" none none] := by
  unfold Service.deleteWorkspace softDelete at h
  rw [Prog.returns_bind] at h
  obtain ⟨_, t₁, hreq, h⟩ := h
  obtain ⟨-, rfl⟩ := Prog.returns_require.mp hreq
  rw [Prog.returns_bind] at h
  obtain ⟨_, t₂, hdel, h⟩ := h
  obtain ⟨_, hupd, -⟩ := Prog.returns_bind_pure.mp hdel
  have hlog₂ : t₂.auditLogs = t₁.auditLogs := (frames_updateWhere fun _ _ => rfl).returns hupd
  rw [auditLogs_auditWorkspace h, hlog₂]

theorem writes_auditInvite {invite : WorkspaceInvite} :
    Writes Database.auditLogs (IsInviteEntry user)
      (Invitations.auditInvite d w user.id invite action) :=
  writes_modify ⟨rfl, rfl⟩ fun _ => rfl

theorem writes_changePending {refused : String} {write : Uuid → Svc (Option WorkspaceInvite)}
    (hwrite : ∀ i, Prog.Frames Database.auditLogs (write i)) :
    Writes Database.auditLogs (IsInviteEntry user)
      (Invitations.changePending d user workspace i refused write action) := by
  refine writes_bind frames_getById fun _ => ?_
  refine writes_bind (frames_orRaise _ _) fun _ => ?_
  refine writes_bind (Prog.frames_require _ _) fun _ => ?_
  refine writes_bind (Prog.frames_require _ _) fun _ => ?_
  refine writes_bind (hwrite _) fun _ => ?_
  refine writes_bind (frames_orRaise _ _) fun _ => ?_
  exact writes_bind_frames writes_auditInvite fun _ => Prog.frames_pure _

theorem frames_revokeInvite {t : Time} :
    Prog.Frames Database.auditLogs (Repositories.revokeInvite i t) :=
  frames_updateWhere fun _ _ => rfl

theorem frames_resendInvite {t : DateTime} :
    Prog.Frames Database.auditLogs (Repositories.resendInvite i t) := by
  refine Prog.frames_bind frames_getById fun found => ?_
  rcases found with _ | i
  · exact Prog.frames_pure _
  · refine Prog.frames_ite ?_ (Prog.frames_pure _)
    refine Prog.frames_bind (Prog.frames_ofExcept _) fun _ => ?_
    exact Prog.frames_bind (frames_update fun _ _ => rfl) fun _ => Prog.frames_pure _

theorem frames_checkNoMember {email : String} :
    Prog.Frames Database.auditLogs (Invitations.checkNoMember w email) := by
  refine Prog.frames_bind frames_selectOne fun existing => ?_
  rcases existing with _ | user
  · exact Prog.frames_pure _
  · refine Prog.frames_bind frames_selectOne fun member => ?_
    rcases member with _ | m
    · exact Prog.frames_pure _
    · exact Prog.frames_require _ _

/-- **What `create_invite` writes**: the revocation of older invites is not among it. -/
theorem writes_createInvite {email : String} :
    Writes Database.auditLogs (IsInviteEntry user)
      (Invitations.createInvite lower d user workspace email r) := by
  refine writes_bind frames_getById fun _ => ?_
  refine writes_bind (frames_orRaise _ _) fun _ => ?_
  refine writes_bind frames_checkNoMember fun _ => ?_
  refine writes_bind (Prog.frames_gets _) fun pending => ?_
  refine writes_bind (Prog.frames_forEach (fun x => ?_) _) fun _ => ?_
  · refine Prog.frames_ite ?_ (Prog.frames_pure _)
    exact Prog.frames_bind (frames_updateWhere fun _ _ => rfl) fun _ => Prog.frames_pure _
  refine writes_bind (frames_create fun _ _ => rfl) fun invite => ?_
  refine writes_bind_frames (writes_modify ⟨rfl, rfl⟩ fun _ => rfl) fun _ => ?_
  exact Prog.frames_bind frames_notify fun _ => Prog.frames_pure _

/-- **What `accept_invite` writes.** -/
theorem writes_acceptInvite {token : String} :
    Writes Database.auditLogs (IsInviteEntry user) (Invitations.acceptInvite d user token) := by
  refine writes_bind frames_selectOne fun _ => ?_
  refine writes_bind (frames_orRaise _ _) fun invite => ?_
  refine writes_bind (Prog.frames_require _ _) fun _ => ?_
  refine writes_bind (Prog.frames_require _ _) fun _ => ?_
  refine writes_bind (Prog.frames_require _ _) fun _ => ?_
  refine writes_bind (Prog.frames_require _ _) fun _ => ?_
  refine writes_bind ?_ fun _ => ?_
  · refine Prog.frames_bind frames_selectOne fun _ => ?_
    refine Prog.frames_ite (Prog.frames_pure _) ?_
    exact Prog.frames_bind (frames_create fun _ _ => rfl) fun _ => Prog.frames_pure _
  refine writes_bind ?_ fun _ => ?_
  · refine Prog.frames_bind frames_getById fun found => ?_
    rcases found with _ | i
    · exact Prog.frames_pure _
    · refine Prog.frames_ite ?_ (Prog.frames_pure _)
      exact Prog.frames_bind (frames_update fun _ _ => rfl) fun _ => Prog.frames_pure _
  refine writes_bind_frames writes_auditInvite fun _ => ?_
  rcases invite.inviterId with _ | inviter
  · exact Prog.frames_pure _
  · exact frames_notify

/-! ### What that says about the standing -/

theorem lookup_of_isMember (h : IsMember s w i m) : s.workspaceMembers.lookup i = some m :=
  Table.lookup_eq_some.mpr ⟨h.1, h.2.1⟩

theorem member_of_isMember (h : IsMember s w i m) : (standing s).member i = some m.status := by
  have hlookup := lookup_of_isMember h
  simp [standing, statusOf, hlookup, h.2.2.1]

theorem accounts_of_report {log : AuditLog} {report : Report}
    (hlog : s'.auditLogs = s.auditLogs ++ [log]) (hauthor : log.actorId = callerOf e)
    (hread : readLog log = report) (hview : (standing s).after report = some (standing s')) :
    trail.Accounts s [e] s' := by
  refine Journal.accounts_of_entry hlog hauthor ?_
  rw [← hread] at hview
  exact hview

theorem standing_of_changed {f : WorkspaceMember → WorkspaceMember} (h : Members.Changed i f s s')
    (hf : ∀ m : WorkspaceMember, (f m).id = m.id) (hm : IsMember s w i m) :
    standing s' = { standing s with
      member := Function.update (standing s).member i (statusOf (some (f m))) } := by
  obtain ⟨T, N, L, hT, rfl⟩ := h
  have hlookup := Table.lookup_modify hT hf
  rw [lookup_of_isMember hm] at hlookup
  refine Standing.ext ?_ rfl rfl
  change statusOf ∘ T.lookup = _
  rw [hlookup, Option.map_some, Function.comp_update]
  rfl

/-- **A member whose row was changed**, and the entry about it. -/
theorem accounts_of_changed {f : WorkspaceMember → WorkspaceMember} {log : AuditLog}
    (admits : MemberStatus → Bool) (h : Members.Changed i f s s')
    (hf : ∀ m : WorkspaceMember, (f m).id = m.id) (hm : IsMember s w i m)
    (hadm : admits m.status = true) (hlog : s'.auditLogs = s.auditLogs ++ [log])
    (hauthor : log.actorId = callerOf e) (hafter : (standing s).after (readLog log) =
      (standing s).turn i admits (statusOf (some (f m)))) : trail.Accounts s [e] s' := by
  refine accounts_of_report hlog hauthor rfl ?_
  rw [hafter, standing_of_changed h hf hm, Standing.turn, member_of_isMember hm, Option.any_some,
    if_pos hadm]

theorem statusOf_lookup_of_modify {f : WorkspaceMember → WorkspaceMember}
    {T T' : Table WorkspaceMember} (hT : T.modify i f = some T')
    (hf : ∀ m : WorkspaceMember,
      (f m).id = m.id ∧ (f m).status = m.status ∧ (f m).deletedAt = m.deletedAt) :
    statusOf ∘ T'.lookup = statusOf ∘ T.lookup := by
  have hstatus : statusOf ((T.lookup i).map f) = statusOf (T.lookup i) := by
    rcases T.lookup i with _ | m
    · rfl
    · simp only [Option.map_some, statusOf, (hf m).2.1, (hf m).2.2]
  rw [Table.lookup_modify hT fun m => (hf m).1, Function.comp_update, hstatus,
    Function.update_eq_self_iff]
  rfl

theorem statusOf_lookup_of_insert {T T' : Table WorkspaceMember} (hT : T.insert m = some T')
    (hm : statusOf (some m) = some .active) : statusOf ∘ T'.lookup = statusOf ∘ T.lookup := by
  have hnone : statusOf (T.lookup m.id) = some .active := by
    rw [show T.lookup m.id = none from Table.lookup_of_insert hT]
    rfl
  rw [Table.lookup_insert hT, Function.comp_update, hm, Function.update_eq_self_iff]
  exact hnone.symm

/-- **What happens to invites** leaves the standing alone, and whoever joins is as they were. -/
theorem accounts_of_invite {α : Type} {p : Svc α} {x : α}
    (hp : Writes Database.auditLogs (IsInviteEntry user) p) (h : p.Returns s x s')
    (hcaller : callerOf e = some user.id) (hview : standing s' = standing s) :
    trail.Accounts s [e] s' := by
  obtain ⟨log, ⟨htype, hactor⟩, hlog⟩ := hp s x s' h
  have hread : readLog log = .other := by
    unfold readLog
    rcases log.workspaceId with _ | w
    · rfl
    · simp [hactor, htype]
  refine accounts_of_report hlog (hactor.trans hcaller.symm) hread ?_
  rw [hview]
  rfl

theorem lookup_of_mem (hw : workspace ∈ s.workspaces.rows) :
    s.workspaces.lookup workspace.id = some workspace := Table.lookup_eq_some.mpr ⟨hw, rfl⟩

theorem owner_of_mem (hw : workspace ∈ s.workspaces.rows) :
    (standing s).owner workspace.id = some workspace.ownerId := by
  simp [standing, lookup_of_mem hw]

theorem closed_of_mem (hw : workspace ∈ s.workspaces.rows) :
    (standing s).closed workspace.id = workspace.deletedAt.isSome := by
  simp [standing, lookup_of_mem hw]

/-! ### One event -/

theorem accounts_transferOwnership {c : Workspace} (hw : workspace ∈ s.workspaces.rows)
    (h : (Service.transferOwnership d user workspace n r).Returns s c s')
    (hcaller : callerOf e = some user.id) : trail.Accounts s [e] s' := by
  have hread : readLog (workspaceEntry d user workspace.id "TRANSFER_OWNERSHIP"
      (some [("owner_id", .id user.id)]) (some [("owner_id", .id n)])) =
        .transferred workspace.id user.id user.id n := by
    simp [readLog, workspaceEntry, readWorkspace, ownerIn]
  refine accounts_of_report (auditLogs_transferOwnership h) hcaller.symm hread ?_
  obtain ⟨howner, m, -, -, -, -, -, o, -, W, T, T', N, L, hW, hT, hT', -, rfl⟩ :=
    Service.transferOwnership_spec h
  have hlookup := Table.lookup_modify hW fun _ => rfl
  rw [lookup_of_mem hw, Option.map_some] at hlookup
  have hmembers : statusOf ∘ T'.lookup = statusOf ∘ s.workspaceMembers.lookup := by
    have hstep := statusOf_lookup_of_modify hT fun m => ⟨rfl, rfl, rfl⟩
    rcases hT' with ⟨rfl, -⟩ | ⟨m', -, -, -, -, hmod⟩
    · exact hstep
    · exact (statusOf_lookup_of_modify hmod fun m => ⟨rfl, rfl, rfl⟩).trans hstep
  rw [Standing.after, owner_of_mem hw, howner, if_pos ⟨rfl, rfl⟩]
  refine congrArg some (Standing.ext hmembers.symm ?_ ?_)
  · change _ = Option.map Workspace.ownerId ∘ W.lookup
    rw [hlookup, Function.comp_update]
    rfl
  · change _ = (Option.any fun r : Workspace => r.deletedAt.isSome) ∘ W.lookup
    rw [hlookup, Function.comp_update]
    exact (Function.update_eq_self_iff.mpr (closed_of_mem hw).symm).symm

theorem accounts_perform (hw : workspace ∈ s.workspaces.rows) {op : System.Op}
    (h : (System.perform lower d user workspace op).Returns s u s') :
    trail.Accounts s [.call (.on d user.id workspace.id op)] s' := by
  cases op with
  | createInvite email r =>
    obtain ⟨a, hcreate, -⟩ := Prog.returns_bind_pure.mp h
    obtain ⟨_, I, I', N, L, -, -, -, -, rfl⟩ := Invitations.createInvite_spec hcreate
    exact accounts_of_invite writes_createInvite hcreate rfl rfl
  | revokeInvite i =>
    obtain ⟨a, hrevoke, -⟩ := Prog.returns_bind_pure.mp h
    obtain ⟨I, N, L, -, rfl⟩ := Invitations.revokeInvite_spec hrevoke
    exact accounts_of_invite (writes_changePending fun _ => frames_revokeInvite) hrevoke rfl rfl
  | resendInvite i =>
    obtain ⟨a, hresend, -⟩ := Prog.returns_bind_pure.mp h
    obtain ⟨I, N, L, -, rfl⟩ := Invitations.resendInvite_spec hresend
    exact accounts_of_invite (writes_changePending fun _ => frames_resendInvite) hresend rfl rfl
  | changeRole i r =>
    obtain ⟨a, hchange, -⟩ := Prog.returns_bind_pure.mp h
    obtain ⟨m, hm, ⟨-, rfl⟩ | ⟨hr, -, -, -, hc⟩⟩ := Members.changeRole_spec hchange
    · exact Journal.accounts_of_silent rfl rfl
    · refine accounts_of_changed (fun _ => true) hc (fun _ => rfl) hm rfl
        (auditLogs_changeRole hm hr hchange) rfl ?_
      have hstatus : statusOf (some { m with roleId := r }) = (standing s).member i := by
        simp [member_of_isMember hm, statusOf, hm.2.2.1]
      rw [hstatus]
      simp [readLog, memberEntry, readMember, Standing.after]
  | suspendMember i =>
    obtain ⟨a, hsuspend, -⟩ := Prog.returns_bind_pure.mp h
    obtain ⟨m, hm, ⟨-, rfl⟩ | ⟨hne, -, hc⟩⟩ := Members.suspendMember_spec hsuspend
    · exact Journal.accounts_of_silent rfl rfl
    · refine accounts_of_changed (fun st => st ≠ .suspended) hc (fun _ => rfl) hm
        (decide_eq_true hne) (auditLogs_suspendMember hm hne hsuspend) rfl ?_
      simp [readLog, memberEntry, readMember, Standing.after, statusOf, hm.2.2.1]
  | reactivateMember i =>
    obtain ⟨a, hreactivate, -⟩ := Prog.returns_bind_pure.mp h
    obtain ⟨m, hm, ⟨-, rfl⟩ | ⟨hne, hc⟩⟩ := Members.reactivateMember_spec hreactivate
    · exact Journal.accounts_of_silent rfl rfl
    · refine accounts_of_changed (fun st => st ≠ .active) hc (fun _ => rfl) hm
        (decide_eq_true hne) (auditLogs_reactivateMember hm hne hreactivate) rfl ?_
      simp [readLog, memberEntry, readMember, Standing.after, statusOf, hm.2.2.1]
  | removeMember i =>
    obtain ⟨m, hm, howner, -, hc⟩ := Members.removeMember_spec h
    refine accounts_of_changed (fun _ => true) hc (fun _ => rfl) hm rfl
      (auditLogs_removeMember hm h) rfl ?_
    simp [readLog, memberEntry, readMember, Standing.after, statusOf, owner_of_mem hw, howner]
  | transferOwnership n r =>
    obtain ⟨c, htransfer, -⟩ := Prog.returns_bind_pure.mp h
    exact accounts_transferOwnership hw htransfer rfl

theorem accounts_createWorkspace {data : Service.WorkspaceCreateInternal} {c : Workspace}
    (howner : data.ownerId = user.id)
    (h : (Service.createWorkspace lower d user data).Returns s c s')
    (hcaller : callerOf e = some user.id) : trail.Accounts s [e] s' := by
  have hread : readLog (workspaceEntry d user c.id "CREATE" none
      (some [("name", .str c.name), ("slug", .str c.slug)])) = .created c.id user.id := by
    simp [readLog, workspaceEntry, readWorkspace]
  refine accounts_of_report (auditLogs_createWorkspace h) hcaller.symm hread ?_
  obtain ⟨o, W, T, L, -, ha, hW, hT, rfl⟩ := Service.createWorkspace_spec h
  have hnone : s.workspaces.lookup c.id = none := Table.lookup_of_insert hW
  have hlookup : W.lookup = Function.update s.workspaces.lookup c.id (some c) :=
    Table.lookup_insert hW
  have hcowner : c.ownerId = user.id := by rw [ha]; exact howner
  have hopen : c.deletedAt = none := by rw [ha]; rfl
  have hfree : (standing s).owner c.id = none := by simp [standing, hnone]
  rw [Standing.after, if_pos hfree]
  refine congrArg some (Standing.ext ?_ ?_ ?_)
  · exact (statusOf_lookup_of_insert hT rfl).symm
  · change _ = Option.map Workspace.ownerId ∘ W.lookup
    rw [hlookup, Function.comp_update, Option.map_some, hcowner]
    rfl
  · change _ = (Option.any fun r : Workspace => r.deletedAt.isSome) ∘ W.lookup
    rw [hlookup, Function.comp_update]
    refine (Function.update_eq_self_iff.mpr ?_).symm
    simp [standing, hnone, hopen]

theorem accounts_deleteWorkspace (hw : workspace ∈ s.workspaces.rows)
    (h : (Service.deleteWorkspace d user workspace).Returns s u s')
    (hcaller : callerOf e = some user.id) : trail.Accounts s [e] s' := by
  have hread : readLog (workspaceEntry d user workspace.id "DELETE" none none) =
      .deleted workspace.id user.id := by
    simp [readLog, workspaceEntry, readWorkspace]
  refine accounts_of_report (auditLogs_deleteWorkspace h) hcaller.symm hread ?_
  obtain ⟨w', hmem, hid, hdel⟩ := Service.deleteWorkspace_deletes hw h
  obtain ⟨howner, W, L, rfl, hW⟩ := Service.deleteWorkspace_spec h
  rw [Standing.after, owner_of_mem hw, howner, if_pos rfl]
  refine congrArg some (Standing.ext rfl ?_ ?_)
  · change _ = Option.map Workspace.ownerId ∘ W.lookup
    rcases hW with rfl | hW
    · rfl
    · rw [Table.lookup_modify hW fun _ => rfl, Function.comp_update]
      refine (Function.update_eq_self_iff.mpr ?_).symm
      rw [lookup_of_mem hw]
      exact (owner_of_mem hw).symm
  · change _ = (Option.any fun r : Workspace => r.deletedAt.isSome) ∘ W.lookup
    have hclosed : (W.lookup workspace.id).any (fun r => r.deletedAt.isSome) = true := by
      have hlookup : W.lookup workspace.id = some w' := Table.lookup_eq_some.mpr ⟨hmem, hid⟩
      rw [hlookup]
      exact Option.isSome_iff_ne_none.mpr hdel
    rcases hW with rfl | hW
    · exact Function.update_eq_self_iff.mpr hclosed.symm
    · have hlookup := Table.lookup_modify hW fun _ => rfl
      rw [hlookup, Function.update_self] at hclosed
      rw [hlookup, Function.comp_update, hclosed]
      rfl

theorem accounts_call {c : System.Call} (h : (System.serve lower c).Returns s u s') :
    trail.Accounts s [.call c] s' := by
  cases c with
  | on d actor w op =>
    obtain ⟨user, -, rfl, workspace, hw, rfl, hop⟩ := System.serve_on h
    exact accounts_perform hw hop
  | acceptInvite d actor token =>
    obtain ⟨user, -, rfl, haccept⟩ := System.serve_acceptInvite h
    obtain ⟨invite, -, T, I, N, L, hT, -, rfl⟩ := Invitations.acceptInvite_spec haccept
    refine accounts_of_invite writes_acceptInvite haccept rfl (Standing.ext ?_ rfl rfl)
    rcases hT with rfl | hT
    · rfl
    · exact statusOf_lookup_of_insert hT rfl

/-- **What an event whose call returns did** is in the log. -/
theorem accounts_serve (h : (serve lower e).Returns s u s') : trail.Accounts s [e] s' := by
  cases e with
  | call c => exact accounts_call h
  | createWorkspace d actor data =>
    obtain ⟨user, -, rfl, workspace, hcreate⟩ := Events.serve_createWorkspace h
    exact accounts_createWorkspace rfl hcreate rfl
  | deleteWorkspace d actor w =>
    obtain ⟨user, -, rfl, workspace, hw, rfl, hdelete⟩ := Events.serve_deleteWorkspace h
    exact accounts_deleteWorkspace hw hdelete rfl
  | cloneSystemRole d i w name =>
    obtain ⟨a, hclone, -⟩ := Prog.returns_bind_pure.mp h
    rcases Repositories.cloneSystemRoleToWorkspace_spec hclone with
      rfl | ⟨r, -, -, R, G, -, -, rfl⟩
    · exact Journal.accounts_refl _
    · exact Journal.accounts_of_silent rfl rfl
  | expireInvites now =>
    obtain ⟨k, hexpire, -⟩ := Prog.returns_bind_pure.mp h
    obtain ⟨I, -, rfl⟩ := Invitations.expireInvites_evolved hexpire
    exact Journal.accounts_of_silent rfl rfl
  | signIn d payload =>
    obtain ⟨a, hsign, -⟩ := Prog.returns_bind_pure.mp h
    rcases Events.getOrCreateUser_spec hsign with rfl | ⟨U, -, rfl⟩
    · exact Journal.accounts_refl _
    · exact Journal.accounts_of_silent rfl rfl

/-- **The step lemma**: an event that fails leaves no entry. -/
theorem accounts_step (lower : String → String) (s : Database) (e : Event) :
    trail.Accounts s [e] (step lower s e) := by
  unfold step
  rcases (serve lower e).settle_cases s with ⟨u, h⟩ | ⟨h, -⟩
  · exact accounts_serve h
  · rw [h]
    exact Journal.accounts_of_silent rfl rfl

/-- **The audit log can be replayed**: whatever happens, reading the new entries, each of which fits
what the earlier ones told, leads from how the tenants stood to how they stand; and they were
written in the order of the events by the users who asked for them. -/
theorem audit_log_replays (lower : String → String) (s : Database) (l : List Event) :
    trail.Accounts s l (run (step lower) s l) :=
  Journal.accounts_run (I := fun _ => True) (fun _ _ _ => trivial)
    (fun s e _ => accounts_step lower s e) trivial l

end MarketingSuite.Tenants.AuditTrail
