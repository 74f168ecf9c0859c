import MarketingSuite.Workspaces.Invitations
import MarketingSuite.Workspaces.Service
import MarketingSuite.Lib.Runs

/-! # The workspace system

One step is one call, by any user and with any arguments, in a transaction of its own: a call that
raises changes nothing. `Effect` lists what a step can do to members, invites and owners; whatever
is proved of runs is proved of these cases. -/

namespace MarketingSuite.Workspaces.System

open MarketingSuite.Lib.Programs MarketingSuite.Lib.Tables
open MarketingSuite.Base.Values MarketingSuite.Base.Models MarketingSuite.Base.Schema
open MarketingSuite.Repositories.Base
open MarketingSuite.Workspaces.Repositories (ownerRoleOf invitation)
open MarketingSuite.Workspaces.Members (IsMember MayLose)
open MarketingSuite.Workspaces.Invitations (Carried Joined carried_refl)

/-- The operations of a user on a workspace. -/
inductive Op
  | createInvite (email : String) (roleId : Uuid)
  | revokeInvite (inviteId : Uuid)
  | resendInvite (inviteId : Uuid)
  | changeRole (memberId newRoleId : Uuid)
  | suspendMember (memberId : Uuid)
  | reactivateMember (memberId : Uuid)
  | removeMember (memberId : Uuid)
  | transferOwnership (newOwnerId newRoleId : Uuid)

/-- A call by the user `actor`: an operation on a workspace, or accepting an invite. -/
inductive Call
  | on (d : Draws) (actor workspace : Uuid) (op : Op)
  | acceptInvite (d : Draws) (actor : Uuid) (token : String)

/-- The service call behind an operation. -/
def perform (lower : String → String) (d : Draws) (user : User) (workspace : Workspace) :
    Op → Svc Unit
  | .createInvite email roleId => do
    let _ ← Invitations.createInvite lower d user workspace email roleId
    pure ()
  | .revokeInvite inviteId => do
    let _ ← Invitations.revokeInvite d user workspace inviteId
    pure ()
  | .resendInvite inviteId => do
    let _ ← Invitations.resendInvite d user workspace inviteId
    pure ()
  | .changeRole memberId newRoleId => do
    let _ ← Members.changeRole d user workspace memberId newRoleId
    pure ()
  | .suspendMember memberId => do
    let _ ← Members.suspendMember d user workspace memberId
    pure ()
  | .reactivateMember memberId => do
    let _ ← Members.reactivateMember d user workspace memberId
    pure ()
  | .removeMember memberId => Members.removeMember d user workspace memberId
  | .transferOwnership newOwnerId newRoleId => do
    let _ ← Service.transferOwnership d user workspace newOwnerId newRoleId
    pure ()

/-- A call. -/
def serve (lower : String → String) : Call → Svc Unit
  | .on d actor workspace op => do
    let user ← load User actor
    let workspace ← load Workspace workspace
    perform lower d user workspace op
  | .acceptInvite d actor token => do
    let user ← load User actor
    Invitations.acceptInvite d user token

/-- One step: a call in its own transaction. -/
def step (lower : String → String) (s : Database) (c : Call) : Database := (serve lower c).settle s

/-! ### What a step does -/

/-- The state after a step that started in `s`, case by case. -/
inductive Effect (lower : String → String) (s : Database) : Call → Database → Prop
  | kept {c I N L} (hI : Carried s.workspaceInvites I) :
    Effect lower s c { s with workspaceInvites := I, notifications := N, auditLogs := L }
  | invited {d actor w email r e I I' N L} (hw : w ∈ s.workspaces.rows)
    (hI : Carried s.workspaceInvites I)
    (hins : I.insert (invitation lower d w.id (strip (lower email)) r actor e) = some I') :
    Effect lower s (.on d actor w.id (.createInvite email r))
      { s with workspaceInvites := I', notifications := N, auditLogs := L }
  | reassigned {d actor i r m o T N L} {w : Workspace} (hw : w ∈ s.workspaces.rows)
    (hm : IsMember s w.id i m) (hp : MayLose s w.id m) (ho : ownerRoleOf s = some o)
    (hg : r = o.id ∨ m.roleId = o.id → w.ownerId = actor)
    (hT : s.workspaceMembers.modify i (fun m => { m with roleId := r }) = some T) :
    Effect lower s (.on d actor w.id (.changeRole i r))
      { s with workspaceMembers := T, notifications := N, auditLogs := L }
  | suspended {d actor w i m T N L} (hm : IsMember s w i m) (hp : MayLose s w m)
    (hT : s.workspaceMembers.modify i (fun m => { m with status := .suspended }) = some T) :
    Effect lower s (.on d actor w (.suspendMember i))
      { s with workspaceMembers := T, notifications := N, auditLogs := L }
  | reactivated {d actor w i m T N L} (hm : IsMember s w i m)
    (hT : s.workspaceMembers.modify i (fun m => { m with status := .active }) = some T) :
    Effect lower s (.on d actor w (.reactivateMember i))
      { s with workspaceMembers := T, notifications := N, auditLogs := L }
  | removed {d actor w i m t T N L} (hm : IsMember s w i m) (hp : MayLose s w m)
    (hT : s.workspaceMembers.modify i
      (fun m => { m with status := .removed, deletedAt := some t }) = some T) :
    Effect lower s (.on d actor w (.removeMember i))
      { s with workspaceMembers := T, notifications := N, auditLogs := L }
  | transferred {d actor n r m o W T T' N L} {w : Workspace} (hw : w ∈ s.workspaces.rows)
    (howner : w.ownerId = actor) (hm : IsMember s w.id m.id m) (hn : m.userId = n)
    (hact : m.status = .active) (ho : ownerRoleOf s = some o)
    (hT : s.workspaceMembers.modify m.id (fun m => { m with roleId := o.id }) = some T)
    (hT' : (T' = T ∧ ∀ m ∈ T.rows, m.workspaceId = w.id → m.userId = actor → m.deletedAt ≠ none) ∨
      ∃ m' ∈ T.rows, m'.workspaceId = w.id ∧ m'.userId = actor ∧ m'.deletedAt = none ∧
        T.modify m'.id (fun m => { m with roleId := r }) = some T')
    (hW : s.workspaces.modify w.id (fun w => { w with ownerId := n }) = some W) :
    Effect lower s (.on d actor w.id (.transferOwnership n r))
      { s with workspaces := W, workspaceMembers := T', notifications := N, auditLogs := L }
  | accepted {d actor token} {user : User} {invite : WorkspaceInvite} {T I N L}
    (hu : user.id = actor) (hi : invite ∈ s.workspaceInvites.rows) (htok : invite.token = token)
    (hpend : invite.status = .pending) (hT : Joined d invite user s T)
    (hI : Carried s.workspaceInvites I) :
    Effect lower s (.acceptInvite d actor token)
      { s with workspaceMembers := T, workspaceInvites := I, notifications := N, auditLogs := L }

variable {lower : String → String} {s s' : Database}

theorem Effect.refl (c : Call) : Effect lower s c s := Effect.kept (carried_refl s.workspaceInvites)

theorem effect_perform {d : Draws} {user : User} {w : Workspace} (hw : w ∈ s.workspaces.rows)
    {op : Op} {u : Unit} (h : (perform lower d user w op).Returns s u s') :
    Effect lower s (.on d user.id w.id op) s' := by
  cases op with
  | createInvite email r =>
    obtain ⟨a, h, -⟩ := Prog.returns_bind_pure.mp h
    obtain ⟨e, T, T', N, L, rfl, -, hT, hins, rfl⟩ := Invitations.createInvite_spec h
    exact Effect.invited hw hT.carried hins
  | revokeInvite i =>
    obtain ⟨a, h, -⟩ := Prog.returns_bind_pure.mp h
    obtain ⟨T, N, L, hT, rfl⟩ := Invitations.revokeInvite_spec h
    exact Effect.kept hT.carried
  | resendInvite i =>
    obtain ⟨a, h, -⟩ := Prog.returns_bind_pure.mp h
    obtain ⟨T, N, L, hT, rfl⟩ := Invitations.resendInvite_spec h
    exact Effect.kept hT.carried
  | changeRole i r =>
    obtain ⟨a, h, -⟩ := Prog.returns_bind_pure.mp h
    obtain ⟨m, hm, ⟨-, rfl⟩ | ⟨-, hp, -, ⟨o, ho, hg⟩, T, N, L, hT, rfl⟩⟩ :=
      Members.changeRole_spec h
    · exact Effect.refl _
    · exact Effect.reassigned hw hm hp ho hg hT
  | suspendMember i =>
    obtain ⟨a, h, -⟩ := Prog.returns_bind_pure.mp h
    obtain ⟨m, hm, ⟨-, rfl⟩ | ⟨-, hp, T, N, L, hT, rfl⟩⟩ := Members.suspendMember_spec h
    · exact Effect.refl _
    · exact Effect.suspended hm hp hT
  | reactivateMember i =>
    obtain ⟨a, h, -⟩ := Prog.returns_bind_pure.mp h
    obtain ⟨m, hm, ⟨-, rfl⟩ | ⟨-, T, N, L, hT, rfl⟩⟩ := Members.reactivateMember_spec h
    · exact Effect.refl _
    · exact Effect.reactivated hm hT
  | removeMember i =>
    obtain ⟨m, hm, -, hp, T, N, L, hT, rfl⟩ := Members.removeMember_spec h
    exact Effect.removed hm hp hT
  | transferOwnership n r =>
    obtain ⟨a, h, -⟩ := Prog.returns_bind_pure.mp h
    obtain ⟨howner, m, hm, hmw, hn, hd, hact, o, ho, W, T, T', N, L, hW, hT, hT', -, rfl⟩ :=
      Service.transferOwnership_spec h
    exact Effect.transferred hw howner ⟨hm, rfl, hd, hmw⟩ hn hact ho hT hT' hW

theorem serve_on {d : Draws} {actor w : Uuid} {op : Op} {u : Unit}
    (h : (serve lower (.on d actor w op)).Returns s u s') :
    ∃ user ∈ s.users.rows, user.id = actor ∧ ∃ workspace ∈ s.workspaces.rows, workspace.id = w ∧
      (perform lower d user workspace op).Returns s u s' := by
  obtain ⟨user, t, hu, hrest⟩ := Prog.returns_bind.mp h
  obtain ⟨rfl, huser, hid⟩ := load_spec hu
  obtain ⟨workspace, t', hw, hop⟩ := Prog.returns_bind.mp hrest
  obtain ⟨rfl, hmem, hwid⟩ := load_spec hw
  exact ⟨user, huser, hid, workspace, hmem, hwid, hop⟩

theorem serve_acceptInvite {d : Draws} {actor : Uuid} {token : String} {u : Unit}
    (h : (serve lower (.acceptInvite d actor token)).Returns s u s') :
    ∃ user ∈ s.users.rows, user.id = actor ∧
      (Invitations.acceptInvite d user token).Returns s u s' := by
  obtain ⟨user, t, hu, haccept⟩ := Prog.returns_bind.mp h
  obtain ⟨rfl, huser, hid⟩ := load_spec hu
  exact ⟨user, huser, hid, haccept⟩

theorem effect_serve {c : Call} {u : Unit} (h : (serve lower c).Returns s u s') :
    Effect lower s c s' := by
  cases c with
  | on d actor w op =>
    obtain ⟨user, -, rfl, workspace, hmem, rfl, hop⟩ := serve_on h
    exact effect_perform hmem hop
  | acceptInvite d actor token =>
    obtain ⟨user, -, rfl, haccept⟩ := serve_acceptInvite h
    obtain ⟨invite, ha, T, I, N, L, hT, hI, rfl⟩ := Invitations.acceptInvite_spec haccept
    exact Effect.accepted rfl ha.mem ha.token ha.pending hT hI.carried

/-- **The step lemma**: a step has one of the effects. -/
theorem effect_step (c : Call) : Effect lower s c (step lower s c) := by
  unfold step
  rcases (serve lower c).settle_cases s with ⟨u, h⟩ | ⟨h, -⟩
  · exact effect_serve h
  · rw [h]
    exact Effect.refl c

theorem Effect.roles_eq {c : Call} (h : Effect lower s c s') : s'.roles = s.roles := by
  cases h <;> rfl

theorem Effect.ownerRoleOf_eq {c : Call} (h : Effect lower s c s') :
    ownerRoleOf s' = ownerRoleOf s := by
  unfold ownerRoleOf Repositories.systemRoles
  rw [h.roles_eq]

/-! ### Members of other workspaces -/

section OtherMembers

variable {w i : Uuid} {T T' : Table WorkspaceMember} {m k : WorkspaceMember}

theorem mem_of_modify_ne {f : WorkspaceMember → WorkspaceMember} (hT : T.modify i f = some T')
    (hm : m ∈ T.rows) (hi : m.id = i) (hne : m.workspaceId ≠ w)
    (hf : ∀ m : WorkspaceMember, (f m).workspaceId = m.workspaceId) (hk : k ∈ T'.rows)
    (hkw : k.workspaceId = w) : k ∈ T.rows := by
  rcases (Table.mem_modify hT).mp hk with ⟨hold, -⟩ | ⟨q, hq, hqi, rfl⟩
  · exact hold
  · obtain rfl : q = m := T.eq_of_key_eq hq hm (Eq.trans hqi hi.symm)
    exact absurd ((hf q).symm.trans hkw) hne

theorem mem_of_transfer_ne {ws n actor r : Uuid} (hm : IsMember s ws m.id m)
    (hT : s.workspaceMembers.modify m.id (fun m => { m with roleId := n }) = some T)
    (hT' : (T' = T ∧ ∀ m ∈ T.rows, m.workspaceId = ws → m.userId = actor → m.deletedAt ≠ none) ∨
      ∃ m' ∈ T.rows, m'.workspaceId = ws ∧ m'.userId = actor ∧ m'.deletedAt = none ∧
        T.modify m'.id (fun m => { m with roleId := r }) = some T') (hne : ws ≠ w)
    (hk : k ∈ T'.rows) (hkw : k.workspaceId = w) : k ∈ s.workspaceMembers.rows := by
  have hkT : k ∈ T.rows := by
    rcases hT' with ⟨rfl, -⟩ | ⟨m', hm', hw', -, -, hmod⟩
    · exact hk
    · refine mem_of_modify_ne hmod hm' rfl ?_ (fun _ => rfl) hk hkw
      rw [hw']
      exact hne
  refine mem_of_modify_ne hT hm.1 rfl ?_ (fun _ => rfl) hkT hkw
  rw [hm.2.2.2]
  exact hne

end OtherMembers

/-! ### A small installation -/

/-- A system role. -/
def systemRole (id : Uuid) (name : String) : Role := ⟨id, none, name, none, .system, true⟩

/-- Three users and the roles Owner (5), Admin (6) and Member (7). -/
def seeded : Database :=
  { Database.empty with
    users := ⟨[userOf 1 "owner@example.com", userOf 2 "admin@example.com",
      userOf 3 "guest@example.com"], by decide⟩
    roles := ⟨[systemRole 5 "Owner", systemRole 6 "Admin", systemRole 7 "Member"], by decide⟩ }

/-- The first user's request for a workspace. -/
def studioRequest : Service.WorkspaceCreateInternal :=
  { name := "Studio", slug := some "studio", ownerId := 1, createdBy := 1 }

/-- The workspace (10) that it makes. -/
def studio : Workspace := Service.workspaceOf (drawsFrom 10 0 "") studioRequest "studio"

/-- The database after that. -/
def founded : Database :=
  (Service.createWorkspace id (drawsFrom 10 0 "") (userOf 1 "owner@example.com") studioRequest
    seeded).2

theorem createWorkspace_founded :
    (Service.createWorkspace id (drawsFrom 10 0 "") (userOf 1 "owner@example.com")
      studioRequest).Returns seeded studio founded :=
  Prog.returns_of_fst (by decide)

end MarketingSuite.Workspaces.System
