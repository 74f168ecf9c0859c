import MarketingSuite.Api.Routes

/-! # Deleted workspaces

`delete_workspace` stamps the row of the workspace and touches nothing else, so whoever looks at
that row refuses a deleted workspace: `get_current_workspace` does. `require_permission` looks at the
member row first and `accept_invite` only at the invite, and they let into a deleted workspace who
still has a row with the permission, or an invite. -/

namespace MarketingSuite.Tenants.Deletion

open MarketingSuite.Lib.Programs MarketingSuite.Lib.Tables MarketingSuite.Lib.Sessions
open MarketingSuite.Lib.Runs
open MarketingSuite.Base.Values MarketingSuite.Base.Models MarketingSuite.Base.Schema
open MarketingSuite.Repositories.Base
open MarketingSuite.Api.Dependencies MarketingSuite.Api.Access MarketingSuite.Api.Routes
open MarketingSuite.Workspaces
open MarketingSuite.Workspaces.Repositories (cloneSystemRoleToWorkspace getUserWorkspaces
  cloneSystemRoleToWorkspace_spec)
open MarketingSuite.Workspaces.Members (IsMember)
open MarketingSuite.Workspaces.Invitations (Accepts)
open MarketingSuite.Workspaces.Service (WorkspaceCreateInternal)
open MarketingSuite.Tenants.Events

/-! ### The requests -/

/-- What decides who belongs to a workspace: the members, the invites, and the owners and deletions
of the workspaces. -/
def standing (db : Database) :
    Table WorkspaceMember × Table WorkspaceInvite × List (Uuid × Uuid × Option Time) :=
  (db.workspaceMembers, db.workspaceInvites,
    db.workspaces.rows.map fun w => (w.id, w.ownerId, w.deletedAt))

/-- The body of an endpoint of another part of the system, which leaves all that alone. -/
abbrev Body : Type := { p : Prog (Session Database) Exc Unit // Session.Keeps standing p }

/-- The body of `get_workspace_audit_logs`. -/
def auditLogsOf (w : Uuid) (limit offset : ℕ) : Body where
  val := Session.exec do
    let _ ← getByWorkspace w limit offset
    pure ()
  property := Session.keeps_exec (Prog.frames_bind (Prog.frames_gets _) fun _ => Prog.frames_pure _)

/-- The endpoint of an operation on a workspace. -/
def routeOf : System.Op → Route
  | .createInvite _ _ => .createInvite
  | .revokeInvite _ => .revokeInvite
  | .resendInvite _ => .resendInvite
  | .changeRole _ _ => .updateMember
  | .suspendMember _ => .suspendMember
  | .reactivateMember _ => .reactivateMember
  | .removeMember _ => .removeMember
  | .transferOwnership _ _ => .transferOwnership

/-- A request, or a job of the system. -/
inductive Demand
  | perform (d : Draws) (caller : Caller) (w : Uuid) (op : System.Op)
  | deleteWorkspace (d : Draws) (caller : Caller) (w : Uuid)
  | endpoint (d : Draws) (caller : Caller) (w : Uuid) (guard : Guard) (body : User → Body)
  | permissionOnly (d : Draws) (caller : Caller) (w : Uuid) (resource action : String)
      (body : User → Body)
  | acceptInvite (d : Draws) (caller : Caller) (token : String)
  | createWorkspace (d : Draws) (caller : Caller) (data : WorkspaceCreateInternal)
  | getWorkspaces (d : Draws) (caller : Caller)
  | cloneSystemRole (d : Draws) (systemRoleId workspaceId : Uuid) (newName : String)
  | expireInvites (now : Time)
  | unguarded (body : Body)

/-- `get_workspaces`. -/
def getWorkspaces (lower : String → String) (d : Draws) (caller : Caller) :
    Svc (List Workspace) := do
  let user ← getCurrentUser lower d caller
  getUserWorkspaces user.id

/-- A request in its session. The endpoints of this part of the system commit. -/
def act (lower : String → String) : Demand → Svc Unit
  | .perform d caller w op => Session.transact do
    let user ← dependencies lower d caller (routeOf op).guard w
    let workspace ← load Workspace w
    System.perform lower d user workspace op
  | .deleteWorkspace d caller w => Session.transact do
    let user ← dependencies lower d caller Route.deleteWorkspace.guard w
    let workspace ← load Workspace w
    Service.deleteWorkspace d user workspace
  | .endpoint d caller w guard body => Session.serve do
    let user ← Session.exec (dependencies lower d caller guard w)
    (body user).val
  | .permissionOnly d caller w resource action body => Session.serve do
    let user ← Session.exec (permitted lower d caller resource action w)
    (body user).val
  | .acceptInvite d caller token => Session.transact do
    let user ← getCurrentUser lower d caller
    Invitations.acceptInvite d user token
  | .createWorkspace d caller data => Session.transact do
    let user ← getCurrentUser lower d caller
    let _ ← Service.createWorkspace lower d user { data with ownerId := user.id, createdBy := user.id }
    pure ()
  | .getWorkspaces d caller => Session.serve do
    let _ ← Session.exec (getWorkspaces lower d caller)
    pure ()
  | .cloneSystemRole d systemRoleId workspaceId newName => Session.transact do
    let _ ← cloneSystemRoleToWorkspace d systemRoleId workspaceId newName
    pure ()
  | .expireInvites now => Session.transact do
    let _ ← Repositories.expireInvites now
    pure ()
  | .unguarded body => Session.serve body.val

/-- The state after a request, as the next session sees it. -/
def step (lower : String → String) (s : Database) (q : Demand) : Database := (act lower q s).2

/-! ### Inert workspaces -/

/-- The workspace is there, and deleted. -/
def Deleted (w : Uuid) (s : Database) : Prop :=
  ∃ ws ∈ s.workspaces.rows, ws.id = w ∧ ws.deletedAt ≠ none

/-- The request is refused if it is to `w`: its dependencies raise, accepting an invite of `w`
raises, and `w` is on no list. -/
def Refuses (lower : String → String) (w : Uuid) (s : Database) : Demand → Prop
  | .perform d caller v op =>
    v = w → (dependencies lower d caller (routeOf op).guard v).succeeds s = false
  | .deleteWorkspace d caller v =>
    v = w → (dependencies lower d caller Route.deleteWorkspace.guard v).succeeds s = false
  | .endpoint d caller v guard _ => v = w → (dependencies lower d caller guard v).succeeds s = false
  | .permissionOnly d caller v resource action _ =>
    v = w → (permitted lower d caller resource action v).succeeds s = false
  | .acceptInvite d caller token => ∀ i ∈ s.workspaceInvites.rows, i.workspaceId = w →
    i.token = token → (act lower (.acceptInvite d caller token)).succeeds s = false
  | .getWorkspaces d caller =>
    ∀ l t, (getWorkspaces lower d caller).Returns s l t → ∀ ws ∈ l, ws.id ≠ w
  | _ => True

/-- No member row of `w` is new or changed. -/
def Untouched (w : Uuid) (s s' : Database) : Prop :=
  ∀ m ∈ s'.workspaceMembers.rows, m.workspaceId = w → m ∈ s.workspaceMembers.rows

/-- Nobody gets the workspace, the request is refused if it is to it, and it admits no member. -/
structure Inert (lower : String → String) (w : Uuid) (s : Database) (q : Demand) : Prop where
  hidden : ∀ user, (getCurrentWorkspace w user).succeeds s = false
  refuses : Refuses lower w s q
  untouched : Untouched w s (step lower s q)

/-- The request asks for a permission in `w` only, and the user's live member row has it; or it is
for an invite of `w` that `accept_invite` accepts. -/
def Leaks (lower : String → String) (w : Uuid) (s : Database) : Demand → Prop
  | .permissionOnly d caller v resource action _ => v = w ∧ ∃ user t,
    (getCurrentUser lower d caller).Returns s user t ∧
      ∃ m, IsLive s w user.id m ∧ Grants s m.roleId resource action
  | .acceptInvite d caller token => ∃ user t, (getCurrentUser lower d caller).Returns s user t ∧
    ∃ i, Accepts t d user token i ∧ i.workspaceId = w
  | _ => False

variable {lower : String → String} {d : Draws} {caller : Caller} {s s' t : Database} {w v i u : Uuid}
  {user : User} {resource action token : String} {q : Demand}

/-! ### Who is refused -/

theorem not_isOpen_of_deleted {ws : Workspace} (hd : Deleted w s) : ¬ IsOpen s w ws := by
  rintro ⟨hmem, hid, hnone⟩
  obtain ⟨ws', hmem', hid', hdel⟩ := hd
  obtain rfl := s.workspaces.eq_of_key_eq hmem hmem' (hid.trans hid'.symm)
  exact hdel hnone

theorem not_enters_of_deleted (hd : Deleted w s) : ¬ Enters s w u := by
  rintro ⟨ws, hopen, -⟩
  exact not_isOpen_of_deleted hd hopen

theorem permitted_iff_of_deleted (hd : Deleted w s) :
    Permitted s w u resource action ↔ ∃ m, IsLive s w u m ∧ Grants s m.roleId resource action := by
  refine ⟨?_, Or.inl⟩
  rintro (hm | ⟨-, ws, hopen, -⟩)
  · exact hm
  · exact absurd hopen (not_isOpen_of_deleted hd)

theorem dependencies_fail (hd : Deleted w s) (g : Guard) :
    (dependencies lower d caller g w).succeeds s = false := by
  rw [Bool.eq_false_iff]
  intro h
  obtain ⟨user', s', hret⟩ := Prog.succeeds_iff.mp h
  obtain ⟨user, t, hu, -⟩ := Prog.returns_bind.mp hret
  exact not_enters_of_deleted hd ((dependencies_succeed_iff hu).mp h).1

theorem permitted_succeeds_iff : (permitted lower d caller resource action w).succeeds s = true ↔
    ∃ user t, (getCurrentUser lower d caller).Returns s user t ∧
      Permitted s w user.id resource action := by
  have hcond : ∀ user t, (getCurrentUser lower d caller).Returns s user t →
      ((permitted lower d caller resource action w).succeeds s = true ↔
        Permitted s w user.id resource action) := by
    intro user t hu
    unfold permitted
    rw [Prog.succeeds_bind hu, Prog.succeeds_bind_pure, requirePermission_succeeds_iff,
      permitted_congr (accessTables_of_getCurrentUser hu)]
  constructor
  · intro h
    obtain ⟨user', s', hret⟩ := Prog.succeeds_iff.mp h
    obtain ⟨user, t, hu, -⟩ := Prog.returns_bind.mp hret
    exact ⟨user, t, hu, (hcond user t hu).mp h⟩
  · rintro ⟨user, t, hu, hp⟩
    exact (hcond user t hu).mpr hp

theorem invites_of_getCurrentUser (h : (getCurrentUser lower d caller).Returns s user t) :
    t.workspaceInvites = s.workspaceInvites :=
  (frames_getCurrentUser (f := Database.workspaceInvites) fun _ _ => rfl).returns h

theorem acceptInvite_succeeds_iff {invite : WorkspaceInvite}
    (hi : invite ∈ s.workspaceInvites.rows) (htok : invite.token = token) :
    (act lower (.acceptInvite d caller token)).succeeds s = true ↔
      ∃ user t, (getCurrentUser lower d caller).Returns s user t ∧
        Accepts t d user token invite := by
  unfold act
  rw [Session.transact_succeeds]
  constructor
  · intro h
    obtain ⟨_, s', hret⟩ := Prog.succeeds_iff.mp h
    obtain ⟨user, t, hu, hacc⟩ := Prog.returns_bind.mp hret
    obtain ⟨invite', ha, -⟩ := Invitations.acceptInvite_exact hacc
    have hmem : invite ∈ t.workspaceInvites.rows := by
      rw [invites_of_getCurrentUser hu]
      exact hi
    rw [ha.unique hmem htok]
    exact ⟨user, t, hu, ha⟩
  · rintro ⟨user, t, hu, ha⟩
    rw [Prog.succeeds_bind hu]
    exact Invitations.acceptInvite_succeeds ha

/-- **A deleted workspace refuses exactly the requests that are no leak.** -/
theorem refuses_iff (hd : Deleted w s) : Refuses lower w s q ↔ ¬ Leaks lower w s q := by
  cases q with
  | perform d caller v op =>
    refine iff_of_true ?_ fun h => h
    rintro rfl
    exact dependencies_fail hd _
  | deleteWorkspace d caller v =>
    refine iff_of_true ?_ fun h => h
    rintro rfl
    exact dependencies_fail hd _
  | endpoint d caller v guard body =>
    refine iff_of_true ?_ fun h => h
    rintro rfl
    exact dependencies_fail hd _
  | permissionOnly d caller v resource action body =>
    simp only [Refuses, Leaks, Bool.eq_false_iff, ne_eq, not_and]
    refine imp_congr_right ?_
    rintro rfl
    rw [permitted_succeeds_iff]
    simp only [permitted_iff_of_deleted hd]
  | acceptInvite d caller token =>
    constructor
    · rintro hr ⟨user, t, hu, i, ha, hw⟩
      have hi : i ∈ s.workspaceInvites.rows := by
        rw [← invites_of_getCurrentUser hu]
        exact ha.mem
      have hfail := hr i hi hw ha.token
      rw [(acceptInvite_succeeds_iff hi ha.token).mpr ⟨user, t, hu, ha⟩] at hfail
      exact Bool.noConfusion hfail
    · intro hno i hi hw htok
      rw [Bool.eq_false_iff]
      intro h
      obtain ⟨user, t, hu, ha⟩ := (acceptInvite_succeeds_iff hi htok).mp h
      exact hno ⟨user, t, hu, i, ha, hw⟩
  | getWorkspaces d caller =>
    refine iff_of_true ?_ fun h => h
    intro l t h ws hws hid
    obtain ⟨user, t', hu, hlist⟩ := Prog.returns_bind.mp h
    obtain ⟨rfl, rfl⟩ := Prog.returns_gets.mp hlist
    rw [Table.mem_select, Bool.and_eq_true, Option.isNone_iff_eq_none] at hws
    have hsame : t.workspaces = s.workspaces :=
      (frames_getCurrentUser (f := Database.workspaces) fun _ _ => rfl).returns hu
    rw [hsame] at hws
    exact not_isOpen_of_deleted hd ⟨hws.1, hid, hws.2.2⟩
  | _ => exact iff_of_true trivial fun h => h

/-! ### What a request can do to a deleted workspace -/

/-- `w` is deleted in `s'`, and has the members it had. -/
structure Sealed (w : Uuid) (s s' : Database) : Prop where
  deleted : Deleted w s'
  untouched : Untouched w s s'

theorem deleted_iff :
    Deleted w s ↔ ∃ x ∈ (standing s).2.2, x.1 = w ∧ x.2.2 ≠ none := by
  simp [Deleted, standing]

theorem deleted_congr (h : standing t = standing s) : Deleted w t ↔ Deleted w s := by
  rw [deleted_iff, deleted_iff, h]

theorem sealed_of_standing (hd : Deleted w s) (h : standing s' = standing s) : Sealed w s s' := by
  refine ⟨(deleted_congr h).mpr hd, fun m hm _ => ?_⟩
  have htable : s'.workspaceMembers = s.workspaceMembers := congrArg Prod.fst h
  rw [← htable]
  exact hm

theorem Sealed.after (h : Sealed w t s') (ht : standing t = standing s) : Sealed w s s' := by
  refine ⟨h.deleted, fun m hm hw => ?_⟩
  have htable : t.workspaceMembers = s.workspaceMembers := congrArg Prod.fst ht
  rw [← htable]
  exact h.untouched m hm hw

theorem deleted_of_modify {f : Workspace → Workspace} {W : Table Workspace} (hd : Deleted w s)
    (hW : s.workspaces.modify i f = some W)
    (hf : ∀ ws : Workspace, (f ws).id = ws.id ∧ (ws.deletedAt ≠ none → (f ws).deletedAt ≠ none)) :
    ∃ ws ∈ W.rows, ws.id = w ∧ ws.deletedAt ≠ none := by
  obtain ⟨ws, hmem, hid, hdel⟩ := hd
  obtain ⟨v, hv, hid', hdel'⟩ := Table.exists_after_modify
    (R := fun ws v => v.id = ws.id ∧ (ws.deletedAt ≠ none → v.deletedAt ≠ none)) hW
    (fun _ => ⟨rfl, fun h => h⟩) (fun ws _ _ => hf ws) ws hmem
  exact ⟨v, hv, hid'.trans hid, hdel' hdel⟩

/-- The call is an operation on another workspace. -/
def Elsewhere (w : Uuid) : System.Call → Prop
  | .on _ _ v _ => v ≠ w
  | .acceptInvite _ _ _ => False

theorem sealed_of_member {f : WorkspaceMember → WorkspaceMember} {m : WorkspaceMember}
    {T : Table WorkspaceMember} {N : Table Notification} {L : List AuditLog} (hd : Deleted w s)
    (hm : IsMember s v i m) (hne : v ≠ w)
    (hT : s.workspaceMembers.modify i f = some T)
    (hf : ∀ m : WorkspaceMember, (f m).workspaceId = m.workspaceId) :
    Sealed w s { s with workspaceMembers := T, notifications := N, auditLogs := L } := by
  refine ⟨hd, fun k hk hkw => ?_⟩
  refine System.mem_of_modify_ne hT hm.1 hm.2.1 ?_ hf hk hkw
  rw [hm.2.2.2]
  exact hne

theorem sealed_of_effect {c : System.Call} (hd : Deleted w s) (h : System.Effect lower s c s')
    (hc : Elsewhere w c) : Sealed w s s' := by
  cases h with
  | kept hI => exact ⟨hd, fun m hm _ => hm⟩
  | invited hw hI hins => exact ⟨hd, fun m hm _ => hm⟩
  | reassigned hw hm hp ho hg hT => exact sealed_of_member hd hm hc hT fun _ => rfl
  | suspended hm hp hT => exact sealed_of_member hd hm hc hT fun _ => rfl
  | reactivated hm hT => exact sealed_of_member hd hm hc hT fun _ => rfl
  | removed hm hp hT => exact sealed_of_member hd hm hc hT fun _ => rfl
  | @transferred d actor n r m o W T T' N L ws hws howner hm hn hact ho hT hT' hW =>
    refine ⟨deleted_of_modify hd hW fun _ => ⟨rfl, fun h => h⟩, fun k hk hkw => ?_⟩
    exact System.mem_of_transfer_ne hm hT hT' hc hk hkw
  | accepted => exact absurd hc id

theorem frames_check {δ : Type} {f : Database → δ} (g : Guard) : (g.check w user).Frames f := by
  unfold Guard.check
  refine Prog.frames_ite ?_ ?_
  · exact Prog.frames_bind frames_getCurrentWorkspace fun _ => frames_requirePermission
  · refine Prog.frames_bind frames_requirePermission fun _ => ?_
    exact Prog.frames_bind frames_getCurrentWorkspace fun _ => Prog.frames_pure _

theorem frames_dependencies (g : Guard) : (dependencies lower d caller g w).Frames standing := by
  refine Prog.frames_bind (frames_getCurrentUser fun _ _ => rfl) fun user => ?_
  exact Prog.frames_bind (frames_check g) fun _ => Prog.frames_pure _

theorem sealed_of_delete {ws : Workspace} {a : Unit} (hd : Deleted w s)
    (h : (Service.deleteWorkspace d user ws).Returns s a s') : Sealed w s s' := by
  obtain ⟨-, W, L, rfl, hW⟩ := Service.deleteWorkspace_spec h
  refine ⟨?_, fun m hm _ => hm⟩
  rcases hW with rfl | hW
  · exact hd
  · exact deleted_of_modify hd hW fun _ => ⟨rfl, fun _ => Option.some_ne_none _⟩

theorem sealed_of_create {data : WorkspaceCreateInternal} {a : Workspace} (hd : Deleted w s)
    (h : (Service.createWorkspace lower d user data).Returns s a s') : Sealed w s s' := by
  obtain ⟨o, W, T, L, -, -, hW, hT, rfl⟩ := Service.createWorkspace_spec h
  obtain ⟨ws, hmem, hid, hdel⟩ := hd
  refine ⟨⟨ws, (Table.mem_insert hW).mpr (Or.inl hmem), hid, hdel⟩, fun m hm hmw => ?_⟩
  rcases (Table.mem_insert hT).mp hm with hold | rfl
  · exact hold
  · -- the id of a new workspace is not that of a deleted one
    have hne : ws.id ≠ a.id := (Table.apart_of_insert hW hmem).1
    exact absurd (hid.trans hmw.symm) hne

theorem sealed_transact {p : Svc Unit} (hd : Deleted w s)
    (h : ∀ s', p.Returns s () s' → Sealed w s s') : Sealed w s (Session.transact p s).2 := by
  rw [Session.transact_snd]
  rcases p.settle_cases s with ⟨_, hret⟩ | ⟨hsame, -⟩
  · exact h _ hret
  · rw [hsame]
    exact sealed_of_standing hd rfl

theorem sealed_serve {p : Svc User} {body : User → Body} (hd : Deleted w s)
    (hp : p.Frames standing) :
    Sealed w s (Session.serve (Session.exec p >>= fun user => (body user).val) s).2 :=
  sealed_of_standing hd
    (Session.frames_serve (Session.keeps_bind (Session.keeps_exec hp) fun user =>
      (body user).property) s)

theorem sealed_of_accept {a : Unit} (hd : Deleted w s)
    (h : (Invitations.acceptInvite d user token).Returns s a s') :
    Deleted w s' ∧ ∃ invite, Accepts s d user token invite ∧
      (invite.workspaceId ≠ w → Untouched w s s') := by
  obtain ⟨invite, ha, T, I, N, L, hT, -, rfl⟩ := Invitations.acceptInvite_spec h
  refine ⟨hd, invite, ha, fun hne m hm hmw => ?_⟩
  rcases hT with rfl | hT
  · exact hm
  · rcases (Table.mem_insert hT).mp hm with hold | rfl
    · exact hold
    · exact absurd hmw hne

/-- **The step lemma**: a deleted workspace stays deleted, and only a leak touches its members. -/
theorem step_deleted (hd : Deleted w s) (q : Demand) :
    Deleted w (step lower s q) ∧ (¬ Leaks lower w s q → Untouched w s (step lower s q)) := by
  have hsealed : ∀ {s'}, Sealed w s s' → Deleted w s' ∧ (¬ Leaks lower w s q → Untouched w s s') :=
    fun h => ⟨h.deleted, fun _ => h.untouched⟩
  cases q with
  | perform d caller v op =>
    refine hsealed (sealed_transact hd fun s' h => ?_)
    obtain ⟨user, t, hdeps, hrest⟩ := Prog.returns_bind.mp h
    obtain ⟨ws, t', hload, hop⟩ := Prog.returns_bind.mp hrest
    obtain ⟨rfl, hws, rfl⟩ := load_spec hload
    have ht := (frames_dependencies _).returns hdeps
    have heffect := System.effect_perform hws hop
    refine (sealed_of_effect ((deleted_congr ht).mpr hd) heffect ?_).after ht
    rintro rfl
    have hfail : (dependencies lower d caller (routeOf op).guard ws.id).succeeds s = false :=
      dependencies_fail hd _
    exact absurd (hfail.symm.trans (Prog.succeeds_of_returns hdeps)) Bool.false_ne_true
  | deleteWorkspace d caller v =>
    refine hsealed (sealed_transact hd fun s' h => ?_)
    obtain ⟨user, t, hdeps, hrest⟩ := Prog.returns_bind.mp h
    obtain ⟨ws, t', hload, hdelete⟩ := Prog.returns_bind.mp hrest
    obtain ⟨rfl, -, -⟩ := load_spec hload
    have ht := (frames_dependencies _).returns hdeps
    exact (sealed_of_delete ((deleted_congr ht).mpr hd) hdelete).after ht
  | endpoint d caller v guard body => exact hsealed (sealed_serve hd (frames_dependencies guard))
  | permissionOnly d caller v resource action body =>
    exact hsealed (sealed_serve hd (frames_permitted fun _ _ => rfl))
  | acceptInvite d caller token =>
    have hstep : step lower s (.acceptInvite d caller token) = Prog.settle (do
        let user ← getCurrentUser lower d caller
        Invitations.acceptInvite d user token) s := Session.transact_snd _ _
    rw [hstep]
    rcases Prog.settle_cases (do
        let user ← getCurrentUser lower d caller
        Invitations.acceptInvite d user token) s with ⟨_, h⟩ | ⟨hsame, -⟩
    · obtain ⟨user, t, hu, haccept⟩ := Prog.returns_bind.mp h
      have ht : standing t = standing s := (frames_getCurrentUser fun _ _ => rfl).returns hu
      obtain ⟨hdel, invite, ha, hunt⟩ := sealed_of_accept ((deleted_congr ht).mpr hd) haccept
      refine ⟨hdel, fun hno => ?_⟩
      have hsealed' : Sealed w t _ := ⟨hdel, hunt fun hw => hno ⟨user, t, hu, invite, ha, hw⟩⟩
      exact (hsealed'.after ht).untouched
    · rw [hsame]
      exact ⟨hd, fun _ m hm _ => hm⟩
  | createWorkspace d caller data =>
    refine hsealed (sealed_transact hd fun s' h => ?_)
    obtain ⟨user, t, hu, hrest⟩ := Prog.returns_bind.mp h
    obtain ⟨ws, hcreate, -⟩ := Prog.returns_bind_pure.mp hrest
    have ht : standing t = standing s := (frames_getCurrentUser fun _ _ => rfl).returns hu
    exact (sealed_of_create ((deleted_congr ht).mpr hd) hcreate).after ht
  | getWorkspaces d caller =>
    refine hsealed (sealed_of_standing hd ?_)
    refine Session.frames_serve (Session.keeps_bind (Session.keeps_exec ?_) fun _ =>
      Session.keeps_pure _) s
    exact Prog.frames_bind (frames_getCurrentUser fun _ _ => rfl) fun _ => Prog.frames_gets _
  | cloneSystemRole d r v name =>
    refine hsealed (sealed_transact hd fun s' h => ?_)
    obtain ⟨a, hclone, -⟩ := Prog.returns_bind_pure.mp h
    rcases cloneSystemRoleToWorkspace_spec hclone with rfl | ⟨r, -, -, R, G, -, -, rfl⟩
    · exact sealed_of_standing hd rfl
    · exact sealed_of_standing hd rfl
  | expireInvites now =>
    refine hsealed (sealed_transact hd fun s' h => ?_)
    obtain ⟨n, hexpire, -⟩ := Prog.returns_bind_pure.mp h
    obtain ⟨I, -, rfl⟩ := Invitations.expireInvites_evolved hexpire
    exact ⟨hd, fun m hm _ => hm⟩
  | unguarded body =>
    exact hsealed (sealed_of_standing hd (Session.frames_serve body.property s))

/-! ### Runs -/

theorem inert_iff_not_leaks (hd : Deleted w s) : Inert lower w s q ↔ ¬ Leaks lower w s q := by
  constructor
  · exact fun h => (refuses_iff hd).mp h.refuses
  · intro hno
    refine ⟨fun user => ?_, (refuses_iff hd).mpr hno, (step_deleted hd q).2 hno⟩
    rw [Bool.eq_false_iff, ne_eq, getCurrentWorkspace_succeeds_iff]
    exact not_enters_of_deleted hd

/-- **A deleted workspace is inert along a run exactly if nothing leaks**: no request asks only for a
permission that a member row left behind has, and none accepts an invite left behind. -/
theorem along_inert_iff (lower : String → String) {s₀ : Database} {ws : Workspace}
    (hws : ws ∈ s₀.workspaces.rows) (h : (Service.deleteWorkspace d user ws).Returns s₀ () s)
    (l : List Demand) : Along (step lower) (Inert lower ws.id) s l ↔
      Along (step lower) (fun s q => ¬ Leaks lower ws.id s q) s l :=
  along_congr (I := Deleted ws.id) (fun _ q hd => (step_deleted hd q).1)
    (fun _ _ hd => inert_iff_not_leaks hd) (Service.deleteWorkspace_deletes hws h)

/-- The second user is an admin (member 30) of the first one's workspace, and the third one is
invited. -/
def populated : Database :=
  run (Events.step id) chartered
    [.call (.on (drawsFrom 20 0 "t") 1 10 (.createInvite "admin@example.com" 6)),
      .call (.acceptInvite (drawsFrom 30 0 "") 2 "t"),
      .call (.on (drawsFrom 40 0 "u") 1 10 (.createInvite "guest@example.com" 7))]

/-- The owner deletes it. -/
def dissolved : Database :=
  (Service.deleteWorkspace (drawsFrom 60 0 "") (userOf 1 "owner@example.com") System.studio
    populated).2

theorem deleteWorkspace_dissolved : (Service.deleteWorkspace (drawsFrom 60 0 "")
    (userOf 1 "owner@example.com") System.studio).Returns populated () dissolved :=
  Prog.returns_of_fst (by decide)

/-- The invited guest accepts. -/
def guestAccepts : Demand :=
  .acceptInvite (drawsFrom 70 0 "") (.ok ⟨.id 3, some "guest@example.com"⟩) "u"

/-- The admin asks for the audit log. -/
def adminReads : Demand :=
  .permissionOnly (drawsFrom 80 0 "") adminToken 10 "workspace" "read" fun _ => auditLogsOf 10 100 0

theorem along_inert_iff_dissolved :
    Along (step id) (Inert id 10) dissolved [guestAccepts, adminReads] ↔
      Along (step id) (fun s q => ¬ Leaks id 10 s q) dissolved [guestAccepts, adminReads] :=
  along_inert_iff id (by decide : System.studio ∈ populated.workspaces.rows)
    deleteWorkspace_dissolved [guestAccepts, adminReads]

/-- An invited user joins a deleted workspace, and a member of it reads its audit log. -/
theorem deleted_workspace_admits :
    System.studio ∈ populated.workspaces.rows ∧
      (Service.deleteWorkspace (drawsFrom 60 0 "") (userOf 1 "owner@example.com")
        System.studio).Returns populated () dissolved ∧
      ¬ Along (step id) (Inert id 10) dissolved [guestAccepts] ∧
      (∃ m ∈ (step id dissolved guestAccepts).workspaceMembers.rows, m.workspaceId = 10 ∧
        m.userId = 3 ∧ m.status = .active ∧ m.deletedAt = none) ∧
      ¬ Along (step id) (Inert id 10) dissolved [adminReads] := by
  refine ⟨by decide, Prog.returns_of_fst (by decide), ?_, by decide, ?_⟩
  · rintro ⟨h, -⟩
    have hnew : ∃ m ∈ (step id dissolved guestAccepts).workspaceMembers.rows, m.workspaceId = 10 ∧
        m ∉ dissolved.workspaceMembers.rows := by decide
    obtain ⟨m, hm, hw, hno⟩ := hnew
    exact hno (h.untouched m hm hw)
  · rintro ⟨h, -⟩
    have hpass : (permitted id (drawsFrom 80 0 "") adminToken "workspace" "read" 10).succeeds
        dissolved = true := by decide
    exact absurd (hpass.symm.trans (h.refuses rfl)) (by decide)

end MarketingSuite.Tenants.Deletion
