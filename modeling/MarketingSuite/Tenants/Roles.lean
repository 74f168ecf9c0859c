import MarketingSuite.Api.Access
import MarketingSuite.Tenants.Events

/-! # Whose roles a workspace uses

`create_invite` and `change_role` ask only whether the role exists, and `transfer_ownership` does
not ask at all, so a member or an invite may come to have a custom role of another workspace. Where
every role that is handed out is a system role or one of the workspace, that stays so, and what the
members may do does not depend on the roles of anyone else. -/

namespace MarketingSuite.Tenants.Roles

open MarketingSuite.Lib.Programs MarketingSuite.Lib.Tables MarketingSuite.Lib.Runs
open MarketingSuite.Base.Values MarketingSuite.Base.Models MarketingSuite.Base.Schema
open MarketingSuite.Repositories.Base
open MarketingSuite.Api.Dependencies (requirePermission)
open MarketingSuite.Api.Access
open MarketingSuite.Workspaces MarketingSuite.Workspaces.Repositories
open MarketingSuite.Workspaces.Service (WorkspaceCreateInternal)
open MarketingSuite.Tenants.Events

/-- A system role, or a role of the workspace. -/
def AtHome (w : Uuid) (role : Role) : Prop := role.isSystem = true ∨ role.workspaceId = some w

/-- The id is that of a system role or of a role of the workspace. -/
def HomeRole (s : Database) (w r : Uuid) : Prop :=
  ∃ role ∈ s.roles.rows, role.id = r ∧ AtHome w role

/-- The live members and the pending invites of every workspace have roles that are its own or the
system's. -/
structure RolesAtHome (s : Database) : Prop where
  members : ∀ m ∈ s.workspaceMembers.rows, m.deletedAt = none → HomeRole s m.workspaceId m.roleId
  invites : ∀ i ∈ s.workspaceInvites.rows, i.status = .pending → HomeRole s i.workspaceId i.roleId

/-- What a member of `w` may do is the same whatever becomes of the grants of other workspaces'
roles. -/
def Isolated (s : Database) (w : Uuid) : Prop :=
  ∀ G : Table RolePermission, (∀ r, HomeRole s w r → ∀ p,
      (∃ rp ∈ G.rows, rp.roleId = r ∧ rp.permissionId = p) ↔
        ∃ rp ∈ s.rolePermissions.rows, rp.roleId = r ∧ rp.permissionId = p) →
    ∀ resource action user, (requirePermission resource action w user).succeeds
        { s with rolePermissions := G } = (requirePermission resource action w user).succeeds s

/-- The role id that an operation hands out. -/
def roleOf : System.Op → Option Uuid
  | .createInvite _ r | .changeRole _ r | .transferOwnership _ r => some r
  | _ => none

/-- The event hands out the role id `r` in the workspace `w`. -/
def Gives (w r : Uuid) : Event → Prop
  | .call (.on _ _ w' op) => w' = w ∧ roleOf op = some r
  | _ => False

/-- The event hands out no role of another workspace. -/
def GivesHome (s : Database) (e : Event) : Prop :=
  ∀ w r, Gives w r e → ∀ role ∈ s.roles.rows, role.id = r → AtHome w role

instance (w : Uuid) (role : Role) : Decidable (AtHome w role) :=
  inferInstanceAs (Decidable (_ ∨ _))

instance (s : Database) (w r : Uuid) : Decidable (HomeRole s w r) := by
  unfold HomeRole
  infer_instance

instance : DecidablePred RolesAtHome := fun s =>
  decidable_of_iff ((∀ m ∈ s.workspaceMembers.rows, m.deletedAt = none →
      HomeRole s m.workspaceId m.roleId) ∧
    ∀ i ∈ s.workspaceInvites.rows, i.status = .pending → HomeRole s i.workspaceId i.roleId)
    ⟨fun h => ⟨h.1, h.2⟩, fun h => ⟨h.members, h.invites⟩⟩

variable {lower : String → String} {s s' : Database} {e : Event} {w r : Uuid}

/-! ### Where a role comes from -/

/-- Where an event can take the role of a member row or an invite of `w` from. -/
inductive Origin (s : Database) (e : Event) (w r : Uuid) : Prop
  | member {m} (hm : m ∈ s.workspaceMembers.rows) (hw : m.workspaceId = w) (hr : m.roleId = r)
    (hd : m.deletedAt = none)
  | invite {i} (hi : i ∈ s.workspaceInvites.rows) (hw : i.workspaceId = w) (hr : i.roleId = r)
    (hp : i.status = .pending)
  | owner {o} (ho : ownerRoleOf s = some o) (hr : o.id = r)
  | given (hg : Gives w r e) (hr : s.roles.has r = true)

theorem isSystem_of_ownerRoleOf {o : Role} (ho : ownerRoleOf s = some o) :
    o ∈ s.roles.rows ∧ o.isSystem = true := by
  have hmem := List.mem_of_find?_eq_some ho
  have hsort := (List.perm_insertionSort _ _).mem_iff.mp hmem
  exact Table.mem_select.mp hsort

theorem home_of_origin (hs : RolesAtHome s) (he : GivesHome s e) (h : Origin s e w r) :
    HomeRole s w r := by
  cases h with
  | member hm hw hr hd =>
    subst hw hr
    exact hs.members _ hm hd
  | invite hi hw hr hp =>
    subst hw hr
    exact hs.invites _ hi hp
  | owner ho hr =>
    obtain ⟨hmem, hsys⟩ := isSystem_of_ownerRoleOf ho
    exact ⟨_, hmem, hr, Or.inl hsys⟩
  | given hg hr =>
    obtain ⟨role, hmem, hk⟩ := Table.has_iff.mp hr
    exact ⟨role, hmem, hk, he w r hg role hmem hk⟩

/-- A row of the table after one row was changed has its role from before, or from the change. -/
theorem origin_of_modify {T : Table WorkspaceMember} {f : WorkspaceMember → WorkspaceMember}
    {i : Uuid} (hT : s.workspaceMembers.modify i f = some T)
    (hf : ∀ m ∈ s.workspaceMembers.rows, m.id = i → (f m).deletedAt = none →
      Origin s e (f m).workspaceId (f m).roleId) {m : WorkspaceMember} (hm : m ∈ T.rows)
    (hd : m.deletedAt = none) : Origin s e m.workspaceId m.roleId :=
  Table.forall_modify (P := fun m => m.deletedAt = none → Origin s e m.workspaceId m.roleId) hT
    (fun _ hold hd => Origin.member hold rfl rfl hd) hf m hm hd

theorem origin_of_changed {f : WorkspaceMember → WorkspaceMember} {i : Uuid}
    (hc : Members.Changed i f s s') (hf : ∀ m : WorkspaceMember, (f m).workspaceId = m.workspaceId ∧
      (f m).roleId = m.roleId ∧ ((f m).deletedAt = none → m.deletedAt = none))
    {m : WorkspaceMember} (hm : m ∈ s'.workspaceMembers.rows) (hd : m.deletedAt = none) :
    Origin s e m.workspaceId m.roleId := by
  obtain ⟨T, N, L, hT, rfl⟩ := hc
  refine origin_of_modify hT (fun q hq _ hqd => ?_) hm hd
  obtain ⟨hw, hr, hdel⟩ := hf q
  exact Origin.member hq hw.symm hr.symm (hdel hqd)

/-! ### The members after an event -/

/-- A new owner's row has the Owner role, and the row of the old one the role of the request. -/
theorem origin_of_transfer {d : Draws} {user : User} {ws : Workspace} {n : Uuid} {a : Workspace}
    (h : (Service.transferOwnership d user ws n r).Returns s a s')
    (he : Gives ws.id r e) {m : WorkspaceMember} (hm : m ∈ s'.workspaceMembers.rows)
    (hd : m.deletedAt = none) : Origin s e m.workspaceId m.roleId := by
  obtain ⟨-, q, hq, hqw, -, -, -, o, ho, W, T, T', N, L, -, hT, hT', hrole, rfl⟩ :=
    Service.transferOwnership_spec h
  have hold : ∀ m ∈ T.rows, m.deletedAt = none → Origin s e m.workspaceId m.roleId := by
    intro m hm hd
    exact origin_of_modify hT (fun _ _ _ _ => Origin.owner ho rfl) hm hd
  rcases hT' with ⟨rfl, -⟩ | ⟨q', hq', hw', -, -, hmod⟩
  · exact hold m hm hd
  · rcases (Table.mem_modify hmod).mp hm with ⟨hmT, -⟩ | ⟨p, hp, hpid, rfl⟩
    · exact hold m hmT hd
    · obtain rfl : p = q' := T.eq_of_key_eq hp hq' hpid
      rcases hrole with rfl | hrole
      · exact hold _ hm hd
      · refine Origin.given ?_ hrole
        show Gives p.workspaceId r e
        rw [hw']
        exact he

theorem origin_of_perform {d : Draws} {user : User} {ws : Workspace} {op : System.Op} {u : Unit}
    (h : (System.perform lower d user ws op).Returns s u s') {m : WorkspaceMember}
    (hm : m ∈ s'.workspaceMembers.rows) (hd : m.deletedAt = none) :
    Origin s (.call (.on d user.id ws.id op)) m.workspaceId m.roleId := by
  cases op with
  | createInvite email r =>
    obtain ⟨a, h, -⟩ := Prog.returns_bind_pure.mp h
    obtain ⟨e, I, I', N, L, -, -, -, -, rfl⟩ := Invitations.createInvite_spec h
    exact Origin.member hm rfl rfl hd
  | revokeInvite i =>
    obtain ⟨a, h, -⟩ := Prog.returns_bind_pure.mp h
    obtain ⟨I, N, L, -, rfl⟩ := Invitations.revokeInvite_spec h
    exact Origin.member hm rfl rfl hd
  | resendInvite i =>
    obtain ⟨a, h, -⟩ := Prog.returns_bind_pure.mp h
    obtain ⟨I, N, L, -, rfl⟩ := Invitations.resendInvite_spec h
    exact Origin.member hm rfl rfl hd
  | changeRole i r =>
    obtain ⟨a, h, -⟩ := Prog.returns_bind_pure.mp h
    obtain ⟨q, hq, ⟨-, rfl⟩ | ⟨-, -, hrole, -, T, N, L, hT, rfl⟩⟩ := Members.changeRole_spec h
    · exact Origin.member hm rfl rfl hd
    · refine origin_of_modify hT (fun p hp hpi _ => ?_) hm hd
      obtain rfl : p = q := s.workspaceMembers.eq_of_key_eq hp hq.1 (hpi.trans hq.2.1.symm)
      refine Origin.given ⟨?_, rfl⟩ hrole
      exact hq.2.2.2.symm
  | suspendMember i =>
    obtain ⟨a, h, -⟩ := Prog.returns_bind_pure.mp h
    obtain ⟨q, -, ⟨-, rfl⟩ | ⟨-, -, hc⟩⟩ := Members.suspendMember_spec h
    · exact Origin.member hm rfl rfl hd
    · exact origin_of_changed hc (fun _ => ⟨rfl, rfl, fun h => h⟩) hm hd
  | reactivateMember i =>
    obtain ⟨a, h, -⟩ := Prog.returns_bind_pure.mp h
    obtain ⟨q, -, ⟨-, rfl⟩ | ⟨-, hc⟩⟩ := Members.reactivateMember_spec h
    · exact Origin.member hm rfl rfl hd
    · exact origin_of_changed hc (fun _ => ⟨rfl, rfl, fun h => h⟩) hm hd
  | removeMember i =>
    obtain ⟨q, -, -, -, hc⟩ := Members.removeMember_spec h
    exact origin_of_changed hc (fun _ => ⟨rfl, rfl, fun h => absurd h (by simp)⟩) hm hd
  | transferOwnership n r =>
    obtain ⟨a, h, -⟩ := Prog.returns_bind_pure.mp h
    exact origin_of_transfer h (by exact ⟨rfl, rfl⟩) hm hd

/-- A member who was added has the role of the invite, or founded the workspace. -/
theorem member_origin {u : Unit} (h : (serve lower e).Returns s u s') {m : WorkspaceMember}
    (hm : m ∈ s'.workspaceMembers.rows) (hd : m.deletedAt = none) :
    Origin s e m.workspaceId m.roleId := by
  cases e with
  | call c =>
    cases c with
    | on d actor w op =>
      obtain ⟨user, -, rfl, ws, -, rfl, hop⟩ := System.serve_on h
      exact origin_of_perform hop hm hd
    | acceptInvite d actor token =>
      have hcall : (System.serve lower (.acceptInvite d actor token)).Returns s u s' := h
      obtain ⟨user, -, -, haccept⟩ := System.serve_acceptInvite hcall
      obtain ⟨invite, ha, T, I, N, L, hT, -, rfl⟩ := Invitations.acceptInvite_spec haccept
      rcases hT with rfl | hT
      · exact Origin.member hm rfl rfl hd
      · rcases (Table.mem_insert hT).mp hm with hold | rfl
        · exact Origin.member hold rfl rfl hd
        · exact Origin.invite ha.mem rfl rfl ha.pending
  | createWorkspace d actor data =>
    obtain ⟨user, -, -, a, hcreate⟩ := serve_createWorkspace h
    obtain ⟨o, W, T, L, ho, -, -, hT, rfl⟩ := Service.createWorkspace_spec hcreate
    rcases (Table.mem_insert hT).mp hm with hold | rfl
    · exact Origin.member hold rfl rfl hd
    · exact Origin.owner ho rfl
  | deleteWorkspace d actor w =>
    obtain ⟨user, -, -, ws, -, -, hdelete⟩ := serve_deleteWorkspace h
    obtain ⟨-, W, L, rfl, -⟩ := Service.deleteWorkspace_spec hdelete
    exact Origin.member hm rfl rfl hd
  | cloneSystemRole d i w name =>
    obtain ⟨a, h, -⟩ := Prog.returns_bind_pure.mp h
    rcases cloneSystemRoleToWorkspace_spec h with rfl | ⟨_, -, -, R, G, -, -, rfl⟩
    · exact Origin.member hm rfl rfl hd
    · exact Origin.member hm rfl rfl hd
  | expireInvites now =>
    obtain ⟨n, h, -⟩ := Prog.returns_bind_pure.mp h
    obtain ⟨I, -, rfl⟩ := Invitations.expireInvites_evolved h
    exact Origin.member hm rfl rfl hd
  | signIn d payload =>
    obtain ⟨a, h, -⟩ := Prog.returns_bind_pure.mp h
    rcases getOrCreateUser_spec h with rfl | ⟨U, -, rfl⟩
    · exact Origin.member hm rfl rfl hd
    · exact Origin.member hm rfl rfl hd

/-- A pending invite was pending before, or has the role it was issued for. -/
theorem invite_origin (hadv : Advance lower s e s') {i : WorkspaceInvite}
    (hi : i ∈ s'.workspaceInvites.rows) (hp : i.status = .pending) :
    Origin s e i.workspaceId i.roleId := by
  rcases hadv.issued i hi with ⟨j, hj, hl⟩ | ⟨href, d, actor, w, email, r, t, rfl, rfl⟩
  · obtain ⟨-, hw, -, hr, -, -, hst⟩ := hl.kept
    have hjp : j.status = .pending := by
      by_contra hne
      exact hne ((hst hne).symm.trans hp)
    exact Origin.invite hj hw.symm hr.symm hjp
  · simp only [Model.references, Bool.and_eq_true] at href
    exact Origin.given ⟨rfl, rfl⟩ href.1.2

/-! ### Runs -/

theorem homeRole_of_grown (hg : Grown s s') (h : HomeRole s w r) : HomeRole s' w r := by
  obtain ⟨role, hmem, hk, hhome⟩ := h
  exact ⟨role, hg.roles role hmem, hk, hhome⟩

/-- **One event** that hands out no role of another workspace keeps the roles at home. -/
theorem rolesAtHome_step (s : Database) (e : Event) (hs : RolesAtHome s) (he : GivesHome s e) :
    RolesAtHome (step lower s e) := by
  have hadv := advance_step lower s e
  refine ⟨fun m hm hd => ?_, fun i hi hp => ?_⟩
  · rcases (serve lower e).settle_cases s with ⟨u, h⟩ | ⟨hsame, -⟩
    · exact homeRole_of_grown hadv.toGrown (home_of_origin hs he (member_origin h hm hd))
    · unfold step at hm ⊢
      rw [hsame] at hm ⊢
      exact hs.members m hm hd
  · exact homeRole_of_grown hadv.toGrown (home_of_origin hs he (invite_origin hadv hi hp))

/-- Where the roles are at home, what a member may do depends on no other workspace's grants. -/
theorem isolated_of_rolesAtHome (hs : RolesAtHome s) (w : Uuid) : Isolated s w := by
  intro G hG resource action user
  rw [Bool.eq_iff_iff, requirePermission_succeeds_iff, requirePermission_succeeds_iff]
  refine or_congr (exists_congr fun m => and_congr_right fun hm => ?_) Iff.rfl
  have hhome : HomeRole s w m.roleId := by
    rw [← hm.2.1]
    exact hs.members m hm.1 hm.2.2.2
  refine exists_congr fun p => and_congr_right fun _ => and_congr_right fun _ =>
    and_congr_right fun _ => ?_
  exact hG m.roleId hhome p.id

/-- **Roles stay inside their tenant**, and the tenants apart, in every run whose events hand out no
role of another workspace. -/
theorem always_rolesAtHome (lower : String → String) (s : Database) (l : List Event)
    (hs : RolesAtHome s) (hl : Along (step lower) GivesHome s l) :
    Always (step lower) (fun s => RolesAtHome s ∧ ∀ w, Isolated s w) s l := by
  have halways := always_of_along rolesAtHome_step hs hl
  exact always_iff.mpr fun pre hpre =>
    ⟨always_iff.mp halways pre hpre, isolated_of_rolesAtHome (always_iff.mp halways pre hpre)⟩

/-- The second user's request for a workspace. -/
def rivalRequest : WorkspaceCreateInternal :=
  { name := "Rival", slug := some "rival", ownerId := 2, createdBy := 2 }

/-- The workspace (20) that it makes gets a role (30) of its own. -/
def rivalRole : List Event :=
  [.createWorkspace (drawsFrom 20 0 "") 2 rivalRequest,
    .cloneSystemRole (drawsFrom 30 0 "") 6 20 "Chief"]

theorem always_rolesAtHome_rival :
    Always (step id) (fun s => RolesAtHome s ∧ ∀ w, Isolated s w) System.founded
      (rivalRole ++ [.call (.on (drawsFrom 40 0 "t") 2 20 (.createInvite "guest@example.com" 30)),
        .call (.acceptInvite (drawsFrom 50 0 "") 3 "t")]) := by
  refine always_rolesAtHome id System.founded _ (by decide) ?_
  refine ⟨fun _ _ h => h.elim, fun _ _ h => h.elim, ?_, fun _ _ h => h.elim, trivial⟩
  rintro w r ⟨rfl, hr⟩
  obtain rfl := Option.some.inj hr
  decide

/-- The owner of the first workspace invites a guest to the role of the other one. -/
theorem foreign_role_invited :
    ¬ Always (step id) RolesAtHome System.founded
      (rivalRole ++
        [.call (.on (drawsFrom 40 0 "t") 1 10 (.createInvite "guest@example.com" 30))]) := by
  decide

/-- **The condition is needed**: an invite to a role of another workspace that goes through is one.
-/
theorem not_rolesAtHome_of_createInvite {d : Draws} {actor : Uuid} {email : String} {u : Unit}
    {role : Role} (hr : role ∈ s.roles.rows) (hforeign : ¬ AtHome w role)
    (h : (serve lower (.call (.on d actor w (.createInvite email role.id)))).Returns s u s') :
    ¬ RolesAtHome s' := by
  obtain ⟨_, -, -, ws, -, rfl, hop⟩ := System.serve_on h
  obtain ⟨a, hcreate, -⟩ := Prog.returns_bind_pure.mp hop
  obtain ⟨e, I, I', N, L, rfl, -, -, hins, rfl⟩ := Invitations.createInvite_spec hcreate
  intro hs
  obtain ⟨role', hmem, hid, hhome⟩ := hs.invites _ (Table.mem_insert_self hins) rfl
  obtain rfl : role' = role := s.roles.eq_of_key_eq hmem hr hid
  exact hforeign hhome

end MarketingSuite.Tenants.Roles
