import MarketingSuite.Api.Access
import MarketingSuite.Tenants.Events
import MarketingSuite.Workspaces.LastOwner

/-! # The authority of the owner

`workspace.owner_id` and the role of the owner's member row are two records. `require_permission`
trusts the row and falls back to `owner_id` only where there is none, so an owner loses a permission
by a `change_role` of his own row, which the guards let pass while another member holds the Owner
role. Nothing else takes it from him. -/

namespace MarketingSuite.Tenants.Owners

open MarketingSuite.Lib.Programs MarketingSuite.Lib.Tables MarketingSuite.Lib.Runs
open MarketingSuite.Base.Values MarketingSuite.Base.Models MarketingSuite.Base.Schema
open MarketingSuite.Repositories.Base
open MarketingSuite.Api.Dependencies (getCurrentWorkspace requirePermission)
open MarketingSuite.Api.Access
open MarketingSuite.Workspaces MarketingSuite.Workspaces.Repositories
open MarketingSuite.Workspaces.LastOwner (Demotes mem_of_demotes)
open MarketingSuite.Workspaces.Service (WorkspaceCreateInternal createWorkspace createWorkspace_spec)
open MarketingSuite.Tenants.Events

/-- Whoever owns the workspace passes its two dependencies, the second one for every permission of
the Owner role. -/
def HasAuthority (w : Uuid) (s : Database) : Prop :=
  ∀ ws ∈ s.workspaces.rows, ws.id = w → ∀ user ∈ s.users.rows, user.id = ws.ownerId →
    (getCurrentWorkspace w user).succeeds s = true ∧
      ∀ o, ownerRoleOf s = some o → ∀ resource action, Grants s o.id resource action →
        (requirePermission resource action w user).succeeds s = true

/-- The role has every permission of the Owner role. -/
def Covers (s : Database) (r : Uuid) : Prop :=
  ∀ o, ownerRoleOf s = some o → ∀ resource action, Grants s o.id resource action →
    Grants s r resource action

/-- The events that are allowed: the workspace is not deleted, nor transferred to its owner. -/
def Within (w : Uuid) : Event → Prop
  | .deleteWorkspace _ _ w' => w' ≠ w
  | .call (.on _ actor w' (.transferOwnership n _)) => w' = w → n ≠ actor
  | _ => True

/-- The event does not give the owner's own row a role with less permissions than the Owner role. -/
def SparesOwner (w : Uuid) (s : Database) : Event → Prop
  | .call (.on _ _ w' (.changeRole i r)) => w' = w → ∀ ws m, IsOpen s w ws →
      IsLive s w ws.ownerId m → m.id = i → Covers s r
  | _ => True

/-- **The invariant**: the owner has a row, and if it is live it has every permission of the Owner
role. -/
def Secure (w : Uuid) (s : Database) : Prop :=
  ∃ ws, IsOpen s w ws ∧ ∃ m ∈ s.workspaceMembers.rows, m.workspaceId = w ∧ m.userId = ws.ownerId ∧
    (m.deletedAt = none → Covers s m.roleId)

variable {lower : String → String} {s s' : Database} {w i r : Uuid} {e : Event}
  {T : Table WorkspaceMember}

theorem hasAuthority_of_secure (hs : Secure w s) : HasAuthority w s := by
  obtain ⟨ws, hopen, m, hm, hmw, hmu, hcov⟩ := hs
  intro ws' hws' hid user _ huser
  have hsame : ws' = ws := s.workspaces.eq_of_key_eq hws' hopen.1 (hid.trans hopen.2.1.symm)
  subst hsame
  refine ⟨getCurrentWorkspace_succeeds_iff.mpr ⟨ws', hopen, Or.inr huser.symm⟩, ?_⟩
  intro o ho resource action hg
  rw [requirePermission_succeeds_iff]
  by_cases hd : m.deletedAt = none
  · exact Or.inl ⟨m, ⟨hm, hmw, hmu.trans huser.symm, hd⟩, hcov hd o ho resource action hg⟩
  · refine Or.inr ⟨fun m' hm' => hd ?_, ws', hopen, huser.symm⟩
    obtain rfl : m' = m := by
      refine s.workspaceMembers.eq_of_not_compatible hm'.1 hm ?_
      simp [Keyed.compatible, hm'.2.1, hm'.2.2.1, hmw, hmu, huser]
    exact hm'.2.2.2

/-! ### What an event can do to it -/

theorem secure_of_kept (hs : Secure w s) (hW : ∀ ws, IsOpen s w ws → IsOpen s' w ws)
    (hM : ∀ m ∈ s.workspaceMembers.rows, m ∈ s'.workspaceMembers.rows)
    (hC : ∀ r, Covers s r → Covers s' r) : Secure w s' := by
  obtain ⟨ws, hopen, m, hm, hmw, hmu, hcov⟩ := hs
  exact ⟨ws, hW ws hopen, m, hM m hm, hmw, hmu, fun hd => hC _ (hcov hd)⟩

/-- One member row is changed; if it is the owner's, what it covers still does. -/
theorem secure_of_modify {f : WorkspaceMember → WorkspaceMember} {I : Table WorkspaceInvite}
    {N : Table Notification} {L : List AuditLog} (hs : Secure w s)
    (hT : s.workspaceMembers.modify i f = some T)
    (hf : ∀ m, (f m).workspaceId = m.workspaceId ∧ (f m).userId = m.userId)
    (hcov : ∀ ws m, IsOpen s w ws → m ∈ s.workspaceMembers.rows → m.workspaceId = w →
      m.userId = ws.ownerId → m.id = i → (m.deletedAt = none → Covers s m.roleId) →
      (f m).deletedAt = none → Covers s (f m).roleId) :
    Secure w { s with workspaceMembers := T, workspaceInvites := I, notifications := N,
                      auditLogs := L } := by
  obtain ⟨ws, hopen, m, hm, hmw, hmu, hm'⟩ := hs
  by_cases hi : m.id = i
  · refine ⟨ws, hopen, f m, Table.mem_modify_self hT hm hi, (hf m).1.trans hmw,
      (hf m).2.trans hmu, fun hd => ?_⟩
    exact hcov ws m hopen hm hmw hmu hi hm' hd
  · exact ⟨ws, hopen, m, Table.mem_modify_of_ne hT hm hi, hmw, hmu, hm'⟩

/-- A transfer to another member: his row has the Owner role, and the second write is not to it. -/
theorem secure_of_transfer {T' : Table WorkspaceMember} {W : Table Workspace} {ws : Workspace}
    {m : WorkspaceMember} {o : Role} {actor n : Uuid} {N : Table Notification} {L : List AuditLog}
    (hs : Secure w s) (hne : ws.id = w → n ≠ actor) (hm : Members.IsMember s ws.id m.id m)
    (hn : m.userId = n) (ho : ownerRoleOf s = some o)
    (hT : s.workspaceMembers.modify m.id (fun m => { m with roleId := o.id }) = some T)
    (hT' : Demotes ws.id actor r T T')
    (hW : s.workspaces.modify ws.id (fun w => { w with ownerId := n }) = some W) :
    Secure w { s with workspaces := W, workspaceMembers := T', notifications := N,
                      auditLogs := L } := by
  obtain ⟨ws₀, ⟨hmem, hid, hdel⟩, m₀, hm₀, hmw₀, hmu₀, hcov₀⟩ := hs
  by_cases hw : ws.id = w
  · have hpromoted : { m with roleId := o.id } ∈ T.rows := Table.mem_modify_self hT hm.1 rfl
    have hrow : { m with roleId := o.id } ∈ T'.rows :=
      mem_of_demotes hT' hpromoted fun _ hu => hne hw (hn.symm.trans hu)
    have hopen : { ws₀ with ownerId := n } ∈ W.rows :=
      Table.mem_modify_self hW hmem (hid.trans hw.symm)
    refine ⟨{ ws₀ with ownerId := n }, ⟨hopen, hid, hdel⟩, _, hrow, hm.2.2.2.trans hw, hn, ?_⟩
    intro _ o' ho' resource action hg
    have hsame : o' = o := Option.some.inj (Eq.trans (Eq.symm ho') ho)
    subst hsame
    exact hg
  · have hkey : m₀.id ≠ m.id := by
      intro heq
      obtain rfl := s.workspaceMembers.eq_of_key_eq hm₀ hm.1 heq
      exact hw (hm.2.2.2.symm.trans hmw₀)
    have hstays : m₀ ∈ T'.rows := mem_of_demotes hT' (Table.mem_modify_of_ne hT hm₀ hkey)
      fun hv => absurd (hv.symm.trans hmw₀) hw
    have hopen : ws₀ ∈ W.rows :=
      Table.mem_modify_of_ne hW hmem fun heq => hw (heq.symm.trans hid)
    exact ⟨ws₀, ⟨hopen, hid, hdel⟩, m₀, hstays, hmw₀, hmu₀, hcov₀⟩

theorem secure_of_effect {c : System.Call} (hs : Secure w s) (hw : Within w (.call c))
    (hc : SparesOwner w s (.call c)) (he : System.Effect lower s c s') : Secure w s' := by
  cases he with
  | kept hI => exact secure_of_kept hs (fun _ h => h) (fun _ h => h) fun _ h => h
  | invited _ hI hins => exact secure_of_kept hs (fun _ h => h) (fun _ h => h) fun _ h => h
  | reassigned _ hm _ _ _ hT =>
    refine secure_of_modify hs hT (fun _ => ⟨rfl, rfl⟩) fun ws m hopen hmem hmw hmu hi _ hd => ?_
    have hws : _ = w := hm.2.2.2.symm.trans
      ((congrArg _ (s.workspaceMembers.eq_of_key_eq hm.1 hmem (hm.2.1.trans hi.symm))).trans hmw)
    exact hc hws ws m hopen ⟨hmem, hmw, hmu, hd⟩ hi
  | suspended hm _ hT =>
    exact secure_of_modify hs hT (fun _ => ⟨rfl, rfl⟩) fun _ _ _ _ _ _ _ hcov hd => hcov hd
  | reactivated hm hT =>
    exact secure_of_modify hs hT (fun _ => ⟨rfl, rfl⟩) fun _ _ _ _ _ _ _ hcov hd => hcov hd
  | removed hm _ hT =>
    exact secure_of_modify hs hT (fun _ => ⟨rfl, rfl⟩)
      fun _ _ _ _ _ _ _ _ hd => absurd hd (by simp)
  | transferred _ _ hm hn _ ho hT hT' hW => exact secure_of_transfer hs hw hm hn ho hT hT' hW
  | accepted _ _ _ _ hT _ =>
    refine secure_of_kept hs (fun _ h => h) (fun m hm => ?_) fun _ h => h
    rcases hT with rfl | hins
    · exact hm
    · exact (Table.mem_insert hins).mpr (Or.inl hm)

theorem covers_of_clone {d : Draws} {role : Role} {v : Uuid} {name : String} {R : Table Role}
    {G : Table RolePermission} (hR : s.roles.insert (customRole d role v name) = some R)
    (hG : Granted (d.uuid 0) s G) (h : Covers s r) :
    Covers { s with roles := R, rolePermissions := G } r := by
  have hsystem : systemRoles { s with roles := R, rolePermissions := G } = systemRoles s := by
    have hsel : R.select (fun r => r.isSystem) = s.roles.select fun r => r.isSystem := by
      rw [Table.select_insert hR]
      simp [customRole]
    unfold systemRoles
    rw [hsel]
  intro o ho resource action hg
  have hold : ownerRoleOf s = some o := by
    unfold ownerRoleOf at ho ⊢
    rw [← hsystem]
    exact ho
  obtain ⟨p, hp, hres, hact, rp, hrp, hro, hrpp⟩ := hg
  have hrps : rp ∈ s.rolePermissions.rows := by
    rcases hG.2 rp hrp with hrps | hnew
    · exact hrps
    · have hmem : o ∈ s.roles.rows := by
        have hfind := List.mem_of_find?_eq_some hold
        exact (Table.mem_select.mp ((List.perm_insertionSort _ _).mem_iff.mp hfind)).1
      exact absurd (hro.symm.trans hnew) (Table.apart_of_insert hR hmem).1
  obtain ⟨q, hq, hqres, hqact, rq, hrq, hrqr, hrqp⟩ :=
    h o hold resource action ⟨p, hp, hres, hact, rp, hrps, hro, hrpp⟩
  exact ⟨q, hq, hqres, hqact, rq, hG.1 rq hrq, hrqr, hrqp⟩

/-- **One event** keeps the owner secure, unless it takes a permission from his own row. -/
theorem secure_step (s : Database) (e : Event) (hs : Secure w s)
    (he : Within w e ∧ SparesOwner w s e) : Secure w (step lower s e) := by
  refine Prog.settle_inv (I := Secure w) hs fun u s' h => ?_
  cases e with
  | call c => exact secure_of_effect hs he.1 he.2 (System.effect_serve h)
  | createWorkspace d actor data =>
    obtain ⟨user, -, -, a, hcreate⟩ := serve_createWorkspace h
    obtain ⟨o, W, T, L, -, -, hW, hT, rfl⟩ := createWorkspace_spec hcreate
    exact secure_of_kept hs
      (fun ws hws => ⟨(Table.mem_insert hW).mpr (Or.inl hws.1), hws.2⟩)
      (fun m hm => (Table.mem_insert hT).mpr (Or.inl hm)) fun _ h => h
  | deleteWorkspace d actor v =>
    obtain ⟨user, -, -, ws', -, rfl, hdelete⟩ := serve_deleteWorkspace h
    obtain ⟨-, W, L, rfl, hW⟩ := Service.deleteWorkspace_spec hdelete
    refine secure_of_kept hs (fun ws hws => ?_) (fun _ h => h) fun _ h => h
    rcases hW with rfl | hW
    · exact hws
    · refine ⟨Table.mem_modify_of_ne hW hws.1 fun heq => he.1 ?_, hws.2⟩
      exact heq.symm.trans hws.2.1
  | cloneSystemRole d i v name =>
    obtain ⟨a, h, -⟩ := Prog.returns_bind_pure.mp h
    rcases cloneSystemRoleToWorkspace_spec h with rfl | ⟨role, -, -, R, G, hR, hG, rfl⟩
    · exact hs
    · exact secure_of_kept hs (fun _ h => h) (fun _ h => h) fun _ h => covers_of_clone hR hG h
  | expireInvites now =>
    obtain ⟨n, h, -⟩ := Prog.returns_bind_pure.mp h
    obtain ⟨I, -, rfl⟩ := Invitations.expireInvites_evolved h
    exact secure_of_kept hs (fun _ h => h) (fun _ h => h) fun _ h => h
  | signIn d payload =>
    obtain ⟨a, h, -⟩ := Prog.returns_bind_pure.mp h
    rcases getOrCreateUser_spec h with rfl | ⟨U, -, rfl⟩
    · exact hs
    · exact secure_of_kept hs (fun _ h => h) (fun _ h => h) fun _ h => h

/-! ### Runs -/

theorem secure_of_createWorkspace {d : Draws} {user : User} {data : WorkspaceCreateInternal}
    {ws : Workspace} (hc : (createWorkspace lower d user
      { data with ownerId := user.id, createdBy := user.id }).Returns s ws s') :
    Secure ws.id s' := by
  obtain ⟨o, W, T, L, ho, rfl, hW, hT, rfl⟩ := createWorkspace_spec hc
  refine ⟨_, ⟨Table.mem_insert_self hW, rfl, rfl⟩, _, Table.mem_insert_self hT, rfl, rfl, ?_⟩
  intro _ o' ho' resource action hg
  have hsame : o' = o := Option.some.inj (Eq.trans (Eq.symm ho') ho)
  subst hsame
  exact hg

/-- **The owner keeps his authority** in every run from the workspace's creation in which nothing
gives his own row a role with less permissions. -/
theorem always_hasAuthority {d : Draws} {user : User} {data : WorkspaceCreateInternal}
    {ws : Workspace} (hc : (createWorkspace lower d user
      { data with ownerId := user.id, createdBy := user.id }).Returns s ws s') (l : List Event)
    (hl : Along (step lower) (fun s e => Within ws.id e ∧ SparesOwner ws.id s e) s' l) :
    Always (step lower) (HasAuthority ws.id) s' l := by
  have halways := always_of_along secure_step (secure_of_createWorkspace hc) hl
  exact always_iff.mpr fun pre hpre => hasAuthority_of_secure (always_iff.mp halways pre hpre)

/-- The second user becomes an owner too, and is then transferred the workspace. -/
theorem always_hasAuthority_chartered :
    Always (step id) (HasAuthority System.studio.id) chartered
      [.call (.on (drawsFrom 20 0 "t") 1 10 (.createInvite "admin@example.com" 5)),
        .call (.acceptInvite (drawsFrom 30 0 "") 2 "t"),
        .call (.on (drawsFrom 40 0 "") 1 10 (.transferOwnership 2 6))] :=
  @always_hasAuthority id _ _ _ _ System.studioRequest _ createWorkspace_chartered _
    ⟨⟨trivial, trivial⟩, ⟨trivial, trivial⟩, ⟨fun _ => by decide, trivial⟩, trivial⟩

/-- With the second user as another owner, the founder makes himself an admin. -/
theorem founder_demotes_himself :
    (createWorkspace id (drawsFrom 10 0 "") (userOf 1 "owner@example.com")
      System.studioRequest).Returns staffed System.studio chartered ∧
    ¬ Always (step id) (HasAuthority System.studio.id) chartered
      [.call (.on (drawsFrom 20 0 "t") 1 10 (.createInvite "admin@example.com" 5)),
        .call (.acceptInvite (drawsFrom 30 0 "") 2 "t"),
        .call (.on (drawsFrom 40 0 "") 1 10 (.changeRole 11 6))] := by
  refine ⟨createWorkspace_chartered, fun h => ?_⟩
  have hlast := always_iff.mp h _ (List.prefix_refl _)
  have howner := hlast System.studio (by decide) rfl (userOf 1 "owner@example.com") (by decide) rfl
  have hupdate := howner.2 (System.systemRole 5 "Owner") (by decide) "workspace" "update"
    (by decide)
  exact absurd hupdate (by decide)

/-- **The condition is needed**: after a change of the owner's role that goes through, he has no
more permissions than the new role. -/
theorem not_hasAuthority_of_changeRole {d : Draws} {actor : Uuid} {u : Unit} {ws : Workspace}
    {m : WorkspaceMember} {user : User} (hopen : IsOpen s w ws) (hm : IsLive s w ws.ownerId m)
    (huser : user ∈ s.users.rows) (hid : user.id = ws.ownerId) (hr : ¬ Covers s r)
    (h : (serve lower (.call (.on d actor w (.changeRole m.id r)))).Returns s u s') :
    ¬ HasAuthority w s' := by
  obtain ⟨_, -, -, ws', -, rfl, hop⟩ := System.serve_on h
  obtain ⟨a, hchange, -⟩ := Prog.returns_bind_pure.mp hop
  intro hauth
  refine hr fun o ho resource action hg => ?_
  obtain ⟨q, hq, ⟨hqr, rfl⟩ | ⟨-, -, -, -, T, N, L, hT, rfl⟩⟩ := Members.changeRole_spec hchange
  · obtain rfl : q = m := s'.workspaceMembers.eq_of_key_eq hq.1 hm.1 hq.2.1
    have hperm := (hauth ws hopen.1 hopen.2.1 user huser hid).2 o ho resource action hg
    rcases requirePermission_succeeds_iff.mp hperm with ⟨m', hm', hg'⟩ | ⟨hno, -⟩
    · rw [hid] at hm'
      rw [← hqr, hm.unique hm']
      exact hg'
    · exact absurd hm (by rw [← hid]; exact hno q)
  · have hrow : { m with roleId := r } ∈ T.rows := Table.mem_modify_self hT hm.1 rfl
    have hperm := (hauth ws hopen.1 hopen.2.1 user huser hid).2 o ho resource action hg
    have hlive : IsLive { s with workspaceMembers := T, notifications := N, auditLogs := L }
        ws'.id user.id { m with roleId := r } := ⟨hrow, hm.2.1, hm.2.2.1.trans hid.symm, hm.2.2.2⟩
    rcases requirePermission_succeeds_iff.mp hperm with ⟨m', hm', hg'⟩ | ⟨hno, -⟩
    · rw [← hlive.unique hm'] at hg'
      exact hg'
    · exact absurd hlive (hno _)

end MarketingSuite.Tenants.Owners
