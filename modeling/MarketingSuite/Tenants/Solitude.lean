import MarketingSuite.Tenants.Deletion
import MarketingSuite.Workspaces.Seeding

/-! # Owners on their own

`scripts/seed_rbac.py` makes permissions for the resource `members` and none for invites, while the
endpoints of members and invites ask for `workspace_member` and `workspace_invite`. The owner of a
workspace is spared a permission only without a member row, and `create_workspace` makes one. So in
a system that the script set up nobody is ever invited, and the owner stays the only member. -/

namespace MarketingSuite.Tenants.Solitude

open MarketingSuite.Lib.Programs MarketingSuite.Lib.Tables MarketingSuite.Lib.Sessions
open MarketingSuite.Lib.Runs
open MarketingSuite.Base.Values MarketingSuite.Base.Models MarketingSuite.Base.Schema
open MarketingSuite.Repositories.Base
open MarketingSuite.Api.Dependencies MarketingSuite.Api.Access MarketingSuite.Api.Routes
open MarketingSuite.Workspaces
open MarketingSuite.Workspaces.Repositories (cloneSystemRoleToWorkspace_spec)
open MarketingSuite.Workspaces.Service (WorkspaceCreateInternal)
open MarketingSuite.Workspaces.Seeding
open MarketingSuite.Tenants.Deletion

/-! ### The requests -/

deriving instance DecidableEq for Route

/-- The endpoints whose permission the script does not make. -/
def unseededRoutes : List Route :=
  [.getMembers, .getMember, .updateMember, .removeMember, .suspendMember, .reactivateMember,
    .createInvite, .getInvites, .revokeInvite, .resendInvite, .getDashboard]

/-- The request is to one of these endpoints, or accepts an invite. -/
def Barred : Demand → Prop
  | .perform _ _ _ op => routeOf op ∈ unseededRoutes
  | .endpoint _ _ _ guard _ => ∃ route ∈ unseededRoutes, guard = route.guard
  | .acceptInvite _ _ _ => True
  | _ => False

/-- What the endpoints of other parts of the system do leaves the permissions alone. -/
def LeavesPermissions : Demand → Prop
  | .endpoint _ _ _ _ body | .permissionOnly _ _ _ _ _ body =>
    ∀ user, Session.Keeps Database.permissions (body user).val
  | .unguarded body => Session.Keeps Database.permissions body.val
  | _ => True

/-- No endpoint writes a permission. -/
abbrev Request : Type := { q : Demand // LeavesPermissions q }

/-! ### The invariant -/

/-- Every workspace has an active member, its owner, and no other one. -/
structure Alone (W : Table Workspace) (T : Table WorkspaceMember) : Prop where
  owner : ∀ ws ∈ W.rows, ∃ m ∈ T.rows, m.workspaceId = ws.id ∧ m.userId = ws.ownerId ∧
    m.deletedAt = none ∧ m.status = .active
  only : ∀ m ∈ T.rows, ∃ ws ∈ W.rows, ws.id = m.workspaceId ∧ ws.ownerId = m.userId

/-- The owners are alone, and nobody is invited. -/
structure Solitary (s : Database) : Prop where
  seeded : ∀ p ∈ s.permissions.rows, (p.resource, p.action) ∈ permissionSeeds
  uninvited : s.workspaceInvites.rows = []
  alone : Alone s.workspaces s.workspaceMembers

/-- Before the script: no permission, no workspace and nobody in one. -/
structure Unopened (s : Database) : Prop where
  permissions : s.permissions.rows = []
  workspaces : s.workspaces.rows = []
  members : s.workspaceMembers.rows = []
  invites : s.workspaceInvites.rows = []

variable {lower : String → String} {d : Draws} {caller : Caller} {s s' t : Database} {w i u : Uuid}
  {user : User} {resource action token : String} {q : Demand} {W W' : Table Workspace}
  {T T' : Table WorkspaceMember}

theorem not_seeded_iff {route : Route} :
    (route.guard.resource, route.guard.action) ∉ permissionSeeds ↔ route ∈ unseededRoutes := by
  cases route <;> decide

/-! ### Who is refused -/

theorem not_permitted (hs : Solitary s) (hx : (resource, action) ∉ permissionSeeds) :
    ¬ Permitted s w u resource action := by
  rintro (⟨m, -, p, hp, rfl, rfl, -⟩ | ⟨hno, ws, ⟨hws, rfl, -⟩, rfl⟩)
  · exact hx (hs.seeded p hp)
  · obtain ⟨m, hm, hmw, hmu, hlive, -⟩ := hs.alone.owner ws hws
    exact hno m ⟨hm, hmw, hmu, hlive⟩

theorem dependencies_refuse (hs : Solitary s) {route : Route} (hr : route ∈ unseededRoutes) :
    ¬ (dependencies lower d caller route.guard w).Returns s user t := by
  intro h
  obtain ⟨user', t', hu, -⟩ := Prog.returns_bind.mp h
  exact not_permitted hs (not_seeded_iff.mpr hr)
    ((dependencies_succeed_iff hu).mp (Prog.succeeds_of_returns h)).2

/-- **The barred requests are refused.** -/
theorem refused (hs : Solitary s) (hq : Barred q) : (act lower q).succeeds s = false := by
  rw [Bool.eq_false_iff]
  intro h
  obtain ⟨_, s', hret⟩ := Prog.succeeds_iff.mp h
  cases q with
  | perform d caller w op =>
    obtain ⟨user, t, hdeps, -⟩ := Prog.returns_bind.mp (Session.returns_transact.mp hret)
    exact dependencies_refuse hs hq hdeps
  | endpoint d caller w guard body =>
    obtain ⟨route, hr, rfl⟩ := hq
    obtain ⟨x, hbody, -⟩ := Session.returns_serve.mp hret
    obtain ⟨user, t, hexec, -⟩ := Prog.returns_bind.mp hbody
    obtain ⟨v, hdeps, -⟩ := Session.returns_exec.mp hexec
    exact dependencies_refuse hs hr hdeps
  | acceptInvite d caller token =>
    obtain ⟨user, t, hu, hacc⟩ := Prog.returns_bind.mp (Session.returns_transact.mp hret)
    obtain ⟨invite, ha, -⟩ := Invitations.acceptInvite_exact hacc
    have hmem := ha.mem
    rw [invites_of_getCurrentUser hu, hs.uninvited] at hmem
    exact List.not_mem_nil hmem
  | _ => exact hq

/-! ### What the requests keep -/

theorem alone_congr (h : W'.rows.map (fun w => (w.id, w.ownerId, w.deletedAt)) =
    W.rows.map fun w => (w.id, w.ownerId, w.deletedAt)) (ha : Alone W T) : Alone W' T := by
  have hsame : ∀ {V V' : Table Workspace}, V'.rows.map (fun w => (w.id, w.ownerId, w.deletedAt)) =
      V.rows.map (fun w => (w.id, w.ownerId, w.deletedAt)) →
      ∀ ws' ∈ V'.rows, ∃ ws ∈ V.rows, ws.id = ws'.id ∧ ws.ownerId = ws'.ownerId := by
    intro V V' hmap ws' hws'
    have hmem := List.mem_map_of_mem (f := fun w : Workspace => (w.id, w.ownerId, w.deletedAt)) hws'
    rw [hmap, List.mem_map] at hmem
    obtain ⟨ws, hws, heq⟩ := hmem
    exact ⟨ws, hws, congrArg Prod.fst heq, congrArg (fun x => x.2.1) heq⟩
  refine ⟨fun ws' hws' => ?_, fun m hm => ?_⟩
  · obtain ⟨ws, hws, hid, ho⟩ := hsame h ws' hws'
    rw [← hid, ← ho]
    exact ha.owner ws hws
  · obtain ⟨ws, hws, hid, ho⟩ := ha.only m hm
    obtain ⟨ws', hws', hid', ho'⟩ := hsame h.symm ws hws
    exact ⟨ws', hws', hid'.trans hid, ho'.trans ho⟩

theorem solitary_congr (hs : Solitary s) (h : standing s' = standing s)
    (hp : s'.permissions = s.permissions) : Solitary s' := by
  obtain ⟨hT, hI, hW⟩ : s'.workspaceMembers = s.workspaceMembers ∧
      s'.workspaceInvites = s.workspaceInvites ∧
      s'.workspaces.rows.map (fun w => (w.id, w.ownerId, w.deletedAt)) =
        s.workspaces.rows.map fun w => (w.id, w.ownerId, w.deletedAt) := by
    simpa only [standing, Prod.mk.injEq] using h
  refine ⟨by rw [hp]; exact hs.seeded, by rw [hI]; exact hs.uninvited, ?_⟩
  rw [hT]
  exact alone_congr hW hs.alone

theorem alone_of_workspace {f : Workspace → Workspace} (ha : Alone W T)
    (h : W.modify i f = some W')
    (hf : ∀ ws ∈ W.rows, ws.id = i → (f ws).id = ws.id ∧ (f ws).ownerId = ws.ownerId) :
    Alone W' T := by
  refine ⟨fun ws' hws' => ?_, fun m hm => ?_⟩
  · obtain ⟨ws, hws, hid, ho⟩ := Table.exists_before_modify
      (R := fun ws ws' : Workspace => ws'.id = ws.id ∧ ws'.ownerId = ws.ownerId) h
      (fun _ => ⟨rfl, rfl⟩) hf ws' hws'
    rw [hid, ho]
    exact ha.owner ws hws
  · obtain ⟨ws, hws, hid, ho⟩ := ha.only m hm
    obtain ⟨ws', hws', hid', ho'⟩ := Table.exists_after_modify
      (R := fun ws ws' : Workspace => ws'.id = ws.id ∧ ws'.ownerId = ws.ownerId) h
      (fun _ => ⟨rfl, rfl⟩) hf ws hws
    exact ⟨ws', hws', hid'.trans hid, ho'.trans ho⟩

theorem alone_of_role {r : Uuid} (ha : Alone W T)
    (h : T.modify i (fun m => { m with roleId := r }) = some T') : Alone W T' := by
  refine ⟨fun ws hws => ?_, fun m' hm' => ?_⟩
  · obtain ⟨m, hm, hw, hu, hd, hst⟩ := ha.owner ws hws
    obtain ⟨m', hm', hw', hu', hd', hst'⟩ := Table.exists_after_modify
      (R := fun m m' : WorkspaceMember => m'.workspaceId = m.workspaceId ∧ m'.userId = m.userId ∧
        m'.deletedAt = m.deletedAt ∧ m'.status = m.status) h
      (fun _ => ⟨rfl, rfl, rfl, rfl⟩) (fun _ _ _ => ⟨rfl, rfl, rfl, rfl⟩) m hm
    exact ⟨m', hm', hw'.trans hw, hu'.trans hu, hd'.trans hd, hst'.trans hst⟩
  · obtain ⟨m, hm, hw, hu⟩ := Table.exists_before_modify
      (R := fun m m' : WorkspaceMember => m'.workspaceId = m.workspaceId ∧ m'.userId = m.userId) h
      (fun _ => ⟨rfl, rfl⟩) (fun _ _ _ => ⟨rfl, rfl⟩) m' hm'
    rw [hw, hu]
    exact ha.only m hm

theorem alone_of_create {ws : Workspace} {m : WorkspaceMember} (ha : Alone W T)
    (hW : W.insert ws = some W') (hT : T.insert m = some T') (hw : m.workspaceId = ws.id)
    (hu : m.userId = ws.ownerId) (hd : m.deletedAt = none) (hst : m.status = .active) :
    Alone W' T' := by
  refine ⟨fun v hv => ?_, fun n hn => ?_⟩
  · rcases (Table.mem_insert hW).mp hv with hold | rfl
    · obtain ⟨n, hn, hrest⟩ := ha.owner v hold
      exact ⟨n, (Table.mem_insert hT).mpr (Or.inl hn), hrest⟩
    · exact ⟨m, Table.mem_insert_self hT, hw, hu, hd, hst⟩
  · rcases (Table.mem_insert hT).mp hn with hold | rfl
    · obtain ⟨v, hv, hrest⟩ := ha.only n hold
      exact ⟨v, (Table.mem_insert hW).mpr (Or.inl hv), hrest⟩
    · exact ⟨ws, Table.mem_insert_self hW, hw.symm, hu.symm⟩

theorem solitary_of_transfer {ws : Workspace} {n r : Uuid} {a : Workspace}
    (hs : Solitary s) (hws : ws ∈ s.workspaces.rows)
    (h : (Service.transferOwnership d user ws n r).Returns s a s') : Solitary s' := by
  obtain ⟨-, m, hm, hmw, rfl, -, -, o, -, W, T, T', N, L, hW, hT, hT', -, rfl⟩ :=
    Service.transferOwnership_spec h
  refine ⟨hs.seeded, hs.uninvited, ?_⟩
  have hself : m.userId = ws.ownerId := by
    obtain ⟨ws', hws', hid, ho⟩ := hs.alone.only m hm
    obtain rfl := s.workspaces.eq_of_key_eq hws' hws (hid.trans hmw)
    exact ho.symm
  have halone : Alone W T := by
    refine alone_of_workspace (alone_of_role hs.alone hT) hW fun v hv hid => ⟨rfl, ?_⟩
    obtain rfl := s.workspaces.eq_of_key_eq hv hws hid
    exact hself
  rcases hT' with ⟨rfl, -⟩ | ⟨m', -, -, -, -, hT'⟩
  · exact halone
  · exact alone_of_role halone hT'

theorem solitary_transact {p : Svc Unit} (hs : Solitary s)
    (h : ∀ s', p.Returns s () s' → Solitary s') : Solitary (Session.transact p s).2 := by
  rw [Session.transact_snd]
  rcases p.settle_cases s with ⟨_, hret⟩ | ⟨hsame, -⟩
  · exact h _ hret
  · rw [hsame]
    exact hs

theorem solitary_serve {p : Svc User} {body : User → Body} (hs : Solitary s)
    (hp : ∀ {δ : Type} {f : Database → δ}, NotUsers f → p.Frames f)
    (hq : ∀ user, Session.Keeps Database.permissions (body user).val) :
    Solitary (Session.serve (Session.exec p >>= fun user => (body user).val) s).2 := by
  refine solitary_congr hs (Session.frames_serve ?_ s) (Session.frames_serve ?_ s)
  · exact Session.keeps_bind (Session.keeps_exec (hp fun _ _ => rfl)) fun u => (body u).property
  · exact Session.keeps_bind (Session.keeps_exec (hp fun _ _ => rfl)) hq

theorem solitary_of_getCurrentUser (hs : Solitary s)
    (h : (getCurrentUser lower d caller).Returns s user t) : Solitary t :=
  solitary_congr hs ((frames_getCurrentUser fun _ _ => rfl).returns h)
    ((frames_getCurrentUser fun _ _ => rfl).returns h)

theorem solitary_of_dependencies {g : Guard} (hs : Solitary s)
    (h : (dependencies lower d caller g w).Returns s user t) : Solitary t := by
  obtain ⟨user', t', hu, hrest⟩ := Prog.returns_bind.mp h
  obtain ⟨_, hcheck, -⟩ := Prog.returns_bind_pure.mp hrest
  have ht := solitary_of_getCurrentUser hs hu
  exact solitary_congr ht ((frames_check g).returns hcheck) ((frames_check g).returns hcheck)

/-- The only operation on a workspace that is not refused is to transfer it. -/
theorem solitary_perform {ws : Workspace} {op : System.Op} {a : Unit} (hs : Solitary s)
    (hws : ws ∈ s.workspaces.rows) (hop : routeOf op ∉ unseededRoutes)
    (h : (System.perform lower d user ws op).Returns s a s') : Solitary s' := by
  cases op with
  | transferOwnership n r =>
    obtain ⟨b, htransfer, -⟩ := Prog.returns_bind_pure.mp h
    exact solitary_of_transfer hs hws htransfer
  | _ => exact absurd (by simp [routeOf, unseededRoutes]) hop

/-- **An owner on their own stays so** in a step that leaves the permissions alone. -/
theorem solitary_step (hs : Solitary s) (hq : LeavesPermissions q) :
    Solitary (step lower s q) := by
  cases q with
  | perform d caller w op =>
    refine solitary_transact hs fun s' h => ?_
    obtain ⟨user, t, hdeps, hrest⟩ := Prog.returns_bind.mp h
    obtain ⟨ws, t', hload, hop⟩ := Prog.returns_bind.mp hrest
    obtain ⟨rfl, hws, rfl⟩ := load_spec hload
    exact solitary_perform (solitary_of_dependencies hs hdeps) hws
      (fun hr => dependencies_refuse hs hr hdeps) hop
  | deleteWorkspace d caller w =>
    refine solitary_transact hs fun s' h => ?_
    obtain ⟨user, t, hdeps, hrest⟩ := Prog.returns_bind.mp h
    obtain ⟨ws, t', hload, hdelete⟩ := Prog.returns_bind.mp hrest
    obtain ⟨rfl, -, -⟩ := load_spec hload
    have ht := solitary_of_dependencies hs hdeps
    obtain ⟨-, W, L, rfl, hW⟩ := Service.deleteWorkspace_spec hdelete
    refine ⟨ht.seeded, ht.uninvited, ?_⟩
    rcases hW with rfl | hW
    · exact ht.alone
    · exact alone_of_workspace ht.alone hW fun _ _ _ => ⟨rfl, rfl⟩
  | endpoint d caller w guard body =>
    exact solitary_serve hs (fun hf => Prog.frames_bind (frames_getCurrentUser hf) fun _ =>
      Prog.frames_bind (frames_check guard) fun _ => Prog.frames_pure _) hq
  | permissionOnly d caller w resource action body =>
    exact solitary_serve hs frames_permitted hq
  | acceptInvite d caller token =>
    refine solitary_transact hs fun s' h => ?_
    have hret := Session.returns_transact.mpr h
    exact absurd ((refused hs (q := .acceptInvite d caller token) trivial).symm.trans
      (Prog.succeeds_of_returns hret)) Bool.false_ne_true
  | createWorkspace d caller data =>
    refine solitary_transact hs fun s' h => ?_
    obtain ⟨user, t, hu, hrest⟩ := Prog.returns_bind.mp h
    obtain ⟨ws, hcreate, -⟩ := Prog.returns_bind_pure.mp hrest
    have ht := solitary_of_getCurrentUser hs hu
    obtain ⟨o, W, T, L, -, rfl, hW, hT, rfl⟩ := Service.createWorkspace_spec hcreate
    exact ⟨ht.seeded, ht.uninvited, alone_of_create ht.alone hW hT rfl rfl rfl rfl⟩
  | getWorkspaces d caller =>
    have hframes : ∀ {δ : Type} {f : Database → δ}, NotUsers f →
        (getWorkspaces lower d caller).Frames f := fun hf =>
      Prog.frames_bind (frames_getCurrentUser hf) fun _ => Prog.frames_gets _
    refine solitary_congr hs (Session.frames_serve ?_ s) (Session.frames_serve ?_ s)
    · exact Session.keeps_bind (Session.keeps_exec (hframes fun _ _ => rfl)) fun _ =>
        Session.keeps_pure _
    · exact Session.keeps_bind (Session.keeps_exec (hframes fun _ _ => rfl)) fun _ =>
        Session.keeps_pure _
  | cloneSystemRole d r v name =>
    refine solitary_transact hs fun s' h => ?_
    obtain ⟨a, hclone, -⟩ := Prog.returns_bind_pure.mp h
    rcases cloneSystemRoleToWorkspace_spec hclone with rfl | ⟨r, -, -, R, G, -, -, rfl⟩
    · exact hs
    · exact ⟨hs.seeded, hs.uninvited, hs.alone⟩
  | expireInvites now =>
    refine solitary_transact hs fun s' h => ?_
    obtain ⟨n, hexpire, -⟩ := Prog.returns_bind_pure.mp h
    obtain ⟨I, hI, rfl⟩ := Invitations.expireInvites_evolved hexpire
    refine ⟨hs.seeded, List.eq_nil_iff_forall_not_mem.mpr fun i' hi' => ?_, hs.alone⟩
    obtain ⟨i, hi, -⟩ := hI.back i' hi'
    rw [hs.uninvited] at hi
    exact List.not_mem_nil hi
  | unguarded body =>
    exact solitary_congr hs (Session.frames_serve body.property s) (Session.frames_serve hq s)

/-! ### Runs -/

theorem solitary_of_seed (hs : Unopened s) (h : (seedRbac d).Returns s () s') : Solitary s' := by
  obtain ⟨-, P, R, G, hP, -, -, rfl⟩ := returns_seed.mp (Session.returns_transact.mp h)
  refine ⟨fun p hp => ?_, hs.invites, ⟨fun ws hws => ?_, fun m hm => ?_⟩⟩
  · rw [hP, hs.permissions, List.nil_append, newPermissions, List.mem_flatMap] at hp
    obtain ⟨x, hx, hp⟩ := hp
    split_ifs at hp
    · exact absurd hp List.not_mem_nil
    · obtain rfl := List.mem_singleton.mp hp
      exact List.fst_mem_of_mem_zipIdx hx
  · rw [hs.workspaces] at hws
    exact absurd hws List.not_mem_nil
  · rw [hs.members] at hm
    exact absurd hm List.not_mem_nil

/-- **In a system that the script set up owners stay alone**: along every run of requests all that
manage members or invites are refused, as is accepting an invite; no invite is ever made, and every
workspace has one member, its owner. -/
theorem owners_stay_alone (lower : String → String) {s₀ s₁ : Database} (hs : Unopened s₀)
    (hseed : (seedRbac d).Returns s₀ () s₁) (l : List Request) :
    Along (fun s (q : Request) => step lower s q.val)
      (fun s q => Barred q.val → (act lower q.val).succeeds s = false) s₁ l ∧
      Always (fun s (q : Request) => step lower s q.val) Solitary s₁ l := by
  have halways : Always (fun s (q : Request) => step lower s q.val) Solitary s₁ l :=
    always_iff.mpr fun pre _ => inv_run (fun _ q hs => solitary_step hs q.property) pre
      (solitary_of_seed hs hseed)
  exact ⟨along_of_always (fun _ _ hs hq => refused hs hq) halways, halways⟩

/-- A user opens a workspace, invites somebody and looks at the members. -/
def firstDay : List Request :=
  [⟨.createWorkspace (drawsFrom 900 0 "") adminToken
        { name := "Ann", ownerId := 0, createdBy := 0 }, trivial⟩,
    ⟨.perform (drawsFrom 910 0 "t") adminToken 900 (.createInvite "guest@example.com" 6), trivial⟩,
    ⟨.endpoint (drawsFrom 920 0 "") adminToken 900 Route.getMembers.guard
        fun _ => ⟨Session.commit, Session.keeps_commit⟩, fun _ => Session.keeps_commit⟩,
    ⟨.acceptInvite (drawsFrom 930 0 "") adminToken "t", trivial⟩]

theorem owners_stay_alone_firstDay :
    ∃ s₁, (seedRbac (drawsFrom 0 0 "")).Returns Database.empty () s₁ ∧
      Along (fun s (q : Request) => step id s q.val)
        (fun s q => Barred q.val → (act id q.val).succeeds s = false) s₁ firstDay ∧
      Always (fun s (q : Request) => step id s q.val) Solitary s₁ firstDay := by
  obtain ⟨s₁, hseed⟩ := exists_firstRun (d := drawsFrom 0 0 "") fun j k h => Nat.add_left_cancel h
  exact ⟨s₁, hseed, owners_stay_alone id ⟨rfl, rfl, rfl, rfl⟩ hseed firstDay⟩

end MarketingSuite.Tenants.Solitude
