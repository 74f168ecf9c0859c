import MarketingSuite.Api.Routes
import MarketingSuite.Lib.Lookups
import MarketingSuite.Lib.Shares
import MarketingSuite.Workspaces.Seeding

/-! # The access matrix

What `scripts/seed_rbac.py` assigns, and what `require_permission` asks for. The script writes
one matrix of roles and permissions; every role of a later state is one of its five roles or was
cloned from one. So an endpoint admits a member exactly if the matrix has its permission in the row
of the role that the member's role comes from. -/

namespace MarketingSuite.Api.AccessMatrix

open MarketingSuite.Lib.Programs MarketingSuite.Lib.Tables MarketingSuite.Lib.Sessions
open MarketingSuite.Lib.Runs MarketingSuite.Lib.Shares
open MarketingSuite.Base.Values MarketingSuite.Base.Models MarketingSuite.Base.Schema
open MarketingSuite.Repositories.Base
open MarketingSuite.Api.Access MarketingSuite.Api.Routes
open MarketingSuite.Workspaces
open MarketingSuite.Workspaces.Repositories (cloneSystemRoleToWorkspace customRole cloneGrant)
open MarketingSuite.Workspaces.CustomRoles (Has GrantsNameRoles cloneGrants_exact)
open MarketingSuite.Workspaces.Seeding
open MarketingSuite.Tenants.Events

/-! ### The matrix -/

/-- The script makes a permission for the resource and the action, and assigns it to the role. -/
def allows (roleName : String) (x : String × String) : Bool :=
  decide (x ∈ permissionSeeds) && assigned roleName ⟨0, permissionName x, x.1, x.2⟩

example : allows "Editor" ("campaign", "create") ∧ ¬ allows "Viewer" ("campaign", "create") := by
  decide

/-- Which role of the script a role is, or was cloned from. -/
abbrev Kinds : Type := Uuid → Option String

/-- After the script every role is what its name says. -/
def kindsOf (s : Database) : Kinds := fun i => (s.roles.lookup i).map Role.name

/-- A clone is what it was cloned from. -/
def Kinds.cloned (κ : Kinds) (systemRoleId : Uuid) : Except Exc (Option Role) → Kinds
  | .ok (some clone) => Function.update κ clone.id (κ systemRoleId)
  | _ => κ

/-- The kinds after an event. -/
def note (s : Database) (e : Event) (κ : Kinds) : Kinds :=
  match e with
  | .cloneSystemRole d systemRoleId workspaceId newName =>
    κ.cloned systemRoleId (cloneSystemRoleToWorkspace d systemRoleId workspaceId newName s).1
  | _ => κ

/-- **The invariant**: the grants of a role are those of the matrix for its kind. -/
structure Enforced (κ : Kinds) (s : Database) : Prop where
  decides : ∀ r x, Grants s r x.1 x.2 ↔ ∃ k, κ r = some k ∧ allows k x = true
  known : ∀ r k, κ r = some k → s.roles.has r = true
  named : GrantsNameRoles s

/-- No permission and no role was made yet. -/
structure Unseeded (s : Database) : Prop where
  permissions : s.permissions.rows = []
  roles : s.roles.rows = []
  grants : s.rolePermissions.rows = []

variable {lower : String → String} {d : Draws} {s s' : Database} {r i w : Uuid} {κ : Kinds}
  {resource action name : String} {e : Event}

theorem grants_iff_has : Grants s r resource action ↔
    ∃ p ∈ s.permissions.rows, p.resource = resource ∧ p.action = action ∧ Has s r p.id := by
  simp only [Grants, Has, and_comm]

/-! ### The script -/

theorem newPermissions_of_unseeded (hs : Unseeded s) {p : Permission} :
    p ∈ newPermissions d s ↔ ∃ x ∈ permissionSeeds.zipIdx,
      p = ⟨d.uuid x.2, permissionName x.1, x.1.1, x.1.2⟩ := by
  have hnone : ∀ q : Permission → Bool, s.permissions.select q = [] := by
    intro q
    rw [Table.select, hs.permissions]
    rfl
  simp [newPermissions, hnone]

theorem seededRoles_of_unseeded (hs : Unseeded s) {y : String × Role} :
    y ∈ (seededRoles d s).map (·.1) ↔ y.2 ∈ newRoles d s ∧ y.1 = y.2.name := by
  have hnone : ∀ q : Role → Bool, s.roles.select q = [] := by
    intro q
    rw [Table.select, hs.roles]
    rfl
  rw [mem_newRoles]
  simp only [seededRoles, List.map_map, List.mem_map, Function.comp, roleOf_of_nil (hnone _)]
  constructor
  · rintro ⟨x, hx, rfl⟩
    exact ⟨⟨x, hx, hnone _, rfl⟩, rfl⟩
  · rintro ⟨⟨x, hx, -, hrole⟩, hname⟩
    refine ⟨x, hx, Prod.ext ?_ hrole.symm⟩
    rw [hname, hrole]
    rfl

theorem kindsOf_eq_some {k : String} :
    kindsOf s r = some k ↔ ∃ q ∈ s.roles.rows, q.id = r ∧ q.name = k := by
  simp only [kindsOf, Option.map_eq_some_iff, Table.lookup_eq_some, and_assoc]
  exact Iff.rfl

section Script

variable {P : Table Permission} {R : Table Role} {G : Table RolePermission}

/-- Each grant the script makes was assigned in a round of its own. -/
theorem allowed_of_newGrants (hs : Unseeded s) (hP : P.rows = newPermissions d s)
    {p : Permission} {rp : RolePermission} (hp : p ∈ P.rows)
    (hrp : rp ∈ newGrants d s ((seededRoles d s).map (·.1)) P.rows)
    (hperm : rp.permissionId = p.id) :
    ∃ q ∈ newRoles d s, q.id = rp.roleId ∧ allows q.name (p.resource, p.action) = true := by
  obtain ⟨y, hy, rfl⟩ := (newPermissions_of_unseeded hs).mp (hP ▸ hp)
  rw [newGrants, List.mem_flatMap] at hrp
  obtain ⟨z, hz, hrp⟩ := hrp
  obtain ⟨rfl, hassign, -⟩ := mem_grantOf hrp
  obtain ⟨hrole, hmem⟩ := mem_pairs.mp (List.fst_mem_of_mem_zipIdx hz)
  obtain ⟨hnew, hname⟩ := (seededRoles_of_unseeded hs).mp hrole
  have hsame : z.1.2 = ⟨d.uuid y.2, permissionName y.1, y.1.1, y.1.2⟩ :=
    P.eq_of_key_eq hmem hp hperm
  rw [hname, hsame] at hassign
  exact ⟨z.1.1.2, hnew, rfl, Bool.and_eq_true_iff.mpr
    ⟨decide_eq_true (List.fst_mem_of_mem_zipIdx hy), hassign⟩⟩

theorem newGrants_of_allowed (hs : Unseeded s) (hP : P.rows = newPermissions d s) {q : Role}
    {x : String × String} (hq : q ∈ newRoles d s) (hallows : allows q.name x = true) :
    ∃ p ∈ P.rows, p.resource = x.1 ∧ p.action = x.2 ∧
      ∃ rp ∈ newGrants d s ((seededRoles d s).map (·.1)) P.rows,
        rp.roleId = q.id ∧ rp.permissionId = p.id := by
  obtain ⟨hseed, hassign⟩ := Bool.and_eq_true_iff.mp hallows
  obtain ⟨j, hj⟩ := exists_mem_zipIdx (of_decide_eq_true hseed) 0
  let p : Permission := ⟨d.uuid j, permissionName x, x.1, x.2⟩
  have hp : p ∈ P.rows := by
    rw [hP, newPermissions_of_unseeded hs]
    exact ⟨(x, j), hj, rfl⟩
  have hpair : ((q.name, q), p) ∈ pairs ((seededRoles d s).map (·.1)) P.rows :=
    mem_pairs.mpr ⟨(seededRoles_of_unseeded hs).mpr ⟨hq, rfl⟩, hp⟩
  refine ⟨_, hp, rfl, rfl, ?_⟩
  rcases has_or_new (s := s) (d := d) hpair hassign with ⟨rp, hrp, -⟩ | ⟨rp, hrp, hperm, hrole⟩
  · rw [hs.grants] at hrp
    exact absurd hrp List.not_mem_nil
  · exact ⟨rp, hrp, hrole, hperm⟩

/-- **The script writes the matrix.** -/
theorem enforced_of_seed (hs : Unseeded s) (h : (seedRbac d).Returns s () s') :
    Enforced (kindsOf s') s' := by
  obtain ⟨-, P, R, G, hP, hR, hG, rfl⟩ := returns_seed.mp (Session.returns_transact.mp h)
  rw [hs.permissions, List.nil_append] at hP
  rw [hs.roles, List.nil_append] at hR
  rw [hs.grants, List.nil_append] at hG
  refine ⟨fun r x => ?_, fun r k hk => ?_, fun rp hrp => ?_⟩
  · constructor
    · rintro ⟨p, hp, hres, hact, rp, hrp, rfl, hperm⟩
      obtain ⟨q, hq, hid, hallows⟩ := allowed_of_newGrants hs hP hp (hG ▸ hrp) hperm
      obtain rfl : (p.resource, p.action) = x := Prod.ext hres hact
      exact ⟨q.name, kindsOf_eq_some.mpr ⟨q, hR ▸ hq, hid, rfl⟩, hallows⟩
    · rintro ⟨k, hk, hallows⟩
      obtain ⟨q, hq, rfl, rfl⟩ := kindsOf_eq_some.mp hk
      obtain ⟨p, hp, hres, hact, rp, hrp, hrole, hperm⟩ :=
        newGrants_of_allowed hs hP (hR ▸ hq) hallows
      exact ⟨p, hp, hres, hact, rp, hG ▸ hrp, hrole, hperm⟩
  · obtain ⟨q, hq, hid, -⟩ := kindsOf_eq_some.mp hk
    exact Table.has_iff.mpr ⟨q, hq, hid⟩
  · have hrefs := references_newGrants (R := R) (by rw [hs.roles, hR]; rfl) (hG ▸ hrp)
    exact (Bool.and_eq_true_iff.mp hrefs).1

end Script

/-! ### Events -/

/-- **A clone** has what its original has, besides which nothing changes. -/
theorem clone_cases {a : Option Role}
    (h : (cloneSystemRoleToWorkspace d i w name).Returns s a s') : (a = none ∧ s' = s) ∨
    ∃ q ∈ s.roles.rows, q.id = i ∧ a = some (customRole d q w name) ∧ ∃ R G,
      s.roles.insert (customRole d q w name) = some R ∧
      s' = { s with roles := R, rolePermissions := G } ∧
      ∀ rp, rp ∈ G.rows ↔ rp ∈ s.rolePermissions.rows ∨
        ∃ x ∈ (s.rolePermissions.select fun rp => rp.roleId = i).zipIdx,
          rp = ⟨d.uuid (x.2 + 1), d.uuid 0, x.1.permissionId⟩ := by
  unfold cloneSystemRoleToWorkspace at h
  rw [Prog.returns_bind] at h
  obtain ⟨found, t, hget, h⟩ := h
  obtain ⟨rfl, hf⟩ := selectOne_spec hget
  rcases found with _ | q
  · obtain ⟨rfl, rfl⟩ := Prog.returns_pure.mp h
    exact Or.inl ⟨rfl, rfl⟩
  · obtain ⟨hq, hp⟩ := (hf q).mp rfl
    simp only [Bool.and_eq_true, decide_eq_true_eq] at hp
    obtain ⟨rfl, -⟩ := hp
    rw [Prog.returns_bind] at h
    obtain ⟨newRole, t₁, hc, h⟩ := h
    obtain ⟨rfl, -, R, hR, rfl⟩ := returns_create.mp hc
    rw [Prog.returns_bind] at h
    obtain ⟨granted, t₂, hl, h⟩ := h
    obtain ⟨rfl, rfl⟩ := Prog.returns_gets.mp hl
    obtain ⟨_, hloop, rfl⟩ := Prog.returns_bind_pure.mp h
    obtain ⟨G, rfl, hG⟩ := cloneGrants_exact hloop
    exact Or.inr ⟨q, hq, rfl, rfl, R, G, hR, rfl, hG⟩

theorem has_clone {R : Table Role} {G : Table RolePermission} {p : Uuid}
    (hG : ∀ rp, rp ∈ G.rows ↔ rp ∈ s.rolePermissions.rows ∨
      ∃ x ∈ (s.rolePermissions.select fun rp => rp.roleId = i).zipIdx,
        rp = ⟨d.uuid (x.2 + 1), d.uuid 0, x.1.permissionId⟩) :
    Has { s with roles := R, rolePermissions := G } r p ↔ Has s r p ∨ r = d.uuid 0 ∧ Has s i p := by
  constructor
  · rintro ⟨rp, hrp, hperm, hrole⟩
    rcases (hG rp).mp hrp with hold | ⟨x, hx, rfl⟩
    · exact Or.inl ⟨rp, hold, hperm, hrole⟩
    · obtain ⟨hold, hx⟩ := Table.mem_select.mp (List.fst_mem_of_mem_zipIdx hx)
      exact Or.inr ⟨hrole.symm, x.1, hold, hperm, of_decide_eq_true hx⟩
  · rintro (⟨rp, hold, hperm, hrole⟩ | ⟨rfl, rp, hold, hperm, hrole⟩)
    · exact ⟨rp, (hG rp).mpr (Or.inl hold), hperm, hrole⟩
    · have hsel : rp ∈ s.rolePermissions.select fun rp => rp.roleId = i :=
        Table.mem_select.mpr ⟨hold, decide_eq_true hrole⟩
      obtain ⟨k, hk⟩ := exists_mem_zipIdx hsel 0
      exact ⟨_, (hG _).mpr (Or.inr ⟨(rp, k), hk, rfl⟩), hperm, rfl⟩

theorem enforced_clone {a : Option Role} (hκ : Enforced κ s)
    (h : (cloneSystemRoleToWorkspace d i w name).Returns s a s') :
    Enforced (κ.cloned i (.ok a)) s' := by
  rcases clone_cases h with ⟨rfl, rfl⟩ | ⟨q, hq, rfl, rfl, R, G, hR, rfl, hG⟩
  · exact hκ
  have hnew : s.roles.has (d.uuid 0) = false := not_has_of_insert hR
  -- nothing was known of the new role, so nothing was granted to it
  have hunknown : κ (d.uuid 0) = none := by
    rcases hk : κ (d.uuid 0) with _ | k
    · rfl
    · exact absurd ((hκ.known _ k hk).symm.trans hnew) (by decide)
  have hcloned : κ.cloned q.id (.ok (some (customRole d q w name))) =
      Function.update κ (d.uuid 0) (κ q.id) := rfl
  rw [hcloned]
  refine ⟨fun r x => ?_, fun r k hk => ?_, fun rp hrp => ?_⟩
  · have hsplit : Grants { s with roles := R, rolePermissions := G } r x.1 x.2 ↔
        Grants s r x.1 x.2 ∨ r = d.uuid 0 ∧ Grants s q.id x.1 x.2 := by
      simp only [grants_iff_has, has_clone hG]
      constructor
      · rintro ⟨p, hp, hres, hact, hold | ⟨hr, hold⟩⟩
        · exact Or.inl ⟨p, hp, hres, hact, hold⟩
        · exact Or.inr ⟨hr, p, hp, hres, hact, hold⟩
      · rintro (⟨p, hp, hres, hact, hold⟩ | ⟨hr, p, hp, hres, hact, hold⟩)
        · exact ⟨p, hp, hres, hact, Or.inl hold⟩
        · exact ⟨p, hp, hres, hact, Or.inr ⟨hr, hold⟩⟩
    rw [hsplit, hκ.decides, hκ.decides]
    by_cases hr : r = d.uuid 0
    · subst hr
      simp [hunknown]
    · simp [hr]
  · by_cases hr : r = d.uuid 0
    · subst hr
      exact Table.has_iff.mpr ⟨_, Table.mem_insert_self hR, rfl⟩
    · rw [Function.update_of_ne hr] at hk
      exact has_insert hR (hκ.known r k hk)
  · rcases (hG rp).mp hrp with hold | ⟨x, -, rfl⟩
    · exact has_insert hR (hκ.named rp hold)
    · exact Table.has_iff.mpr ⟨_, Table.mem_insert_self hR, rfl⟩

/-- The tables of roles and permissions. -/
def rbac (db : Database) : Table Permission × Table Role × Table RolePermission :=
  (db.permissions, db.roles, db.rolePermissions)

theorem enforced_congr (h : rbac s' = rbac s) (hκ : Enforced κ s) : Enforced κ s' := by
  obtain ⟨hp, hr, hg⟩ : s'.permissions = s.permissions ∧ s'.roles = s.roles ∧
      s'.rolePermissions = s.rolePermissions := by simpa [rbac] using h
  refine ⟨fun r x => ?_, fun r k hk => ?_, ?_⟩
  · rw [← hκ.decides r x]
    unfold Grants
    rw [hp, hg]
  · rw [hr]
    exact hκ.known r k hk
  · have hnamed := hκ.named
    unfold GrantsNameRoles at hnamed ⊢
    rwa [hr, hg]

theorem rbac_of_effect {c : System.Call} (h : System.Effect lower s c s') : rbac s' = rbac s := by
  cases h <;> rfl

/-- An event that returns writes roles and permissions only where it clones one. -/
theorem enforced_serve {u : Unit} (hκ : Enforced κ s) (h : (serve lower e).Returns s u s') :
    Enforced (note s e κ) s' := by
  cases e with
  | call c => exact enforced_congr (rbac_of_effect (System.effect_serve h)) hκ
  | createWorkspace d actor data =>
    obtain ⟨user, -, -, a, hcreate⟩ := serve_createWorkspace h
    obtain ⟨o, W, T, L, -, -, -, -, rfl⟩ := Service.createWorkspace_spec hcreate
    exact enforced_congr (s := s) rfl hκ
  | deleteWorkspace d actor w =>
    obtain ⟨user, -, -, ws, -, -, hdelete⟩ := serve_deleteWorkspace h
    obtain ⟨-, W, L, rfl, -⟩ := Service.deleteWorkspace_spec hdelete
    exact enforced_congr (s := s) rfl hκ
  | cloneSystemRole d i w name =>
    obtain ⟨a, hclone, -⟩ := Prog.returns_bind_pure.mp h
    have hnote : note s (.cloneSystemRole d i w name) κ = κ.cloned i (.ok a) :=
      congrArg (fun o : Except Exc (Option Role) × Database => κ.cloned i o.1) hclone
    rw [hnote]
    exact enforced_clone hκ hclone
  | expireInvites now =>
    obtain ⟨n, hexpire, -⟩ := Prog.returns_bind_pure.mp h
    obtain ⟨I, -, rfl⟩ := Invitations.expireInvites_evolved hexpire
    exact enforced_congr (s := s) rfl hκ
  | signIn d payload =>
    obtain ⟨a, hsign, -⟩ := Prog.returns_bind_pure.mp h
    rcases getOrCreateUser_spec hsign with rfl | ⟨U, -, rfl⟩
    · exact hκ
    · exact enforced_congr (s := s) rfl hκ

theorem note_of_raises (h : ∀ u s', ¬ (serve lower e).Returns s u s') : note s e κ = κ := by
  cases e with
  | cloneSystemRole d i w name =>
    rcases hout : cloneSystemRoleToWorkspace d i w name s with ⟨o | a, s'⟩
    · exact congrArg (fun o : Except Exc (Option Role) × Database => κ.cloned i o.1) hout
    · have hret : (cloneSystemRoleToWorkspace d i w name).Returns s a s' := hout
      exact absurd (Prog.returns_bind_pure.mpr ⟨a, hret, rfl⟩) (h () s')
  | _ => rfl

/-- **A step keeps the matrix**, with the kinds of the roles that it makes. -/
theorem enforced_step (hκ : Enforced κ s) : Enforced (note s e κ) (step lower s e) := by
  unfold step
  rcases (serve lower e).settle_cases s with ⟨u, h⟩ | ⟨hsame, hfails⟩
  · exact enforced_serve hκ h
  · rw [hsame, note_of_raises hfails]
    exact hκ

/-! ### Runs -/

/-- **The matrix is enforced in every state**: whatever happened since the script was run, an
endpoint of a workspace admits exactly those who may enter the workspace and either have a member
row whose role the matrix allows what the endpoint asks for, or own the workspace without a row. -/
theorem matrix_enforced (lower : String → String) {s₀ s₁ : Database} (hs : Unseeded s₀)
    (hseed : (seedRbac d).Returns s₀ () s₁) (l : List Event) (route : Route) (w : Uuid)
    (user : User) (h : Recorded Database Kinds)
    (hrun : run (record (step lower) note) ⟨s₁, kindsOf s₁⟩ l = h) :
    (route.guard.check w user).succeeds h.state = true ↔ Enters h.state w user.id ∧
      ((∃ m, IsLive h.state w user.id m ∧ ∃ k, h.history m.roleId = some k ∧
        allows k (route.guard.resource, route.guard.action) = true) ∨
        ∀ m, ¬ IsLive h.state w user.id m) := by
  have hinv : Enforced h.history h.state := by
    rw [← hrun]
    exact inv_run (I := fun h : Recorded Database Kinds => Enforced h.history h.state)
      (fun _ _ => enforced_step) l (enforced_of_seed hs hseed)
  rw [check_succeeds_iff]
  refine and_congr_right fun henters => or_congr ?_ ?_
  · exact exists_congr fun m => and_congr_right fun _ =>
      hinv.decides m.roleId (route.guard.resource, route.guard.action)
  · refine and_iff_left_of_imp fun hno => ?_
    obtain ⟨ws, hopen, ⟨m, hm, -⟩ | howner⟩ := henters
    · exact absurd hm (hno m)
    · exact ⟨ws, hopen, howner⟩

/-- The script on the empty database, and after it one sign-in and one workspace. -/
theorem matrix_enforced_first_run :
    ∃ s₁, (seedRbac (drawsFrom 0 0 "")).Returns Database.empty () s₁ ∧
    ∀ h, run (record (step id) note) ⟨s₁, kindsOf s₁⟩
      [.signIn (drawsFrom 900 0 "") ⟨.id 7, some "ann@example.com"⟩,
        .createWorkspace (drawsFrom 910 0 "") 900 { name := "Ann", ownerId := 0, createdBy := 0 }]
        = h →
      ((Route.createCampaign.guard.check 910
          ⟨900, "ann@example.com", 7, none, none, true, none⟩).succeeds h.state = true ↔
        Enters h.state 910 900 ∧
          ((∃ m, IsLive h.state 910 900 m ∧ ∃ k, h.history m.roleId = some k ∧
            allows k ("campaign", "create") = true) ∨ ∀ m, ¬ IsLive h.state 910 900 m)) := by
  obtain ⟨s₁, hseed⟩ := exists_firstRun (d := drawsFrom 0 0 "") fun j k h => Nat.add_left_cancel h
  exact ⟨s₁, hseed, matrix_enforced id ⟨rfl, rfl, rfl⟩ hseed _ .createCampaign 910 _⟩

end MarketingSuite.Api.AccessMatrix
