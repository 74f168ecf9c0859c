import MarketingSuite.Lib.Sessions
import MarketingSuite.Workspaces.CustomRoles
import Mathlib.Logic.Relation

/-! # Seeding permissions and roles

`seed_rbac` of `scripts/seed_rbac.py` and `RolePermissionRepository.assign_permission`. The
script has three parts, each of which looks up what is there and then adds what is missing. Autoflush
is off, so that the lookups of a part see nothing of what it adds: its rows go in together, when the
session is flushed. -/

namespace MarketingSuite.Workspaces.Seeding

open MarketingSuite.Lib.Programs MarketingSuite.Lib.Tables MarketingSuite.Lib.Sessions
open MarketingSuite.Base.Values MarketingSuite.Base.Models MarketingSuite.Base.Schema
open MarketingSuite.Repositories.Base
open MarketingSuite.Workspaces.CustomRoles (Has)

/-! ### Pending rows -/

section Flush

/-- An ORM class whose table is one component of the database, and whose rows refer to other tables
only. -/
class FlatModel (ρ : Type) [Keyed ρ Uuid] [Model ρ] : Prop where
  table_set : ∀ db (T : Table ρ), table (setTable db T) = T
  set_set : ∀ db (T T' : Table ρ), setTable (setTable db T) T' = setTable db T'
  set_table : ∀ db, setTable db (table db : Table ρ) = db
  references_set : ∀ db (T : Table ρ) (r : ρ),
    Model.references (setTable db T) r = Model.references db r

instance : FlatModel Permission := ⟨fun _ _ => rfl, fun _ _ _ => rfl, fun _ => rfl, fun _ _ _ => rfl⟩

instance : FlatModel Role := ⟨fun _ _ => rfl, fun _ _ _ => rfl, fun _ => rfl, fun _ _ _ => rfl⟩

instance : FlatModel RolePermission :=
  ⟨fun _ _ => rfl, fun _ _ _ => rfl, fun _ => rfl, fun _ _ _ => rfl⟩

variable {ρ : Type} [Keyed ρ Uuid] [Model ρ]

/-- `db.flush()`: insert the pending rows, in the order in which they were added. -/
def flush (pending : List ρ) : Svc Unit :=
  Prog.forEach (fun r => do
    let _ ← create r
    pure ()) pending

/-- **What a flush leaves**: the rows that were there and the pending ones, in one table. -/
theorem returns_flush [FlatModel ρ] {pending : List ρ} {s s' : Database} :
    (flush pending).Returns s () s' ↔ (∀ r ∈ pending, Model.references s r = true) ∧
      ∃ T, T.rows = (table s : Table ρ).rows ++ pending ∧ s' = setTable s T := by
  induction pending generalizing s with
  | nil =>
    simp only [flush, Prog.forEach, Prog.returns_pure, List.append_nil, true_and]
    constructor
    · rintro rfl
      exact ⟨by simp, table s', rfl, (FlatModel.set_table s').symm⟩
    · rintro ⟨-, T, hT, rfl⟩
      obtain rfl : T = table s := by
        cases T
        cases hT
        rfl
      exact FlatModel.set_table s
  | cons r l ih =>
    have ih' := fun {s} => ih (s := s)
    simp only [flush, Prog.forEach, Prog.returns_bind, returns_create, Prog.returns_pure,
      List.forall_mem_cons, true_and] at ih' ⊢
    constructor
    · rintro ⟨_, t, ⟨_, _, ⟨rfl, hr, T₁, hT₁, rfl⟩, rfl⟩, hrest⟩
      obtain ⟨hl, T, hT, rfl⟩ := ih'.mp hrest
      simp only [FlatModel.references_set] at hl
      refine ⟨⟨hr, hl⟩, T, ?_, FlatModel.set_set s T₁ T⟩
      rw [hT, FlatModel.table_set, Table.insert_eq_some.mp hT₁, List.append_assoc,
        List.singleton_append]
    · rintro ⟨⟨hr, hl⟩, T, hT, rfl⟩
      -- The row goes in alone, since it stands with the others in the table that is left.
      have hpair : ((table s : Table ρ).rows ++ [r]).Pairwise Apart := by
        refine T.apart.sublist ?_
        rw [hT]
        exact (List.Sublist.refl _).append (List.singleton_sublist.mpr List.mem_cons_self)
      have hins : (table s : Table ρ).insert r = some ⟨_, hpair⟩ := Table.insert_eq_some.mpr rfl
      refine ⟨(), _, ⟨r, _, ⟨rfl, hr, _, hins, rfl⟩, rfl⟩, ih'.mpr ⟨?_, T, ?_, ?_⟩⟩
      · simpa only [FlatModel.references_set] using hl
      · rw [FlatModel.table_set, hT, List.append_assoc, List.singleton_append]
      · exact (FlatModel.set_set s _ T).symm

theorem returns_lookup {β : Type} {p : ρ → Bool} {k : Option ρ → β} {s s' : Database} {b : β} :
    (do
      let found ← selectOne p
      pure (k found) : Svc β).Returns s b s' ↔
      ((table s : Table ρ).select p).length ≤ 1 ∧ b = k ((table s : Table ρ).select p).head? ∧
        s' = s := by
  rw [Prog.returns_bind_pure]
  simp only [returns_selectOne]
  constructor
  · rintro ⟨o, ⟨hsel, rfl⟩, rfl⟩
    rw [hsel]
    cases o <;> simp
  · rintro ⟨hlen, rfl, rfl⟩
    refine ⟨_, ⟨?_, rfl⟩, rfl⟩
    match (table s' : Table ρ).select p, hlen with
    | [], _ => rfl
    | [r], _ => rfl

end Flush

/-! ### What is seeded -/

/-- `RESOURCES`. -/
def resources : List String :=
  ["Workspace", "Campaign", "Analytics", "Billing", "AI", "Brand Kit", "Assets", "Content",
    "Notifications", "Members", "Reports", "Settings", "Social Accounts", "Integration", "API Keys",
    "Audit Logs"]

/-- `ACTIONS`. -/
def actions : List String := ["create", "read", "update", "delete", "manage", "publish"]

/-- `ROLES_SETUP`, the names of the roles and their descriptions. -/
def rolesSetup : List (String × String) :=
  [("Owner", "Full access to all resources"),
    ("Admin", "Administrative access, except billing management"),
    ("Editor", "Can create and edit content and campaigns"),
    ("Viewer", "Read-only access to most resources"),
    ("Client", "Restricted read-only access to specific reports")]

/-- `resource.lower().replace(" ", "_")`. -/
def resSlug (resource : String) : String :=
  String.ofList (resource.toList.map fun c => if c = ' ' then '_' else c.toLower)

/-- The resources and actions of the permissions that are created. -/
def permissionSeeds : List (String × String) :=
  resources.flatMap fun resource => actions.map fun action => (resSlug resource, action)

/-- The name of a permission. -/
def permissionName (x : String × String) : String := x.1 ++ "." ++ x.2

/-- Whether the role gets the permission. -/
def assigned (roleName : String) (perm : Permission) : Bool :=
  if roleName = "Owner" then true
  else if roleName = "Admin" then perm.resource ≠ "billing" || perm.action ≠ "manage"
  else if roleName = "Editor" then
    if perm.resource ∈ ["campaign", "content", "assets", "brand_kit"] then
      perm.action ∈ ["create", "read", "update", "publish"]
    else perm.action = "read"
  else if roleName = "Viewer" then perm.action = "read"
  else if roleName = "Client" then
    perm.resource ∈ ["reports", "analytics", "campaign"] && perm.action = "read"
  else false

/-! ### The script -/

/-- `Role.name == name, Role.is_system.is_(True)`. -/
def isSystemRole (name : String) (r : Role) : Bool := r.name = name && r.isSystem

/-- One round of the first part: the permission, if there is none of its name. -/
def seedPermission (d : Draws) (x : (String × String) × ℕ) : Svc (List Permission) := do
  let perm ← selectOne fun p : Permission => p.name = permissionName x.1
  pure (if perm.isSome then [] else [⟨d.uuid x.2, permissionName x.1, x.1.1, x.1.2⟩])

/-- The role of a round. -/
def systemRole (d : Draws) (x : (String × String) × ℕ) : Role :=
  ⟨d.uuid x.2, none, x.1.1, some x.1.2, .system, true⟩

/-- One round of the second part: the role under its name, and whether it is new. -/
def seedRole (d : Draws) (x : (String × String) × ℕ) : Svc (List ((String × Role) × Bool)) := do
  let role ← selectOne (isSystemRole x.1.1)
  pure [match role with
    | some role => ((x.1.1, role), false)
    | none => ((x.1.1, systemRole d x), true)]

/-- One round of the third part: the grant, if the role gets the permission and has not got it. -/
def seedGrant (d : Draws) (x : ((String × Role) × Permission) × ℕ) : Svc (List RolePermission) :=
  if assigned x.1.1.1 x.1.2 = true then do
    let rp ← selectOne fun rp : RolePermission =>
      rp.roleId = x.1.1.2.id && rp.permissionId = x.1.2.id
    pure (if rp.isSome then [] else [⟨d.uuid x.2, x.1.1.2.id, x.1.2.id⟩])
  else pure []

/-- The rounds of the third part: every role with every permission. -/
def pairs (roles : List (String × Role)) (perms : List Permission) :
    List ((String × Role) × Permission) :=
  roles.flatMap fun role => perms.map fun perm => (role, perm)

/-- The body of `seed_rbac`. Every round has an identifier of its own. -/
def seed (d : Draws) : Svc Unit := do
  let created ← Prog.gather (seedPermission d) permissionSeeds.zipIdx
  flush created
  let allPermissions ← selectAll fun _ : Permission => true
  let roles ← Prog.gather (seedRole d) (rolesSetup.zipIdx permissionSeeds.length)
  flush ((roles.filter (·.2)).map (·.1.2))
  let grants ← Prog.gather (seedGrant d)
    ((pairs (roles.map (·.1)) allPermissions).zipIdx (permissionSeeds.length + rolesSetup.length))
  flush grants

/-- `seed_rbac`. -/
def seedRbac (d : Draws) : Svc Unit := Session.transact (seed d)

/-- `RolePermissionRepository.assign_permission`. -/
def assignPermission (d : Draws) (roleId permissionId : Uuid) : Svc (Option RolePermission) := do
  let found ← selectOne fun rp : RolePermission =>
    rp.roleId = roleId && rp.permissionId = permissionId
  match found with
  | some _ => pure none
  | none => do
    let rolePerm ← create (⟨d.uuid 0, roleId, permissionId⟩ : RolePermission)
    pure (some rolePerm)

/-! ### Numbered lists -/

theorem exists_mem_zipIdx {α : Type} {x : α} {l : List α} (h : x ∈ l) (n : ℕ) :
    ∃ k, (x, k) ∈ l.zipIdx n := by
  obtain ⟨k, hk⟩ := List.getElem?_of_mem h
  exact ⟨n + k, List.mk_add_mem_zipIdx_iff_getElem?.mpr hk⟩

theorem pairwise_zipIdx {α : Type} {R : α → α → Prop} {l : List α} (h : l.Pairwise R) (n : ℕ) :
    (l.zipIdx n).Pairwise fun a b => a.2 < b.2 ∧ R a.1 b.1 := by
  induction l generalizing n with
  | nil => exact .nil
  | cons x l ih =>
    obtain ⟨hx, hl⟩ := List.pairwise_cons.mp h
    rw [List.zipIdx_cons]
    refine .cons (fun b hb => ⟨?_, hx b.1 (List.fst_mem_of_mem_zipIdx hb)⟩) (ih hl (n + 1))
    have hle : n + 1 ≤ b.2 := List.le_snd_of_mem_zipIdx hb
    exact hle

/-! ### What a run does -/

variable {s s' : Database} {d : Draws}

/-- The permissions that the first part creates. -/
def newPermissions (d : Draws) (s : Database) : List Permission :=
  permissionSeeds.zipIdx.flatMap fun x =>
    if (s.permissions.select fun p => p.name = permissionName x.1).head?.isSome = true then []
    else [⟨d.uuid x.2, permissionName x.1, x.1.1, x.1.2⟩]

/-- The role that the second part finds or makes. -/
def roleOf (d : Draws) (s : Database) (x : (String × String) × ℕ) : (String × Role) × Bool :=
  match (s.roles.select (isSystemRole x.1.1)).head? with
  | some role => ((x.1.1, role), false)
  | none => ((x.1.1, systemRole d x), true)

/-- The roles of the second part. -/
def seededRoles (d : Draws) (s : Database) : List ((String × Role) × Bool) :=
  (rolesSetup.zipIdx permissionSeeds.length).map (roleOf d s)

/-- Those of them that are new. -/
def newRoles (d : Draws) (s : Database) : List Role :=
  ((seededRoles d s).filter (·.2)).map (·.1.2)

/-- The grant that one round of the third part adds. -/
def grantOf (d : Draws) (s : Database) (x : ((String × Role) × Permission) × ℕ) :
    List RolePermission :=
  if assigned x.1.1.1 x.1.2 = true then
    if (s.rolePermissions.select fun rp =>
      rp.roleId = x.1.1.2.id && rp.permissionId = x.1.2.id).head?.isSome = true then []
    else [⟨d.uuid x.2, x.1.1.2.id, x.1.2.id⟩]
  else []

/-- The grants that the third part adds. -/
def newGrants (d : Draws) (s : Database) (roles : List (String × Role)) (perms : List Permission) :
    List RolePermission :=
  ((pairs roles perms).zipIdx (permissionSeeds.length + rolesSetup.length)).flatMap (grantOf d s)

theorem returns_seedPermission (x : (String × String) × ℕ) (a : List Permission) (s' : Database) :
    (seedPermission d x).Returns s a s' ↔ True ∧
      a = (if (s.permissions.select fun p => p.name = permissionName x.1).head?.isSome = true then []
        else [⟨d.uuid x.2, permissionName x.1, x.1.1, x.1.2⟩]) ∧ s' = s := by
  have hone : (s.permissions.select fun p => p.name = permissionName x.1).length ≤ 1 := by
    refine Table.length_select_le_one fun r hr q hq hpr hpq => ?_
    exact s.permissions.eq_of_not_compatible hq hr (by
      simp [Keyed.compatible, of_decide_eq_true hpr, of_decide_eq_true hpq])
  refine returns_lookup.trans ?_
  simp only [true_and]
  exact and_iff_right hone

theorem returns_seedRole (x : (String × String) × ℕ) (a : List ((String × Role) × Bool))
    (s' : Database) : (seedRole d x).Returns s a s' ↔
      (s.roles.select (isSystemRole x.1.1)).length ≤ 1 ∧ a = [roleOf d s x] ∧ s' = s :=
  returns_lookup

theorem returns_seedGrant (x : ((String × Role) × Permission) × ℕ) (a : List RolePermission)
    (s' : Database) : (seedGrant d x).Returns s a s' ↔ True ∧ a = grantOf d s x ∧ s' = s := by
  have hone : (s.rolePermissions.select fun rp =>
      rp.roleId = x.1.1.2.id && rp.permissionId = x.1.2.id).length ≤ 1 := by
    refine Table.length_select_le_one fun r hr q hq hpr hpq => ?_
    simp only [Bool.and_eq_true, decide_eq_true_eq] at hpr hpq
    exact s.rolePermissions.eq_of_not_compatible hq hr (by simp [Keyed.compatible, hpr, hpq])
  by_cases hassign : assigned x.1.1.1 x.1.2 = true
  · simp only [seedGrant, grantOf, if_pos hassign, true_and]
    exact returns_lookup.trans (and_iff_right hone)
  · simp only [seedGrant, grantOf, if_neg hassign, Prog.returns_pure, true_and]

theorem mem_grantOf {x : ((String × Role) × Permission) × ℕ} {rp : RolePermission}
    (h : rp ∈ grantOf d s x) :
    rp = ⟨d.uuid x.2, x.1.1.2.id, x.1.2.id⟩ ∧ assigned x.1.1.1 x.1.2 = true ∧
      ¬ Has s x.1.1.2.id x.1.2.id := by
  unfold grantOf at h
  split_ifs at h with hassign hfound
  · simp at h
  · refine ⟨List.mem_singleton.mp h, hassign, ?_⟩
    rintro ⟨q, hq, hp, hr⟩
    have hsel : q ∈ s.rolePermissions.select fun rp =>
        rp.roleId = x.1.1.2.id && rp.permissionId = x.1.2.id :=
      Table.mem_select.mpr ⟨hq, by simp [hp, hr]⟩
    rw [Bool.not_eq_true, Option.isSome_eq_false_iff, Option.isNone_iff_eq_none,
      List.head?_eq_none_iff] at hfound
    rw [hfound] at hsel
    exact List.not_mem_nil hsel
  · simp at h

theorem mem_pairs {roles : List (String × Role)} {perms : List Permission}
    {x : (String × Role) × Permission} : x ∈ pairs roles perms ↔ x.1 ∈ roles ∧ x.2 ∈ perms := by
  simp only [pairs, List.mem_flatMap, List.mem_map]
  constructor
  · rintro ⟨role, hrole, perm, hperm, rfl⟩
    exact ⟨hrole, hperm⟩
  · rintro ⟨hrole, hperm⟩
    exact ⟨x.1, hrole, x.2, hperm, rfl⟩

theorem roleOf_of_nil {x : (String × String) × ℕ}
    (h : s.roles.select (isSystemRole x.1.1) = []) :
    roleOf d s x = ((x.1.1, systemRole d x), true) := by
  rw [roleOf, h]
  rfl

theorem roleOf_of_cons {x : (String × String) × ℕ} {role : Role} {l : List Role}
    (h : s.roles.select (isSystemRole x.1.1) = role :: l) :
    roleOf d s x = ((x.1.1, role), false) := by
  rw [roleOf, h]
  rfl

theorem mem_newRoles {r : Role} : r ∈ newRoles d s ↔
    ∃ x ∈ rolesSetup.zipIdx permissionSeeds.length,
      s.roles.select (isSystemRole x.1.1) = [] ∧ r = systemRole d x := by
  simp only [newRoles, seededRoles, List.mem_map, List.mem_filter]
  constructor
  · rintro ⟨_, ⟨⟨x, hx, rfl⟩, hnew⟩, rfl⟩
    rcases hsel : s.roles.select (isSystemRole x.1.1) with _ | ⟨role, l⟩
    · exact ⟨x, hx, hsel, by rw [roleOf_of_nil hsel]⟩
    · rw [roleOf_of_cons hsel] at hnew
      exact absurd hnew Bool.false_ne_true
  · rintro ⟨x, hx, hsel, rfl⟩
    exact ⟨roleOf d s x, ⟨⟨x, hx, rfl⟩, by rw [roleOf_of_nil hsel]⟩, by rw [roleOf_of_nil hsel]⟩

/-- The roles of the second part are those that were there and those that are new. -/
theorem role_mem {x : (String × Role) × Bool} (h : x ∈ seededRoles d s) :
    x.1.2 ∈ s.roles.rows ∨ x.1.2 ∈ newRoles d s := by
  obtain ⟨y, hy, rfl⟩ := List.mem_map.mp h
  rcases hsel : s.roles.select (isSystemRole y.1.1) with _ | ⟨role, l⟩
  · exact .inr (mem_newRoles.mpr ⟨y, hy, hsel, by rw [roleOf_of_nil hsel]⟩)
  · rw [roleOf_of_cons hsel]
    exact .inl (Table.of_select_eq_cons hsel).1

theorem home_newRoles {r : Role} (hr : r ∈ newRoles d s) :
    optionalRef s.workspaces r.workspaceId = true := by
  obtain ⟨x, -, -, rfl⟩ := mem_newRoles.mp hr
  rfl

/-- The new grants name rows of the tables that the first two parts leave. -/
theorem references_newGrants {P : Table Permission} {R : Table Role} {rp : RolePermission}
    (hR : R.rows = s.roles.rows ++ newRoles d s)
    (hrp : rp ∈ newGrants d s ((seededRoles d s).map (·.1)) P.rows) :
    (R.has rp.roleId && P.has rp.permissionId) = true := by
  obtain ⟨x, hx, hrp⟩ := List.mem_flatMap.mp hrp
  obtain ⟨rfl, -, -⟩ := mem_grantOf hrp
  obtain ⟨hrole, hperm⟩ := mem_pairs.mp (List.fst_mem_of_mem_zipIdx hx)
  obtain ⟨y, hy, hxy⟩ := List.mem_map.mp hrole
  have hyR : y.1.2 ∈ R.rows := by
    rw [hR]
    exact List.mem_append.mpr (role_mem hy)
  rw [Bool.and_eq_true, Table.has_iff, Table.has_iff]
  exact ⟨⟨y.1.2, hyR, by rw [hxy]; rfl⟩, x.1.2, hperm, rfl⟩

/-- **A run of the script**: it raises if there are two system roles of one name, or if one of the
rows it adds may not stand with the others, and adds its rows otherwise. -/
theorem returns_seed : (seed d).Returns s () s' ↔
    (∀ x ∈ rolesSetup.zipIdx permissionSeeds.length,
      (s.roles.select (isSystemRole x.1.1)).length ≤ 1) ∧
      ∃ P R G, P.rows = s.permissions.rows ++ newPermissions d s ∧
        R.rows = s.roles.rows ++ newRoles d s ∧
        G.rows = s.rolePermissions.rows ++ newGrants d s ((seededRoles d s).map (·.1)) P.rows ∧
        s' = { s with permissions := P, roles := R, rolePermissions := G } := by
  have hmap : (rolesSetup.zipIdx permissionSeeds.length).flatMap (fun x => [roleOf d s x]) =
      seededRoles d s := List.map_eq_flatMap.symm
  have hall : ∀ P : Table Permission, (P.select fun _ => true) = P.rows := fun P =>
    List.filter_eq_self.mpr fun _ _ => rfl
  constructor
  · intro h
    obtain ⟨_, _, hcreated, h⟩ := Prog.returns_bind.mp h
    obtain ⟨-, rfl, rfl⟩ := (Prog.returns_gather returns_seedPermission).mp hcreated
    obtain ⟨_, _, hflush, h⟩ := Prog.returns_bind.mp h
    obtain ⟨-, P, hP, rfl⟩ := returns_flush.mp hflush
    obtain ⟨_, _, hperms, h⟩ := Prog.returns_bind.mp h
    obtain ⟨rfl, rfl⟩ := Prog.returns_gets.mp hperms
    obtain ⟨_, _, hroles, h⟩ := Prog.returns_bind.mp h
    obtain ⟨hone, rfl, rfl⟩ := (Prog.returns_gather returns_seedRole).mp hroles
    obtain ⟨_, _, hflush, h⟩ := Prog.returns_bind.mp h
    obtain ⟨-, R, hR, rfl⟩ := returns_flush.mp hflush
    obtain ⟨_, _, hgrants, h⟩ := Prog.returns_bind.mp h
    obtain ⟨-, rfl, rfl⟩ := (Prog.returns_gather returns_seedGrant).mp hgrants
    obtain ⟨-, G, hG, rfl⟩ := returns_flush.mp h
    refine ⟨hone, P, R, G, hP, ?_, ?_, rfl⟩
    · rw [newRoles, ← hmap]
      exact hR
    · rw [newGrants, ← hmap, ← hall P]
      exact hG
  · rintro ⟨hone, P, R, G, hP, hR, hG, rfl⟩
    refine Prog.returns_bind.mpr ⟨newPermissions d s, s,
      (Prog.returns_gather returns_seedPermission).mpr ⟨fun _ _ => trivial, rfl, rfl⟩, ?_⟩
    refine Prog.returns_bind.mpr ⟨(), { s with permissions := P },
      returns_flush.mpr ⟨fun _ _ => rfl, P, hP, rfl⟩, ?_⟩
    refine Prog.returns_bind.mpr ⟨P.rows, _, Prog.returns_gets.mpr ⟨(hall P).symm, rfl⟩, ?_⟩
    refine Prog.returns_bind.mpr ⟨seededRoles d s, _,
      (Prog.returns_gather returns_seedRole).mpr ⟨hone, hmap.symm, rfl⟩, ?_⟩
    refine Prog.returns_bind.mpr ⟨(), { s with permissions := P, roles := R },
      returns_flush.mpr ⟨fun r hr => home_newRoles hr, R, hR, rfl⟩, ?_⟩
    refine Prog.returns_bind.mpr ⟨newGrants d s ((seededRoles d s).map (·.1)) P.rows, _,
      (Prog.returns_gather returns_seedGrant).mpr ⟨fun _ _ => trivial, rfl, rfl⟩, ?_⟩
    exact returns_flush.mpr ⟨fun rp hrp => references_newGrants hR hrp, G, hG, rfl⟩

/-! ### Seeded states -/

/-- **The state after a run**: every permission of the script is there under its name, and every role
of it once. -/
structure Seeded (s : Database) : Prop where
  permissions : ∀ x ∈ permissionSeeds, ∃ p ∈ s.permissions.rows, p.name = permissionName x
  roles : ∀ x ∈ rolesSetup, ∃ r, s.roles.select (isSystemRole x.1) = [r]

theorem nodup_roleNames : ((rolesSetup.zipIdx permissionSeeds.length).map (·.1.1)).Nodup := by
  have hmap : ((rolesSetup.zipIdx permissionSeeds.length).map Prod.fst).map Prod.fst =
      (rolesSetup.zipIdx permissionSeeds.length).map (·.1.1) := List.map_map
  rw [← hmap, List.zipIdx_map_fst]
  decide

/-- A system role under the name of a round that is there after the second part was there before it,
or is the one that the round made. -/
theorem mem_roles_cases {x : (String × String) × ℕ} {R : Table Role} {q : Role}
    (hx : x ∈ rolesSetup.zipIdx permissionSeeds.length)
    (hR : R.rows = s.roles.rows ++ newRoles d s) (hq : q ∈ R.rows)
    (hqx : isSystemRole x.1.1 q = true) : q ∈ s.roles.select (isSystemRole x.1.1) ∨
      s.roles.select (isSystemRole x.1.1) = [] ∧ q = systemRole d x := by
  rw [hR, List.mem_append] at hq
  rcases hq with hold | hnew
  · exact .inl (Table.mem_select.mpr ⟨hold, hqx⟩)
  · obtain ⟨y, hy, hsel, rfl⟩ := mem_newRoles.mp hnew
    have hname : y.1.1 = x.1.1 := of_decide_eq_true (Bool.and_eq_true_iff.mp hqx).1
    obtain rfl := List.inj_on_of_nodup_map nodup_roleNames hy hx hname
    exact .inr ⟨hsel, rfl⟩

/-- After the second part there is one system role under the name of a round. -/
theorem exists_role {x : (String × String) × ℕ} {R : Table Role}
    (hx : x ∈ rolesSetup.zipIdx permissionSeeds.length)
    (hR : R.rows = s.roles.rows ++ newRoles d s)
    (hle : (s.roles.select (isSystemRole x.1.1)).length ≤ 1) :
    ∃ r, R.select (isSystemRole x.1.1) = [r] := by
  have hcases := fun q => mem_roles_cases (q := q) hx hR
  rcases hsel : s.roles.select (isSystemRole x.1.1) with _ | ⟨r, _ | ⟨r', l⟩⟩
  · have hmem : systemRole d x ∈ R.rows :=
      hR ▸ List.mem_append_right _ (mem_newRoles.mpr ⟨x, hx, hsel, rfl⟩)
    refine ⟨systemRole d x, R.select_eq_singleton hmem (by simp [isSystemRole, systemRole]) ?_⟩
    intro q hq hqx
    rcases hcases q hq hqx with hold | ⟨-, hnew⟩
    · rw [hsel] at hold
      exact absurd hold List.not_mem_nil
    · exact hnew
  · obtain ⟨hr, hrx⟩ := Table.of_select_eq_cons hsel
    have hmem : r ∈ R.rows := hR ▸ List.mem_append_left _ hr
    refine ⟨r, R.select_eq_singleton hmem hrx fun q hq hqx => ?_⟩
    rcases hcases q hq hqx with hold | ⟨hnil, -⟩
    · rw [hsel] at hold
      exact List.mem_singleton.mp hold
    · rw [hsel] at hnil
      exact absurd hnil (List.cons_ne_nil r [])
  · rw [hsel, List.length_cons, List.length_cons] at hle
    omega

/-- After the first part there is a permission under the name of a round. -/
theorem exists_permission {x : String × String} {P : Table Permission} (hx : x ∈ permissionSeeds)
    (hP : P.rows = s.permissions.rows ++ newPermissions d s) :
    ∃ p ∈ P.rows, p.name = permissionName x := by
  obtain ⟨k, hxk⟩ := exists_mem_zipIdx hx 0
  rw [hP]
  rcases hsel : s.permissions.select fun p => p.name = permissionName x with _ | ⟨p, l⟩
  · refine ⟨⟨d.uuid k, permissionName x, x.1, x.2⟩, List.mem_append_right _ ?_, rfl⟩
    exact List.mem_flatMap.mpr ⟨(x, k), hxk, by simp [hsel]⟩
  · obtain ⟨hp, hname⟩ := Table.of_select_eq_cons hsel
    exact ⟨p, List.mem_append_left _ hp, of_decide_eq_true hname⟩

/-- **A run leaves a seeded state.** -/
theorem seeded_of_seed (h : (seed d).Returns s () s') : Seeded s' := by
  obtain ⟨hone, P, R, G, hP, hR, -, rfl⟩ := returns_seed.mp h
  refine ⟨fun x hx => exists_permission hx hP, fun x hx => ?_⟩
  obtain ⟨k, hxk⟩ := exists_mem_zipIdx hx permissionSeeds.length
  exact exists_role hxk hR (hone _ hxk)

theorem newPermissions_eq_nil (h : Seeded s) : newPermissions d s = [] := by
  refine List.flatMap_eq_nil_iff.mpr fun x hx => ?_
  obtain ⟨p, hp, hname⟩ := h.permissions x.1 (List.fst_mem_of_mem_zipIdx hx)
  have hsel : p ∈ s.permissions.select fun p => p.name = permissionName x.1 :=
    Table.mem_select.mpr ⟨hp, decide_eq_true hname⟩
  rw [if_pos]
  rw [List.isSome_head?]
  simpa using List.ne_nil_of_mem hsel

theorem newRoles_eq_nil (h : Seeded s) : newRoles d s = [] := by
  refine List.eq_nil_iff_forall_not_mem.mpr fun r hr => ?_
  obtain ⟨x, hx, hnil, -⟩ := mem_newRoles.mp hr
  obtain ⟨q, hq⟩ := h.roles x.1 (List.fst_mem_of_mem_zipIdx hx)
  simp [hnil] at hq

/-- The roles of the second part are the system roles of the state. -/
theorem mem_seededRoles (h : Seeded s) {y : String × Role} : y ∈ (seededRoles d s).map (·.1) ↔
    ∃ x ∈ rolesSetup, y.1 = x.1 ∧ s.roles.select (isSystemRole x.1) = [y.2] := by
  simp only [seededRoles, List.map_map, List.mem_map, Function.comp]
  constructor
  · rintro ⟨x, hx, rfl⟩
    have hx' := List.fst_mem_of_mem_zipIdx hx
    obtain ⟨q, hq⟩ := h.roles x.1 hx'
    exact ⟨x.1, hx', by rw [roleOf_of_cons hq], by rw [roleOf_of_cons hq, hq]⟩
  · rintro ⟨x, hx, hname, hsel⟩
    obtain ⟨k, hxk⟩ := exists_mem_zipIdx hx permissionSeeds.length
    exact ⟨(x, k), hxk, by rw [roleOf_of_cons hsel, ← hname]⟩

/-! ### Additions -/

/-- **What others may add**: permissions, custom roles and grants. -/
inductive Adds : Database → Database → Prop
  | permission {s s' : Database} {p : Permission} : (create p).Returns s p s' → Adds s s'
  | customRole {s s' : Database} {r : Role} :
      r.isSystem = false → (create r).Returns s r s' → Adds s s'
  | grant {s s' : Database} {d : Draws} {roleId permissionId : Uuid} {o : Option RolePermission} :
      (assignPermission d roleId permissionId).Returns s o s' → Adds s s'

theorem assignPermission_spec {roleId permissionId : Uuid} {o : Option RolePermission}
    (h : (assignPermission d roleId permissionId).Returns s o s') :
    ∃ G, s' = { s with rolePermissions := G } := by
  obtain ⟨found, t, hfound, h⟩ := Prog.returns_bind.mp h
  obtain ⟨-, rfl⟩ := returns_selectOne.mp hfound
  rcases found with _ | rp
  · obtain ⟨_, hcreate, -⟩ := Prog.returns_bind_pure.mp h
    obtain ⟨-, -, G, -, rfl⟩ := returns_create.mp hcreate
    exact ⟨G, rfl⟩
  · obtain ⟨-, rfl⟩ := Prog.returns_pure.mp h
    exact ⟨s'.rolePermissions, rfl⟩

theorem seeded_of_adds (hs : Seeded s) (h : Adds s s') : Seeded s' := by
  cases h with
  | permission h =>
    obtain ⟨-, -, P, hP, rfl⟩ := returns_create.mp h
    refine ⟨fun x hx => ?_, hs.roles⟩
    obtain ⟨p, hp, hname⟩ := hs.permissions x hx
    exact ⟨p, (Table.mem_insert hP).mpr (.inl hp), hname⟩
  | @customRole r hr h =>
    obtain ⟨-, -, R, hR, rfl⟩ := returns_create.mp h
    refine ⟨hs.permissions, fun x hx => ?_⟩
    obtain ⟨q, hq⟩ := hs.roles x hx
    have hnot : isSystemRole x.1 r = false := by simp [isSystemRole, hr]
    refine ⟨q, (Table.select_insert hR _).trans ?_⟩
    have hold : (table s : Table Role).select (isSystemRole x.1) = [q] := hq
    rw [hold, hnot]
    rfl
  | grant h =>
    obtain ⟨G, rfl⟩ := assignPermission_spec h
    exact ⟨hs.permissions, hs.roles⟩

theorem seeded_of_additions (hs : Seeded s) (h : Relation.ReflTransGen Adds s s') : Seeded s' := by
  induction h with
  | refl => exact hs
  | tail _ hadd ih => exact seeded_of_adds ih hadd

/-! ### Grants -/

/-- The identifiers drawn are different ones, and name no grant of the state. -/
def FreshIds (d : Draws) (s : Database) : Prop :=
  Function.Injective d.uuid ∧ ∀ k, ∀ rp ∈ s.rolePermissions.rows, rp.id ≠ d.uuid k

/-- The rounds of the third part differ in the role or in the permission. -/
theorem pairwise_pairs {roles : List (String × Role)} {perms : List Permission}
    (hr : roles.Pairwise fun a b => a.2.id ≠ b.2.id) (hp : perms.Pairwise fun p q => p.id ≠ q.id) :
    (pairs roles perms).Pairwise fun a b => a.1.2.id ≠ b.1.2.id ∨ a.2.id ≠ b.2.id := by
  refine List.pairwise_flatMap.mpr ⟨fun a _ => ?_, hr.imp fun {a b} hab x hx y hy => ?_⟩
  · exact List.pairwise_map.mpr (hp.imp .inr)
  · obtain ⟨p, -, rfl⟩ := List.mem_map.mp hx
    obtain ⟨q, -, rfl⟩ := List.mem_map.mp hy
    exact .inl hab

/-- **The new grants fit in**, if no role and no permission comes twice. -/
theorem apart_newGrants {roles : List (String × Role)} {perms : List Permission}
    (hr : roles.Pairwise fun a b => a.2.id ≠ b.2.id) (hp : perms.Pairwise fun p q => p.id ≠ q.id)
    (hd : FreshIds d s) :
    (s.rolePermissions.rows ++ newGrants d s roles perms).Pairwise Apart := by
  refine List.pairwise_append.mpr ⟨s.rolePermissions.apart, ?_, fun q hq rp hrp => ?_⟩
  · refine List.pairwise_flatMap.mpr ⟨fun x _ => ?_, ?_⟩
    · unfold grantOf
      split_ifs
      · exact .nil
      · exact List.pairwise_singleton _ _
      · exact .nil
    · refine (pairwise_zipIdx (pairwise_pairs hr hp) _).imp fun {x y} hxy rp hrp rq hrq => ?_
      obtain ⟨rfl, -, -⟩ := mem_grantOf hrp
      obtain ⟨rfl, -, -⟩ := mem_grantOf hrq
      refine ⟨fun heq => absurd (hd.1 heq) (Nat.ne_of_lt hxy.1), ?_⟩
      simpa [Keyed.compatible] using hxy.2
  · obtain ⟨x, -, hrp⟩ := List.mem_flatMap.mp hrp
    obtain ⟨rfl, -, hnot⟩ := mem_grantOf hrp
    refine ⟨hd.2 x.2 q hq, ?_⟩
    by_contra hcomp
    simp only [Keyed.compatible, Bool.not_eq_true, Bool.or_eq_false_iff, decide_eq_false_iff_not,
      not_not] at hcomp
    exact hnot ⟨q, hq, hcomp.2, hcomp.1⟩

theorem has_or_new {roles : List (String × Role)} {perms : List Permission}
    {x : (String × Role) × Permission} (hx : x ∈ pairs roles perms)
    (hassign : assigned x.1.1 x.2 = true) : Has s x.1.2.id x.2.id ∨
      ∃ rp ∈ newGrants d s roles perms, rp.permissionId = x.2.id ∧ rp.roleId = x.1.2.id := by
  obtain ⟨k, hxk⟩ := exists_mem_zipIdx hx (permissionSeeds.length + rolesSetup.length)
  rcases hsel : s.rolePermissions.select fun rp =>
      rp.roleId = x.1.2.id && rp.permissionId = x.2.id with _ | ⟨q, l⟩
  · refine .inr ⟨⟨d.uuid k, x.1.2.id, x.2.id⟩, List.mem_flatMap.mpr ⟨(x, k), hxk, ?_⟩, rfl, rfl⟩
    simp [grantOf, hassign, hsel]
  · obtain ⟨hq, hqx⟩ := Table.of_select_eq_cons hsel
    simp only [Bool.and_eq_true, decide_eq_true_eq] at hqx
    exact .inl ⟨q, hq, hqx.2, hqx.1⟩

theorem newGrants_eq_nil {roles : List (String × Role)} {perms : List Permission}
    (h : ∀ x ∈ pairs roles perms, assigned x.1.1 x.2 = true → Has s x.1.2.id x.2.id) :
    newGrants d s roles perms = [] := by
  refine List.eq_nil_iff_forall_not_mem.mpr fun rp hrp => ?_
  obtain ⟨x, hx, hrp⟩ := List.mem_flatMap.mp hrp
  obtain ⟨-, hassign, hnot⟩ := mem_grantOf hrp
  exact hnot (h x.1 (List.fst_mem_of_mem_zipIdx hx) hassign)

/-! ### Running the script again -/

theorem pairwise_seededRoles (h : Seeded s) :
    ((seededRoles d s).map (·.1)).Pairwise fun a b => a.2.id ≠ b.2.id := by
  have hnames : (rolesSetup.zipIdx permissionSeeds.length).Pairwise fun x y => x.1.1 ≠ y.1.1 :=
    List.pairwise_map.mp nodup_roleNames
  rw [seededRoles, List.map_map, List.pairwise_map]
  refine hnames.imp_of_mem fun {x y} hx hy hne hid => hne ?_
  obtain ⟨q, hq⟩ := h.roles x.1 (List.fst_mem_of_mem_zipIdx hx)
  obtain ⟨r, hr⟩ := h.roles y.1 (List.fst_mem_of_mem_zipIdx hy)
  simp only [Function.comp, roleOf_of_cons hq, roleOf_of_cons hr] at hid
  obtain ⟨hqm, hqx⟩ := Table.of_select_eq_cons hq
  obtain ⟨hrm, hry⟩ := Table.of_select_eq_cons hr
  obtain rfl : q = r := s.roles.eq_of_key_eq hqm hrm hid
  have hqname : q.name = x.1.1 := of_decide_eq_true (Bool.and_eq_true_iff.mp hqx).1
  have hrname : q.name = y.1.1 := of_decide_eq_true (Bool.and_eq_true_iff.mp hry).1
  exact hqname.symm.trans hrname

/-- **A run in a seeded state** adds the missing grants, and nothing else. -/
theorem returns_seed_of_seeded (h : Seeded s) : (seed d).Returns s () s' ↔
    ∃ G, G.rows = s.rolePermissions.rows ++
        newGrants d s ((seededRoles d s).map (·.1)) s.permissions.rows ∧
      s' = { s with rolePermissions := G } := by
  rw [returns_seed, newPermissions_eq_nil h, newRoles_eq_nil h]
  simp only [List.append_nil]
  constructor
  · rintro ⟨-, ⟨_, _⟩, ⟨_, _⟩, G, rfl, rfl, hG, rfl⟩
    exact ⟨G, hG, rfl⟩
  · rintro ⟨G, hG, rfl⟩
    refine ⟨fun x hx => ?_, s.permissions, s.roles, G, rfl, rfl, hG, rfl⟩
    obtain ⟨q, hq⟩ := h.roles x.1 (List.fst_mem_of_mem_zipIdx hx)
    rw [hq]
    exact le_refl 1

/-- What a run leaves of the state `s` it starts in: only grants are added, the Owner role has every
permission, and running the script once more changes nothing. -/
structure Reseeded (s s' : Database) : Prop where
  adds : ∃ G, s.rolePermissions.rows <+: G.rows ∧ s' = { s with rolePermissions := G }
  owner : ∃ r, s'.roles.select (isSystemRole "Owner") = [r] ∧
    ∀ p ∈ s'.permissions.rows, Has s' r.id p.id
  again : ∀ d, (seedRbac d).Returns s' () s'

theorem reseeded_of_seeded (hs : Seeded s) (h : (seedRbac d).Returns s () s') : Reseeded s s' := by
  obtain ⟨G, hG, rfl⟩ := (returns_seed_of_seeded hs).mp (Session.returns_transact.mp h)
  set s' : Database := { s with rolePermissions := G } with hs'
  have hseeded : Seeded s' := ⟨hs.permissions, hs.roles⟩
  have hhas : ∀ x ∈ pairs ((seededRoles d s).map (·.1)) s.permissions.rows,
      assigned x.1.1 x.2 = true → Has s' x.1.2.id x.2.id := by
    intro x hx hassign
    rcases has_or_new (s := s) (d := d) hx hassign with ⟨rp, hrp, hkey⟩ | ⟨rp, hrp, hkey⟩
    · exact ⟨rp, by rw [hG]; exact List.mem_append_left _ hrp, hkey⟩
    · exact ⟨rp, by rw [hG]; exact List.mem_append_right _ hrp, hkey⟩
  refine ⟨⟨G, ⟨_, hG.symm⟩, rfl⟩, ?_, fun d' => ?_⟩
  · have howner : ("Owner", "Full access to all resources") ∈ rolesSetup := List.mem_cons_self
    obtain ⟨r, hr⟩ := hs.roles _ howner
    refine ⟨r, hr, fun p hp => ?_⟩
    have hrole : ("Owner", r) ∈ (seededRoles d s).map (·.1) :=
      (mem_seededRoles hs).mpr ⟨_, howner, rfl, hr⟩
    exact hhas (("Owner", r), p) (mem_pairs.mpr ⟨hrole, hp⟩) rfl
  · refine Session.returns_transact.mpr ((returns_seed_of_seeded hseeded).mpr ⟨G, ?_, rfl⟩)
    have hnil : newGrants d' s' ((seededRoles d' s').map (·.1)) s'.permissions.rows = [] := by
      refine newGrants_eq_nil fun x hx hassign => hhas x ?_ hassign
      obtain ⟨hrole, hperm⟩ := mem_pairs.mp hx
      have hold := (mem_seededRoles hseeded).mp hrole
      exact mem_pairs.mpr ⟨(mem_seededRoles hs).mpr hold, hperm⟩
    rw [hnil, List.append_nil]

/-- **Seeding again**: after a run and any additions by others, another run succeeds, adds grants
only, gives the Owner role every permission, and leaves nothing for a further run to do. -/
theorem seeds_again {d₀ d : Draws} {s₀ s₁ s : Database}
    (hrun : (seedRbac d₀).Returns s₀ () s₁) (hadds : Relation.ReflTransGen Adds s₁ s)
    (hd : FreshIds d s) : ∃ s', (seedRbac d).Returns s () s' ∧ Reseeded s s' := by
  have hs : Seeded s :=
    seeded_of_additions (seeded_of_seed (Session.returns_transact.mp hrun)) hadds
  have hperms : s.permissions.rows.Pairwise fun p q => p.id ≠ q.id :=
    s.permissions.apart.imp fun h => h.1
  have hG := apart_newGrants (pairwise_seededRoles (d := d) hs) hperms hd
  have hret : (seedRbac d).Returns s () { s with rolePermissions := ⟨_, hG⟩ } :=
    Session.returns_transact.mpr ((returns_seed_of_seeded hs).mpr ⟨⟨_, hG⟩, rfl, rfl⟩)
  exact ⟨_, hret, reseeded_of_seeded hs hret⟩

/-! ### The first run -/

theorem pairwise_permissionSeeds : permissionSeeds.Pairwise fun x y =>
    permissionName x ≠ permissionName y ∧ (x.1 ≠ y.1 ∨ x.2 ≠ y.2) := by
  have hnames : (permissionSeeds.map permissionName).Nodup := by decide +kernel
  refine (List.pairwise_map.mp hnames).imp fun {x y} hne => ⟨hne, ?_⟩
  by_contra hsame
  rw [not_or, not_not, not_not] at hsame
  exact hne (by rw [permissionName, permissionName, hsame.1, hsame.2])

/-- **The first run**: on an empty database the script succeeds. -/
theorem exists_firstRun (hd : Function.Injective d.uuid) :
    ∃ s, (seedRbac d).Returns Database.empty () s := by
  have hP : (newPermissions d Database.empty).Pairwise Apart := by
    refine List.pairwise_flatMap.mpr ⟨fun x _ => List.pairwise_singleton _ _, ?_⟩
    refine (pairwise_zipIdx pairwise_permissionSeeds 0).imp fun {x y} hxy p hp q hq => ?_
    obtain rfl := List.mem_singleton.mp hp
    obtain rfl := List.mem_singleton.mp hq
    refine ⟨fun heq => absurd (hd heq) (Nat.ne_of_lt hxy.1), ?_⟩
    simpa [Keyed.compatible] using hxy.2
  have hroles : ((seededRoles d Database.empty).map (·.1)).Pairwise fun a b => a.2.id ≠ b.2.id := by
    rw [seededRoles, List.map_map, List.pairwise_map]
    have hnum := pairwise_zipIdx (R := fun _ _ => True) (l := rolesSetup)
      (List.pairwise_of_forall fun _ _ => trivial) permissionSeeds.length
    exact hnum.imp fun {x y} hxy heq => absurd (hd heq) (Nat.ne_of_lt hxy.1)
  have hR : (newRoles d Database.empty).Pairwise Apart := by
    rw [newRoles, List.pairwise_map]
    refine ((List.pairwise_map.mp hroles).sublist List.filter_sublist).imp fun hne => ⟨hne, rfl⟩
  have hG := apart_newGrants (s := Database.empty) hroles (hP.imp fun h => h.1)
    ⟨hd, fun k rp hrp => absurd hrp List.not_mem_nil⟩
  exact ⟨_, Session.returns_transact.mpr (returns_seed.mpr
    ⟨fun _ _ => Nat.zero_le 1, ⟨_, hP⟩, ⟨_, hR⟩, ⟨_, hG⟩, rfl, rfl, rfl, rfl⟩)⟩

theorem exists_freshIds (s : Database) : ∃ n, FreshIds (drawsFrom n 0 "") s := by
  obtain ⟨n, hn⟩ := s.rolePermissions.exists_bound
  refine ⟨n, fun j k h => Nat.add_left_cancel h, fun k rp hrp heq => ?_⟩
  have hlt : rp.id < n := hn rp hrp
  have hid : rp.id = n + k := heq
  exact absurd (Nat.le_add_right n k) (Nat.not_le.mpr (hid ▸ hlt))

/-- A permission that the script does not know may be added after the first run. -/
theorem exists_archive {s₁ : Database} (h : (seedRbac d).Returns Database.empty () s₁) :
    ∃ n P, s₁.permissions.insert ⟨n, "workspace.archive", "workspace", "archive"⟩ = some P := by
  obtain ⟨-, P, R, G, hP, -, -, rfl⟩ := returns_seed.mp (Session.returns_transact.mp h)
  obtain ⟨n, hn⟩ := P.exists_bound
  refine ⟨n, Table.exists_insert fun p hp => ?_⟩
  have hseeds : ∀ x ∈ permissionSeeds,
      permissionName x ≠ "workspace.archive" ∧ x.2 ≠ "archive" := by decide +kernel
  have hmem : p ∈ newPermissions d Database.empty := by
    have hrows : p ∈ [] ++ newPermissions d Database.empty := hP ▸ hp
    exact hrows
  obtain ⟨x, hx, hpx⟩ := List.mem_flatMap.mp hmem
  obtain ⟨hname, haction⟩ := hseeds x.1 (List.fst_mem_of_mem_zipIdx hx)
  refine ⟨Nat.ne_of_lt (hn p hp), ?_⟩
  obtain rfl := List.mem_singleton.mp hpx
  simp [Keyed.compatible, hname, haction]

/-- Seeding an empty database, adding a permission, and seeding again. -/
theorem seeds_again_archive : ∃ n m P s₁ s₂,
    (seedRbac (drawsFrom 0 0 "")).Returns Database.empty () s₁ ∧
      s₁.permissions.insert ⟨m, "workspace.archive", "workspace", "archive"⟩ = some P ∧
      (seedRbac (drawsFrom n 0 "")).Returns { s₁ with permissions := P } () s₂ ∧
      Reseeded { s₁ with permissions := P } s₂ := by
  obtain ⟨s₁, hrun⟩ := exists_firstRun (d := drawsFrom 0 0 "") fun j k h => Nat.add_left_cancel h
  obtain ⟨m, P, hP⟩ := exists_archive hrun
  obtain ⟨n, hn⟩ := exists_freshIds { s₁ with permissions := P }
  have hadd : Adds s₁ { s₁ with permissions := P } :=
    .permission (returns_create.mpr ⟨rfl, rfl, P, hP, rfl⟩)
  obtain ⟨s₂, hret, hre⟩ := seeds_again hrun (.single hadd) hn
  exact ⟨n, m, P, s₁, s₂, hrun, hP, hret, hre⟩

end MarketingSuite.Workspaces.Seeding
