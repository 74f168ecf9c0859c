import MarketingSuite.Workspaces.Repositories

/-! # Custom roles

`RoleRepository.get_workspace_roles` and `RolePermissionRepository.get_role_permissions` of
`app/repositories/rbac.py`, and what they say of a role that `clone_system_role_to_workspace` has
made. -/

namespace MarketingSuite.Workspaces.CustomRoles

open MarketingSuite.Lib.Programs MarketingSuite.Lib.Tables
open MarketingSuite.Base.Values MarketingSuite.Base.Models MarketingSuite.Base.Schema
open MarketingSuite.Repositories.Base
open MarketingSuite.Workspaces.Repositories

/-- Python's `not` on a mapped attribute of a class, while a query is built: the attribute is an
object, so its negation is `False`, whatever the rows hold. -/
def notAttribute {ρ : Type} (_attribute : ρ → Bool) : Bool := false

/-- `RoleRepository.get_workspace_roles`. -/
def getWorkspaceRoles (workspaceId : Uuid) : Svc (List Role) :=
  Prog.gets fun db =>
    (db.roles.select fun r => r.workspaceId = some workspaceId && notAttribute Role.isSystem)
      |>.insertionSort fun r r' => r.name ≤ r'.name

/-- `RolePermissionRepository.get_role_permissions`. -/
def getRolePermissions (roleId : Uuid) : Svc (List Permission) :=
  Prog.gets fun db => db.permissions.rows.flatMap fun p =>
    (db.rolePermissions.select fun rp => p.id = rp.permissionId && rp.roleId = roleId).map fun _ => p

/-- The custom roles of a workspace. -/
def customRoles (s : Database) (w : Uuid) : List Role :=
  s.roles.select fun r => r.workspaceId = some w && !r.isSystem

/-- The grants name roles, as their foreign key asks. -/
def GrantsNameRoles (s : Database) : Prop :=
  ∀ rp ∈ s.rolePermissions.rows, s.roles.has rp.roleId = true

instance (s : Database) : Decidable (GrantsNameRoles s) := by
  unfold GrantsNameRoles
  infer_instance

variable {s s' : Database} {d : Draws} {r w : Uuid} {name : String} {clone : Role}

/-! ### Permissions of a role -/

/-- The role has a permission. -/
def Has (s : Database) (roleId permissionId : Uuid) : Prop :=
  ∃ rp ∈ s.rolePermissions.rows, rp.permissionId = permissionId ∧ rp.roleId = roleId

/-- The grants of a permission to a role. -/
def grants (s : Database) (roleId permissionId : Uuid) : List RolePermission :=
  s.rolePermissions.select fun rp => permissionId = rp.permissionId && rp.roleId = roleId

theorem length_grants {roleId p : Uuid} (h : Has s roleId p) : (grants s roleId p).length = 1 := by
  obtain ⟨rp, hrp, hp, hr⟩ := h
  unfold grants
  rw [s.rolePermissions.select_eq_singleton hrp (by simp [hp, hr])]
  · rfl
  · intro q hq hpq
    simp only [Bool.and_eq_true, decide_eq_true_eq] at hpq
    exact s.rolePermissions.eq_of_not_compatible hq hrp (by simp [Keyed.compatible, hpq, hp, hr])

theorem grants_eq_nil {roleId p : Uuid} (h : ¬ Has s roleId p) : grants s roleId p = [] := by
  refine List.filter_eq_nil_iff.mpr fun rp hrp hpq => ?_
  simp only [Bool.and_eq_true, decide_eq_true_eq] at hpq
  exact h ⟨rp, hrp, hpq.1.symm, hpq.2⟩

/-- Two roles that have the same permissions are listed with the same permissions. -/
theorem rolePermissions_eq {a b : Uuid} (h : ∀ p, Has s a p ↔ Has s b p) :
    (s.permissions.rows.flatMap fun p => (grants s a p.id).map fun _ => p) =
      s.permissions.rows.flatMap fun p => (grants s b p.id).map fun _ => p := by
  refine List.flatMap_congr fun p _ => ?_
  rw [List.map_const', List.map_const']
  by_cases ha : Has s a p.id
  · rw [length_grants ha, length_grants ((h p.id).mp ha)]
  · rw [grants_eq_nil ha, grants_eq_nil fun hb => ha ((h p.id).mpr hb)]

/-! ### Clones -/

theorem cloneGrants_exact {l : List (RolePermission × ℕ)}
    (h : (Prog.forEach (cloneGrant d r) l).Returns s () s') :
    ∃ G, s' = { s with rolePermissions := G } ∧ ∀ rp, rp ∈ G.rows ↔
      rp ∈ s.rolePermissions.rows ∨ ∃ x ∈ l, rp = ⟨d.uuid (x.2 + 1), r, x.1.permissionId⟩ := by
  induction l generalizing s with
  | nil =>
    obtain ⟨-, rfl⟩ := Prog.returns_pure.mp h
    exact ⟨_, rfl, by simp⟩
  | cons x l ih =>
    simp only [Prog.forEach, Prog.returns_bind] at h
    obtain ⟨_, t, hx, h⟩ := h
    obtain ⟨_, hc, -⟩ := Prog.returns_bind_pure.mp hx
    obtain ⟨-, -, G₁, hG₁, rfl⟩ := returns_create.mp hc
    obtain ⟨G, rfl, hG⟩ := ih h
    refine ⟨G, rfl, fun rp => ?_⟩
    rw [hG rp, List.exists_mem_cons_iff, ← or_assoc]
    exact or_congr_left (Table.mem_insert hG₁)

/-- **A clone that succeeds** makes a custom role of the workspace, and gives it the permissions of
the system role, which keeps its own. -/
theorem clone_exact (h : (cloneSystemRoleToWorkspace d r w name).Returns s (some clone) s')
    (hs : GrantsNameRoles s) :
    clone ∈ s'.roles.rows ∧ clone.workspaceId = some w ∧ clone.isSystem = false ∧
      ∀ p, Has s' clone.id p ↔ Has s' r p := by
  unfold cloneSystemRoleToWorkspace at h
  rw [Prog.returns_bind] at h
  obtain ⟨found, t, hget, h⟩ := h
  obtain ⟨rfl, hf⟩ := selectOne_spec hget
  rcases found with _ | systemRole
  · obtain ⟨hnone, -⟩ := Prog.returns_pure.mp h
    simp at hnone
  obtain ⟨hr, hp⟩ := (hf systemRole).mp rfl
  simp only [Bool.and_eq_true, decide_eq_true_eq] at hp
  obtain ⟨rfl, -⟩ := hp
  rw [Prog.returns_bind] at h
  obtain ⟨newRole, t₁, hc, h⟩ := h
  obtain ⟨rfl, -, R, hR, rfl⟩ := returns_create.mp hc
  rw [Prog.returns_bind] at h
  obtain ⟨granted, t₂, hl, h⟩ := h
  obtain ⟨rfl, rfl⟩ := Prog.returns_gets.mp hl
  obtain ⟨_, hloop, hclone⟩ := Prog.returns_bind_pure.mp h
  obtain rfl := Option.some.inj hclone
  obtain ⟨G, rfl, hG⟩ := cloneGrants_exact hloop
  have hne : d.uuid 0 ≠ systemRole.id := (Table.apart_of_insert hR hr).1.symm
  have hfresh : ∀ rp ∈ t.rolePermissions.rows, rp.roleId ≠ d.uuid 0 := by
    intro rp hrp heq
    obtain ⟨q, hq, hkey⟩ := Table.has_iff.mp (hs rp hrp)
    exact (Table.apart_of_insert hR hq).1 (hkey.trans heq)
  refine ⟨Table.mem_insert_self hR, rfl, rfl, fun p => ⟨?_, ?_⟩⟩
  · rintro ⟨rp, hrp, hp, hrole⟩
    rcases (hG rp).mp hrp with hold | ⟨x, hx, rfl⟩
    · exact absurd hrole (hfresh rp hold)
    · obtain ⟨hold, hrp'⟩ := Table.mem_select.mp (List.fst_mem_of_mem_zipIdx hx)
      exact ⟨x.1, (hG x.1).mpr (Or.inl hold), hp, by simpa using hrp'⟩
  · rintro ⟨rp, hrp, hp, hrole⟩
    rcases (hG rp).mp hrp with hold | ⟨x, hx, rfl⟩
    · have hgranted : rp ∈ t.rolePermissions.select fun rp => rp.roleId = systemRole.id :=
        Table.mem_select.mpr ⟨hold, decide_eq_true hrole⟩
      obtain ⟨k, hk⟩ := List.getElem?_of_mem hgranted
      have hx := List.mk_mem_zipIdx_iff_getElem?.mpr hk
      exact ⟨_, (hG _).mpr (Or.inr ⟨(rp, k), hx, rfl⟩), hp, rfl⟩
    · exact absurd hrole hne

/-! ### The listing -/

/-- **The permissions of a clone** are those of the system role. -/
theorem clone_permissions (h : (cloneSystemRoleToWorkspace d r w name).Returns s (some clone) s')
    (hs : GrantsNameRoles s) {l l' : List Permission}
    (hl : (getRolePermissions clone.id).Returns s' l s')
    (hl' : (getRolePermissions r).Returns s' l' s') : l = l' := by
  obtain ⟨rfl, -⟩ := Prog.returns_gets.mp hl
  obtain ⟨rfl, -⟩ := Prog.returns_gets.mp hl'
  obtain ⟨-, -, -, hhas⟩ := clone_exact h hs
  exact rolePermissions_eq hhas

/-- The roles listed for the workspace are its custom roles, by name; where the state is what a
clone into the workspace has left, the clone is listed, with the permissions of the system role. -/
structure ListsCustomRoles (s : Database) (w : Uuid) : Prop where
  exactly : ∀ l, (getWorkspaceRoles w).Returns s l s →
    l.Perm (customRoles s w) ∧ l.Pairwise fun r r' => r.name ≤ r'.name
  clones : ∀ (s₀ : Database) (d : Draws) (r : Uuid) (name : String) (clone : Role),
    GrantsNameRoles s₀ →
    (cloneSystemRoleToWorkspace d r w name).Returns s₀ (some clone) s →
      (∀ l, (getWorkspaceRoles w).Returns s l s → clone ∈ l) ∧
      ∀ l l', (getRolePermissions clone.id).Returns s l s → (getRolePermissions r).Returns s l' s →
        l.Perm l'

theorem getWorkspaceRoles_empty : (getWorkspaceRoles w).Returns s [] s := by
  refine Prog.returns_gets.mpr ⟨?_, rfl⟩
  simp [Table.select, notAttribute]

/-- **The custom roles of a workspace are listed** exactly if it has none. -/
theorem listsCustomRoles_iff (s : Database) (w : Uuid) :
    ListsCustomRoles s w ↔ ∀ r ∈ s.roles.rows, r.workspaceId = some w → r.isSystem = true := by
  constructor
  · intro h r hr hw
    by_contra hcustom
    have hmem : r ∈ customRoles s w := Table.mem_select.mpr ⟨hr, by simp [hw, hcustom]⟩
    have hperm := (h.exactly [] getWorkspaceRoles_empty).1
    simp [← hperm.mem_iff] at hmem
  · intro h
    refine ⟨fun l hl => ?_, fun s₀ d r name clone hs₀ hclone => ?_⟩
    · obtain ⟨rfl, -⟩ := Prog.returns_unique getWorkspaceRoles_empty hl
      have hnone : customRoles s w = [] := by
        refine List.filter_eq_nil_iff.mpr fun r hr hp => ?_
        simp only [Bool.and_eq_true, decide_eq_true_eq, Bool.not_eq_true'] at hp
        simp [h r hr hp.1] at hp
      rw [hnone]
      exact ⟨.refl _, .nil⟩
    · obtain ⟨hmem, hw, hcustom, -⟩ := clone_exact hclone hs₀
      simp [h clone hmem hw] at hcustom

/-- The role that the small installation clones. -/
def editor : Role := ⟨3, none, "Editor", none, .system, true⟩

/-- A small installation, with a system role. -/
def withEditor : Database := { twoStudios with roles := ⟨[editor], by decide⟩ }

/-- **A clone is not listed.** -/
theorem clone_is_not_listed :
    ∃ s clone, (cloneSystemRoleToWorkspace (drawsFrom 50 0 "") 3 10 "Copywriter").Returns withEditor
      (some clone) s ∧ ¬ ListsCustomRoles s 10 := by
  have hret := Prog.returns_of_fst (p := cloneSystemRoleToWorkspace (drawsFrom 50 0 "") 3 10
    "Copywriter") (s := withEditor) (a := some ⟨50, some 10, "Copywriter", none, .custom, false⟩)
    (by decide +kernel)
  refine ⟨_, _, hret, fun h => ?_⟩
  obtain ⟨hlist, -⟩ := h.clones withEditor _ 3 "Copywriter" _ (by decide) hret
  have hlisted := hlist [] getWorkspaceRoles_empty
  simp at hlisted

end MarketingSuite.Workspaces.CustomRoles
