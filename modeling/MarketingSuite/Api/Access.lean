import MarketingSuite.Api.Dependencies

/-! # Who passes the dependencies

`get_current_workspace` and `require_permission` as conditions on the database: the first looks at
the workspace and at the status of the member row, the second at the role of the member row, and at
the workspace only where there is no such row. -/

namespace MarketingSuite.Api.Access

open MarketingSuite.Lib.Programs MarketingSuite.Lib.Tables
open MarketingSuite.Base.Values MarketingSuite.Base.Models MarketingSuite.Base.Schema
open MarketingSuite.Repositories.Base MarketingSuite.Workspaces.Repositories
open MarketingSuite.Api.Dependencies

/-- The row is the live membership of the user in the workspace. -/
def IsLive (s : Database) (w u : Uuid) (m : WorkspaceMember) : Prop :=
  m ∈ s.workspaceMembers.rows ∧ m.workspaceId = w ∧ m.userId = u ∧ m.deletedAt = none

/-- The row is the workspace, which is not deleted. -/
def IsOpen (s : Database) (w : Uuid) (ws : Workspace) : Prop :=
  ws ∈ s.workspaces.rows ∧ ws.id = w ∧ ws.deletedAt = none

/-- The role has the permission for the action on the resource. -/
def Grants (s : Database) (r : Uuid) (resource action : String) : Prop :=
  ∃ p ∈ s.permissions.rows, p.resource = resource ∧ p.action = action ∧
    ∃ rp ∈ s.rolePermissions.rows, rp.roleId = r ∧ rp.permissionId = p.id

/-- Who passes `get_current_workspace`: the active members and the owner of an open workspace. -/
def Enters (s : Database) (w u : Uuid) : Prop :=
  ∃ ws, IsOpen s w ws ∧ ((∃ m, IsLive s w u m ∧ m.status = .active) ∨ ws.ownerId = u)

/-- Who passes `require_permission`: the members, whatever their status, whose role has the
permission, and the owner of an open workspace who is no member. -/
def Permitted (s : Database) (w u : Uuid) (resource action : String) : Prop :=
  (∃ m, IsLive s w u m ∧ Grants s m.roleId resource action) ∨
    (∀ m, ¬ IsLive s w u m) ∧ ∃ ws, IsOpen s w ws ∧ ws.ownerId = u

instance (s : Database) (r : Uuid) (resource action : String) :
    Decidable (Grants s r resource action) := by
  unfold Grants
  infer_instance

variable {s s' : Database} {w u : Uuid} {user : User} {resource action : String}

theorem IsLive.unique {m m' : WorkspaceMember} (h : IsLive s w u m) (h' : IsLive s w u m') :
    m = m' := by
  refine s.workspaceMembers.eq_of_not_compatible h.1 h'.1 ?_
  simp [Keyed.compatible, h.2.1, h.2.2.1, h'.2.1, h'.2.2.1]

theorem IsOpen.unique {ws ws' : Workspace} (h : IsOpen s w ws) (h' : IsOpen s w ws') : ws = ws' :=
  s.workspaces.eq_of_key_eq h.1 h'.1 (h.2.1.trans h'.2.1.symm)

/-! ### The lookups -/

theorem getMember_finds (s : Database) (w u : Uuid) :
    ∃ o, (getMember w u).Returns s o s ∧ ∀ m, o = some m ↔ IsLive s w u m := by
  obtain ⟨o, h⟩ := getMember_returns s w u
  exact ⟨o, h, (getMember_spec h).2⟩

theorem getWorkspace_finds (s : Database) (w : Uuid) :
    ∃ o, (getById Workspace w).Returns s o s ∧ ∀ ws, o = some ws ↔ IsOpen s w ws := by
  obtain ⟨o, h⟩ : ∃ o, (getById Workspace w).Returns s o s := exists_getById s w
  exact ⟨o, h, (getById_spec h).2⟩

theorem any_permissions_iff {r : Uuid} :
    ((s.permissions.select fun p => s.rolePermissions.rows.any fun rp =>
        rp.roleId = r && rp.permissionId = p.id).any fun p =>
      p.resource = resource && p.action = action) = true ↔ Grants s r resource action := by
  simp only [List.any_eq_true, Table.mem_select, Bool.and_eq_true, decide_eq_true_eq, and_assoc]
  constructor
  · rintro ⟨p, hp, hrp, hres, hact⟩
    exact ⟨p, hp, hres, hact, hrp⟩
  · rintro ⟨p, hp, hres, hact, hrp⟩
    exact ⟨p, hp, hrp, hres, hact⟩

/-! ### The dependencies -/

theorem succeeds_require_iff {c : Prop} [Decidable c] {e : Exc} :
    (Prog.require c e : Svc Unit).succeeds s = true ↔ c := by
  rw [Prog.succeeds_iff]
  constructor
  · rintro ⟨_, t, h⟩
    exact (Prog.returns_require.mp h).1
  · exact fun hc => ⟨(), s, Prog.returns_require.mpr ⟨hc, rfl⟩⟩

/-- **`require_permission`** lets pass exactly the ones who are permitted. -/
theorem requirePermission_succeeds_iff :
    (requirePermission resource action w user).succeeds s = true ↔
      Permitted s w user.id resource action := by
  obtain ⟨o, hget, ho⟩ := getMember_finds s w user.id
  unfold requirePermission
  rw [Prog.succeeds_bind hget]
  rcases o with _ | m
  · have hno : ∀ m, ¬ IsLive s w user.id m := fun m hm => absurd ((ho m).mpr hm) (by simp)
    obtain ⟨o', hget', ho'⟩ := getWorkspace_finds s w
    show ((getById Workspace w) >>= fun workspace => Prog.require
      (workspace.any (fun w => w.ownerId = user.id) = true) (.http 403 "Not authorized") :
      Svc Unit).succeeds s = true ↔ _
    rw [Prog.succeeds_bind hget', succeeds_require_iff, Option.any_eq_true]
    constructor
    · rintro ⟨ws, hws, howner⟩
      exact Or.inr ⟨hno, ws, (ho' ws).mp hws, by simpa using howner⟩
    · rintro (⟨m, hm, -⟩ | ⟨-, ws, hws, howner⟩)
      · exact absurd hm (hno m)
      · exact ⟨ws, (ho' ws).mpr hws, by simpa using howner⟩
  · have hm : IsLive s w user.id m := (ho m).mp rfl
    show (getRolePermissions m.roleId >>= fun permissions => Prog.require
      (permissions.any (fun p => p.resource = resource && p.action = action) = true)
      (.http 403 s!"Missing required permission: {resource}.{action}") :
      Svc Unit).succeeds s = true ↔ _
    rw [Prog.succeeds_bind (p := getRolePermissions m.roleId) (Prog.returns_gets.mpr ⟨rfl, rfl⟩),
      succeeds_require_iff, any_permissions_iff]
    constructor
    · exact fun hg => Or.inl ⟨m, hm, hg⟩
    · rintro (⟨m', hm', hg⟩ | ⟨hno, -⟩)
      · rw [hm.unique hm']
        exact hg
      · exact absurd hm (hno m)

/-- **`get_current_workspace`** lets pass exactly the ones who enter. -/
theorem getCurrentWorkspace_succeeds_iff :
    (getCurrentWorkspace w user).succeeds s = true ↔ Enters s w user.id := by
  obtain ⟨o', hget', ho'⟩ := getWorkspace_finds s w
  unfold getCurrentWorkspace
  rw [Prog.succeeds_bind hget']
  rcases o' with _ | ws
  · refine iff_of_false (fun h => Bool.false_ne_true h) ?_
    rintro ⟨ws, hws, -⟩
    exact absurd ((ho' ws).mpr hws) (by simp)
  · have hws : IsOpen s w ws := (ho' ws).mp rfl
    obtain ⟨o, hget, ho⟩ := getMember_finds s ws.id user.id
    rw [Prog.succeeds_bind (returns_orRaise.mpr ⟨rfl, rfl⟩), Prog.succeeds_bind hget,
      Prog.succeeds_bind_pure, succeeds_require_iff, Option.any_eq_true]
    have hactive : (∃ m, o = some m ∧ decide (m.status = .active) = true) ↔
        ∃ m, IsLive s w user.id m ∧ m.status = .active := by
      simp only [ho, hws.2.1, decide_eq_true_eq]
    rw [hactive]
    constructor
    · exact fun h => ⟨ws, hws, h⟩
    · rintro ⟨ws', hws', h⟩
      rw [hws.unique hws']
      exact h

end MarketingSuite.Api.Access
