import MarketingSuite.Base.Payloads
import MarketingSuite.Workspaces.Repositories

/-! # Who may call

`app/api/dependencies/auth.py` and `SupabaseAuthService.get_or_create_user`: the dependencies that
an endpoint runs in the session of its request before its own body. The outcome of the verification
of the token is a part of the request. -/

namespace MarketingSuite.Api.Dependencies

open MarketingSuite.Lib.Programs MarketingSuite.Lib.Tables
open MarketingSuite.Base.Values MarketingSuite.Base.Models MarketingSuite.Base.Schema
open MarketingSuite.Base.Payloads MarketingSuite.Repositories.Base
open MarketingSuite.Workspaces.Repositories

/-- The claims of a token. -/
structure TokenPayload where
  sub : Json
  email : Option String

/-- The caller of an endpoint: what `verify_jwt` makes of the token. -/
abbrev Caller : Type := Except Exc TokenPayload

/-- `UserRepository.get_by_supabase_id`. -/
def getBySupabaseId (supabaseUserId : Uuid) : Svc (Option User) :=
  selectOne fun u : User => u.supabaseUserId = supabaseUserId && u.deletedAt.isNone

/-- The user that is made at the first sign-in. -/
def newUser (d : Draws) (supabaseUserId : Uuid) (email : String) : User where
  id := d.uuid 1
  email := email
  supabaseUserId := supabaseUserId
  firstName := none
  lastName := none
  isActive := true
  deletedAt := none

/-- `SupabaseAuthService.get_or_create_user`. -/
def getOrCreateUser (lower : String → String) (d : Draws) (payload : TokenPayload) : Svc User := do
  Prog.require (isTruthy payload.sub = true ∧ truthy payload.email = true)
    (.http 401 "Token payload missing required fields (sub, email)")
  let supabaseUserId ← Prog.ofExcept (uuidOf payload.sub)
  let user ← getBySupabaseId supabaseUserId
  match user with
  | some u => pure u
  | none => create (newUser d supabaseUserId (strip (lower (payload.email.getD ""))))

/-- `get_current_user`. -/
def getCurrentUser (lower : String → String) (d : Draws) (caller : Caller) : Svc User := do
  let payload ← Prog.ofExcept caller
  let user ← getOrCreateUser lower d payload
  Prog.require (user.isActive = true) (.http 400 "Inactive user")
  pure user

/-- `get_current_workspace`. -/
def getCurrentWorkspace (workspaceId : Uuid) (user : User) : Svc Workspace := do
  let found ← getById Workspace workspaceId
  let workspace ← orRaise found (.http 404 "Workspace not found")
  let member ← getMember workspace.id user.id
  -- "Allow owner bypassing member check if not explicitly in workspace_members"
  Prog.require (member.any (fun m => m.status = .active) = true ∨ workspace.ownerId = user.id)
    (.http 403 "Not a member of this workspace")
  pure workspace

/-- `RolePermissionRepository.get_role_permissions`. -/
def getRolePermissions (roleId : Uuid) : Svc (List Permission) :=
  Prog.gets fun db => db.permissions.select fun p =>
    db.rolePermissions.rows.any fun rp => rp.roleId = roleId && rp.permissionId = p.id

/-- `require_permission(resource, action)`. -/
def requirePermission (resource action : String) (workspaceId : Uuid) (user : User) : Svc Unit := do
  let member ← getMember workspaceId user.id
  match member with
  | none => do
    let workspace ← getById Workspace workspaceId
    Prog.require (workspace.any (fun w => w.ownerId = user.id) = true) (.http 403 "Not authorized")
  | some m => do
    let permissions ← getRolePermissions m.roleId
    Prog.require (permissions.any (fun p => p.resource = resource && p.action = action) = true)
      (.http 403 s!"Missing required permission: {resource}.{action}")

/-- The dependencies of an endpoint that asks for a permission. -/
def permitted (lower : String → String) (d : Draws) (caller : Caller) (resource action : String)
    (workspaceId : Uuid) : Svc User := do
  let user ← getCurrentUser lower d caller
  requirePermission resource action workspaceId user
  pure user

/-- The dependencies of an endpoint that asks for a permission and for the workspace. -/
def admitted (lower : String → String) (d : Draws) (caller : Caller) (resource action : String)
    (workspaceId : Uuid) : Svc User := do
  let user ← permitted lower d caller resource action workspaceId
  let _ ← getCurrentWorkspace workspaceId user
  pure user

/-! ### The dependencies write nothing but a new user -/

variable {lower : String → String} {d : Draws} {caller : Caller} {resource action : String}
  {w : Uuid} {user : User}

/-- The tables besides that of the users. -/
def NotUsers {δ : Type} (f : Database → δ) : Prop := ∀ db T, f { db with users := T } = f db

variable {δ : Type} {f : Database → δ}

theorem frames_getCurrentUser (hf : NotUsers f) : (getCurrentUser lower d caller).Frames f := by
  refine Prog.frames_bind (fun _ => rfl) fun payload => Prog.frames_bind ?_ fun user =>
    Prog.frames_bind (Prog.frames_require _ _) fun _ => Prog.frames_pure _
  refine Prog.frames_bind (Prog.frames_require _ _) fun _ => Prog.frames_bind (fun _ => rfl) fun i =>
    Prog.frames_bind frames_selectOne fun found => ?_
  rcases found with _ | u
  · exact frames_create fun db T => hf db T
  · exact Prog.frames_pure u

theorem frames_requirePermission : (requirePermission resource action w user).Frames f := by
  refine Prog.frames_bind frames_selectOne fun member => ?_
  rcases member with _ | m
  · exact Prog.frames_bind frames_getById fun _ => Prog.frames_require _ _
  · exact Prog.frames_bind (Prog.frames_gets _) fun _ => Prog.frames_require _ _

theorem frames_getCurrentWorkspace : (getCurrentWorkspace w user).Frames f := by
  refine Prog.frames_bind frames_getById fun found => ?_
  refine Prog.frames_bind (frames_orRaise _ _) fun ws => ?_
  exact Prog.frames_bind frames_selectOne fun _ =>
    Prog.frames_bind (Prog.frames_require _ _) fun _ => Prog.frames_pure _

theorem frames_permitted (hf : NotUsers f) :
    (permitted lower d caller resource action w).Frames f :=
  Prog.frames_bind (frames_getCurrentUser hf) fun _ =>
    Prog.frames_bind frames_requirePermission fun _ => Prog.frames_pure _

theorem frames_admitted (hf : NotUsers f) :
    (admitted lower d caller resource action w).Frames f :=
  Prog.frames_bind (frames_permitted hf) fun _ =>
    Prog.frames_bind frames_getCurrentWorkspace fun _ => Prog.frames_pure _

end MarketingSuite.Api.Dependencies
