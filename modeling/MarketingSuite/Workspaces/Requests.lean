import MarketingSuite.Lib.Transactions
import MarketingSuite.Workspaces.Members

/-! # Requests about members, statement by statement

`suspend_member`, `remove_member` and `change_role` as transactions: `_protect_owner_role` counts the
active owners in one statement, and the write comes in a later one. The two inserts at the end, into
tables that no statement reads, are one statement. -/

namespace MarketingSuite.Workspaces.Requests

open MarketingSuite.Lib.Programs MarketingSuite.Lib.Transactions
open MarketingSuite.Base.Values MarketingSuite.Base.Models MarketingSuite.Base.Schema
open MarketingSuite.Repositories.Base
open MarketingSuite.Workspaces.Repositories (getOwnerRole getActiveMembers setMember)

/-- What is asked for. -/
inductive Change
  | suspend
  | remove
  | changeRole (newRoleId : Uuid)
deriving DecidableEq

/-- A request of `user` about a member. -/
structure Request where
  draws : Draws
  user : User
  workspace : Workspace
  memberId : Uuid
  change : Change

/-- Where a request is: the statement that comes next, with the objects it holds. `changed` says
whether there was anything to do. -/
inductive Phase
  | getMember
  | systemRoles (member : WorkspaceMember)
  | activeMembers (member : WorkspaceMember) (ownerRole : Role)
  | getRole (member : WorkspaceMember) (newRoleId : Uuid)
  | ownerRole (member : WorkspaceMember) (newRoleId : Uuid) (role : Role)
  | getById (member : WorkspaceMember) (roleName : String)
  | update (member row : WorkspaceMember) (roleName : String)
  | record (member row : WorkspaceMember) (roleName : String)
  | commit (changed : Bool)

namespace Request

variable (r : Request)

/-- The call of the service. -/
def serve : Svc Unit :=
  match r.change with
  | .suspend => do
    let _ ← Members.suspendMember r.draws r.user r.workspace r.memberId
    pure ()
  | .remove => Members.removeMember r.draws r.user r.workspace r.memberId
  | .changeRole newRoleId => do
    let _ ← Members.changeRole r.draws r.user r.workspace r.memberId newRoleId
    pure ()

/-- What the repository sets in the row. -/
def set (m : WorkspaceMember) : WorkspaceMember :=
  match r.change with
  | .suspend => { m with status := .suspended }
  | .remove => { m with status := .removed, deletedAt := some (r.draws.now 0) }
  | .changeRole newRoleId => { m with roleId := newRoleId }

/-- The audit log and the notification. -/
def record (member row : WorkspaceMember) (roleName : String) : Svc Unit :=
  match r.change with
  | .suspend => Members.record r.draws r.user r.workspace row "SUSPEND_MEMBER" none none
    "Account Suspended" s!"Your access to {r.workspace.name} has been suspended." .alert .high
  | .remove => Members.record r.draws r.user r.workspace row "REMOVE_MEMBER" none none
    "Removed from Workspace" s!"You have been removed from {r.workspace.name}." .alert .high
  | .changeRole newRoleId => Members.record r.draws r.user r.workspace row "UPDATE_MEMBER_ROLE"
    (some [("role_id", .id member.roleId)]) (some [("role_id", .id newRoleId)]) "Role Updated"
    s!"Your role in {r.workspace.name} has been updated to {roleName}." .system .normal

/-- What comes after `get_member`. -/
def found (m : WorkspaceMember) : Svc Phase :=
  match r.change with
  | .suspend => if m.status = .suspended then pure (.commit false) else pure (.systemRoles m)
  | .remove => do
    Prog.require (r.workspace.ownerId = r.user.id)
      (.http 403 "Only the workspace owner can remove members.")
    pure (.systemRoles m)
  | .changeRole newRoleId =>
    if m.roleId = newRoleId then pure (.commit false) else pure (.systemRoles m)

/-- What comes after `_protect_owner_role`. -/
def passed (m : WorkspaceMember) : Phase :=
  match r.change with
  | .changeRole newRoleId => .getRole m newRoleId
  | _ => .getById m ""

/-- The statements of the three operations. -/
def next : Phase → Statement Database Exc Phase
  | .getMember => .ask do
    let m ← Members.getMember r.workspace.id r.memberId
    r.found m
  | .systemRoles m => .ask do
    let ownerRole ← getOwnerRole
    match ownerRole with
    | none => pure (r.passed m)
    | some o =>
      if m.roleId = o.id ∧ m.status = .active then pure (.activeMembers m o) else pure (r.passed m)
  | .activeMembers m o => .ask do
    let members ← getActiveMembers r.workspace.id
    let activeOwners := members.filter fun m => m.roleId = o.id
    Prog.require (1 < activeOwners.length)
      (.http 400 "Cannot remove or demote the last active owner of the workspace.")
    pure (r.passed m)
  | .getRole m newRoleId => .ask do
    let found ← getById Role newRoleId
    let role ← orRaise found (.http 404 "Role not found")
    pure (.ownerRole m newRoleId role)
  | .ownerRole m newRoleId role => .ask do
    let ownerRole ← getOwnerRole
    let o ← orRaise ownerRole .attributeError
    Prog.require (newRoleId = o.id ∨ m.roleId = o.id → r.workspace.ownerId = r.user.id)
      (.http 403 "Only the workspace owner can assign or remove the Owner role.")
    pure (.getById m role.name)
  | .getById m roleName => .ask do
    let found ← Repositories.Base.getById WorkspaceMember m.id
    let row ← orRaise found .attributeError
    pure (.update m row roleName)
  | .update m row roleName =>
    .write (do let _ ← Repositories.Base.update m.id r.set; pure ()) (.record m (r.set row) roleName)
  | .record m row roleName => .write (r.record m row roleName) (.commit true)
  | .commit _ => .commit

/-! ### A request alone -/

variable {r}

theorem frames_getMember (m : Uuid) : (Members.getMember r.workspace.id m).Frames (id : Database → _) :=
  Prog.frames_bind frames_getById fun _ => Prog.frames_bind (frames_orRaise _ _) fun _ =>
    Prog.frames_bind (Prog.frames_require _ _) fun _ => Prog.frames_pure _

theorem frames_found (m : WorkspaceMember) : (r.found m).Frames (id : Database → _) := by
  unfold found
  rcases r.change with _ | _ | newRoleId
  · exact Prog.frames_ite (Prog.frames_pure _) (Prog.frames_pure _)
  · exact Prog.frames_bind (Prog.frames_require _ _) fun _ => Prog.frames_pure _
  · exact Prog.frames_ite (Prog.frames_pure _) (Prog.frames_pure _)

/-- Nothing is to be done only where the row is as it should be. -/
theorem found_spec {m : WorkspaceMember} {s s' : Database} {p : Phase}
    (h : (r.found m).Returns s p s') :
    (p = .systemRoles m ∧ s' = s) ∨
      (p = .commit false ∧ s' = s ∧ (r.change = .suspend ∧ m.status = .suspended ∨
        r.change = .changeRole m.roleId)) := by
  unfold found at h
  rcases hc : r.change with _ | _ | n
  · simp only [hc, Prog.returns_ite] at h
    split_ifs at h with hm
    · obtain ⟨rfl, rfl⟩ := Prog.returns_pure.mp h
      exact Or.inr ⟨rfl, rfl, Or.inl ⟨rfl, hm⟩⟩
    · exact Or.inl (Prog.returns_pure.mp h)
  · simp only [hc] at h
    rw [Prog.returns_bind] at h
    obtain ⟨_, t, hreq, h⟩ := h
    obtain ⟨-, rfl⟩ := Prog.returns_require.mp hreq
    exact Or.inl (Prog.returns_pure.mp h)
  · simp only [hc, Prog.returns_ite] at h
    split_ifs at h with hm
    · obtain ⟨rfl, rfl⟩ := Prog.returns_pure.mp h
      exact Or.inr ⟨rfl, rfl, Or.inr (by rw [hm])⟩
    · exact Or.inl (Prog.returns_pure.mp h)

theorem frames_getOwnerRole : getOwnerRole.Frames (id : Database → _) :=
  Prog.frames_bind (Prog.frames_gets _) fun _ => Prog.frames_pure _

/-- The end of every operation: the write, the audit log and the notification. -/
def finish (m : WorkspaceMember) (roleName : String) : Svc Phase := do
  let changed ← setMember m.id r.set
  let row ← orRaise changed .attributeError
  r.record m row roleName
  pure (.commit true)

theorem setMember_eq {α : Type} (i : Uuid) (f : WorkspaceMember → WorkspaceMember)
    (k : WorkspaceMember → Svc α) :
    (do let changed ← setMember i f; let row ← orRaise changed .attributeError; k row) =
      (do
        let found ← Repositories.Base.getById WorkspaceMember i
        let row ← orRaise found .attributeError
        let _ ← Repositories.Base.update i f
        k (f row) : Svc α) := by
  funext s
  obtain ⟨found, hget⟩ := exists_getById (ρ := WorkspaceMember) s i
  unfold setMember updateWhere
  rw [Prog.bind_assoc, Prog.bind_of_returns hget, Prog.bind_of_returns hget]
  rcases found with _ | row
  · rfl
  · obtain ⟨hrow, hkey, -⟩ := ((getById_spec hget).2 row).mp rfl
    rcases (Repositories.Base.update i f).returns_or_raises s with ⟨a, t, hu⟩ | ⟨e, t, hu⟩
    · obtain ⟨q, hq, hqk, rfl, -⟩ := returns_update.mp hu
      obtain rfl := s.workspaceMembers.eq_of_key_eq hrow hq (hkey.trans hqk.symm)
      simp only [if_pos, Prog.bind_assoc, orRaise, Prog.pure_bind]
      rw [Prog.bind_of_returns hu, Prog.bind_of_returns hu]
    · simp only [if_pos, Prog.bind_assoc, orRaise, Prog.pure_bind]
      rw [Prog.bind_of_raises hu, Prog.bind_of_raises hu]

theorem solo_getById (n : ℕ) (m : WorkspaceMember) (roleName : String) :
    solo r.next (n + 3) (.getById m roleName) = r.finish m roleName := by
  have hq : (do let found ← Repositories.Base.getById WorkspaceMember m.id
                let row ← orRaise found .attributeError
                pure (.update m row roleName) : Svc Phase).Frames id :=
    Prog.frames_bind frames_getById fun _ => Prog.frames_bind (frames_orRaise _ _) fun _ =>
      Prog.frames_pure _
  have hwrite : ∀ row, solo r.next (n + 2) (.update m row roleName) =
      (do let _ ← Repositories.Base.update m.id r.set
          r.record m (r.set row) roleName
          pure (.commit true) : Svc Phase) := by
    intro row
    have hrecord : solo r.next (n + 1) (.record m (r.set row) roleName) =
        (do r.record m (r.set row) roleName; solo r.next n (.commit true) : Svc Phase) :=
      solo_write n rfl
    have hupdate : solo r.next (n + 2) (.update m row roleName) =
        (do (do let _ ← Repositories.Base.update m.id r.set; pure ())
            solo r.next (n + 1) (.record m (r.set row) roleName) : Svc Phase) :=
      solo_write (n + 1) rfl
    have hcommit : solo r.next n (.commit true) = (pure (.commit true) : Svc Phase) :=
      solo_commit n rfl
    rw [hupdate, hrecord, hcommit, Prog.bind_assoc]
    rfl
  rw [solo_ask _ rfl hq, finish, setMember_eq]
  simp only [Prog.bind_assoc, Prog.pure_bind, hwrite]

/-- After the guard. -/
def afterGuard (m : WorkspaceMember) : Svc Phase :=
  match r.change with
  | .changeRole newRoleId => do
    let found ← Repositories.Base.getById Role newRoleId
    let role ← orRaise found (.http 404 "Role not found")
    let ownerRole ← getOwnerRole
    let o ← orRaise ownerRole .attributeError
    Prog.require (newRoleId = o.id ∨ m.roleId = o.id → r.workspace.ownerId = r.user.id)
      (.http 403 "Only the workspace owner can assign or remove the Owner role.")
    r.finish m role.name
  | _ => r.finish m ""

theorem solo_passed (n : ℕ) (m : WorkspaceMember) :
    solo r.next (n + 5) (r.passed m) = r.afterGuard m := by
  unfold passed afterGuard
  rcases hc : r.change with _ | _ | newRoleId
  · exact solo_getById _ _ _
  · exact solo_getById _ _ _
  · have hrole : (do let found ← Repositories.Base.getById Role newRoleId
                     let role ← orRaise found (.http 404 "Role not found")
                     pure (.ownerRole m newRoleId role) : Svc Phase).Frames id :=
      Prog.frames_bind frames_getById fun _ => Prog.frames_bind (frames_orRaise _ _) fun _ =>
        Prog.frames_pure _
    have howner : ∀ role : Role, (do
        let ownerRole ← getOwnerRole
        let o ← orRaise ownerRole .attributeError
        Prog.require (newRoleId = o.id ∨ m.roleId = o.id → r.workspace.ownerId = r.user.id)
          (.http 403 "Only the workspace owner can assign or remove the Owner role.")
        pure (.getById m role.name) : Svc Phase).Frames id := fun _ =>
      Prog.frames_bind frames_getOwnerRole fun _ => Prog.frames_bind (frames_orRaise _ _) fun _ =>
        Prog.frames_bind (Prog.frames_require _ _) fun _ => Prog.frames_pure _
    rw [solo_ask _ rfl hrole]
    simp only [Prog.bind_assoc, Prog.pure_bind]
    congr 1; funext found; congr 1; funext role
    rw [solo_ask _ rfl (howner role)]
    simp only [Prog.bind_assoc, Prog.pure_bind, solo_getById]

theorem solo_systemRoles (n : ℕ) (m : WorkspaceMember) :
    solo r.next (n + 7) (.systemRoles m) =
      (do Members.protectOwnerRole r.workspace.id m; r.afterGuard m) := by
  have hroles : (do
      let ownerRole ← getOwnerRole
      match ownerRole with
      | none => pure (r.passed m)
      | some o =>
        if m.roleId = o.id ∧ m.status = .active then pure (.activeMembers m o)
        else pure (r.passed m) : Svc Phase).Frames id := by
    refine Prog.frames_bind frames_getOwnerRole fun ownerRole => ?_
    rcases ownerRole with _ | o
    · exact Prog.frames_pure _
    · exact Prog.frames_ite (Prog.frames_pure _) (Prog.frames_pure _)
  have hcount : ∀ o : Role, (do
      let members ← getActiveMembers r.workspace.id
      let activeOwners := members.filter fun m => m.roleId = o.id
      Prog.require (1 < activeOwners.length)
        (.http 400 "Cannot remove or demote the last active owner of the workspace.")
      pure (r.passed m) : Svc Phase).Frames id := fun _ =>
    Prog.frames_bind (Prog.frames_gets _) fun _ =>
      Prog.frames_bind (Prog.frames_require _ _) fun _ => Prog.frames_pure _
  unfold Members.protectOwnerRole
  rw [solo_ask _ rfl hroles]
  simp only [Prog.bind_assoc]
  congr 1; funext ownerRole
  rcases ownerRole with _ | o
  · exact solo_passed (n + 1) m
  · by_cases hm : m.roleId = o.id ∧ m.status = .active
    · simp only [if_pos hm, Prog.pure_bind, Prog.bind_assoc]
      rw [solo_ask _ rfl (hcount o)]
      simp only [Prog.bind_assoc, Prog.pure_bind, solo_passed]
    · simp only [if_neg hm, Prog.pure_bind]
      exact solo_passed (n + 1) m

theorem solo_getMember (n : ℕ) :
    solo r.next (n + 8) .getMember = (do
      let m ← Members.getMember r.workspace.id r.memberId
      let p ← r.found m
      solo r.next (n + 7) p : Svc Phase) := by
  have hq : (do let m ← Members.getMember r.workspace.id r.memberId
                r.found m : Svc Phase).Frames id :=
    Prog.frames_bind (frames_getMember _) frames_found
  rw [solo_ask _ rfl hq, Prog.bind_assoc]

/-- **The statements are the service**: all of them, one after another, do what the call does. -/
theorem serve_eq_solo :
    r.serve = (do let _ ← solo r.next 8 .getMember; pure () : Svc Unit) := by
  have hdone : solo r.next 7 (.commit false) = (pure (.commit false) : Svc Phase) :=
    solo_commit 7 rfl
  rw [solo_getMember 0]
  obtain ⟨d, user, workspace, memberId, change⟩ := r
  cases change with
  | suspend =>
    simp only [serve, Members.suspendMember, Members.setStatus, found, Prog.ite_bind, Prog.bind_assoc,
      Prog.pure_bind, solo_systemRoles 0, hdone, afterGuard, finish]
    rfl
  | remove =>
    simp only [serve, Members.removeMember, Members.setStatus, Members.checkRemoval, found,
      if_false, Prog.bind_assoc, Prog.pure_bind, solo_systemRoles 0, afterGuard, finish]
    rfl
  | changeRole newRoleId =>
    simp only [serve, Members.changeRole, found, Prog.ite_bind, Prog.bind_assoc,
      Prog.pure_bind, solo_systemRoles 0, hdone, afterGuard, finish]
    rfl

theorem solo_returns_commit {s s' : Database} {p : Phase}
    (h : (solo r.next 8 .getMember).Returns s p s') : ∃ changed, p = .commit changed := by
  have hfinish : ∀ {m name s p s'}, (r.finish m name).Returns s p s' → p = .commit true := by
    intro m name s p s' h
    obtain ⟨_, _, -, h⟩ := Prog.returns_bind.mp h
    obtain ⟨_, _, -, h⟩ := Prog.returns_bind.mp h
    obtain ⟨_, _, -, h⟩ := Prog.returns_bind.mp h
    exact (Prog.returns_pure.mp h).1
  have hafter : ∀ {m s p s'}, (r.afterGuard m).Returns s p s' → p = .commit true := by
    intro m s p s' h
    unfold afterGuard at h
    rcases hc : r.change with _ | _ | n
    · rw [hc] at h; exact hfinish h
    · rw [hc] at h; exact hfinish h
    · rw [hc] at h
      obtain ⟨_, _, -, h⟩ := Prog.returns_bind.mp h
      obtain ⟨_, _, -, h⟩ := Prog.returns_bind.mp h
      obtain ⟨_, _, -, h⟩ := Prog.returns_bind.mp h
      obtain ⟨_, _, -, h⟩ := Prog.returns_bind.mp h
      obtain ⟨_, _, -, h⟩ := Prog.returns_bind.mp h
      exact hfinish h
  have hroles : ∀ {m s p s'}, (solo r.next 7 (.systemRoles m)).Returns s p s' →
      p = .commit true := by
    intro m s p s' h
    rw [solo_systemRoles 0] at h
    obtain ⟨_, _, -, h⟩ := Prog.returns_bind.mp h
    exact hafter h
  have hdone : ∀ {s p s'}, (solo r.next 7 (.commit false)).Returns s p s' → p = .commit false := by
    intro s p s' h
    have hcommit : solo r.next 7 (.commit false) = (pure (.commit false) : Svc Phase) :=
      solo_commit 7 rfl
    rw [hcommit] at h
    exact (Prog.returns_pure.mp h).1
  rw [solo_getMember 0] at h
  obtain ⟨m, _, -, h⟩ := Prog.returns_bind.mp h
  obtain ⟨p', t, hf, h⟩ := Prog.returns_bind.mp h
  rcases found_spec hf with ⟨rfl, -⟩ | ⟨rfl, -⟩
  · exact ⟨true, hroles h⟩
  · exact ⟨false, hdone h⟩

end Request

end MarketingSuite.Workspaces.Requests
