import MarketingSuite.Api.Dependencies
import MarketingSuite.Workspaces.System

/-! # The life of the tenants

Everything that happens to users, roles, workspaces, members and invites: the calls of the workspace
system, workspaces that are created or deleted, system roles that are cloned, the pass over the
expired invites, and users who sign in. `Advance` says what all of it has in common: rows stay, a
member row is of one user in one workspace for good, and an invite that is decided stays as it is.
-/

namespace MarketingSuite.Tenants.Events

open MarketingSuite.Lib.Programs MarketingSuite.Lib.Tables MarketingSuite.Lib.Runs
open MarketingSuite.Base.Values MarketingSuite.Base.Models MarketingSuite.Base.Schema
open MarketingSuite.Repositories.Base
open MarketingSuite.Api.Dependencies (TokenPayload getOrCreateUser)
open MarketingSuite.Workspaces MarketingSuite.Workspaces.Repositories
open MarketingSuite.Workspaces.Service (WorkspaceCreateInternal)
open MarketingSuite.Workspaces.Invitations (Later Evolved Joined later_refl later_trans evolved_refl)

/-- One event, in a transaction of its own. -/
inductive Event
  | call (c : System.Call)
  | createWorkspace (d : Draws) (actor : Uuid) (data : WorkspaceCreateInternal)
  | deleteWorkspace (d : Draws) (actor workspace : Uuid)
  | cloneSystemRole (d : Draws) (systemRoleId workspaceId : Uuid) (newName : String)
  | expireInvites (now : Time)
  | signIn (d : Draws) (payload : TokenPayload)

/-- The call behind an event. Whoever asks for a workspace is its owner. -/
def serve (lower : String → String) : Event → Svc Unit
  | .call c => System.serve lower c
  | .createWorkspace d actor data => do
    let user ← load User actor
    let _ ← Service.createWorkspace lower d user { data with ownerId := user.id, createdBy := user.id }
    pure ()
  | .deleteWorkspace d actor workspace => do
    let user ← load User actor
    let workspace ← load Workspace workspace
    Service.deleteWorkspace d user workspace
  | .cloneSystemRole d systemRoleId workspaceId newName => do
    let _ ← cloneSystemRoleToWorkspace d systemRoleId workspaceId newName
    pure ()
  | .expireInvites now => do
    let _ ← Repositories.expireInvites now
    pure ()
  | .signIn d payload => do
    let _ ← getOrCreateUser lower d payload
    pure ()

/-- The state after an event. -/
def step (lower : String → String) (s : Database) (e : Event) : Database := (serve lower e).settle s

/-! ### What stays -/

/-- The rows of `T` are in `T'`, each with its user and its workspace. -/
def Placed (T T' : Table WorkspaceMember) : Prop :=
  ∀ m ∈ T.rows, ∃ m' ∈ T'.rows,
    m'.id = m.id ∧ m'.workspaceId = m.workspaceId ∧ m'.userId = m.userId

/-- `s'` is `s` some events later. -/
structure Grown (s s' : Database) : Prop where
  users : ∀ u ∈ s.users.rows, u ∈ s'.users.rows
  roles : ∀ r ∈ s.roles.rows, r ∈ s'.roles.rows
  workspaces : ∀ w ∈ s.workspaces.rows, ∃ w' ∈ s'.workspaces.rows, w'.id = w.id
  members : Placed s.workspaceMembers s'.workspaceMembers
  invites : ∀ i ∈ s.workspaceInvites.rows, ∃ i' ∈ s'.workspaceInvites.rows, Later i i'

/-- An invite as the event leaves it, which is a call of `create_invite`. -/
def Issued (lower : String → String) (s : Database) (e : Event) (i : WorkspaceInvite) : Prop :=
  Model.references s i = true ∧ ∃ d actor w email r t,
    e = .call (.on d actor w (.createInvite email r)) ∧
      i = invitation lower d w (strip (lower email)) r actor t

/-- `s'` is `s` one event later: a new invite was issued. -/
structure Advance (lower : String → String) (s : Database) (e : Event) (s' : Database) : Prop
    extends Grown s s' where
  issued : ∀ i' ∈ s'.workspaceInvites.rows,
    (∃ i ∈ s.workspaceInvites.rows, Later i i') ∨ Issued lower s e i'

variable {lower : String → String} {s s' : Database} {T T' : Table WorkspaceMember}
  {I : Table WorkspaceInvite} {f : WorkspaceMember → WorkspaceMember} {i : Uuid} {e : Event}

theorem placed_refl (T : Table WorkspaceMember) : Placed T T := fun m hm => ⟨m, hm, rfl, rfl, rfl⟩

theorem placed_trans {T₁ T₂ T₃ : Table WorkspaceMember} (h : Placed T₁ T₂) (h' : Placed T₂ T₃) :
    Placed T₁ T₃ := by
  intro m hm
  obtain ⟨m₂, hm₂, hi, hw, hu⟩ := h m hm
  obtain ⟨m₃, hm₃, hi', hw', hu'⟩ := h' m₂ hm₂
  exact ⟨m₃, hm₃, hi'.trans hi, hw'.trans hw, hu'.trans hu⟩

theorem placed_of_insert {m : WorkspaceMember} (h : T.insert m = some T') : Placed T T' :=
  fun n hn => ⟨n, (Table.mem_insert h).mpr (Or.inl hn), rfl, rfl, rfl⟩

theorem placed_of_modify (h : T.modify i f = some T') (hf : ∀ m : WorkspaceMember,
    (f m).id = m.id ∧ (f m).workspaceId = m.workspaceId ∧ (f m).userId = m.userId) :
    Placed T T' :=
  Table.exists_after_modify h (fun _ => ⟨rfl, rfl, rfl⟩) fun m _ _ => hf m

theorem placed_of_joined {d : Draws} {invite : WorkspaceInvite} {user : User}
    (h : Joined d invite user s T) : Placed s.workspaceMembers T := by
  rcases h with rfl | h
  · exact placed_refl _
  · exact placed_of_insert h

theorem grown_refl (s : Database) : Grown s s where
  users _ h := h
  roles _ h := h
  workspaces w h := ⟨w, h, rfl⟩
  members := placed_refl _
  invites i h := ⟨i, h, later_refl i⟩

theorem grown_trans {s₁ s₂ s₃ : Database} (h : Grown s₁ s₂) (h' : Grown s₂ s₃) : Grown s₁ s₃ where
  users u hu := h'.users u (h.users u hu)
  roles r hr := h'.roles r (h.roles r hr)
  workspaces w hw := by
    obtain ⟨w₂, hw₂, hid⟩ := h.workspaces w hw
    obtain ⟨w₃, hw₃, hid'⟩ := h'.workspaces w₂ hw₂
    exact ⟨w₃, hw₃, hid'.trans hid⟩
  members := placed_trans h.members h'.members
  invites i hi := by
    obtain ⟨i₂, hi₂, hl⟩ := h.invites i hi
    obtain ⟨i₃, hi₃, hl'⟩ := h'.invites i₂ hi₂
    exact ⟨i₃, hi₃, later_trans hl hl'⟩

theorem advance_refl (s : Database) : Advance lower s e s where
  toGrown := grown_refl s
  issued i hi := Or.inl ⟨i, hi, later_refl i⟩

/-- Where the invites are the old ones, an event has only to keep rows. -/
theorem advance_of_grown (h : Grown s s') (hI : s'.workspaceInvites = s.workspaceInvites) :
    Advance lower s e s' where
  toGrown := h
  issued i hi := Or.inl ⟨i, by rw [← hI]; exact hi, later_refl i⟩

theorem advance_of_evolved {N : Table Notification} {L : List AuditLog}
    (hT : Placed s.workspaceMembers T) (hI : Evolved s.workspaceInvites I) :
    Advance lower s e { s with workspaceMembers := T, workspaceInvites := I, notifications := N,
                               auditLogs := L } where
  users _ h := h
  roles _ h := h
  workspaces w h := ⟨w, h, rfl⟩
  members := hT
  invites := hI.forth
  issued i hi := Or.inl (hI.back i hi)

theorem advance_of_changed (h : Members.Changed i f s s') (hf : ∀ m : WorkspaceMember,
    (f m).id = m.id ∧ (f m).workspaceId = m.workspaceId ∧ (f m).userId = m.userId) :
    Advance lower s e s' := by
  obtain ⟨T, N, L, hT, rfl⟩ := h
  exact advance_of_evolved (placed_of_modify hT hf) (evolved_refl _)

theorem advance_of_issued {I' : Table WorkspaceInvite} {N : Table Notification} {L : List AuditLog}
    {a : WorkspaceInvite} (hI : Evolved s.workspaceInvites I) (ha : Issued lower s e a)
    (hins : I.insert a = some I') :
    Advance lower s e { s with workspaceInvites := I', notifications := N, auditLogs := L } where
  users _ h := h
  roles _ h := h
  workspaces w h := ⟨w, h, rfl⟩
  members := placed_refl _
  invites i hi := by
    obtain ⟨i', hi', hl⟩ := hI.forth i hi
    exact ⟨i', (Table.mem_insert hins).mpr (Or.inl hi'), hl⟩
  issued i' hi' := by
    rcases (Table.mem_insert hins).mp hi' with hold | rfl
    · exact Or.inl (hI.back i' hold)
    · exact Or.inr ha

theorem workspaces_of_modify {W : Table Workspace} {g : Workspace → Workspace}
    (h : s.workspaces.modify i g = some W) (hg : ∀ w, (g w).id = w.id) :
    ∀ w ∈ s.workspaces.rows, ∃ w' ∈ W.rows, w'.id = w.id :=
  Table.exists_after_modify h (fun _ => rfl) fun w _ _ => hg w

/-! ### One event -/

theorem advance_perform {d : Draws} {user : User} {w : Workspace} {op : System.Op} {u : Unit}
    (h : (System.perform lower d user w op).Returns s u s') :
    Advance lower s (.call (.on d user.id w.id op)) s' := by
  cases op with
  | createInvite email r =>
    obtain ⟨a, h, -⟩ := Prog.returns_bind_pure.mp h
    obtain ⟨e, I, I', N, L, rfl, href, hI, hins, rfl⟩ := Invitations.createInvite_spec h
    exact advance_of_issued hI ⟨href, d, user.id, w.id, email, r, e, rfl, rfl⟩ hins
  | revokeInvite i =>
    obtain ⟨a, h, -⟩ := Prog.returns_bind_pure.mp h
    obtain ⟨I, N, L, hI, rfl⟩ := Invitations.revokeInvite_spec h
    exact advance_of_evolved (placed_refl _) hI
  | resendInvite i =>
    obtain ⟨a, h, -⟩ := Prog.returns_bind_pure.mp h
    obtain ⟨I, N, L, hI, rfl⟩ := Invitations.resendInvite_spec h
    exact advance_of_evolved (placed_refl _) hI
  | changeRole i r =>
    obtain ⟨a, h, -⟩ := Prog.returns_bind_pure.mp h
    obtain ⟨m, -, ⟨-, rfl⟩ | ⟨-, -, -, -, hc⟩⟩ := Members.changeRole_spec h
    · exact advance_refl _
    · exact advance_of_changed hc fun m => ⟨rfl, rfl, rfl⟩
  | suspendMember i =>
    obtain ⟨a, h, -⟩ := Prog.returns_bind_pure.mp h
    obtain ⟨m, -, ⟨-, rfl⟩ | ⟨-, -, hc⟩⟩ := Members.suspendMember_spec h
    · exact advance_refl _
    · exact advance_of_changed hc fun m => ⟨rfl, rfl, rfl⟩
  | reactivateMember i =>
    obtain ⟨a, h, -⟩ := Prog.returns_bind_pure.mp h
    obtain ⟨m, -, ⟨-, rfl⟩ | ⟨-, hc⟩⟩ := Members.reactivateMember_spec h
    · exact advance_refl _
    · exact advance_of_changed hc fun m => ⟨rfl, rfl, rfl⟩
  | removeMember i =>
    obtain ⟨m, -, -, -, hc⟩ := Members.removeMember_spec h
    exact advance_of_changed hc fun m => ⟨rfl, rfl, rfl⟩
  | transferOwnership n r =>
    obtain ⟨a, h, -⟩ := Prog.returns_bind_pure.mp h
    obtain ⟨-, m, -, -, -, -, -, o, -, W, T, T', N, L, hW, hT, hT', -, rfl⟩ :=
      Service.transferOwnership_spec h
    have hplaced : Placed s.workspaceMembers T := placed_of_modify hT fun m => ⟨rfl, rfl, rfl⟩
    have hplaced' : Placed T T' := by
      rcases hT' with ⟨rfl, -⟩ | ⟨m', -, -, -, -, hmod⟩
      · exact placed_refl _
      · exact placed_of_modify hmod fun m => ⟨rfl, rfl, rfl⟩
    refine advance_of_grown ⟨fun _ h => h, fun _ h => h, ?_, placed_trans hplaced hplaced',
      fun i hi => ⟨i, hi, later_refl i⟩⟩ rfl
    exact workspaces_of_modify hW fun _ => rfl

theorem advance_call {c : System.Call} {u : Unit} (h : (System.serve lower c).Returns s u s') :
    Advance lower s (.call c) s' := by
  cases c with
  | on d actor w op =>
    obtain ⟨user, -, rfl, workspace, -, rfl, hop⟩ := System.serve_on h
    exact advance_perform hop
  | acceptInvite d actor token =>
    obtain ⟨user, -, -, haccept⟩ := System.serve_acceptInvite h
    obtain ⟨invite, -, T, I, N, L, hT, hI, rfl⟩ := Invitations.acceptInvite_spec haccept
    exact advance_of_evolved (placed_of_joined hT) hI

theorem getOrCreateUser_spec {d : Draws} {payload : TokenPayload} {a : User}
    (h : (getOrCreateUser lower d payload).Returns s a s') :
    s' = s ∨ ∃ U, s.users.insert a = some U ∧ s' = { s with users := U } := by
  unfold getOrCreateUser at h
  rw [Prog.returns_bind] at h
  obtain ⟨_, t, hreq, h⟩ := h
  obtain ⟨-, rfl⟩ := Prog.returns_require.mp hreq
  rw [Prog.returns_bind] at h
  obtain ⟨v, t, hv, h⟩ := h
  obtain ⟨-, rfl⟩ := Prog.returns_ofExcept.mp hv
  rw [Prog.returns_bind] at h
  obtain ⟨found, t', hget, h⟩ := h
  obtain ⟨rfl, -⟩ := selectOne_spec hget
  rcases found with _ | u
  · obtain ⟨rfl, -, U, hU, rfl⟩ := returns_create.mp h
    exact Or.inr ⟨U, hU, rfl⟩
  · obtain ⟨-, rfl⟩ := Prog.returns_pure.mp h
    exact Or.inl rfl

theorem serve_createWorkspace {d : Draws} {actor : Uuid} {data : WorkspaceCreateInternal} {u : Unit}
    (h : (serve lower (.createWorkspace d actor data)).Returns s u s') :
    ∃ user ∈ s.users.rows, user.id = actor ∧ ∃ workspace, (Service.createWorkspace lower d user
      { data with ownerId := user.id, createdBy := user.id }).Returns s workspace s' := by
  obtain ⟨user, t, hu, hrest⟩ := Prog.returns_bind.mp h
  obtain ⟨rfl, huser, hid⟩ := load_spec hu
  obtain ⟨workspace, hcreate, -⟩ := Prog.returns_bind_pure.mp hrest
  exact ⟨user, huser, hid, workspace, hcreate⟩

theorem serve_deleteWorkspace {d : Draws} {actor w : Uuid} {u : Unit}
    (h : (serve lower (.deleteWorkspace d actor w)).Returns s u s') :
    ∃ user ∈ s.users.rows, user.id = actor ∧ ∃ workspace ∈ s.workspaces.rows, workspace.id = w ∧
      (Service.deleteWorkspace d user workspace).Returns s u s' := by
  obtain ⟨user, t, hu, hrest⟩ := Prog.returns_bind.mp h
  obtain ⟨rfl, huser, hid⟩ := load_spec hu
  obtain ⟨workspace, t', hw, hdelete⟩ := Prog.returns_bind.mp hrest
  obtain ⟨rfl, hmem, hwid⟩ := load_spec hw
  exact ⟨user, huser, hid, workspace, hmem, hwid, hdelete⟩

theorem advance_serve {u : Unit} (h : (serve lower e).Returns s u s') :
    Advance lower s e s' := by
  cases e with
  | call c => exact advance_call h
  | createWorkspace d actor data =>
    obtain ⟨user, -, -, a, hcreate⟩ := serve_createWorkspace h
    obtain ⟨o, W, T, L, -, -, hW, hT, rfl⟩ := Service.createWorkspace_spec hcreate
    refine advance_of_grown ⟨fun _ h => h, fun _ h => h, fun w hw => ?_, placed_of_insert hT,
      fun i hi => ⟨i, hi, later_refl i⟩⟩ rfl
    exact ⟨w, (Table.mem_insert hW).mpr (Or.inl hw), rfl⟩
  | deleteWorkspace d actor w =>
    obtain ⟨user, -, -, workspace, -, -, hdelete⟩ := serve_deleteWorkspace h
    obtain ⟨-, W, L, rfl, hW⟩ := Service.deleteWorkspace_spec hdelete
    refine advance_of_grown ⟨fun _ h => h, fun _ h => h, ?_, placed_refl _,
      fun i hi => ⟨i, hi, later_refl i⟩⟩ rfl
    rcases hW with rfl | hW
    · exact fun w hw => ⟨w, hw, rfl⟩
    · exact workspaces_of_modify hW fun _ => rfl
  | cloneSystemRole d i w name =>
    obtain ⟨a, h, -⟩ := Prog.returns_bind_pure.mp h
    rcases cloneSystemRoleToWorkspace_spec h with rfl | ⟨r, -, -, R, G, hR, -, rfl⟩
    · exact advance_refl _
    · refine advance_of_grown ⟨fun _ h => h, fun r hr => ?_, fun w hw => ⟨w, hw, rfl⟩,
        placed_refl _, fun i hi => ⟨i, hi, later_refl i⟩⟩ rfl
      exact (Table.mem_insert hR).mpr (Or.inl hr)
  | expireInvites now =>
    obtain ⟨n, h, -⟩ := Prog.returns_bind_pure.mp h
    obtain ⟨I, hI, rfl⟩ := Invitations.expireInvites_evolved h
    exact advance_of_evolved (placed_refl _) hI
  | signIn d payload =>
    obtain ⟨a, h, -⟩ := Prog.returns_bind_pure.mp h
    rcases getOrCreateUser_spec h with rfl | ⟨U, hU, rfl⟩
    · exact advance_refl _
    · refine advance_of_grown ⟨fun u hu => ?_, fun _ h => h, fun w hw => ⟨w, hw, rfl⟩,
        placed_refl _, fun i hi => ⟨i, hi, later_refl i⟩⟩ rfl
      exact (Table.mem_insert hU).mpr (Or.inl hu)

/-- **The step lemma** for everything that stays. -/
theorem advance_step (lower : String → String) (s : Database) (e : Event) :
    Advance lower s e (step lower s e) := by
  unfold step
  rcases (serve lower e).settle_cases s with ⟨u, h⟩ | ⟨h, -⟩
  · exact advance_serve h
  · rw [h]
    exact advance_refl s

theorem grown_run (lower : String → String) (s : Database) (l : List Event) :
    Grown s (run (step lower) s l) :=
  rel_run grown_refl grown_trans (fun s e => (advance_step lower s e).toGrown) s l

/-! ### Invariants of the invites -/

/-- What holds of the invites that are issued, and of an invite later if it held before, holds of
all invites after an event. -/
theorem invites_step {P : Database → WorkspaceInvite → Prop}
    (hlater : ∀ {s s' i i'}, Grown s s' → Later i i' → P s i → P s' i')
    (hissued : ∀ {s e i}, Issued lower s e i → P s i) (s : Database) (e : Event)
    (hs : ∀ i ∈ s.workspaceInvites.rows, P s i) :
    ∀ i ∈ (step lower s e).workspaceInvites.rows, P (step lower s e) i := by
  intro i' hi'
  have hadv := advance_step lower s e
  rcases hadv.issued i' hi' with ⟨i, hi, hl⟩ | hnew
  · exact hlater hadv.toGrown hl (hs i hi)
  · exact hlater hadv.toGrown (later_refl i') (hissued hnew)

/-! ### A small installation with permissions -/

/-- The roles have permissions: Owner (5) may read and update a workspace, Admin (6) may read it. -/
def staffed : Database :=
  { System.seeded with
    permissions := ⟨[⟨50, "workspace.read", "workspace", "read"⟩,
      ⟨51, "workspace.update", "workspace", "update"⟩], by decide⟩
    rolePermissions := ⟨[⟨60, 5, 50⟩, ⟨61, 5, 51⟩, ⟨62, 6, 50⟩], by decide⟩ }

/-- The first user's workspace (10) in it. -/
def chartered : Database :=
  (Service.createWorkspace id (drawsFrom 10 0 "") (userOf 1 "owner@example.com")
    System.studioRequest staffed).2

theorem createWorkspace_chartered :
    (Service.createWorkspace id (drawsFrom 10 0 "") (userOf 1 "owner@example.com")
      System.studioRequest).Returns staffed System.studio chartered :=
  Prog.returns_of_fst (by decide)

end MarketingSuite.Tenants.Events
