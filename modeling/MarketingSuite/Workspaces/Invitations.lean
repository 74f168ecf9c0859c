import MarketingSuite.Workspaces.Members

/-! # The invitation service

`app/services/workspace_invitation.py`. Mails are only logged by `app/services/email.py`, so sending
one leaves no trace here. An invite keeps its workspace, its address, its role, its inviter and its
token for good, and what is decided about it stays decided. -/

namespace MarketingSuite.Workspaces.Invitations

open MarketingSuite.Lib.Programs MarketingSuite.Lib.Tables
open MarketingSuite.Base.Values MarketingSuite.Base.Models MarketingSuite.Base.Schema
open MarketingSuite.Repositories.Base MarketingSuite.Repositories.Records
open MarketingSuite.Workspaces.Repositories (getByEmail getMember getMember_spec getByToken
  getPendingInvites createInvitation invitation)

/-- "Prevent duplicate member": the person who would be invited is no member yet. -/
def checkNoMember (workspaceId : Uuid) (email : String) : Svc Unit := do
  let existingUser ← getByEmail email
  match existingUser with
  | none => pure ()
  | some existingUser => do
    let existingMember ← getMember workspaceId existingUser.id
    match existingMember with
    | none => pure ()
    | some m =>
      Prog.require (m.status = .removed) (.http 400 "User is already a member of this workspace")

/-- One round of the loop over the pending invites: an older one to the same address is revoked. -/
def revokeDuplicate (email : String) (now : Time) (p : WorkspaceInvite) : Svc Unit :=
  if p.email = email then do
    let _ ← Repositories.revokeInvite p.id now
    pure ()
  else pure ()

/-- `WorkspaceInvitationService.create_invite`. -/
def createInvite (lower : String → String) (d : Draws) (user : User) (workspace : Workspace)
    (email : String) (roleId : Uuid) : Svc WorkspaceInvite := do
  let email := strip (lower email)
  let found ← getById Role roleId
  let _ ← orRaise found (.http 404 "Role not found")
  checkNoMember workspace.id email
  let pending ← getPendingInvites workspace.id
  let n := pending.length
  Prog.forEach (fun x : WorkspaceInvite × ℕ => revokeDuplicate email (d.now x.2) x.1) pending.zipIdx
  let expiresAt := d.now n + days 7
  let invite ← createInvitation lower d workspace.id email roleId user.id expiresAt
  createAuditLog
    { workspaceId := some workspace.id, actorId := some user.id, action := "INVITE_SENT",
      resourceType := "workspace_invite", resourceId := invite.id, oldValues := none,
      newValues := some [("email", .str email), ("role_id", .id roleId)],
      timestamp := d.now (n + 1) }
  notify (d.uuid 1) workspace.id user.id "Invitation Sent"
    s!"Invitation successfully sent to {email}." .system .low (d.now (n + 2))
  pure invite

/-- The membership that an accepted invite gives. -/
def memberOf (d : Draws) (invite : WorkspaceInvite) (user : User) : WorkspaceMember where
  id := d.uuid 0
  workspaceId := invite.workspaceId
  userId := user.id
  roleId := invite.roleId
  status := .active
  invitedBy := invite.inviterId
  acceptedAt := some (d.now 1)
  joinedAt := some (d.now 2)
  deletedAt := none

/-- "Prevent duplicate member (in case they already got in through other means)". -/
def joinUnlessMember (d : Draws) (invite : WorkspaceInvite) (user : User) : Svc Unit := do
  let existingMember ← getMember invite.workspaceId user.id
  if existingMember.any (fun m => m.status ≠ .removed) = true then pure () else do
    let _ ← create (memberOf d invite user)
    pure ()

/-- The audit log of an operation on an invite. -/
def auditInvite (d : Draws) (workspaceId userId : Uuid) (invite : WorkspaceInvite)
    (action : String) : Svc Unit :=
  createAuditLog
    { workspaceId := some workspaceId, actorId := some userId, action := action,
      resourceType := "workspace_invite", resourceId := invite.id, oldValues := none,
      newValues := none, timestamp := d.now 5 }

/-- `WorkspaceInvitationService.accept_invite`. -/
def acceptInvite (d : Draws) (authenticatedUser : User) (token : String) : Svc Unit := do
  let found ← getByToken token
  let invite ← orRaise found (.http 404 "Invalid invitation token")
  Prog.require (invite.status ≠ .revoked) (.http 400 "Invitation has been revoked")
  Prog.require (invite.status ≠ .accepted) (.http 400 "Invitation has already been accepted")
  Prog.require (¬ (invite.status = .expired ∨ invite.expiresAt < d.now 0))
    (.http 400 "Invitation has expired")
  Prog.require (invite.email = authenticatedUser.email)
    (.http 403 "Invitation email does not match authenticated user email")
  joinUnlessMember d invite authenticatedUser
  let _ ← Repositories.acceptInvite invite.id (d.now 3) (d.now 4)
  auditInvite d invite.workspaceId authenticatedUser.id invite "INVITE_ACCEPTED"
  match invite.inviterId with
  | none => pure ()
  | some inviterId =>
    notify (d.uuid 1) invite.workspaceId inviterId "Invitation Accepted"
      s!"{authenticatedUser.email} has accepted your invitation." .system .normal (d.now 6)

/-- What `revoke_invite` and `resend_invite` share: a pending invite of the workspace is changed. -/
def changePending (d : Draws) (user : User) (workspace : Workspace) (inviteId : Uuid)
    (refused : String) (write : Uuid → Svc (Option WorkspaceInvite)) (action : String) :
    Svc WorkspaceInvite := do
  let found ← getById WorkspaceInvite inviteId
  let invite ← orRaise found (.http 404 "Invitation not found")
  Prog.require (invite.workspaceId = workspace.id) (.http 404 "Invitation not found")
  Prog.require (invite.status = .pending) (.http 400 refused)
  let changed ← write invite.id
  let invite ← orRaise changed .attributeError
  auditInvite d workspace.id user.id invite action
  pure invite

/-- `WorkspaceInvitationService.revoke_invite`. -/
def revokeInvite (d : Draws) (user : User) (workspace : Workspace) (inviteId : Uuid) :
    Svc WorkspaceInvite :=
  changePending d user workspace inviteId "Only pending invitations can be revoked"
    (fun id => Repositories.revokeInvite id (d.now 0)) "INVITE_REVOKED"

/-- `WorkspaceInvitationService.resend_invite`; the new expiry is aware. -/
def resendInvite (d : Draws) (user : User) (workspace : Workspace) (inviteId : Uuid) :
    Svc WorkspaceInvite :=
  changePending d user workspace inviteId "Only pending invitations can be resent"
    (fun id => Repositories.resendInvite id ⟨d.now 0 + days 7, true⟩) "INVITE_RESENT"

/-! ### What a call that returns did -/

variable {s s' : Database} {d : Draws} {user : User} {workspace : Workspace}
  {lower : String → String} {email token action : String} {u : Unit} {i r w : Uuid} {t : Time}

/-- `i'` is the invite `i`, perhaps later: a decision about it stands. -/
def Kept (i i' : WorkspaceInvite) : Prop :=
  i'.id = i.id ∧ i'.workspaceId = i.workspaceId ∧ i'.email = i.email ∧ i'.roleId = i.roleId ∧
    i'.inviterId = i.inviterId ∧ i'.token = i.token ∧ (i.status ≠ .pending → i'.status = i.status)

/-- Every invite of `T'` was in `T`. -/
def Carried (T T' : Table WorkspaceInvite) : Prop := ∀ i' ∈ T'.rows, ∃ i ∈ T.rows, Kept i i'

/-- The two stamps of an invite are set exactly when its status says so. -/
def Stamped (i : WorkspaceInvite) : Prop :=
  (i.acceptedAt.isSome = true ↔ i.status = .accepted) ∧
    (i.revokedAt.isSome = true ↔ i.status = .revoked)

/-- `i'` is the invite `i` some operations later: as it was, if it was decided. -/
structure Later (i i' : WorkspaceInvite) : Prop where
  kept : Kept i i'
  decided : i.status ≠ .pending → i' = i
  stamped : Stamped i → Stamped i'

/-- `T'` holds the invites of `T`, some operations later. -/
structure Evolved (T T' : Table WorkspaceInvite) : Prop where
  forth : ∀ i ∈ T.rows, ∃ i' ∈ T'.rows, Later i i'
  back : ∀ i' ∈ T'.rows, ∃ i ∈ T.rows, Later i i'

theorem kept_refl (i : WorkspaceInvite) : Kept i i := ⟨rfl, rfl, rfl, rfl, rfl, rfl, fun _ => rfl⟩

theorem kept_trans {i j k : WorkspaceInvite} (h : Kept i j) (h' : Kept j k) : Kept i k := by
  obtain ⟨h1, h2, h3, h4, h5, h6, h7⟩ := h
  obtain ⟨g1, g2, g3, g4, g5, g6, g7⟩ := h'
  refine ⟨g1.trans h1, g2.trans h2, g3.trans h3, g4.trans h4, g5.trans h5, g6.trans h6,
    fun hp => ?_⟩
  have hj := h7 hp
  rw [← hj]
  exact g7 (by rw [hj]; exact hp)

theorem carried_refl (T : Table WorkspaceInvite) : Carried T T := fun i hi => ⟨i, hi, kept_refl i⟩

theorem later_refl (i : WorkspaceInvite) : Later i i := ⟨kept_refl i, fun _ => rfl, fun h => h⟩

theorem later_trans {i j k : WorkspaceInvite} (h : Later i j) (h' : Later j k) : Later i k := by
  refine ⟨kept_trans h.kept h'.kept, fun hp => ?_, fun hs => h'.stamped (h.stamped hs)⟩
  have hj := h.decided hp
  rw [← hj]
  exact h'.decided (by rw [hj]; exact hp)

theorem evolved_refl (T : Table WorkspaceInvite) : Evolved T T :=
  ⟨fun i hi => ⟨i, hi, later_refl i⟩, fun i hi => ⟨i, hi, later_refl i⟩⟩

theorem evolved_trans {T₁ T₂ T₃ : Table WorkspaceInvite} (h : Evolved T₁ T₂) (h' : Evolved T₂ T₃) :
    Evolved T₁ T₃ := by
  constructor
  · intro i hi
    obtain ⟨j, hj, hij⟩ := h.forth i hi
    obtain ⟨k, hk, hjk⟩ := h'.forth j hj
    exact ⟨k, hk, later_trans hij hjk⟩
  · intro k hk
    obtain ⟨j, hj, hjk⟩ := h'.back k hk
    obtain ⟨i, hi, hij⟩ := h.back j hj
    exact ⟨i, hi, later_trans hij hjk⟩

theorem Evolved.carried {T T' : Table WorkspaceInvite} (h : Evolved T T') : Carried T T' := by
  intro i' hi'
  obtain ⟨i, hi, hl⟩ := h.back i' hi'
  exact ⟨i, hi, hl.kept⟩

/-! ### The writes of the invite repository -/

theorem later_of_pending {i i' : WorkspaceInvite} (hp : i.status = .pending) (hk : Kept i i')
    (hs : Stamped i → Stamped i') : Later i i' :=
  ⟨hk, fun hn => absurd hp hn, hs⟩

theorem Stamped.of_pending {i : WorkspaceInvite} (h : Stamped i) (hp : i.status = .pending) :
    i.acceptedAt = none ∧ i.revokedAt = none := by
  have hacc : i.status ≠ .accepted := by simp [hp]
  have hrev : i.status ≠ .revoked := by simp [hp]
  refine ⟨Option.not_isSome_iff_eq_none.mp fun h' => hacc (h.1.mp h'), ?_⟩
  exact Option.not_isSome_iff_eq_none.mp fun h' => hrev (h.2.mp h')

theorem later_revoked {i : WorkspaceInvite} (hp : i.status = .pending) (t : Time) :
    Later i { i with status := .revoked, revokedAt := some t } := by
  refine later_of_pending hp ⟨rfl, rfl, rfl, rfl, rfl, rfl, fun hn => absurd hp hn⟩ fun hs => ?_
  have hacc := (hs.of_pending hp).1
  exact ⟨by simp [hacc], by simp⟩

theorem later_accepted {i : WorkspaceInvite} (hp : i.status = .pending) (t : Time) :
    Later i { i with status := .accepted, acceptedAt := some t } := by
  refine later_of_pending hp ⟨rfl, rfl, rfl, rfl, rfl, rfl, fun hn => absurd hp hn⟩ fun hs => ?_
  have hrev := (hs.of_pending hp).2
  exact ⟨by simp, by simp [hrev]⟩

theorem later_expired {i : WorkspaceInvite} (hp : i.status = .pending) :
    Later i { i with status := .expired } := by
  refine later_of_pending hp ⟨rfl, rfl, rfl, rfl, rfl, rfl, fun hn => absurd hp hn⟩ fun hs => ?_
  obtain ⟨hacc, hrev⟩ := hs.of_pending hp
  exact ⟨by simp [hacc], by simp [hrev]⟩

theorem later_resent {i : WorkspaceInvite} (hp : i.status = .pending) (t : Time) :
    Later i { i with expiresAt := t } :=
  later_of_pending hp ⟨rfl, rfl, rfl, rfl, rfl, rfl, fun _ => rfl⟩ fun hs => hs

/-- Changing one invite, that is later what it was, makes the table what it is later. -/
theorem evolved_of_modify {f : WorkspaceInvite → WorkspaceInvite} {T T' : Table WorkspaceInvite}
    (hf : ∀ j ∈ T.rows, j.id = i → Later j (f j)) (hT : T.modify i f = some T') : Evolved T T' := by
  constructor
  · exact Table.exists_after_modify hT later_refl hf
  · exact Table.exists_before_modify hT later_refl hf

theorem evolved_of_updateWhere {f : WorkspaceInvite → WorkspaceInvite} {o : Option WorkspaceInvite}
    (hf : ∀ j, j.status = .pending → Later j (f j))
    (h : (updateWhere i (fun i : WorkspaceInvite => i.status = .pending) f).Returns s o s') :
    ∃ T, Evolved s.workspaceInvites T ∧ s' = { s with workspaceInvites := T } := by
  rcases updateWhere_spec h with ⟨rfl, -⟩ | ⟨j, hj, hk, -, hp, -, T, hT, rfl⟩
  · exact ⟨_, evolved_refl _, rfl⟩
  · refine ⟨T, evolved_of_modify (fun j' hj' hk' => ?_) hT, rfl⟩
    have : j' = j := s.workspaceInvites.eq_of_key_eq hj' hj (Eq.trans hk' hk.symm)
    subst this
    exact hf j' (by simpa using hp)

theorem revokeInvite_evolved {o : Option WorkspaceInvite}
    (h : (Repositories.revokeInvite i t).Returns s o s') :
    ∃ T, Evolved s.workspaceInvites T ∧ s' = { s with workspaceInvites := T } :=
  evolved_of_updateWhere (fun _ hp => later_revoked hp t) h

theorem resendInvite_evolved {o : Option WorkspaceInvite} {e : DateTime}
    (h : (Repositories.resendInvite i e).Returns s o s') :
    ∃ T, Evolved s.workspaceInvites T ∧ s' = { s with workspaceInvites := T } := by
  unfold Repositories.resendInvite at h
  rw [Prog.returns_bind] at h
  obtain ⟨found, t, hget, h⟩ := h
  obtain ⟨rfl, hf⟩ := getById_spec hget
  rcases found with _ | j
  · obtain ⟨-, rfl⟩ := Prog.returns_pure.mp h
    exact ⟨_, evolved_refl _, rfl⟩
  · obtain ⟨hj, -, -⟩ := (hf j).mp rfl
    simp only [Prog.returns_ite] at h
    split_ifs at h with hp
    · rw [Prog.returns_bind] at h
      obtain ⟨expiresAt, t₁, hbind, h⟩ := h
      obtain ⟨-, rfl⟩ := Prog.returns_ofExcept.mp hbind
      obtain ⟨_, hu, -⟩ := Prog.returns_bind_pure.mp h
      obtain ⟨q, -, -, -, -, T, hT, rfl⟩ := returns_update.mp hu
      refine ⟨T, evolved_of_modify (fun j' hj' hk' => ?_) hT, rfl⟩
      obtain rfl : j' = j := t₁.workspaceInvites.eq_of_key_eq hj' hj hk'
      exact later_resent hp expiresAt
    · obtain ⟨-, rfl⟩ := Prog.returns_pure.mp h
      exact ⟨_, evolved_refl _, rfl⟩

theorem expireInvites_evolved {n : ℕ} (h : (Repositories.expireInvites t).Returns s n s') :
    ∃ T, Evolved s.workspaceInvites T ∧ s' = { s with workspaceInvites := T } := by
  obtain ⟨T, hT, rfl⟩ := updateAll_spec h
  have hlater : ∀ i : WorkspaceInvite, Later i (if (i.status = .pending && i.expiresAt ≤ t) = true
      then { i with status := .expired } else i) := by
    intro i
    split_ifs with hc
    · simp only [Bool.and_eq_true, decide_eq_true_eq] at hc
      exact later_expired hc.1
    · exact later_refl i
  refine ⟨T, ⟨fun i hi => ⟨_, (Table.mem_modifyAll hT).mpr ⟨i, hi, rfl⟩, hlater i⟩, ?_⟩, rfl⟩
  intro i' hi'
  obtain ⟨i, hi, rfl⟩ := (Table.mem_modifyAll hT).mp hi'
  exact ⟨i, hi, hlater i⟩

/-- What the repository's `accept_invite` does to a pending invite: it is accepted, if it has not
expired. -/
theorem acceptInvite_repository_spec {o : Option WorkspaceInvite} {t' : Time}
    {invite : WorkspaceInvite} (hi : invite ∈ s.workspaceInvites.rows)
    (hp : invite.status = .pending)
    (h : (Repositories.acceptInvite invite.id t t').Returns s o s') :
    (invite.expiresAt ≤ t ∧ s' = s) ∨ t < invite.expiresAt ∧ Model.references s invite = true ∧
      ∃ T, s.workspaceInvites.modify invite.id
          (fun i => { i with status := .accepted, acceptedAt := some t' }) = some T ∧
        s' = { s with workspaceInvites := T } := by
  unfold Repositories.acceptInvite at h
  rw [Prog.returns_bind] at h
  obtain ⟨found, s₁, hget, h⟩ := h
  obtain ⟨rfl, hf⟩ := getById_spec hget
  obtain rfl := (hf invite).mpr ⟨hi, rfl, rfl⟩
  simp only [Prog.returns_ite, hp, true_and] at h
  split_ifs at h with hlt
  · rw [Prog.returns_bind] at h
    obtain ⟨_, s₂, hu, h⟩ := h
    obtain ⟨j, hj, hjk, -, href, T, hT, rfl⟩ := returns_update.mp hu
    obtain ⟨-, rfl⟩ := Prog.returns_pure.mp h
    have : j = invite := s₁.workspaceInvites.eq_of_key_eq hj hi hjk
    subst this
    exact Or.inr ⟨hlt, href, T, hT, rfl⟩
  · obtain ⟨-, rfl⟩ := Prog.returns_pure.mp h
    exact Or.inl ⟨not_lt.mp hlt, rfl⟩

/-! ### Creating -/

theorem checkNoMember_spec (h : (checkNoMember w email).Returns s u s') : s' = s := by
  unfold checkNoMember at h
  rw [Prog.returns_bind] at h
  obtain ⟨eu, t, hu, h⟩ := h
  obtain ⟨rfl, -⟩ := selectOne_spec hu
  rcases eu with _ | eu
  · exact (Prog.returns_pure.mp h).2
  · rw [Prog.returns_bind] at h
    obtain ⟨em, t', hm, h⟩ := h
    obtain ⟨rfl, -⟩ := getMember_spec hm
    rcases em with _ | em
    · exact (Prog.returns_pure.mp h).2
    · exact (Prog.returns_require.mp h).2

theorem revokeDuplicate_evolved {p : WorkspaceInvite}
    (h : (revokeDuplicate email t p).Returns s u s') :
    ∃ T, Evolved s.workspaceInvites T ∧ s' = { s with workspaceInvites := T } := by
  unfold revokeDuplicate at h
  simp only [Prog.returns_ite] at h
  split_ifs at h
  · rw [Prog.returns_bind] at h
    obtain ⟨_, t', hr, h⟩ := h
    obtain ⟨-, rfl⟩ := Prog.returns_pure.mp h
    exact revokeInvite_evolved hr
  · obtain ⟨-, rfl⟩ := Prog.returns_pure.mp h
    exact ⟨_, evolved_refl _, rfl⟩

/-- The loop over the pending invites: no round loses an invite or writes anything else. -/
theorem revokeDuplicates_evolved {l : List (WorkspaceInvite × ℕ)}
    (h : (Prog.forEach (fun x => revokeDuplicate email (d.now x.2) x.1) l).Returns s () s') :
    ∃ T, Evolved s.workspaceInvites T ∧ s' = { s with workspaceInvites := T } := by
  refine Prog.forEach_inv
    (I := fun t => ∃ T, Evolved s.workspaceInvites T ∧ t = { s with workspaceInvites := T })
    ?_ l ⟨_, evolved_refl _, rfl⟩ h
  rintro x t t' ⟨T, hT, rfl⟩ hr
  obtain ⟨T', hT', rfl⟩ := revokeDuplicate_evolved hr
  exact ⟨T', evolved_trans hT hT', rfl⟩

/-- **`create_invite`** adds one pending invite, for the given role, and keeps the others. -/
theorem createInvite_spec {a : WorkspaceInvite}
    (h : (createInvite lower d user workspace email r).Returns s a s') :
    ∃ e T T' N L, a = invitation lower d workspace.id (strip (lower email)) r user.id e ∧
      Model.references s a = true ∧ Evolved s.workspaceInvites T ∧ T.insert a = some T' ∧
      s' = { s with workspaceInvites := T', notifications := N, auditLogs := L } := by
  unfold createInvite at h
  rw [Prog.returns_bind] at h
  obtain ⟨found, t₁, hget, h⟩ := h
  obtain ⟨rfl, -⟩ := getById_spec hget
  rw [Prog.returns_bind] at h
  obtain ⟨_, t₂, hrole, h⟩ := h
  obtain ⟨-, rfl⟩ := returns_orRaise.mp hrole
  rw [Prog.returns_bind] at h
  obtain ⟨_, t₃, hno, h⟩ := h
  obtain rfl := checkNoMember_spec hno
  rw [Prog.returns_bind] at h
  obtain ⟨l, t₄, hl, h⟩ := h
  obtain ⟨rfl, rfl⟩ := Prog.returns_gets.mp hl
  rw [Prog.returns_bind] at h
  obtain ⟨_, t₅, hloop, h⟩ := h
  obtain ⟨T, hT, rfl⟩ := revokeDuplicates_evolved hloop
  rw [Prog.returns_bind] at h
  obtain ⟨a', t₆, hcreate, h⟩ := h
  obtain ⟨rfl, href, T', hins, rfl⟩ := returns_create.mp hcreate
  rw [Prog.returns_bind] at h
  obtain ⟨_, t₇, hlog, h⟩ := h
  rw [Prog.returns_bind] at h
  obtain ⟨_, t₈, hnot, h⟩ := h
  obtain ⟨rfl, rfl⟩ := Prog.returns_pure.mp h
  obtain ⟨N, L, rfl⟩ := recorded_trans (recorded_of_createAuditLog hlog) (recorded_of_notify hnot)
  exact ⟨_, T, T', N, L, rfl, href, hT, hins, rfl⟩

/-! ### Accepting -/

/-- Either the user was a member, or the membership of the invite was added. -/
def Joined (d : Draws) (invite : WorkspaceInvite) (user : User) (s : Database)
    (T : Table WorkspaceMember) : Prop :=
  T = s.workspaceMembers ∨ s.workspaceMembers.insert (memberOf d invite user) = some T

/-- The user is a member of the workspace, in any status but REMOVED. -/
def Belongs (s : Database) (w u : Uuid) : Prop :=
  ∃ m ∈ s.workspaceMembers.rows, m.workspaceId = w ∧ m.userId = u ∧ m.deletedAt = none ∧
    m.status ≠ .removed

/-- The membership of the invite can be added: the unique constraint counts deleted rows too. -/
structure CanJoin (s : Database) (d : Draws) (invite : WorkspaceInvite) (user : User) : Prop where
  fresh : ∀ m ∈ s.workspaceMembers.rows, m.id ≠ d.uuid 0
  alone : ∀ m ∈ s.workspaceMembers.rows, m.workspaceId = invite.workspaceId → m.userId ≠ user.id
  references : Model.references s (memberOf d invite user) = true

/-- The inviter, if there is one, can be notified. -/
def CanTell (s : Database) (d : Draws) (invite : WorkspaceInvite) : Prop :=
  ∀ inviter, invite.inviterId = some inviter → (∀ n ∈ s.notifications.rows, n.id ≠ d.uuid 1) ∧
    s.workspaces.has invite.workspaceId = true ∧ s.users.has inviter = true

/-- The calls of `accept_invite` that return, with the invite that the token names. -/
structure Accepts (s : Database) (d : Draws) (user : User) (token : String)
    (invite : WorkspaceInvite) : Prop where
  mem : invite ∈ s.workspaceInvites.rows
  token : invite.token = token
  pending : invite.status = .pending
  inTime : d.now 0 ≤ invite.expiresAt
  email : invite.email = user.email
  joins : Belongs s invite.workspaceId user.id ∨ CanJoin s d invite user
  references : d.now 3 < invite.expiresAt → Model.references s invite = true
  tells : CanTell s d invite

instance (s : Database) (w u : Uuid) : Decidable (Belongs s w u) := by
  unfold Belongs
  infer_instance

/-- A row that stands in the way of a new one of the same user in the same workspace. -/
theorem apart_memberOf {m : WorkspaceMember} {invite : WorkspaceInvite} :
    Apart m (memberOf d invite user) ↔
      m.id ≠ d.uuid 0 ∧ (m.workspaceId = invite.workspaceId → m.userId ≠ user.id) := by
  have hcomp : Keyed.compatible m (memberOf d invite user) = true ↔
      m.workspaceId ≠ invite.workspaceId ∨ m.userId ≠ user.id :=
    (Bool.or_eq_true _ _).to_iff.trans (or_congr decide_eq_true_iff decide_eq_true_iff)
  rw [Apart, hcomp, imp_iff_not_or]
  rfl

theorem canJoin_iff {invite : WorkspaceInvite} : CanJoin s d invite user ↔
    Model.references s (memberOf d invite user) = true ∧
      ∃ T, s.workspaceMembers.insert (memberOf d invite user) = some T := by
  constructor
  · intro h
    refine ⟨h.references, Table.exists_insert fun m hm => ?_⟩
    exact apart_memberOf.mpr ⟨h.fresh m hm, h.alone m hm⟩
  · rintro ⟨href, T, hT⟩
    have hapart := fun m hm => apart_memberOf.mp (Table.apart_of_insert hT (s := m) hm)
    exact ⟨fun m hm => (hapart m hm).1, fun m hm => (hapart m hm).2, href⟩

theorem any_getMember_iff {o : Option WorkspaceMember}
    (ho : ∀ m, o = some m ↔ m ∈ s.workspaceMembers.rows ∧ m.workspaceId = w ∧ m.userId = i ∧
      m.deletedAt = none) :
    o.any (fun m => m.status ≠ .removed) = true ↔ Belongs s w i := by
  simp only [Option.any_eq_true, decide_eq_true_eq, ne_eq]
  constructor
  · rintro ⟨m, hm, hst⟩
    obtain ⟨hmem, hw, hu, hd⟩ := (ho m).mp hm
    exact ⟨m, hmem, hw, hu, hd, hst⟩
  · rintro ⟨m, hmem, hw, hu, hd, hst⟩
    exact ⟨m, (ho m).mpr ⟨hmem, hw, hu, hd⟩, hst⟩

/-- **Joining**: nothing to do for a member, or the membership of the invite is added. -/
theorem joinUnlessMember_spec {invite : WorkspaceInvite}
    (h : (joinUnlessMember d invite user).Returns s u s') :
    (Belongs s invite.workspaceId user.id ∧ s' = s) ∨
    ¬ Belongs s invite.workspaceId user.id ∧ CanJoin s d invite user ∧
      ∃ T, s.workspaceMembers.insert (memberOf d invite user) = some T ∧
        s' = { s with workspaceMembers := T } := by
  unfold joinUnlessMember at h
  rw [Prog.returns_bind] at h
  obtain ⟨em, t, hm, h⟩ := h
  obtain ⟨rfl, ho⟩ := getMember_spec hm
  rw [Prog.returns_ite] at h
  split_ifs at h with hb
  · obtain ⟨-, rfl⟩ := Prog.returns_pure.mp h
    exact Or.inl ⟨(any_getMember_iff ho).mp hb, rfl⟩
  · obtain ⟨_, hc, -⟩ := Prog.returns_bind_pure.mp h
    obtain ⟨-, href, T, hT, rfl⟩ := returns_create.mp hc
    have hins : t.workspaceMembers.insert (memberOf d invite user) = some T := hT
    exact Or.inr ⟨fun hb' => hb ((any_getMember_iff ho).mpr hb'),
      canJoin_iff.mpr ⟨href, T, hins⟩, T, hins, rfl⟩

/-- What `accept_invite` checks before it does anything. -/
structure Checked (s : Database) (d : Draws) (user : User) (token : String)
    (invite : WorkspaceInvite) : Prop where
  mem : invite ∈ s.workspaceInvites.rows
  token : invite.token = token
  pending : invite.status = .pending
  inTime : d.now 0 ≤ invite.expiresAt
  email : invite.email = user.email

/-- What it does for an invite that passed. -/
def takeInvite (d : Draws) (user : User) (invite : WorkspaceInvite) : Svc Unit := do
  joinUnlessMember d invite user
  let _ ← Repositories.acceptInvite invite.id (d.now 3) (d.now 4)
  auditInvite d invite.workspaceId user.id invite "INVITE_ACCEPTED"
  match invite.inviterId with
  | none => pure ()
  | some inviterId =>
    notify (d.uuid 1) invite.workspaceId inviterId "Invitation Accepted"
      s!"{user.email} has accepted your invitation." .system .normal (d.now 6)

theorem acceptInvite_checked (h : (acceptInvite d user token).Returns s u s') :
    ∃ invite, Checked s d user token invite ∧ (takeInvite d user invite).Returns s u s' := by
  unfold acceptInvite at h
  rw [Prog.returns_bind] at h
  obtain ⟨found, t₁, hget, h⟩ := h
  obtain ⟨rfl, hf⟩ := selectOne_spec hget
  rw [Prog.returns_bind] at h
  obtain ⟨invite, t₂, hinv, h⟩ := h
  obtain ⟨rfl, rfl⟩ := returns_orRaise.mp hinv
  obtain ⟨hmem, htok⟩ := (hf invite).mp rfl
  rw [Prog.returns_bind] at h
  obtain ⟨_, t₃, hreq, h⟩ := h
  obtain ⟨h1, rfl⟩ := Prog.returns_require.mp hreq
  rw [Prog.returns_bind] at h
  obtain ⟨_, t₃, hreq, h⟩ := h
  obtain ⟨h2, rfl⟩ := Prog.returns_require.mp hreq
  rw [Prog.returns_bind] at h
  obtain ⟨_, t₃, hreq, h⟩ := h
  obtain ⟨h3, rfl⟩ := Prog.returns_require.mp hreq
  rw [Prog.returns_bind] at h
  obtain ⟨_, t₃, hreq, h⟩ := h
  obtain ⟨hemail, rfl⟩ := Prog.returns_require.mp hreq
  have hpend : invite.status = .pending := by
    rcases hst : invite.status with _ | _ | _ | _
    · rfl
    · exact absurd hst h2
    · exact absurd hst h1
    · exact absurd (Or.inl hst) h3
  have htime : d.now 0 ≤ invite.expiresAt := not_lt.mp fun hlt => h3 (Or.inr hlt)
  exact ⟨invite, ⟨hmem, by simpa using htok, hpend, htime, hemail⟩, h⟩

theorem eq_of_token {i j : WorkspaceInvite} (hi : i ∈ s.workspaceInvites.rows)
    (hj : j ∈ s.workspaceInvites.rows) (htok : j.token = i.token) : j = i := by
  refine s.workspaceInvites.eq_of_not_compatible hj hi ?_
  simp [Keyed.compatible, htok]

theorem acceptInvite_of_checked {invite : WorkspaceInvite} (h : Checked s d user token invite) :
    acceptInvite d user token s = takeInvite d user invite s := by
  have hget : (getByToken token).Returns s (some invite) s := by
    refine returns_selectOne_some h.mem (by simpa using h.token) fun j hj htok => ?_
    exact eq_of_token h.mem hj ((of_decide_eq_true htok).trans h.token.symm)
  have hne : ∀ st : InviteStatus, st ≠ .pending → invite.status ≠ st := by
    intro st hst heq
    exact hst (heq.symm.trans h.pending)
  have hpass {c : Prop} [Decidable c] {e : Exc} (hc : c) : (Prog.require c e).Returns s () s :=
    Prog.returns_require.mpr ⟨hc, rfl⟩
  unfold acceptInvite
  rw [Prog.bind_of_returns hget, Prog.bind_of_returns (returns_orRaise.mpr ⟨rfl, rfl⟩),
    Prog.bind_of_returns (hpass (hne .revoked (by decide))),
    Prog.bind_of_returns (hpass (hne .accepted (by decide))),
    Prog.bind_of_returns (hpass (not_or.mpr ⟨hne _ (by decide), not_lt.mpr h.inTime⟩)),
    Prog.bind_of_returns (hpass h.email)]
  rfl

/-- **An invite that passed**: unless the user is a member its membership is added; the invite is
accepted if it has not expired at the later reading of the clock. -/
theorem takeInvite_exact {invite : WorkspaceInvite} (hi : Checked s d user token invite)
    (h : (takeInvite d user invite).Returns s u s') : Accepts s d user token invite ∧ ∃ T I N L,
      (Belongs s invite.workspaceId user.id ∧ T = s.workspaceMembers ∨
        ¬ Belongs s invite.workspaceId user.id ∧
          s.workspaceMembers.insert (memberOf d invite user) = some T) ∧
      (invite.expiresAt ≤ d.now 3 ∧ I = s.workspaceInvites ∨
        d.now 3 < invite.expiresAt ∧ s.workspaceInvites.modify invite.id
          (fun i => { i with status := .accepted, acceptedAt := some (d.now 4) }) = some I) ∧
      s' = { s with workspaceMembers := T, workspaceInvites := I, notifications := N,
                    auditLogs := L } := by
  unfold takeInvite at h
  rw [Prog.returns_bind] at h
  obtain ⟨_, t₄, hjoin, h⟩ := h
  obtain ⟨T, hcan, hT, rfl⟩ : ∃ T,
      (Belongs s invite.workspaceId user.id ∨ CanJoin s d invite user) ∧
      (Belongs s invite.workspaceId user.id ∧ T = s.workspaceMembers ∨
        ¬ Belongs s invite.workspaceId user.id ∧
          s.workspaceMembers.insert (memberOf d invite user) = some T) ∧
      t₄ = { s with workspaceMembers := T } := by
    rcases joinUnlessMember_spec hjoin with ⟨hb, rfl⟩ | ⟨hb, hcan, T, hT, rfl⟩
    · exact ⟨_, Or.inl hb, Or.inl ⟨hb, rfl⟩, rfl⟩
    · exact ⟨T, Or.inr hcan, Or.inr ⟨hb, hT⟩, rfl⟩
  rw [Prog.returns_bind] at h
  obtain ⟨_, t₅, hacc, h⟩ := h
  obtain ⟨I, href, hI, rfl⟩ : ∃ I,
      (d.now 3 < invite.expiresAt → Model.references s invite = true) ∧
      (invite.expiresAt ≤ d.now 3 ∧ I = s.workspaceInvites ∨
        d.now 3 < invite.expiresAt ∧ s.workspaceInvites.modify invite.id
          (fun i => { i with status := .accepted, acceptedAt := some (d.now 4) }) = some I) ∧
      t₅ = { s with workspaceMembers := T, workspaceInvites := I } := by
    rcases acceptInvite_repository_spec (s := { s with workspaceMembers := T }) hi.mem hi.pending
      hacc with ⟨hle, rfl⟩ | ⟨hlt, href, I, hI, rfl⟩
    · exact ⟨_, fun hlt => absurd hlt (not_lt.mpr hle), Or.inl ⟨hle, rfl⟩, rfl⟩
    · exact ⟨I, fun _ => href, Or.inr ⟨hlt, hI⟩, rfl⟩
  rw [Prog.returns_bind] at h
  obtain ⟨_, t₆, hlog, h⟩ := h
  obtain rfl := Prog.returns_modify.mp hlog
  have haccepts (htell : CanTell s d invite) : Accepts s d user token invite :=
    ⟨hi.mem, hi.token, hi.pending, hi.inTime, hi.email, hcan, href, htell⟩
  rcases hinviter : invite.inviterId with _ | inviter
  · rw [hinviter] at h
    obtain ⟨-, rfl⟩ := Prog.returns_pure.mp h
    refine ⟨haccepts fun v hv => ?_, T, I, _, _, hT, hI, rfl⟩
    rw [hinviter] at hv
    exact absurd hv (by simp)
  · rw [hinviter] at h
    obtain ⟨_, hn, -⟩ := Prog.returns_bind_pure.mp h
    obtain ⟨-, hnref, N, hN, rfl⟩ := returns_create.mp hn
    refine ⟨haccepts fun v hv => ?_, T, I, N, _, hT, hI, rfl⟩
    rw [hinviter] at hv
    obtain rfl := Option.some.inj hv
    simp only [Model.references, Bool.and_eq_true] at hnref
    exact ⟨fun n hn => (Table.apart_of_insert hN hn).1, hnref⟩

/-- **`accept_invite`**: the token names a pending invite to the user's address that had not expired
at the first reading of the clock; unless the user is a member its membership is added; the invite
is accepted if it has not expired at the later reading. -/
theorem acceptInvite_exact (h : (acceptInvite d user token).Returns s u s') :
    ∃ invite, Accepts s d user token invite ∧ ∃ T I N L,
      (Belongs s invite.workspaceId user.id ∧ T = s.workspaceMembers ∨
        ¬ Belongs s invite.workspaceId user.id ∧
          s.workspaceMembers.insert (memberOf d invite user) = some T) ∧
      (invite.expiresAt ≤ d.now 3 ∧ I = s.workspaceInvites ∨
        d.now 3 < invite.expiresAt ∧ s.workspaceInvites.modify invite.id
          (fun i => { i with status := .accepted, acceptedAt := some (d.now 4) }) = some I) ∧
      s' = { s with workspaceMembers := T, workspaceInvites := I, notifications := N,
                    auditLogs := L } := by
  obtain ⟨invite, hi, htake⟩ := acceptInvite_checked h
  exact ⟨invite, takeInvite_exact hi htake⟩

theorem evolved_of_accepts {invite : WorkspaceInvite} {I : Table WorkspaceInvite}
    (ha : Accepts s d user token invite)
    (hI : invite.expiresAt ≤ d.now 3 ∧ I = s.workspaceInvites ∨
      d.now 3 < invite.expiresAt ∧ s.workspaceInvites.modify invite.id
        (fun i => { i with status := .accepted, acceptedAt := some (d.now 4) }) = some I) :
    Evolved s.workspaceInvites I := by
  rcases hI with ⟨-, rfl⟩ | ⟨-, hI⟩
  · exact evolved_refl _
  · refine evolved_of_modify (fun j hj hk => ?_) hI
    have : j = invite := s.workspaceInvites.eq_of_key_eq hj ha.mem hk
    subst this
    exact later_accepted ha.pending _

/-- **`accept_invite`**: the token names a pending invite to the user's address, and at most its
membership is added. -/
theorem acceptInvite_spec (h : (acceptInvite d user token).Returns s u s') :
    ∃ invite, Accepts s d user token invite ∧ ∃ T I N L, Joined d invite user s T ∧
        Evolved s.workspaceInvites I ∧
        s' = { s with workspaceMembers := T, workspaceInvites := I, notifications := N,
                      auditLogs := L } := by
  obtain ⟨invite, ha, T, I, N, L, hT, hI, rfl⟩ := acceptInvite_exact h
  refine ⟨invite, ha, T, I, N, L, ?_, evolved_of_accepts ha hI, rfl⟩
  rcases hT with ⟨-, rfl⟩ | ⟨-, hT⟩
  · exact Or.inl rfl
  · exact Or.inr hT

theorem Accepts.unique {i j : WorkspaceInvite} (hi : Accepts s d user token i)
    (hj : j ∈ s.workspaceInvites.rows) (htok : j.token = token) : j = i :=
  eq_of_token hi.mem hj (htok.trans hi.token.symm)

theorem Accepts.checked {invite : WorkspaceInvite} (h : Accepts s d user token invite) :
    Checked s d user token invite :=
  ⟨h.mem, h.token, h.pending, h.inTime, h.email⟩

theorem joinUnlessMember_returns {invite : WorkspaceInvite}
    (h : Belongs s invite.workspaceId user.id ∨ CanJoin s d invite user) :
    ∃ T, (joinUnlessMember d invite user).Returns s () { s with workspaceMembers := T } := by
  obtain ⟨o, hget⟩ := Repositories.getMember_returns s invite.workspaceId user.id
  have hany := any_getMember_iff (getMember_spec hget).2
  by_cases hb : Belongs s invite.workspaceId user.id
  · refine ⟨s.workspaceMembers, Prog.returns_bind.mpr ⟨o, s, hget, ?_⟩⟩
    rw [if_pos (hany.mpr hb)]
    exact Prog.returns_pure.mpr ⟨rfl, rfl⟩
  · obtain ⟨href, T, hT⟩ := canJoin_iff.mp (h.resolve_left hb)
    refine ⟨T, Prog.returns_bind.mpr ⟨o, s, hget, ?_⟩⟩
    rw [if_neg fun h => hb (hany.mp h)]
    exact Prog.returns_bind_pure.mpr ⟨_, returns_create.mpr ⟨rfl, href, T, hT, rfl⟩, rfl⟩

theorem acceptInvite_repository_returns {invite : WorkspaceInvite} {b : Time}
    (hi : invite ∈ s.workspaceInvites.rows)
    (href : t < invite.expiresAt → Model.references s invite = true) :
    ∃ o I, (Repositories.acceptInvite invite.id t b).Returns s o
      { s with workspaceInvites := I } := by
  have hget : (getById WorkspaceInvite invite.id).Returns s (some invite) s :=
    getById_returns hi rfl rfl
  by_cases hc : invite.status = .pending ∧ t < invite.expiresAt
  · obtain ⟨I, hI⟩ : ∃ I, s.workspaceInvites.modify invite.id
        (fun i => { i with status := .accepted, acceptedAt := some b }) = some I := by
      refine Table.exists_modify_of_imp (fun _ => rfl) fun i j h => ?_
      simp only [Keyed.compatible, Bool.and_eq_true] at h ⊢
      exact ⟨h.1, by simp⟩
    refine ⟨some { invite with status := .accepted, acceptedAt := some b }, I,
      Prog.returns_bind.mpr ⟨_, s, hget, ?_⟩⟩
    simp only [if_pos hc]
    exact Prog.returns_bind_pure.mpr
      ⟨_, returns_update.mpr ⟨invite, hi, rfl, rfl, href hc.2, I, hI, rfl⟩, rfl⟩
  · refine ⟨none, s.workspaceInvites, Prog.returns_bind.mpr ⟨_, s, hget, ?_⟩⟩
    simp only [if_neg hc]
    exact Prog.returns_pure.mpr ⟨rfl, rfl⟩

/-- **The calls that return** are the ones that are accepted. -/
theorem acceptInvite_succeeds {invite : WorkspaceInvite} (h : Accepts s d user token invite) :
    (acceptInvite d user token).succeeds s = true := by
  obtain ⟨T, hjoin⟩ := joinUnlessMember_returns h.joins
  obtain ⟨o, I, hacc⟩ := acceptInvite_repository_returns (b := d.now 4)
    (s := { s with workspaceMembers := T }) h.mem h.references
  rw [Prog.succeeds, acceptInvite_of_checked h.checked, ← Prog.succeeds]
  unfold takeInvite
  rw [Prog.succeeds_bind hjoin, Prog.succeeds_bind hacc,
    Prog.succeeds_bind (p := auditInvite d invite.workspaceId user.id invite "INVITE_ACCEPTED")
      (createAuditLog_returns _ _)]
  rcases hi : invite.inviterId with _ | inviter
  · rfl
  · obtain ⟨hfresh, hw, hu⟩ := h.tells inviter hi
    exact notify_succeeds hfresh hw hu

/-! ### Revoking and resending -/

theorem changePending_spec {write : Uuid → Svc (Option WorkspaceInvite)} {refused : String}
    {a : WorkspaceInvite}
    (hw : ∀ {i o t t'}, (write i).Returns t o t' →
      ∃ T, Evolved t.workspaceInvites T ∧ t' = { t with workspaceInvites := T })
    (h : (changePending d user workspace i refused write action).Returns s a s') :
    ∃ T N L, Evolved s.workspaceInvites T ∧
      s' = { s with workspaceInvites := T, notifications := N, auditLogs := L } := by
  unfold changePending at h
  rw [Prog.returns_bind] at h
  obtain ⟨found, t₁, hget, h⟩ := h
  obtain ⟨rfl, -⟩ := getById_spec hget
  rw [Prog.returns_bind] at h
  obtain ⟨invite, t₂, hinv, h⟩ := h
  obtain ⟨-, rfl⟩ := returns_orRaise.mp hinv
  rw [Prog.returns_bind] at h
  obtain ⟨_, t₃, hreq, h⟩ := h
  obtain ⟨-, rfl⟩ := Prog.returns_require.mp hreq
  rw [Prog.returns_bind] at h
  obtain ⟨_, t₃, hreq, h⟩ := h
  obtain ⟨-, rfl⟩ := Prog.returns_require.mp hreq
  rw [Prog.returns_bind] at h
  obtain ⟨_, t₄, hwrite, h⟩ := h
  obtain ⟨T, hT, rfl⟩ := hw hwrite
  rw [Prog.returns_bind] at h
  obtain ⟨_, t₅, hres, h⟩ := h
  obtain ⟨-, rfl⟩ := returns_orRaise.mp hres
  rw [Prog.returns_bind] at h
  obtain ⟨_, t₆, hlog, h⟩ := h
  obtain ⟨-, rfl⟩ := Prog.returns_pure.mp h
  obtain ⟨N, L, rfl⟩ := recorded_of_createAuditLog hlog
  exact ⟨T, N, L, hT, rfl⟩

theorem revokeInvite_spec {a : WorkspaceInvite}
    (h : (revokeInvite d user workspace i).Returns s a s') :
    ∃ T N L, Evolved s.workspaceInvites T ∧
      s' = { s with workspaceInvites := T, notifications := N, auditLogs := L } :=
  changePending_spec revokeInvite_evolved h

theorem resendInvite_spec {a : WorkspaceInvite}
    (h : (resendInvite d user workspace i).Returns s a s') :
    ∃ T N L, Evolved s.workspaceInvites T ∧
      s' = { s with workspaceInvites := T, notifications := N, auditLogs := L } :=
  changePending_spec resendInvite_evolved h

end MarketingSuite.Workspaces.Invitations
