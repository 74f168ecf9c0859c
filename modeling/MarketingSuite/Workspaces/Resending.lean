import MarketingSuite.Workspaces.System

/-! # Resending an invite

`resend_invite` of `app/services/workspace_invitation.py` takes the time from
`datetime.now(timezone.utc)`, where `create_invite` and `accept_invite` take it from `get_utc_now`,
which drops the time zone as the column wants it. The driver refuses the aware value, so that no
pending invite can be resent; with a naive value every one could. -/

namespace MarketingSuite.Workspaces.Resending

open MarketingSuite.Lib.Programs MarketingSuite.Lib.Tables
open MarketingSuite.Base.Values MarketingSuite.Base.Models MarketingSuite.Base.Schema
open MarketingSuite.Repositories.Base MarketingSuite.Repositories.Records
open MarketingSuite.Workspaces.Repositories (bindNaive)
open MarketingSuite.Workspaces.System (founded step studio)
open MarketingSuite.Workspaces.Invitations (Checked acceptInvite acceptInvite_of_checked auditInvite
  changePending joinUnlessMember resendInvite takeInvite)

/-! ### What resending is for -/

/-- What a user gets who accepts too late. -/
def expired : Exc := .http 400 "Invitation has expired"

/-- As long as the row of this invite stands, and until it expires, nobody with its address is told
that it has expired. -/
def Acceptable (invite : WorkspaceInvite) : Prop :=
  ∀ (s s' : Database) (d : Draws) (user : User), invite ∈ s.workspaceInvites.rows →
    user.email = invite.email → d.now 0 ≤ invite.expiresAt →
      ¬ (acceptInvite d user invite.token).Raises s expired s'

/-- The invite, valid for seven days from now. -/
def extended (d : Draws) (invite : WorkspaceInvite) : WorkspaceInvite :=
  { invite with expiresAt := d.now 0 + days 7 }

/-- Resending extends the invite: a pending one gets seven days more and keeps all else, and another
one is left alone. -/
structure Extends (resend : Svc WorkspaceInvite) (s : Database) (d : Draws)
    (invite : WorkspaceInvite) : Prop where
  pending : invite.status = .pending → ∃ s', resend.Returns s (extended d invite) s' ∧
    extended d invite ∈ s'.workspaceInvites.rows ∧ Acceptable (extended d invite)
  decided : invite.status ≠ .pending → (resend.run s).2 = s

/-- `resend_invite`, with the new expiry as a parameter. -/
def resendUntil (d : Draws) (user : User) (workspace : Workspace) (inviteId : Uuid)
    (newExpiresAt : DateTime) : Svc WorkspaceInvite :=
  changePending d user workspace inviteId "Only pending invitations can be resent"
    (fun id => Repositories.resendInvite id newExpiresAt) "INVITE_RESENT"

theorem resendInvite_eq (d : Draws) (user : User) (workspace : Workspace) (i : Uuid) :
    resendInvite d user workspace i =
      resendUntil d user workspace i ⟨d.now 0 + days 7, true⟩ := rfl

variable {s s' : Database} {d : Draws} {user : User} {workspace : Workspace}
  {invite : WorkspaceInvite} {e : DateTime}

/-! ### Accepting in time -/

theorem raisesOnly_join (invite : WorkspaceInvite) (user : User) :
    Prog.RaisesOnly (fun e => e ≠ expired) (joinUnlessMember d invite user) := by
  refine Prog.raisesOnly_bind (raisesOnly_selectOne nofun) fun found => ?_
  refine Prog.raisesOnly_ite (Prog.raisesOnly_pure ()) ?_
  exact Prog.raisesOnly_bind (raisesOnly_create nofun) fun _ => Prog.raisesOnly_pure ()

theorem raisesOnly_accept (i : Uuid) (now acceptedAt : Time) :
    Prog.RaisesOnly (fun e => e ≠ expired) (Repositories.acceptInvite i now acceptedAt) := by
  refine Prog.raisesOnly_bind (raisesOnly_selectOne nofun) fun found => ?_
  rcases found with _ | invite
  · exact Prog.raisesOnly_pure none
  · refine Prog.raisesOnly_ite ?_ (Prog.raisesOnly_pure none)
    exact Prog.raisesOnly_bind (raisesOnly_update nofun nofun) fun _ => Prog.raisesOnly_pure _

theorem acceptable_of_pending (hp : invite.status = .pending) : Acceptable invite := by
  intro s s' d user hi hemail htime hraises
  have hchecked : Checked s d user invite.token invite := ⟨hi, rfl, hp, htime, hemail.symm⟩
  rw [Prog.Raises, acceptInvite_of_checked hchecked, ← Prog.Raises] at hraises
  unfold takeInvite at hraises
  rcases Prog.raises_bind.mp hraises with hjoin | ⟨_, t₁, -, hraises⟩
  · exact raisesOnly_join invite user s _ s' hjoin rfl
  rcases Prog.raises_bind.mp hraises with hacc | ⟨_, t₂, -, hraises⟩
  · exact raisesOnly_accept invite.id (d.now 3) (d.now 4) t₁ _ s' hacc rfl
  rcases Prog.raises_bind.mp hraises with haudit | ⟨_, t₃, -, htell⟩
  · exact Prog.raisesOnly_modify (P := fun e => e ≠ expired) _ t₂ _ s' haudit rfl
  rcases hinv : invite.inviterId with _ | inviter
  · rw [hinv] at htell
    exact Prog.not_raises_pure htell
  · rw [hinv] at htell
    exact raisesOnly_notify (P := fun e => e ≠ expired) (by decide) t₃ _ s' htell rfl

/-! ### The write -/

/-- **An aware expiry** is refused by the driver, for every pending invite. -/
theorem resend_aware (hi : invite ∈ s.workspaceInvites.rows) (hp : invite.status = .pending)
    (he : e.aware = true) :
    (Repositories.resendInvite invite.id e).Raises s .dataError s := by
  have hget : (getById WorkspaceInvite invite.id).Returns s (some invite) s :=
    getById_returns hi rfl rfl
  have hbind : (Prog.ofExcept (bindNaive e) : Svc Time).Raises s .dataError s := by
    unfold bindNaive
    rw [if_pos he]
    rfl
  unfold Repositories.resendInvite
  rw [Prog.raises_bind_of_returns hget]
  simp only [if_pos hp]
  exact (Prog.raises_bind_of_raises hbind).mpr ⟨rfl, rfl⟩

/-- **A naive expiry** is written to a pending invite. -/
theorem resend_naive (hi : invite ∈ s.workspaceInvites.rows) (hp : invite.status = .pending)
    (href : Model.references s invite = true) (he : e.aware = false) :
    ∃ T, { invite with expiresAt := e.instant } ∈ T.rows ∧
      (Repositories.resendInvite invite.id e).Returns s
        (some { invite with expiresAt := e.instant }) { s with workspaceInvites := T } := by
  have hget : (getById WorkspaceInvite invite.id).Returns s (some invite) s :=
    getById_returns hi rfl rfl
  have hbind : bindNaive e = .ok e.instant := if_neg (by simp [he])
  obtain ⟨T, hT⟩ := Table.exists_modify (T := s.workspaceInvites) (k := invite.id)
    (f := fun i : WorkspaceInvite => { i with expiresAt := e.instant }) (fun _ => rfl)
    fun _ _ => rfl
  refine ⟨T, Table.mem_modify_self hT hi rfl, ?_⟩
  refine Prog.returns_bind.mpr ⟨some invite, s, hget, ?_⟩
  simp only [if_pos hp]
  refine Prog.returns_bind.mpr ⟨e.instant, s, Prog.returns_ofExcept.mpr ⟨hbind, rfl⟩, ?_⟩
  exact Prog.returns_bind_pure.mpr
    ⟨_, returns_update.mpr ⟨invite, hi, rfl, rfl, href, T, hT, rfl⟩, rfl⟩

/-! ### The service -/

/-- The service on a pending invite of the workspace is the write, and an entry in the audit log. -/
theorem resendUntil_raises {x : Exc} (hi : invite ∈ s.workspaceInvites.rows)
    (hw : invite.workspaceId = workspace.id) (hp : invite.status = .pending)
    (h : (Repositories.resendInvite invite.id e).Raises s x s') :
    (resendUntil d user workspace invite.id e).Raises s x s' := by
  have hget : (getById WorkspaceInvite invite.id).Returns s (some invite) s :=
    getById_returns hi rfl rfl
  unfold resendUntil changePending
  rw [Prog.raises_bind_of_returns hget,
    Prog.raises_bind_of_returns (returns_orRaise.mpr ⟨rfl, rfl⟩),
    Prog.raises_bind_of_pass hw,
    Prog.raises_bind_of_pass hp]
  exact (Prog.raises_bind_of_raises h).mpr ⟨rfl, rfl⟩

theorem resendUntil_returns (user : User) {a : WorkspaceInvite}
    (hi : invite ∈ s.workspaceInvites.rows) (hw : invite.workspaceId = workspace.id)
    (hp : invite.status = .pending)
    (h : (Repositories.resendInvite invite.id e).Returns s (some a) s') :
    ∃ t, (resendUntil d user workspace invite.id e).Returns s a t ∧
      t.workspaceInvites = s'.workspaceInvites := by
  obtain ⟨t, hlog, hkept⟩ : ∃ t, (auditInvite d workspace.id user.id a "INVITE_RESENT").Returns
      s' () t ∧ t.workspaceInvites = s'.workspaceInvites := ⟨_, createAuditLog_returns _ _, rfl⟩
  have hget : (getById WorkspaceInvite invite.id).Returns s (some invite) s :=
    getById_returns hi rfl rfl
  refine ⟨t, Prog.returns_bind.mpr ⟨some invite, s, hget, ?_⟩, hkept⟩
  refine Prog.returns_bind.mpr ⟨invite, s, returns_orRaise.mpr ⟨rfl, rfl⟩, ?_⟩
  refine Prog.returns_bind.mpr ⟨(), s, Prog.returns_require.mpr ⟨hw, rfl⟩, ?_⟩
  refine Prog.returns_bind.mpr ⟨(), s, Prog.returns_require.mpr ⟨hp, rfl⟩, ?_⟩
  refine Prog.returns_bind.mpr ⟨some a, s', h, ?_⟩
  refine Prog.returns_bind.mpr ⟨a, s', returns_orRaise.mpr ⟨rfl, rfl⟩, ?_⟩
  exact Prog.returns_bind.mpr ⟨(), t, hlog, Prog.returns_pure.mpr ⟨rfl, rfl⟩⟩

theorem resendUntil_decided (user : User) (hi : invite ∈ s.workspaceInvites.rows)
    (hw : invite.workspaceId = workspace.id) (hp : invite.status ≠ .pending) :
    (resendUntil d user workspace invite.id e).Raises s
      (.http 400 "Only pending invitations can be resent") s := by
  have hget : (getById WorkspaceInvite invite.id).Returns s (some invite) s :=
    getById_returns hi rfl rfl
  unfold resendUntil changePending
  rw [Prog.raises_bind_of_returns hget,
    Prog.raises_bind_of_returns (returns_orRaise.mpr ⟨rfl, rfl⟩),
    Prog.raises_bind_of_pass hw]
  exact (Prog.raises_bind_of_raises (Prog.raises_require.mpr ⟨hp, rfl, rfl⟩)).mpr ⟨rfl, rfl⟩

/-- **With a naive expiry the service would extend every invite** whose foreign keys hold. -/
theorem extends_of_naive (hi : invite ∈ s.workspaceInvites.rows)
    (hw : invite.workspaceId = workspace.id) (href : Model.references s invite = true) :
    Extends (resendUntil d user workspace invite.id ⟨d.now 0 + days 7, false⟩) s d invite := by
  constructor
  · intro hp
    obtain ⟨T, hmem, hwrite⟩ := resend_naive (e := ⟨d.now 0 + days 7, false⟩) hi hp href rfl
    obtain ⟨t, hret, hkept⟩ := resendUntil_returns (d := d) user hi hw hp hwrite
    refine ⟨t, hret, ?_, acceptable_of_pending hp⟩
    rw [hkept]
    exact hmem
  · intro hp
    exact (Prod.mk.inj (resendUntil_decided (d := d) user hi hw hp)).2

/-- **`resend_invite` extends an invite** exactly if it is not pending, when there is nothing to
extend. -/
theorem extends_iff (user : User) (d : Draws) (hi : invite ∈ s.workspaceInvites.rows)
    (hw : invite.workspaceId = workspace.id) :
    Extends (resendInvite d user workspace invite.id) s d invite ↔ invite.status ≠ .pending := by
  rw [resendInvite_eq]
  constructor
  · intro h hp
    obtain ⟨s', hret, -, -⟩ := h.pending hp
    exact Prog.not_raises_of_returns hret (resendUntil_raises hi hw hp (resend_aware hi hp rfl))
  · intro hp
    refine ⟨fun hpend => absurd hpend hp, fun _ => ?_⟩
    exact congrArg Prod.snd (resendUntil_decided (d := d) user hi hw hp)

/-! ### An invite of the first workspace -/

/-- The owner invites the third user. -/
def inviting : Database :=
  step id founded (.on (drawsFrom 20 0 "t") 1 10 (.createInvite "guest@example.com" 7))

/-- The invite that this makes. -/
def guestInvite : WorkspaceInvite := Repositories.invitation id (drawsFrom 20 0 "t") 10
  "guest@example.com" 7 1 (days 7)

/-- The invite, revoked. -/
def revoked : WorkspaceInvite := { guestInvite with status := .revoked, revokedAt := some 0 }

theorem extends_iff_revoked :
    Extends (resendInvite (drawsFrom 30 0 "") (userOf 1 "owner@example.com") studio revoked.id)
      (step id inviting (.on (drawsFrom 30 0 "") 1 10 (.revokeInvite 20))) (drawsFrom 30 0 "")
      revoked ↔ revoked.status ≠ .pending :=
  extends_iff _ _ (by decide) rfl

/-- **The invite cannot be resent**: the owner is answered with an error of the driver. -/
theorem invite_not_resent :
    guestInvite ∈ inviting.workspaceInvites.rows ∧ guestInvite.workspaceId = studio.id ∧
      ¬ Extends (resendInvite (drawsFrom 30 0 "") (userOf 1 "owner@example.com") studio
        guestInvite.id) inviting (drawsFrom 30 0 "") guestInvite := by
  refine ⟨by decide, rfl, fun h => ?_⟩
  obtain ⟨s', hret, -, -⟩ := h.pending rfl
  have hfails : (resendInvite (drawsFrom 30 0 "") (userOf 1 "owner@example.com") studio
      guestInvite.id).succeeds inviting = false := by decide
  rw [Prog.succeeds_of_returns hret] at hfails
  exact absurd hfails (by decide)

end MarketingSuite.Workspaces.Resending
