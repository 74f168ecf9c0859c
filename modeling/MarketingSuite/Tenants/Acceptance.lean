import MarketingSuite.Lib.Sessions
import MarketingSuite.Tenants.Events

/-! # Accepting an invite

Two gaps in `accept_invite`. The service looks at the clock before it adds the member and the
repository looks again after that, and what the repository answers is not read: a call between whose
readings the invite expires returns with a member and a pending invite. And a user who was removed
cannot come back: the service does not count a deleted member row, the unique constraint does. -/

namespace MarketingSuite.Tenants.Acceptance

open MarketingSuite.Lib.Programs MarketingSuite.Lib.Tables MarketingSuite.Lib.Runs
open MarketingSuite.Lib.Sessions
open MarketingSuite.Base.Values MarketingSuite.Base.Models MarketingSuite.Base.Schema
open MarketingSuite.Repositories.Base
open MarketingSuite.Workspaces
open MarketingSuite.Workspaces.Invitations (Accepts Belongs CanJoin CanTell Later memberOf
  acceptInvite acceptInvite_exact acceptInvite_succeeds)
open MarketingSuite.Tenants.Events

/-! ### What a call that returns leaves -/

/-- The body of the endpoint, in the session of its request, for a user who has signed in. -/
def accept (d : Draws) (user : User) (token : String) : Svc Unit :=
  Session.serve do
    Session.exec (acceptInvite d user token)
    Session.commit

/-- The invite with this token is accepted, and the user is a member of its workspace. -/
def Admitted (s : Database) (user : User) (token : String) : Prop :=
  ∃ i ∈ s.workspaceInvites.rows, i.token = token ∧ i.status = .accepted ∧
    ∃ m ∈ s.workspaceMembers.rows, m.workspaceId = i.workspaceId ∧ m.userId = user.id ∧
      m.deletedAt = none

/-- A call that returns has admitted the user, and one that raises has changed neither the invites
nor the members. -/
def Faithful (s : Database) (d : Draws) (user : User) (token : String) : Prop :=
  ((accept d user token).succeeds s = true → Admitted (accept d user token s).2 user token) ∧
    ((accept d user token).succeeds s = false →
      (accept d user token s).2.workspaceInvites = s.workspaceInvites ∧
        (accept d user token s).2.workspaceMembers = s.workspaceMembers)

/-- The call is one that the service accepts, and the invite has expired when the repository looks
at the clock. -/
def ExpiresMeanwhile (s : Database) (d : Draws) (user : User) (token : String) : Prop :=
  ∃ invite, Accepts s d user token invite ∧ invite.expiresAt ≤ d.now 3

variable {lower : String → String} {s s' : Database} {d : Draws} {user : User} {token : String}
  {invite : WorkspaceInvite}

theorem accept_of_returns (h : (acceptInvite d user token).Returns s () s') :
    accept d user token s = (.ok (), s') := by
  unfold Prog.Returns at h
  simp [accept, Session.serve, Session.exec, Session.commit, Session.fresh, Session.view, bind, h]

theorem accept_of_raises {e : Exc} (h : (acceptInvite d user token).Raises s e s') :
    accept d user token s = (.error e, s) := by
  unfold Prog.Raises at h
  simp [accept, Session.serve, Session.exec, Session.fresh, Session.view, bind, h]

/-- A call that the service accepts returns, and admits the user if the invite has not expired by
the second reading of the clock. -/
theorem admitted_iff (h : (acceptInvite d user token).Returns s () s')
    (ha : Accepts s d user token invite) :
    Admitted s' user token ↔ d.now 3 < invite.expiresAt := by
  obtain ⟨invite', ha', T, I, N, L, hT, hI, rfl⟩ := acceptInvite_exact h
  obtain rfl : invite' = invite := ha.unique ha'.mem ha'.token
  have hmember : ∃ m ∈ T.rows, m.workspaceId = invite'.workspaceId ∧ m.userId = user.id ∧
      m.deletedAt = none := by
    rcases hT with ⟨⟨m, hm, hw, hu, hd, -⟩, rfl⟩ | ⟨-, hT⟩
    · exact ⟨m, hm, hw, hu, hd⟩
    · exact ⟨_, Table.mem_insert_self hT, rfl, rfl, rfl⟩
  rcases hI with ⟨hle, rfl⟩ | ⟨hlt, hI⟩
  · refine ⟨?_, fun hlt => absurd hlt (not_lt.mpr hle)⟩
    rintro ⟨i, hi, htok, hst, -⟩
    obtain rfl : i = invite' := ha.unique hi htok
    rw [ha.pending] at hst
    exact absurd hst (by decide)
  · exact ⟨fun _ => hlt, fun _ => ⟨_, Table.mem_modify_self hI ha.mem rfl, ha.token, rfl, hmember⟩⟩

/-- **A call is faithful exactly when the invite does not expire between its two readings of the
clock.** -/
theorem faithful_iff (s : Database) (d : Draws) (user : User) (token : String) :
    Faithful s d user token ↔ ¬ ExpiresMeanwhile s d user token := by
  rcases (acceptInvite d user token).returns_or_raises s with ⟨_, s', h⟩ | ⟨e, s', h⟩
  · have haccept := accept_of_returns h
    obtain ⟨invite, ha, -⟩ := acceptInvite_exact h
    have hsucc : (accept d user token).succeeds s = true := Prog.succeeds_of_returns haccept
    have hleft : Faithful s d user token ↔ Admitted s' user token := by
      unfold Faithful
      rw [haccept, hsucc]
      simp
    rw [hleft, admitted_iff h ha, ← not_le, not_iff_not]
    constructor
    · exact fun hle => ⟨invite, ha, hle⟩
    · rintro ⟨i, hi, hle⟩
      rw [ha.unique hi.mem hi.token] at hle
      exact hle
  · have haccept := accept_of_raises h
    have hfail : (accept d user token).succeeds s = false := by
      unfold Prog.succeeds
      rw [haccept]
    refine iff_of_true ⟨fun hs => ?_, fun _ => by rw [haccept]; exact ⟨rfl, rfl⟩⟩ ?_
    · rw [hfail] at hs
      exact absurd hs Bool.false_ne_true
    · rintro ⟨invite, ha, -⟩
      obtain ⟨a, t, hret⟩ := Prog.succeeds_iff.mp (acceptInvite_succeeds ha)
      unfold Prog.Returns at hret
      unfold Prog.Raises at h
      rw [h] at hret
      simp at hret

/-- The founded workspace, and an invite to the second user that expires after seven days. -/
def invited : Database :=
  run (step id) System.founded
    [.call (.on (drawsFrom 20 0 "t") 1 10 (.createInvite "admin@example.com" 6))]

/-- The second user accepts in the very instant in which the invite expires. -/
theorem invite_stays_pending :
    ¬ Faithful invited (drawsFrom 30 (days 7) "") (userOf 2 "admin@example.com") "t" := by
  rintro ⟨h, -⟩
  obtain ⟨i, hi, -, hst, -⟩ := h (by decide)
  exact absurd hst ((by decide : ∀ i ∈ (accept (drawsFrom 30 (days 7) "")
    (userOf 2 "admin@example.com") "t" invited).2.workspaceInvites.rows, i.status ≠ .accepted) i hi)

/-! ### Which valid invites can be accepted -/

/-- The invites name rows. -/
def Sound (s : Database) : Prop :=
  ∀ i ∈ s.workspaceInvites.rows, Model.references s i = true

instance : DecidablePred Sound := fun s => by
  unfold Sound
  infer_instance

/-- An id that is drawn is a new one. -/
structure FreshIds (s : Database) (d : Draws) : Prop where
  member : ∀ m ∈ s.workspaceMembers.rows, m.id ≠ d.uuid 0
  notification : ∀ n ∈ s.notifications.rows, n.id ≠ d.uuid 1

/-- The user is to accept this invite, which is pending and expires later than the call ends, and is
no member of its workspace now. -/
structure Valid (s : Database) (d : Draws) (user : User) (invite : WorkspaceInvite) : Prop where
  mem : invite ∈ s.workspaceInvites.rows
  known : user ∈ s.users.rows
  pending : invite.status = .pending
  inTime : ∀ n, d.now n < invite.expiresAt
  email : invite.email = user.email
  outside : ∀ m ∈ s.workspaceMembers.rows, m.workspaceId = invite.workspaceId →
    m.userId = user.id → m.deletedAt ≠ none

/-- The call returns and leaves the user with an active membership with the invite's role. -/
def Joins (s : Database) (d : Draws) (user : User) (invite : WorkspaceInvite) : Prop :=
  ∃ s', (acceptInvite d user invite.token).Returns s () s' ∧ ∃ m ∈ s'.workspaceMembers.rows,
    m.workspaceId = invite.workspaceId ∧ m.userId = user.id ∧ m.status = .active ∧
      m.deletedAt = none ∧ m.roleId = invite.roleId

/-- The user never had a row in the workspace, or none that is left. -/
def NeverMember (s : Database) (user : User) (invite : WorkspaceInvite) : Prop :=
  ∀ m ∈ s.workspaceMembers.rows, m.workspaceId = invite.workspaceId → m.userId ≠ user.id

theorem optionalRef_of_users {i : Option Uuid} (h : ∀ u ∈ s.users.rows, u ∈ s'.users.rows)
    (hi : optionalRef s.users i = true) : optionalRef s'.users i = true := by
  rcases i with _ | i
  · rfl
  · obtain ⟨u, hu, hk⟩ := Table.has_iff.mp hi
    exact Table.has_iff.mpr ⟨u, h u hu, hk⟩

theorem references_of_later {i i' : WorkspaceInvite} (hg : Grown s s') (hl : Later i i')
    (h : Model.references s i = true) : Model.references s' i' = true := by
  obtain ⟨-, hw, -, hr, hv, -, -⟩ := hl.kept
  simp only [Model.references, Bool.and_eq_true] at h ⊢
  rw [hw, hr, hv]
  obtain ⟨⟨hws, hrole⟩, hinviter⟩ := h
  obtain ⟨w, hmem, hk⟩ := Table.has_iff.mp hws
  obtain ⟨w', hmem', hk'⟩ := hg.workspaces w hmem
  obtain ⟨r, hr, hrk⟩ := Table.has_iff.mp hrole
  exact ⟨⟨Table.has_iff.mpr ⟨w', hmem', hk'.trans hk⟩, Table.has_iff.mpr ⟨r, hg.roles r hr, hrk⟩⟩,
    optionalRef_of_users hg.users hinviter⟩

theorem sound_run (lower : String → String) (l : List Event) (hs : Sound s) :
    Sound (run (step lower) s l) :=
  inv_run (fun s e hs => invites_step (P := fun s i => Model.references s i = true)
    references_of_later (fun h => h.1) s e hs) l hs

/-- A valid invite of a user who was never a member is accepted. -/
theorem accepts_of_valid (hs : Sound s) (hf : FreshIds s d) (hv : Valid s d user invite)
    (hn : NeverMember s user invite) : Accepts s d user invite.token invite := by
  have href : Model.references s invite = true := hs invite hv.mem
  have hparts := href
  simp only [Model.references, Bool.and_eq_true] at hparts
  obtain ⟨⟨hws, hrole⟩, hinviter⟩ := hparts
  have huser : s.users.has user.id = true := Table.has_iff.mpr ⟨user, hv.known, rfl⟩
  have hjoin : CanJoin s d invite user := by
    refine ⟨hf.member, hn, ?_⟩
    simp only [Model.references, Bool.and_eq_true]
    exact ⟨⟨⟨hws, huser⟩, hrole⟩, hinviter⟩
  have htell : CanTell s d invite := by
    intro inviter hi
    rw [hi] at hinviter
    exact ⟨hf.notification, hws, hinviter⟩
  exact ⟨hv.mem, rfl, hv.pending, (hv.inTime 0).le, hv.email, Or.inr hjoin, fun _ => href, htell⟩

/-- **A valid invite can be accepted exactly by who has no row in its workspace**, deleted or not.
-/
theorem joins_iff (lower : String → String) (s₀ : Database) (l : List Event) (d : Draws)
    (user : User) (invite : WorkspaceInvite) (h₀ : Sound s₀)
    (hf : FreshIds (run (step lower) s₀ l) d) (hv : Valid (run (step lower) s₀ l) d user invite) :
    Joins (run (step lower) s₀ l) d user invite ↔
      NeverMember (run (step lower) s₀ l) user invite := by
  have hs : Sound (run (step lower) s₀ l) := sound_run lower l h₀
  have hout : ¬ Belongs (run (step lower) s₀ l) invite.workspaceId user.id := by
    rintro ⟨m, hm, hw, hu, hd, -⟩
    exact hv.outside m hm hw hu hd
  constructor
  · rintro ⟨s', h, -⟩
    obtain ⟨invite', ha, T, I, N, L, hT, -, rfl⟩ := acceptInvite_exact h
    obtain rfl : invite = invite' := ha.unique hv.mem rfl
    rcases hT with ⟨hb, -⟩ | ⟨-, hT⟩
    · exact absurd hb hout
    · exact fun m hm hw => (Invitations.apart_memberOf.mp (Table.apart_of_insert hT hm)).2 hw
  · intro hn
    have ha := accepts_of_valid hs hf hv hn
    obtain ⟨_, s', h⟩ := Prog.succeeds_iff.mp (acceptInvite_succeeds ha)
    refine ⟨s', h, ?_⟩
    obtain ⟨invite', ha', T, I, N, L, hT, -, rfl⟩ := acceptInvite_exact h
    obtain rfl : invite = invite' := ha'.unique hv.mem rfl
    rcases hT with ⟨hb, -⟩ | ⟨-, hT⟩
    · exact absurd hb hout
    · exact ⟨_, Table.mem_insert_self hT, rfl, rfl, rfl, rfl, rfl⟩

/-- The invite to the second user. -/
def adminInvite : WorkspaceInvite where
  id := 20
  workspaceId := 10
  email := "admin@example.com"
  roleId := 6
  inviterId := some 1
  token := "t"
  status := .pending
  acceptedAt := none
  revokedAt := none
  expiresAt := days 7

theorem joins_invited :
    Joins (run (step id) System.founded
        [.call (.on (drawsFrom 20 0 "t") 1 10 (.createInvite "admin@example.com" 6))])
      (drawsFrom 30 0 "") (userOf 2 "admin@example.com") adminInvite ↔
    NeverMember (run (step id) System.founded
        [.call (.on (drawsFrom 20 0 "t") 1 10 (.createInvite "admin@example.com" 6))])
      (userOf 2 "admin@example.com") adminInvite :=
  joins_iff id System.founded _ _ _ _ (by decide) ⟨by decide, by decide⟩
    ⟨by decide, by decide, by decide, fun _ => (by decide : (0 : Time) < days 7), by decide,
      by decide⟩

/-- The second user was a member, was removed, and is invited again. -/
def reinvited : Database :=
  run (step id) System.founded
    [.call (.on (drawsFrom 20 0 "t") 1 10 (.createInvite "admin@example.com" 6)),
      .call (.acceptInvite (drawsFrom 30 0 "") 2 "t"),
      .call (.on (drawsFrom 40 0 "") 1 10 (.removeMember 30)),
      .call (.on (drawsFrom 50 0 "u") 1 10 (.createInvite "admin@example.com" 6))]

/-- A removed member who is invited again cannot accept. -/
theorem removed_member_cannot_return :
    Valid reinvited (drawsFrom 60 0 "") (userOf 2 "admin@example.com")
        { adminInvite with id := 50, token := "u" } ∧
      FreshIds reinvited (drawsFrom 60 0 "") ∧
      ¬ Joins reinvited (drawsFrom 60 0 "") (userOf 2 "admin@example.com")
        { adminInvite with id := 50, token := "u" } := by
  refine ⟨⟨by decide, by decide, by decide, fun _ => (by decide : (0 : Time) < days 7), by decide,
    by decide⟩, ⟨by decide, by decide⟩, ?_⟩
  rintro ⟨s', h, -⟩
  have hfail : (acceptInvite (drawsFrom 60 0 "") (userOf 2 "admin@example.com") "u").succeeds
      reinvited = false := by decide
  rw [Prog.succeeds_of_returns h] at hfail
  exact absurd hfail (by decide)

end MarketingSuite.Tenants.Acceptance
