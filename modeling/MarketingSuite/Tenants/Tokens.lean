import MarketingSuite.Tenants.Events

/-! # Invite tokens

A token admits one member at most. The first acceptance that adds a member row shuts the token for
good: if it also decided the invite, no later call finds it pending; if the invite expired between
the two readings of the clock, it stays pending, but the only user with its address has a member row
then, deleted or not, and the unique constraint knows no other. -/

namespace MarketingSuite.Tenants.Tokens

open MarketingSuite.Lib.Programs MarketingSuite.Lib.Tables MarketingSuite.Lib.Runs
open MarketingSuite.Base.Values MarketingSuite.Base.Models MarketingSuite.Base.Schema
open MarketingSuite.Repositories.Base
open MarketingSuite.Workspaces
open MarketingSuite.Workspaces.Invitations (Accepts Later Stamped memberOf acceptInvite_exact)
open MarketingSuite.Tenants.Events

/-- The event adds a member row through the token. -/
def admits (lower : String → String) (token : String) (s : Database) : Event → Bool
  | .call (.acceptInvite d actor t) => t = token && s.workspaceMembers.rows.length <
      (step lower s (.call (.acceptInvite d actor t))).workspaceMembers.rows.length
  | _ => false

/-- An acceptance adds no member row, or the one that a pending invite gives, which has not expired
when the call looks at the clock, to the user with its address. -/
def OnlyWhileValid (lower : String → String) (s : Database) : Event → Prop
  | .call (.acceptInvite d actor token) =>
    (step lower s (.call (.acceptInvite d actor token))).workspaceMembers = s.workspaceMembers ∨
      ∃ invite ∈ s.workspaceInvites.rows, ∃ user ∈ s.users.rows, invite.token = token ∧
        invite.status = .pending ∧ d.now 0 ≤ invite.expiresAt ∧ user.id = actor ∧
        user.email = invite.email ∧
        (step lower s (.call (.acceptInvite d actor token))).workspaceMembers.rows =
          s.workspaceMembers.rows ++ [memberOf d invite user]
  | _ => True

/-- An invite that has left PENDING at some point of the run is the same row ever after. -/
def DecidedForGood (lower : String → String) (s : Database) (l : List Event) : Prop :=
  ∀ pre post, pre ++ post <+: l → ∀ i ∈ (run (step lower) s pre).workspaceInvites.rows,
    i.status ≠ .pending → i ∈ (run (step lower) s (pre ++ post)).workspaceInvites.rows

/-- `accepted_at` is set exactly on the accepted invites, and `revoked_at` on the revoked ones. -/
def AllStamped (s : Database) : Prop := ∀ i ∈ s.workspaceInvites.rows, Stamped i

/-- No call with the token adds a member row any more. -/
def Shut (token : String) (s : Database) : Prop :=
  ∃ i ∈ s.workspaceInvites.rows, i.token = token ∧ (i.status ≠ .pending ∨
    ∃ u ∈ s.users.rows, u.email = i.email ∧
      ∃ m ∈ s.workspaceMembers.rows, m.workspaceId = i.workspaceId ∧ m.userId = u.id)

instance : DecidablePred AllStamped := fun s => by
  unfold AllStamped Stamped
  infer_instance

variable {lower : String → String} {s s' : Database} {d : Draws} {actor : Uuid} {token : String}

/-! ### One acceptance -/

/-- An acceptance is refused, or it is a call of the service for the user it names. -/
theorem acceptInvite_step (lower : String → String) (s : Database) (d : Draws) (actor : Uuid)
    (token : String) :
    step lower s (.call (.acceptInvite d actor token)) = s ∨ ∃ user ∈ s.users.rows,
      user.id = actor ∧ (Invitations.acceptInvite d user token).Returns s ()
        (step lower s (.call (.acceptInvite d actor token))) := by
  rcases (serve lower (.call (.acceptInvite d actor token))).settle_cases s with ⟨u, h⟩ | ⟨h, -⟩
  · have hcall : (System.serve lower (.acceptInvite d actor token)).Returns s u
        (step lower s (.call (.acceptInvite d actor token))) := h
    exact Or.inr (System.serve_acceptInvite hcall)
  · exact Or.inl h

/-- What a member row that was added says about the call that added it. -/
theorem added_of_acceptInvite {user : User} (hu : user ∈ s.users.rows)
    (h : (Invitations.acceptInvite d user token).Returns s () s') :
    s'.workspaceMembers = s.workspaceMembers ∨ ∃ invite, Accepts s d user token invite ∧
      s.workspaceMembers.insert (memberOf d invite user) = some s'.workspaceMembers ∧
      Shut token s' := by
  obtain ⟨invite, ha, T, I, N, L, hT, hI, rfl⟩ := acceptInvite_exact h
  rcases hT with ⟨-, rfl⟩ | ⟨-, hT⟩
  · exact Or.inl rfl
  · refine Or.inr ⟨invite, ha, hT, ?_⟩
    rcases hI with ⟨-, rfl⟩ | ⟨-, hI⟩
    · -- the invite is still pending, and the new row stands in the way
      exact ⟨invite, ha.mem, ha.token, Or.inr ⟨user, hu, ha.email.symm, memberOf d invite user,
        Table.mem_insert_self hT, rfl, rfl⟩⟩
    · have hmem := Table.mem_modify_self hI ha.mem rfl
      exact ⟨_, hmem, ha.token, Or.inl (by simp)⟩

theorem onlyWhileValid (s : Database) (e : Event) : OnlyWhileValid lower s e := by
  unfold OnlyWhileValid
  split
  · rename_i d actor token
    rcases acceptInvite_step lower s d actor token with h | ⟨user, hu, hid, h⟩
    · exact Or.inl (by rw [h])
    · rcases added_of_acceptInvite hu h with hsame | ⟨invite, ha, hins, -⟩
      · exact Or.inl hsame
      · exact Or.inr ⟨invite, ha.mem, user, hu, ha.token, ha.pending, ha.inTime, hid, ha.email.symm,
          Table.insert_eq_some.mp hins⟩
  · trivial

/-! ### The gate -/

theorem admits_iff {e : Event} : admits lower token s e = true ↔ ∃ d actor,
    e = .call (.acceptInvite d actor token) ∧
      s.workspaceMembers.rows.length < (step lower s e).workspaceMembers.rows.length := by
  unfold admits
  constructor
  · intro h
    split at h
    · rename_i d actor t
      simp only [Bool.and_eq_true, decide_eq_true_eq] at h
      obtain ⟨rfl, hlt⟩ := h
      exact ⟨d, actor, rfl, hlt⟩
    · exact absurd h Bool.false_ne_true
  · rintro ⟨d, actor, rfl, hlt⟩
    simpa using hlt

theorem shut_of_admits (s : Database) (e : Event) (h : admits lower token s e = true) :
    Shut token (step lower s e) := by
  obtain ⟨d, actor, rfl, hlt⟩ := admits_iff.mp h
  rcases acceptInvite_step lower s d actor token with hsame | ⟨user, hu, -, hret⟩
  · rw [hsame] at hlt
    exact absurd hlt (lt_irrefl _)
  · rcases added_of_acceptInvite hu hret with hsame | ⟨-, -, -, hshut⟩
    · rw [hsame] at hlt
      exact absurd hlt (lt_irrefl _)
    · exact hshut

theorem admits_of_shut (s : Database) (e : Event) (hs : Shut token s) :
    admits lower token s e = false := by
  by_contra h
  obtain ⟨d, actor, rfl, hlt⟩ := admits_iff.mp (Bool.eq_true_of_not_eq_false h)
  rcases acceptInvite_step lower s d actor token with hsame | ⟨user, hu, -, hret⟩
  · rw [hsame] at hlt
    exact absurd hlt (lt_irrefl _)
  · rcases added_of_acceptInvite hu hret with hsame | ⟨invite, ha, hins, -⟩
    · rw [hsame] at hlt
      exact absurd hlt (lt_irrefl _)
    · obtain ⟨i, hi, htok, hcase⟩ := hs
      have heq : i = invite := ha.unique hi htok
      subst heq
      rcases hcase with hne | ⟨u, hu', hemail, m, hm, hw, hmu⟩
      · exact hne ha.pending
      · -- the address names one user, and that user has a row in the workspace
        have hsame : u = user := by
          refine s.users.eq_of_not_compatible hu' hu ?_
          simp [Keyed.compatible, hemail, ha.email]
        subst hsame
        have hapart := Invitations.apart_memberOf.mp (Table.apart_of_insert hins hm)
        exact hapart.2 hw hmu

theorem shut_step (s : Database) (e : Event) (hs : Shut token s) :
    Shut token (step lower s e) := by
  obtain ⟨i, hi, htok, hcase⟩ := hs
  have hgrown := (advance_step lower s e).toGrown
  obtain ⟨i', hi', hl⟩ := hgrown.invites i hi
  obtain ⟨-, hw', hemail', -, -, htok', hst⟩ := hl.kept
  refine ⟨i', hi', htok'.trans htok, ?_⟩
  rcases hcase with hne | ⟨u, hu, hemail, m, hm, hw, hmu⟩
  · left
    rw [hst hne]
    exact hne
  · right
    obtain ⟨m', hm', -, hmw, hmu'⟩ := hgrown.members m hm
    exact ⟨u, hgrown.users u hu, hemail.trans hemail'.symm, m', hm', hmw.trans (hw.trans hw'.symm),
      hmu'.trans hmu⟩

/-! ### Runs -/

theorem allStamped_step (s : Database) (e : Event) (hs : AllStamped s) :
    AllStamped (step lower s e) := by
  refine invites_step (P := fun _ i => Stamped i) (fun _ hl h => hl.stamped h) ?_ s e hs
  rintro s e i ⟨-, d, actor, w, email, r, t, -, rfl⟩
  exact ⟨by simp [Repositories.invitation], by simp [Repositories.invitation]⟩

theorem decidedForGood (s : Database) (l : List Event) : DecidedForGood lower s l := by
  intro pre post _ i hi hne
  rw [run_append]
  obtain ⟨i', hi', hl⟩ := (grown_run lower (run (step lower) s pre) post).invites i hi
  rw [← hl.decided hne]
  exact hi'

/-- **A token admits one member at most, and only while the invite is valid**, in every run. -/
theorem token_admits_one (lower : String → String) (s : Database) (l : List Event)
    (hs : AllStamped s) :
    (∀ token, count (step lower) (admits lower token) s l ≤ 1) ∧
      Along (step lower) (OnlyWhileValid lower) s l ∧ DecidedForGood lower s l ∧
      Always (step lower) AllStamped s l := by
  refine ⟨fun token => ?_, ?_, decidedForGood s l, ?_⟩
  · exact count_le_one (G := Shut token) shut_of_admits admits_of_shut shut_step s l
  · exact along_iff.mpr fun _ _ _ => onlyWhileValid _ _
  · exact always_iff.mpr fun pre _ => inv_run allStamped_step pre hs

/-- An invite is accepted, the new member is removed, and the token is tried again. -/
theorem token_admits_one_founded :
    (∀ token, count (step id) (admits id token) System.founded
      [.call (.on (drawsFrom 20 0 "t") 1 10 (.createInvite "admin@example.com" 6)),
        .call (.acceptInvite (drawsFrom 30 0 "") 2 "t"), .call (.on (drawsFrom 40 0 "") 1 10
          (.removeMember 30)), .call (.acceptInvite (drawsFrom 50 0 "") 2 "t")] ≤ 1) ∧
      Along (step id) (OnlyWhileValid id) System.founded
      [.call (.on (drawsFrom 20 0 "t") 1 10 (.createInvite "admin@example.com" 6)),
        .call (.acceptInvite (drawsFrom 30 0 "") 2 "t"), .call (.on (drawsFrom 40 0 "") 1 10
          (.removeMember 30)), .call (.acceptInvite (drawsFrom 50 0 "") 2 "t")] ∧
      DecidedForGood id System.founded
      [.call (.on (drawsFrom 20 0 "t") 1 10 (.createInvite "admin@example.com" 6)),
        .call (.acceptInvite (drawsFrom 30 0 "") 2 "t"), .call (.on (drawsFrom 40 0 "") 1 10
          (.removeMember 30)), .call (.acceptInvite (drawsFrom 50 0 "") 2 "t")] ∧
      Always (step id) AllStamped System.founded
      [.call (.on (drawsFrom 20 0 "t") 1 10 (.createInvite "admin@example.com" 6)),
        .call (.acceptInvite (drawsFrom 30 0 "") 2 "t"), .call (.on (drawsFrom 40 0 "") 1 10
          (.removeMember 30)), .call (.acceptInvite (drawsFrom 50 0 "") 2 "t")] :=
  token_admits_one id System.founded _ (by decide)

/-- In that run the token admits the member once. -/
example : count (step id) (admits id "t") System.founded
    [.call (.on (drawsFrom 20 0 "t") 1 10 (.createInvite "admin@example.com" 6)),
      .call (.acceptInvite (drawsFrom 30 0 "") 2 "t"), .call (.on (drawsFrom 40 0 "") 1 10
        (.removeMember 30)), .call (.acceptInvite (drawsFrom 50 0 "") 2 "t")] = 1 := by
  decide

end MarketingSuite.Tenants.Tokens
