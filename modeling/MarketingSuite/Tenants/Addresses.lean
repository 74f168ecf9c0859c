import MarketingSuite.Base.Texts
import MarketingSuite.Tenants.Acceptance

/-! # The addresses of the invites

Every stored address is in its normal form, which normalising does not change, so comparing strings
is comparing addresses: the loop of `create_invite` revokes every pending invite to the address, and
the partial unique index has nothing to object to the new one. -/

namespace MarketingSuite.Tenants.Addresses

open MarketingSuite.Lib.Programs MarketingSuite.Lib.Tables MarketingSuite.Lib.Runs
open MarketingSuite.Base.Values MarketingSuite.Base.Models MarketingSuite.Base.Schema
open MarketingSuite.Base.Texts
open MarketingSuite.Repositories.Base MarketingSuite.Repositories.Records
open MarketingSuite.Workspaces MarketingSuite.Workspaces.Repositories
open MarketingSuite.Workspaces.Invitations (Evolved checkNoMember createInvite evolved_refl
  evolved_trans revokeDuplicate revokeInvite_evolved)
open MarketingSuite.Tenants.Events MarketingSuite.Tenants.Acceptance

/-! ### The loop over the pending invites -/

variable {u : CharProperties} {s s' : Database} {d : Draws} {user : User} {workspace : Workspace}
  {email : String} {r i : Uuid} {t : Time}

/-- The pending invites of `T'` are pending invites of `T`, but not the one with id `i`. -/
def Without (i : Uuid) (T T' : Table WorkspaceInvite) : Prop :=
  ∀ j ∈ T'.rows, j.status = .pending → j ∈ T.rows ∧ j.id ≠ i

theorem revokeInvite_returns (hs : Sound s) (i : Uuid) (t : Time) :
    ∃ o T, (Repositories.revokeInvite i t).Returns s o { s with workspaceInvites := T } ∧
      Without i s.workspaceInvites T := by
  by_cases hi : ∃ j ∈ s.workspaceInvites.rows, j.id = i
  · obtain ⟨j, hj, hk⟩ := hi
    have hget : (getById WorkspaceInvite i).Returns s (some j) s := getById_returns hj hk rfl
    by_cases hp : j.status = .pending
    · obtain ⟨T, hT⟩ : ∃ T, s.workspaceInvites.modify i
          (fun i => { i with status := .revoked, revokedAt := some t }) = some T := by
        refine Table.exists_modify_of_imp (fun _ => rfl) fun i j h => ?_
        simp only [Keyed.compatible, Bool.and_eq_true] at h ⊢
        exact ⟨h.1, by simp⟩
      refine ⟨_, T, updateWhere_returns hj hk rfl (by simp [hp]) (hs j hj) hT, fun k hk hkp => ?_⟩
      rcases (Table.mem_modify hT).mp hk with ⟨hmem, hne⟩ | ⟨q, -, -, rfl⟩
      · exact ⟨hmem, hne⟩
      · exact absurd hkp (by simp)
    · refine ⟨some j, s.workspaceInvites, Prog.returns_bind.mpr ⟨some j, s, hget, ?_⟩,
        fun k hkmem hkp => ⟨hkmem, fun hki => ?_⟩⟩
      · simp [hp]
      · obtain rfl : k = j := s.workspaceInvites.eq_of_key_eq hkmem hj (hki.trans hk.symm)
        exact hp hkp
  · have hno : ∀ j ∈ s.workspaceInvites.rows, j.id ≠ i := fun j hj hk => hi ⟨j, hj, hk⟩
    refine ⟨none, s.workspaceInvites, Prog.returns_bind.mpr ⟨none, s, getById_returns_none hno, ?_⟩,
      fun k hk _ => ⟨hk, hno k hk⟩⟩
    exact Prog.returns_pure.mpr ⟨rfl, rfl⟩

theorem sound_of_evolved {T : Table WorkspaceInvite} (hs : Sound s)
    (hT : Evolved s.workspaceInvites T) : Sound { s with workspaceInvites := T } := by
  intro i' hi'
  obtain ⟨i, hi, hl⟩ := hT.back i' hi'
  have hgrown : Grown s { s with workspaceInvites := T } :=
    ⟨fun _ h => h, fun _ h => h, fun w h => ⟨w, h, rfl⟩, placed_refl _, hT.forth⟩
  exact references_of_later hgrown hl (hs i hi)

/-- **The loop goes through**, and no invite it was given for the address is pending after it. -/
theorem revokeDuplicates_returns (d : Draws) (email : String) (l : List (WorkspaceInvite × ℕ))
    (hs : Sound s) :
    ∃ T, (Prog.forEach (fun x => revokeDuplicate email (d.now x.2) x.1) l).Returns s ()
        { s with workspaceInvites := T } ∧ Evolved s.workspaceInvites T ∧
      ∀ j ∈ T.rows, j.status = .pending → j ∈ s.workspaceInvites.rows ∧
        ∀ x ∈ l, x.1.email = email → j.id ≠ x.1.id := by
  induction l generalizing s with
  | nil =>
    exact ⟨s.workspaceInvites, Prog.returns_pure.mpr ⟨rfl, rfl⟩, evolved_refl _,
      fun j hj _ => ⟨hj, fun x hx => absurd hx List.not_mem_nil⟩⟩
  | cons x l ih =>
    obtain ⟨T, hround, hT, hgone⟩ : ∃ T,
        (revokeDuplicate email (d.now x.2) x.1).Returns s () { s with workspaceInvites := T } ∧
        Evolved s.workspaceInvites T ∧ ∀ j ∈ T.rows, j.status = .pending →
          j ∈ s.workspaceInvites.rows ∧ (x.1.email = email → j.id ≠ x.1.id) := by
      unfold revokeDuplicate
      by_cases he : x.1.email = email
      · obtain ⟨o, T, hrev, hwithout⟩ := revokeInvite_returns hs x.1.id (d.now x.2)
        obtain ⟨T', hev, heq⟩ := revokeInvite_evolved hrev
        obtain rfl : T = T' := congrArg Database.workspaceInvites heq
        refine ⟨T, ?_, hev, fun j hj hp => ⟨(hwithout j hj hp).1, fun _ => (hwithout j hj hp).2⟩⟩
        rw [if_pos he]
        exact Prog.returns_bind_pure.mpr ⟨o, hrev, rfl⟩
      · refine ⟨s.workspaceInvites, ?_, evolved_refl _, fun j hj _ => ⟨hj, fun h => absurd h he⟩⟩
        rw [if_neg he]
        exact Prog.returns_pure.mpr ⟨rfl, rfl⟩
    obtain ⟨T', hloop, hT', hgone'⟩ := ih (sound_of_evolved hs hT)
    refine ⟨T', Prog.returns_bind.mpr ⟨(), _, hround, hloop⟩, evolved_trans hT hT', ?_⟩
    intro j hj hp
    obtain ⟨hjT, hne⟩ := hgone' j hj hp
    obtain ⟨hjs, hx⟩ := hgone j hjT hp
    refine ⟨hjs, fun y hy hey => ?_⟩
    rcases List.mem_cons.mp hy with rfl | hy
    · exact hx hey
    · exact hne y hy hey

/-! ### `create_invite` fails for reasons of its own only -/

/-- The ids and the token that are drawn are new ones. -/
structure FreshInvite (s : Database) (d : Draws) : Prop where
  id : ∀ i ∈ s.workspaceInvites.rows, i.id ≠ d.uuid 0
  token : ∀ i ∈ s.workspaceInvites.rows, i.token ≠ d.token
  notification : ∀ n ∈ s.notifications.rows, n.id ≠ d.uuid 1

/-- The check for a member reads, and raises nothing but its own error. -/
theorem checkNoMember_cases (s : Database) (w : Uuid) (email : String) :
    (checkNoMember w email).Returns s () s ∨ (checkNoMember w email).Raises s
      (.http 400 "User is already a member of this workspace") s := by
  obtain ⟨eu, hu⟩ : ∃ eu, (getByEmail email).Returns s eu s := by
    by_cases h : ∃ v ∈ s.users.rows, v.email = email ∧ v.deletedAt = none
    · obtain ⟨v, hv, he, hd⟩ := h
      refine ⟨some v, returns_selectOne_some hv (by simp [he, hd]) fun q hq hp => ?_⟩
      simp only [Bool.and_eq_true, decide_eq_true_eq] at hp
      refine s.users.eq_of_not_compatible hq hv ?_
      simp [Keyed.compatible, hp.1, he]
    · refine ⟨none, returns_selectOne_none fun q hq hp => h ?_⟩
      simp only [Bool.and_eq_true, decide_eq_true_eq, Option.isNone_iff_eq_none] at hp
      exact ⟨q, hq, hp.1, hp.2⟩
  unfold checkNoMember
  rcases eu with _ | eu
  · exact Or.inl (Prog.returns_bind.mpr ⟨_, s, hu, Prog.returns_pure.mpr ⟨rfl, rfl⟩⟩)
  · obtain ⟨em, hm⟩ := Repositories.getMember_returns s w eu.id
    rcases em with _ | em
    · exact Or.inl (Prog.returns_bind.mpr ⟨_, s, hu, Prog.returns_bind.mpr ⟨_, s, hm,
        Prog.returns_pure.mpr ⟨rfl, rfl⟩⟩⟩)
    · by_cases hst : em.status = .removed
      · exact Or.inl (Prog.returns_bind.mpr ⟨_, s, hu, Prog.returns_bind.mpr ⟨_, s, hm,
          Prog.returns_require.mpr ⟨hst, rfl⟩⟩⟩)
      · refine Or.inr ((Prog.raises_bind_of_returns hu).mpr ?_)
        exact (Prog.raises_bind_of_returns hm).mpr (Prog.raises_require.mpr ⟨hst, rfl, rfl⟩)

theorem apart_iff {i j : WorkspaceInvite} : Apart i j ↔ i.id ≠ j.id ∧ i.token ≠ j.token ∧
    ¬ (i.status = .pending ∧ j.status = .pending ∧ i.workspaceId = j.workspaceId ∧
      i.email = j.email) := by
  have hcomp : Keyed.compatible i j = (decide (i.token ≠ j.token) && !(decide (i.status = .pending)
      && decide (j.status = .pending) && decide (i.workspaceId = j.workspaceId) &&
        decide (i.email = j.email))) := rfl
  rw [Apart, hcomp]
  simp only [Bool.and_eq_true, Bool.not_eq_true', ← Bool.not_eq_true, decide_eq_true_eq, and_assoc]
  exact Iff.rfl

/-- **The index lets the new invite in** after the loop: it was given all pending invites of the
workspace, and normalising the address a second time does not change it. -/
theorem insert_invitation {w v : Uuid} {T : Table WorkspaceInvite} {l : List WorkspaceInvite}
    (hf : FreshInvite s d) (hT : Evolved s.workspaceInvites T)
    (hl : ∀ i ∈ s.workspaceInvites.rows, i.workspaceId = w → i.status = .pending → i ∈ l)
    (hgone : ∀ j ∈ T.rows, j.status = .pending → j ∈ s.workspaceInvites.rows ∧
      ∀ x ∈ l.zipIdx, x.1.email = strip (lower u email) → j.id ≠ x.1.id) :
    ∃ T', T.insert (invitation (lower u) d w (strip (lower u email)) r v t) = some T' := by
  refine Table.exists_insert fun j hj => ?_
  obtain ⟨j₀, hj₀, hlater⟩ := hT.back j hj
  obtain ⟨hid, -, -, -, -, htok, -⟩ := hlater.kept
  have hidne : j.id ≠ d.uuid 0 := by
    rw [hid]
    exact hf.id j₀ hj₀
  have htokne : j.token ≠ d.token := by
    rw [htok]
    exact hf.token j₀ hj₀
  refine apart_iff.mpr ⟨hidne, htokne, ?_⟩
  rintro ⟨hp, -, hw, he⟩
  obtain ⟨hjs, hne⟩ := hgone j hj hp
  obtain ⟨k, hk⟩ := List.mem_iff_getElem?.mp (hl j hjs hw hp)
  have hmem : (j, k) ∈ l.zipIdx := List.mk_mem_zipIdx_iff_getElem?.mpr hk
  have hemail : j.email = strip (lower u email) := he.trans (normalise_idem u email)
  exact hne (j, k) hmem hemail rfl

/-- A role that exists and an address that is no member's are all that `create_invite` needs. -/
theorem createInvite_succeeds {role : Role} (hs : Sound s) (hf : FreshInvite s d)
    (huser : user ∈ s.users.rows) (hw : workspace ∈ s.workspaces.rows) (hrole : role ∈ s.roles.rows)
    (hno : (checkNoMember workspace.id (strip (lower u email))).Returns s () s) :
    (createInvite (lower u) d user workspace email role.id).succeeds s = true := by
  obtain ⟨l, hget, hl⟩ : ∃ l, (getPendingInvites workspace.id).Returns s l s ∧
      ∀ i ∈ s.workspaceInvites.rows, i.workspaceId = workspace.id → i.status = .pending → i ∈ l :=
    ⟨_, Prog.returns_gets.mpr ⟨rfl, rfl⟩, fun i hi hiw hp => by
      refine Table.mem_select.mpr ⟨hi, ?_⟩
      simp [hiw, hp]⟩
  obtain ⟨T, hloop, hT, hgone⟩ :=
    revokeDuplicates_returns d (strip (lower u email)) l.zipIdx hs
  obtain ⟨T', hins⟩ := insert_invitation (r := role.id) (v := user.id)
    (t := d.now l.length + days 7) hf hT hl hgone
  have hws : s.workspaces.has workspace.id = true := Table.has_iff.mpr ⟨workspace, hw, rfl⟩
  have hu : s.users.has user.id = true := Table.has_iff.mpr ⟨user, huser, rfl⟩
  have hr : s.roles.has role.id = true := Table.has_iff.mpr ⟨role, hrole, rfl⟩
  have hcreate : (createInvitation (lower u) d workspace.id (strip (lower u email)) role.id user.id
      (d.now l.length + days 7)).Returns { s with workspaceInvites := T }
      (invitation (lower u) d workspace.id (strip (lower u email)) role.id user.id
        (d.now l.length + days 7)) { s with workspaceInvites := T' } := by
    refine returns_create.mpr ⟨rfl, ?_, T', hins, rfl⟩
    have href : (s.workspaces.has workspace.id && s.roles.has role.id &&
        s.users.has user.id) = true := by simp [hws, hu, hr]
    exact href
  have hfound : (getById Role role.id).Returns s (some role) s := getById_returns hrole rfl rfl
  unfold createInvite
  rw [Prog.succeeds_bind hfound, Prog.succeeds_bind (returns_orRaise.mpr ⟨rfl, rfl⟩),
    Prog.succeeds_bind hno,
    Prog.succeeds_bind hget, Prog.succeeds_bind hloop, Prog.succeeds_bind hcreate,
    Prog.succeeds_bind (createAuditLog_returns _ _), Prog.succeeds_bind_pure]
  exact notify_succeeds hf.notification hws hu

/-- **What `create_invite` can raise**: that there is no such role, or that the address is a
member's. -/
theorem createInvite_raises (hs : Sound s) (hf : FreshInvite s d)
    (huser : user ∈ s.users.rows) (hw : workspace ∈ s.workspaces.rows) {e : Exc}
    (h : (createInvite (lower u) d user workspace email r).Raises s e s') :
    e = .http 404 "Role not found" ∨ e = .http 400 "User is already a member of this workspace" := by
  by_cases hrole : ∃ role ∈ s.roles.rows, role.id = r
  · obtain ⟨role, hmem, rfl⟩ := hrole
    rcases checkNoMember_cases s workspace.id (strip (lower u email)) with hno | hno
    · obtain ⟨a, t, hret⟩ := Prog.succeeds_iff.mp (createInvite_succeeds hs hf huser hw hmem hno)
      exact absurd h (Prog.not_raises_of_returns hret)
    · right
      have hfound : (getById Role role.id).Returns s (some role) s := getById_returns hmem rfl rfl
      unfold createInvite at h
      rw [Prog.raises_bind_of_returns hfound,
        Prog.raises_bind_of_returns (returns_orRaise.mpr ⟨rfl, rfl⟩)] at h
      exact ((Prog.raises_bind_of_raises hno).mp h).1
  · left
    have hnone : ∀ role ∈ s.roles.rows, Keyed.key role ≠ r := fun role hmem hk =>
      hrole ⟨role, hmem, hk⟩
    unfold createInvite at h
    rw [Prog.raises_bind_of_returns (getById_returns_none hnone)] at h
    rcases Prog.raises_bind.mp h with h | ⟨a, t, hret, -⟩
    · exact (raises_orRaise.mp h).2.1
    · exact absurd (returns_orRaise.mp hret).1 (by simp)

/-! ### Runs -/

/-- Every stored address is in its normal form. -/
def Normal (u : CharProperties) (s : Database) : Prop :=
  ∀ i ∈ s.workspaceInvites.rows, normalise u i.email = i.email

/-- What is promised of the addresses: they are in their normal form, a workspace has one pending
invite at most for each, and no call of `create_invite` meets a constraint. -/
structure Orderly (u : CharProperties) (s : Database) : Prop where
  normal : Normal u s
  one : ∀ i ∈ s.workspaceInvites.rows, ∀ j ∈ s.workspaceInvites.rows, i.status = .pending →
    j.status = .pending → i.workspaceId = j.workspaceId →
    normalise u i.email = normalise u j.email → i = j
  free : ∀ d user workspace email r e s', FreshInvite s d → user ∈ s.users.rows →
    workspace ∈ s.workspaces.rows →
    (createInvite (lower u) d user workspace email r).Raises s e s' → e ≠ .integrity

theorem normal_step (s : Database) (e : Event) (hs : Normal u s) :
    Normal u (step (lower u) s e) := by
  refine invites_step (P := fun _ i => normalise u i.email = i.email) (fun _ hl h => ?_) ?_ s e hs
  · obtain ⟨-, -, hemail, -⟩ := hl.kept
    rw [hemail]
    exact h
  · rintro s e i ⟨-, d, actor, w, email, r, t, -, rfl⟩
    exact normalise_idem u _

theorem orderly_of_normal (hs : Sound s) (hn : Normal u s) : Orderly u s where
  normal := hn
  one i hi j hj hip hjp hw he := by
    by_contra hne
    rw [hn i hi, hn j hj] at he
    exact (apart_iff.mp (s.workspaceInvites.apart_of_mem hi hj hne)).2.2 ⟨hip, hjp, hw, he⟩
  free d user workspace email r e s' hf huser hw h := by
    rcases createInvite_raises hs hf huser hw h with rfl | rfl
    · simp
    · simp

/-- **At most one pending invite for an address**, in every run, whatever strings are given as
addresses. -/
theorem always_orderly (u : CharProperties) (s : Database) (l : List Event) (hs : Sound s)
    (hn : Normal u s) : Always (step (lower u)) (Orderly u) s l :=
  always_iff.mpr fun pre _ => orderly_of_normal (sound_run (lower u) pre hs)
    (inv_run normal_step pre hn)

/-- The letters of ASCII, and the marks that may stand inside a word. -/
def asciiProperties : CharProperties := ⟨Char.isAlpha, fun c => c = '.' || c = ':' || c = '^'⟩

theorem always_orderly_founded :
    Always (step (lower asciiProperties)) (Orderly asciiProperties) System.founded
      [.call (.on (drawsFrom 20 0 "t") 1 10 (.createInvite " Admin@Example.com" 6)),
        .call (.on (drawsFrom 30 0 "u") 1 10 (.createInvite "admin@EXAMPLE.com " 7)),
        .expireInvites (days 7)] := by
  refine always_orderly asciiProperties System.founded _ (by decide) fun i hi => ?_
  have hnone : System.founded.workspaceInvites.rows = [] := by decide
  rw [hnone] at hi
  exact absurd hi List.not_mem_nil

end MarketingSuite.Tenants.Addresses
