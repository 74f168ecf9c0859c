import MarketingSuite.Workspaces.System

/-! # Coming to hold the Owner role

`change_role` and `transfer_ownership` let only `workspace.owner_id` give the Owner role, and
`create_invite` does not look at the role it is given: an invite of anyone's for the Owner role
makes an owner of whoever accepts it. Where only the owner issues such invites, every new owner goes
back to a call or an invite of the one who owned the workspace then. The history `vouched` records,
for the proof only, which invites those are. -/

namespace MarketingSuite.Workspaces.Escalation

open MarketingSuite.Lib.Programs MarketingSuite.Lib.Tables MarketingSuite.Lib.Runs
open MarketingSuite.Base.Values MarketingSuite.Base.Models MarketingSuite.Base.Schema
open MarketingSuite.Workspaces.Repositories (ownerRoleOf)
open MarketingSuite.Workspaces.Members (IsMember)
open MarketingSuite.Workspaces.Invitations (Carried Kept)
open MarketingSuite.Workspaces.System

/-! ### Owners and histories -/

/-- `workspace.owner_id` of `w` is `u`. -/
def Owns (s : Database) (w u : Uuid) : Prop :=
  ∃ ws ∈ s.workspaces.rows, ws.id = w ∧ ws.ownerId = u

/-- The user has a live member row in `w` with the Owner role. -/
def HoldsOwner (s : Database) (w u : Uuid) : Prop :=
  ∃ o, ownerRoleOf s = some o ∧ ∃ m ∈ s.workspaceMembers.rows, m.workspaceId = w ∧ m.userId = u ∧
    m.deletedAt = none ∧ m.roleId = o.id

instance (s : Database) (w u : Uuid) : Decidable (Owns s w u) := by unfold Owns; infer_instance

instance (s : Database) (w u : Uuid) : Decidable (HoldsOwner s w u) :=
  decidable_of_iff ((ownerRoleOf s).any fun o => decide (∃ m ∈ s.workspaceMembers.rows,
    m.workspaceId = w ∧ m.userId = u ∧ m.deletedAt = none ∧ m.roleId = o.id)) (by
    simp only [HoldsOwner, Option.any_eq_true, decide_eq_true_eq])

/-- A database with the invites that were issued by who owned their workspace then. -/
abbrev History : Type := Recorded Database (List Uuid)

/-- Remember the invite that a call issued, if the owner made it. -/
def vouch (lower : String → String) (s : Database) (c : Call) (vouched : List Uuid) : List Uuid :=
  match c with
  | .on d actor w (.createInvite _ _) =>
    if Owns s w actor ∧ (serve lower c).succeeds s = true then d.uuid 0 :: vouched else vouched
  | _ => vouched

/-- The owner of `w` makes the call, or it accepts an invite that the owner of the time issued. -/
def FromOwner (w : Uuid) (h : History) : Call → Prop
  | .on _ actor w' (.changeRole _ _) => w' = w ∧ Owns h.state w actor
  | .on _ actor w' (.transferOwnership _ _) => w' = w ∧ Owns h.state w actor
  | .acceptInvite _ _ token => ∃ i ∈ h.state.workspaceInvites.rows, i.token = token ∧ i.id ∈ h.history
  | _ => False

/-- Whoever comes to hold the Owner role in `w` by the call got it from the owner. -/
def NoEscalation (lower : String → String) (w : Uuid) (h : History) (c : Call) : Prop :=
  ∀ u, ¬ HoldsOwner h.state w u → HoldsOwner (step lower h.state c) w u → FromOwner w h c

/-- The call issues no invite to the Owner role in `w` for someone other than the owner. -/
def OwnerInvites (lower : String → String) (w : Uuid) (s : Database) (c : Call) : Prop :=
  match c with
  | .on _ actor w' (.createInvite _ r) => w' = w → (∃ o, ownerRoleOf s = some o ∧ r = o.id) →
    (serve lower c).succeeds s = true → Owns s w actor
  | _ => True

/-- **The invariant**: a pending invite to the Owner role in `w` was issued by the owner. -/
def Vouched (w : Uuid) (h : History) : Prop :=
  ∀ o, ownerRoleOf h.state = some o → ∀ i ∈ h.state.workspaceInvites.rows, i.workspaceId = w →
    i.status = .pending → i.roleId = o.id → i.id ∈ h.history

instance (w : Uuid) (h : History) (c : Call) : Decidable (FromOwner w h c) := by
  unfold FromOwner
  split <;> infer_instance

variable {lower : String → String} {s s' : Database} {w u : Uuid} {h : History} {c : Call}
  {o : Role}

theorem vouch_of_owns {d : Draws} {actor r : Uuid} {email : String} {v : List Uuid}
    (hown : Owns s w actor)
    (hs : (serve lower (.on d actor w (.createInvite email r))).succeeds s = true) :
    vouch lower s (.on d actor w (.createInvite email r)) v = d.uuid 0 :: v := if_pos ⟨hown, hs⟩

theorem subset_vouch (s : Database) (c : Call) (v : List Uuid) : v ⊆ vouch lower s c v := by
  intro i hi
  unfold vouch
  split
  · split_ifs
    · exact List.mem_cons_of_mem _ hi
    · exact hi
  · exact hi

/-! ### What one change of a table does -/

theorem vouched_of_carried {T T' : Table WorkspaceInvite} {v v' : List Uuid} {r : Uuid}
    (hT : Carried T T') (hv : ∀ i ∈ T.rows, i.workspaceId = w → i.status = .pending →
      i.roleId = r → i.id ∈ v) (hsub : v ⊆ v') :
    ∀ i ∈ T'.rows, i.workspaceId = w → i.status = .pending → i.roleId = r → i.id ∈ v' := by
  intro i' hi' hw hp hr
  obtain ⟨i, hi, hid, hiw, -, hir, -, -, hst⟩ := hT i' hi'
  have hpi : i.status = .pending := by
    by_contra hne
    exact hne (by rw [← hst hne]; exact hp)
  rw [hid]
  exact hsub (hv i hi (by rw [← hiw]; exact hw) hpi (by rw [← hir]; exact hr))

/-- A holder after a change of one row that gives the row no new role was a holder before. -/
theorem holdsOwner_of_modify {f : WorkspaceMember → WorkspaceMember} {i : Uuid}
    {T : Table WorkspaceMember} (ho : ownerRoleOf s = some o)
    (hT : s.workspaceMembers.modify i f = some T)
    (hf : ∀ m : WorkspaceMember, m.id = i → (f m).workspaceId = w → (f m).deletedAt = none →
      (f m).roleId = o.id → m.workspaceId = w ∧ (f m).userId = m.userId ∧ m.deletedAt = none ∧
        m.roleId = o.id) {m : WorkspaceMember}
    (hm : m ∈ T.rows ∧ m.workspaceId = w ∧ m.userId = u ∧ m.deletedAt = none ∧ m.roleId = o.id) :
    HoldsOwner s w u := by
  obtain ⟨hmem, hw, hu, hd, hr⟩ := hm
  rcases (Table.mem_modify hT).mp hmem with ⟨hold, -⟩ | ⟨q, hq, hqi, rfl⟩
  · exact ⟨o, ho, m, hold, hw, hu, hd, hr⟩
  · obtain ⟨h1, h2, h3, h4⟩ := hf q hqi hw hd hr
    exact ⟨o, ho, q, hq, h1, by rw [← h2]; exact hu, h3, h4⟩

/-! ### One step -/

/-- **A new owner comes from the owner**, if the pending invites do. -/
theorem fromOwner_of_effect (hv : Vouched w h) (he : Effect lower h.state c s')
    (hno : ¬ HoldsOwner h.state w u) (hyes : HoldsOwner s' w u) : FromOwner w h c := by
  obtain ⟨o, ho', m, hm⟩ := hyes
  have ho : ownerRoleOf h.state = some o := by rw [← he.ownerRoleOf_eq]; exact ho'
  cases he with
  | kept hI => exact absurd ⟨o, ho, m, hm⟩ hno
  | invited hw hI hins => exact absurd ⟨o, ho, m, hm⟩ hno
  | @reassigned d actor i r m₀ o' T N L ws hws hm₀ hp ho₂ hg hT =>
    rw [ho] at ho₂
    obtain rfl := Option.some.inj ho₂
    obtain ⟨hmem, hmw, hmu, hd, hr⟩ := hm
    rcases (Table.mem_modify hT).mp hmem with ⟨hold, -⟩ | ⟨q, hq, hqi, rfl⟩
    · exact absurd ⟨o, ho, m, hold, hmw, hmu, hd, hr⟩ hno
    · have hqm : q = m₀ := h.state.workspaceMembers.eq_of_key_eq hq hm₀.1 (hqi.trans hm₀.2.1.symm)
      subst hqm
      have hww : ws.id = w := by rw [← hm₀.2.2.2]; exact hmw
      exact ⟨hww, ws, hws, hww, hg (Or.inl hr)⟩
  | suspended hm₀ hp hT =>
    exact absurd (holdsOwner_of_modify ho hT (fun m _ h1 h2 h3 => ⟨h1, rfl, h2, h3⟩) hm) hno
  | reactivated hm₀ hT =>
    exact absurd (holdsOwner_of_modify ho hT (fun m _ h1 h2 h3 => ⟨h1, rfl, h2, h3⟩) hm) hno
  | removed hm₀ hp hT =>
    refine absurd (holdsOwner_of_modify ho hT (fun m _ _ h2 _ => ?_) hm) hno
    exact absurd h2 (by simp)
  | @transferred d actor n r m₀ o' W T T' N L ws hws howner hm₀ hn hact ho₂ hT hT' hW =>
    by_cases hww : ws.id = w
    · exact ⟨hww, ws, hws, hww, howner⟩
    · have hold := mem_of_transfer_ne hm₀ hT hT' hww hm.1 hm.2.1
      exact absurd ⟨o, ho, m, hold, hm.2⟩ hno
  | @accepted d actor token user invite T I N L hu hi htok hpend hT hI =>
    rcases hT with rfl | hins
    · exact absurd ⟨o, ho, m, hm⟩ hno
    · obtain ⟨hmem, hmw, hmu, hd, hr⟩ := hm
      rcases (Table.mem_insert hins).mp hmem with hold | rfl
      · exact absurd ⟨o, ho, m, hold, hmw, hmu, hd, hr⟩ hno
      · exact ⟨invite, hi, htok, hv o ho invite hi hmw hpend hr⟩

/-- **The invariant is preserved** by a step that is no invite of a stranger's to the Owner role. -/
theorem vouched_of_effect (hv : Vouched w h) (hc : OwnerInvites lower w h.state c)
    (he : Effect lower h.state c s') (hs : (serve lower c).succeeds h.state = true) :
    Vouched w ⟨s', vouch lower h.state c h.history⟩ := by
  intro o ho'
  have ho : ownerRoleOf h.state = some o := by rw [← he.ownerRoleOf_eq]; exact ho'
  have hsub : h.history ⊆ vouch lower h.state c h.history := subset_vouch h.state c h.history
  have hold := hv o ho
  cases he with
  | kept hI => exact vouched_of_carried hI hold hsub
  | @invited d actor ws email r e I I' N L hws hI hins =>
    intro i hi hw hp hr
    rcases (Table.mem_insert hins).mp hi with hiI | rfl
    · exact vouched_of_carried hI hold hsub i hiI hw hp hr
    · have howns : Owns h.state ws.id actor := by
        have hww : ws.id = w := hw
        rw [hww]
        exact hc hww ⟨o, ho, hr⟩ hs
      have hnew : d.uuid 0 ∈ vouch lower h.state (.on d actor ws.id (.createInvite email r))
          h.history := by
        rw [vouch_of_owns howns hs]
        exact List.mem_cons_self
      exact hnew
  | reassigned hw hm hp _ hg hT => exact fun i hi hw hp hr => hsub (hold i hi hw hp hr)
  | suspended hm hp hT => exact fun i hi hw hp hr => hsub (hold i hi hw hp hr)
  | reactivated hm hT => exact fun i hi hw hp hr => hsub (hold i hi hw hp hr)
  | removed hm hp hT => exact fun i hi hw hp hr => hsub (hold i hi hw hp hr)
  | transferred hw howner hm hn hact _ hT hT' hW =>
    exact fun i hi hw hp hr => hsub (hold i hi hw hp hr)
  | accepted hu hi htok hpend hT hI => exact vouched_of_carried hI hold hsub

theorem vouched_step (hv : Vouched w h) (hc : OwnerInvites lower w h.state c) :
    Vouched w (record (step lower) (vouch lower) h c) := by
  unfold record step
  rcases (serve lower c).settle_cases h.state with ⟨u, hret⟩ | ⟨hsame, -⟩
  · exact vouched_of_effect hv hc (effect_serve hret) (Prog.succeeds_of_returns hret)
  · rw [hsame]
    intro o ho i hi hw hp hr
    exact subset_vouch h.state c h.history (hv o ho i hi hw hp hr)

/-! ### Runs -/

/-- **No escalation to Owner** in every run in which only the owner invites to the Owner role. -/
theorem noEscalation (hv : Vouched w h) (l : List Call)
    (hl : Along (step lower) (OwnerInvites lower w) h.state l) :
    Along (record (step lower) (vouch lower)) (NoEscalation lower w) h l :=
  along_of_along (fun _ _ hI hq => vouched_step hI hq)
    (fun _ c hI _ _ hno hyes => fromOwner_of_effect hI (effect_step c) hno hyes) hv
    (along_record.mpr hl)

theorem vouched_founded : Vouched 10 ⟨founded, []⟩ := by
  intro o _ i hi
  have hnone : founded.workspaceInvites.rows = [] := by decide
  rw [hnone] at hi
  exact absurd hi List.not_mem_nil

/-- The owner invites a second owner, who accepts. -/
theorem noEscalation_founded :
    Along (record (step id) (vouch id)) (NoEscalation id 10) ⟨founded, []⟩
      [.on (drawsFrom 20 0 "t") 1 10 (.createInvite "admin@example.com" 5),
        .acceptInvite (drawsFrom 30 0 "") 2 "t"] :=
  noEscalation vouched_founded _ ⟨fun _ _ => by decide, trivial, trivial⟩

/-- An admin invites a guest to the Owner role, and the guest accepts. -/
theorem admin_invites_an_owner :
    ¬ Along (record (step id) (vouch id)) (NoEscalation id 10) ⟨founded, []⟩
      [.on (drawsFrom 20 0 "t") 1 10 (.createInvite "admin@example.com" 6),
        .acceptInvite (drawsFrom 30 0 "") 2 "t",
        .on (drawsFrom 40 0 "u") 2 10 (.createInvite "guest@example.com" 5),
        .acceptInvite (drawsFrom 50 0 "") 3 "u"] := by
  rintro ⟨-, -, -, h4, -⟩
  exact absurd (h4 3 (by decide) (by decide)) (by decide)

end MarketingSuite.Workspaces.Escalation
