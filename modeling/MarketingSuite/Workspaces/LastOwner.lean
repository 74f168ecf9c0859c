import MarketingSuite.Workspaces.System

/-! # The last active owner

`_protect_owner_role` counts the active owners before a role change, a suspension or a removal, but
`transfer_ownership` does not call it: an owner who names himself as the new owner is promoted first
and demoted second. Without such a transfer by the only active owner, every run keeps one. -/

namespace MarketingSuite.Workspaces.LastOwner

open MarketingSuite.Lib.Programs MarketingSuite.Lib.Tables MarketingSuite.Lib.Runs
open MarketingSuite.Base.Values MarketingSuite.Base.Models MarketingSuite.Base.Schema
open MarketingSuite.Repositories.Base
open MarketingSuite.Workspaces.Repositories (ownerRoleOf activeHolders mem_activeHolders
  activeHolders_sublist)
open MarketingSuite.Workspaces.Members (IsMember MayLose)
open MarketingSuite.Workspaces.Service (WorkspaceCreateInternal createWorkspace createWorkspace_spec)
open MarketingSuite.Workspaces.System

/-- The workspace has an active member with the Owner role. -/
def HasActiveOwner (w : Uuid) (s : Database) : Prop :=
  ∃ o, ownerRoleOf s = some o ∧ ∃ m, m ∈ activeHolders s w o.id

/-- A call to transfer the workspace from the user who owns it to himself, its only active owner,
who asks for another role than Owner. -/
def SelfDemotion (w : Uuid) (s : Database) : Call → Prop
  | .on _ actor w' (.transferOwnership n r) => w' = w ∧ n = actor ∧
    (∃ ws ∈ s.workspaces.rows, ws.id = w ∧ ws.ownerId = actor) ∧
    ∃ o, ownerRoleOf s = some o ∧ r ≠ o.id ∧ ∀ m ∈ activeHolders s w o.id, m.userId = actor
  | _ => False

instance (w : Uuid) : DecidablePred (HasActiveOwner w) := fun s =>
  decidable_of_iff ((ownerRoleOf s).any fun o => (activeHolders s w o.id).any fun _ => true) (by
    simp [HasActiveOwner, Option.any_eq_true, List.any_eq_true])

variable {lower : String → String} {s s' : Database} {w v i : Uuid} {o : Role}
  {m h : WorkspaceMember} {T : Table WorkspaceMember}

/-! ### One row -/

theorem eq_of_user_eq (hm : m ∈ T.rows) (hh : h ∈ T.rows) (hw : h.workspaceId = m.workspaceId)
    (hu : h.userId = m.userId) : h = m := by
  refine T.eq_of_not_compatible hh hm ?_
  simp [Keyed.compatible, hw, hu]

/-- **The guard works**: a change of one row that `_protect_owner_role` lets pass leaves another
active owner in place, whatever the change is. -/
theorem exists_holder_of_mayLose {f : WorkspaceMember → WorkspaceMember}
    (ho : ownerRoleOf s = some o) (hh : h ∈ activeHolders s w o.id) (hm : IsMember s v i m)
    (hp : MayLose s v m) (hT : s.workspaceMembers.modify i f = some T) :
    ∃ h' ∈ T.rows, h'.workspaceId = w ∧ h'.status = .active ∧ h'.deletedAt = none ∧
      h'.roleId = o.id := by
  obtain ⟨hmem, rfl, -, hmv⟩ := hm
  have hrow := mem_activeHolders.mp hh
  by_cases hid : h.id = m.id
  · obtain rfl := s.workspaceMembers.eq_of_key_eq hrow.1 hmem hid
    have hvw : v = w := by rw [← hmv, hrow.2.1]
    subst hvw
    have hlt := hp o ho hrow.2.2.2.2 hrow.2.2.1
    obtain ⟨h', hh', hne⟩ := s.workspaceMembers.exists_ne activeHolders_sublist hlt h
    have hrow' := mem_activeHolders.mp hh'
    have hidne : h'.id ≠ h.id := fun heq =>
      hne (s.workspaceMembers.eq_of_key_eq hrow'.1 hmem heq)
    exact ⟨h', Table.mem_modify_of_ne hT hrow'.1 hidne, hrow'.2⟩
  · exact ⟨h, Table.mem_modify_of_ne hT hrow.1 hid, hrow.2⟩

/-- A change that makes no active owner less than that leaves the workspace one. -/
theorem exists_holder_of_keeps {f : WorkspaceMember → WorkspaceMember}
    (hh : h ∈ activeHolders s w o.id) (hT : s.workspaceMembers.modify i f = some T)
    (hf : h.id = i → (f h).workspaceId = w ∧ (f h).status = .active ∧ (f h).deletedAt = none ∧
      (f h).roleId = o.id) :
    ∃ h' ∈ T.rows, h'.workspaceId = w ∧ h'.status = .active ∧ h'.deletedAt = none ∧
      h'.roleId = o.id := by
  have hrow := mem_activeHolders.mp hh
  by_cases hid : h.id = i
  · exact ⟨f h, Table.mem_modify_self hT hrow.1 hid, hf hid⟩
  · exact ⟨h, Table.mem_modify_of_ne hT hrow.1 hid, hrow.2⟩

/-! ### One step -/

theorem hasActiveOwner_of_mem (ho : ownerRoleOf s = some o) (hm : m ∈ s.workspaceMembers.rows)
    (h : m.workspaceId = w ∧ m.status = .active ∧ m.deletedAt = none ∧ m.roleId = o.id) :
    HasActiveOwner w s := ⟨o, ho, m, mem_activeHolders.mpr ⟨hm, h⟩⟩

/-- The last write of a transfer: whatever live row is the caller's gets the role `r`. -/
def Demotes (v actor r : Uuid) (T T' : Table WorkspaceMember) : Prop :=
  (T' = T ∧ ∀ m ∈ T.rows, m.workspaceId = v → m.userId = actor → m.deletedAt ≠ none) ∨
    ∃ m' ∈ T.rows, m'.workspaceId = v ∧ m'.userId = actor ∧ m'.deletedAt = none ∧
      T.modify m'.id (fun m => { m with roleId := r }) = some T'

theorem mem_of_demotes {T' : Table WorkspaceMember} {actor r : Uuid} (hd : Demotes v actor r T T')
    (hm : m ∈ T.rows) (hu : m.workspaceId = v → m.userId ≠ actor) : m ∈ T'.rows := by
  rcases hd with ⟨rfl, -⟩ | ⟨m', hm', hw', hu', -, hmod⟩
  · exact hm
  · refine Table.mem_modify_of_ne hmod hm fun hid => ?_
    obtain rfl := T.eq_of_key_eq hm hm' hid
    exact hu hw' hu'

theorem mem_of_demotes_self {T' : Table WorkspaceMember} {actor r : Uuid}
    (hd : Demotes v actor r T T') (hm : m ∈ T.rows) (hw : m.workspaceId = v)
    (hu : m.userId = actor) (hr : m.roleId = r) : m ∈ T'.rows := by
  rcases hd with ⟨rfl, -⟩ | ⟨m', hm', hw', hu', -, hmod⟩
  · exact hm
  · obtain rfl := eq_of_user_eq hm' hm (hw.trans hw'.symm) (hu.trans hu'.symm)
    subst hr
    exact Table.mem_modify_self hmod hm' rfl

/-- A transfer: the new owner stays an active owner unless it is the caller, and then another one
has to be there. -/
theorem exists_holder_of_transfer {T' : Table WorkspaceMember} {ws : Workspace} {actor n r : Uuid}
    (hh : h ∈ activeHolders s w o.id) (hm : IsMember s ws.id m.id m) (hn : m.userId = n)
    (hact : m.status = .active)
    (hT : s.workspaceMembers.modify m.id (fun m => { m with roleId := o.id }) = some T)
    (hT' : Demotes ws.id actor r T T')
    (hsafe : ws.id = w → n = actor → r ≠ o.id → ∃ h ∈ activeHolders s w o.id, h.userId ≠ actor) :
    ∃ h' ∈ T'.rows, h'.workspaceId = w ∧ h'.status = .active ∧ h'.deletedAt = none ∧
      h'.roleId = o.id := by
  obtain ⟨hmem, -, hd, hmw⟩ := hm
  have hrow := mem_activeHolders.mp hh
  have hpromoted : { m with roleId := o.id } ∈ T.rows := Table.mem_modify_self hT hmem rfl
  -- a holder outside the workspace or of another user is touched by neither write
  have hstays : ∀ k ∈ activeHolders s w o.id, k.id ≠ m.id →
      (ws.id = w → k.userId ≠ actor) → k ∈ T'.rows := by
    intro k hk hkm hku
    have hkrow := mem_activeHolders.mp hk
    exact mem_of_demotes hT' (Table.mem_modify_of_ne hT hkrow.1 hkm)
      fun hkw => hku (hkw.symm.trans hkrow.2.1)
  by_cases hw : ws.id = w
  · have hnew : { m with roleId := o.id } ∈ T'.rows → ∃ h' ∈ T'.rows, h'.workspaceId = w ∧
        h'.status = .active ∧ h'.deletedAt = none ∧ h'.roleId = o.id :=
      fun hmem' => ⟨_, hmem', hmw.trans hw, hact, hd, rfl⟩
    by_cases hna : n = actor
    · by_cases hr : r = o.id
      · -- the caller is demoted to the Owner role
        exact hnew (mem_of_demotes_self hT' hpromoted hmw (hn.trans hna) hr.symm)
      · obtain ⟨k, hk, hku⟩ := hsafe hw hna hr
        have hkrow := mem_activeHolders.mp hk
        refine ⟨k, hstays k hk (fun heq => ?_) (fun _ => hku), hkrow.2⟩
        obtain rfl := s.workspaceMembers.eq_of_key_eq hkrow.1 hmem heq
        exact hku (hn.trans hna)
    · -- the new owner is not the caller, whose row is another one
      exact hnew (mem_of_demotes hT' hpromoted fun _ hu => hna (hn.symm.trans hu))
  · refine ⟨h, hstays h hh (fun heq => ?_) (fun hw' => absurd hw' hw), hrow.2⟩
    obtain rfl := s.workspaceMembers.eq_of_key_eq hrow.1 hmem heq
    exact hw (hmw.symm.trans hrow.2.1)

/-- **One step** that is no self-demotion keeps an active owner. -/
theorem hasActiveOwner_of_effect {c : Call} (hI : HasActiveOwner w s) (hc : ¬ SelfDemotion w s c)
    (he : Effect lower s c s') : HasActiveOwner w s' := by
  obtain ⟨o, ho, h, hh⟩ := hI
  have ho' : ownerRoleOf s' = some o := by rw [he.ownerRoleOf_eq, ho]
  have hrow := mem_activeHolders.mp hh
  cases he with
  | kept hI => exact hasActiveOwner_of_mem ho' hrow.1 hrow.2
  | invited hw hI hins => exact hasActiveOwner_of_mem ho' hrow.1 hrow.2
  | reassigned hw hm hp _ hg hT =>
    obtain ⟨h', hh', hp'⟩ := exists_holder_of_mayLose ho hh hm hp hT
    exact hasActiveOwner_of_mem ho' hh' hp'
  | suspended hm hp hT =>
    obtain ⟨h', hh', hp'⟩ := exists_holder_of_mayLose ho hh hm hp hT
    exact hasActiveOwner_of_mem ho' hh' hp'
  | reactivated hm hT =>
    obtain ⟨h', hh', hp'⟩ := exists_holder_of_keeps hh hT
      fun _ => ⟨hrow.2.1, rfl, hrow.2.2.2.1, hrow.2.2.2.2⟩
    exact hasActiveOwner_of_mem ho' hh' hp'
  | removed hm hp hT =>
    obtain ⟨h', hh', hp'⟩ := exists_holder_of_mayLose ho hh hm hp hT
    exact hasActiveOwner_of_mem ho' hh' hp'
  | transferred hw howner hm hn hact ho₂ hT hT' hW =>
    rw [ho] at ho₂
    obtain rfl := Option.some.inj ho₂
    have hsafe := exists_holder_of_transfer hh hm hn hact hT hT' fun hwv hna hr => by
      by_contra hno
      refine hc ⟨hwv, hna, ⟨_, hw, hwv, howner⟩, o, ho, hr, fun k hk => ?_⟩
      by_contra hku
      exact hno ⟨k, hk, hku⟩
    obtain ⟨h', hh', hp'⟩ := hsafe
    exact hasActiveOwner_of_mem ho' hh' hp'
  | accepted hu hi htok hpend hT hI =>
    rcases hT with rfl | hins
    · exact hasActiveOwner_of_mem ho' hrow.1 hrow.2
    · exact hasActiveOwner_of_mem ho' ((Table.mem_insert hins).mpr (Or.inl hrow.1)) hrow.2

/-- **The condition is exact**: a self-demotion that the service accepts leaves no active owner. -/
theorem not_hasActiveOwner_of_selfDemotion {d : Draws} {actor n r : Uuid} {u : Unit}
    (hc : SelfDemotion w s (.on d actor w (.transferOwnership n r)))
    (h : (serve lower (.on d actor w (.transferOwnership n r))).Returns s u s') :
    ¬ HasActiveOwner w s' := by
  obtain ⟨-, rfl, -, o, ho, hr, hall⟩ := hc
  have ho' : ownerRoleOf s' = some o := by rw [(effect_serve h).ownerRoleOf_eq, ho]
  obtain ⟨user, -, rfl, ws, -, rfl, hop⟩ := serve_on h
  obtain ⟨_, htransfer, -⟩ := Prog.returns_bind_pure.mp hop
  obtain ⟨-, m, hm, hmw, hn, hd, -, o₂, ho₂, W, T, T', N, L, -, hT, hT', -, rfl⟩ :=
    Service.transferOwnership_spec htransfer
  rw [ho] at ho₂
  obtain rfl := Option.some.inj ho₂
  have hpromoted : { m with roleId := o.id } ∈ T.rows :=
    Table.mem_modify_self hT hm rfl
  rintro ⟨o₃, ho₃, k, hk⟩
  rw [ho'] at ho₃
  obtain rfl := Option.some.inj ho₃
  obtain ⟨hkT', hkw, hka, hkd, hkr⟩ := mem_activeHolders.mp hk
  rcases hT' with ⟨-, hno⟩ | ⟨m', hm', hw', hu', -, hmod⟩
  · exact hno _ hpromoted hmw hn hd
  · rcases (Table.mem_modify hmod).mp hkT' with ⟨hkT, hkm'⟩ | ⟨q, -, -, rfl⟩
    · have hkm : k.userId ≠ user.id := fun hku =>
        hkm' (by rw [eq_of_user_eq hm' hkT (by rw [hkw, hw']) (by rw [hku, hu'])]; rfl)
      rcases (Table.mem_modify hT).mp hkT with ⟨hks, -⟩ | ⟨q, hq, hqm, rfl⟩
      · exact hkm (hall k (mem_activeHolders.mpr ⟨hks, hkw, hka, hkd, hkr⟩))
      · obtain rfl := s.workspaceMembers.eq_of_key_eq hq hm hqm
        exact hkm hn
    · exact hr hkr

/-! ### Runs -/

theorem hasActiveOwner_of_createWorkspace {d : Draws} {user : User} {data : WorkspaceCreateInternal}
    {ws : Workspace} (hc : (createWorkspace lower d user data).Returns s ws s') :
    HasActiveOwner ws.id s' := by
  obtain ⟨o, W, T, L, ho, -, -, hT, rfl⟩ := createWorkspace_spec hc
  refine hasActiveOwner_of_mem ho (Table.mem_insert_self hT) ?_
  exact ⟨rfl, rfl, rfl, rfl⟩

/-- **The last active owner stays** in every run that begins with the workspace's creation and in
which its only active owner does not transfer it to himself for another role. -/
theorem always_hasActiveOwner {d : Draws} {user : User} {data : WorkspaceCreateInternal}
    {ws : Workspace} (hc : (createWorkspace lower d user data).Returns s ws s') (l : List Call)
    (hl : Along (step lower) (fun s c => ¬ SelfDemotion ws.id s c) s' l) :
    Always (step lower) (HasActiveOwner ws.id) s' l :=
  always_of_along (fun _ c hI hq => hasActiveOwner_of_effect hI hq (effect_step c))
    (hasActiveOwner_of_createWorkspace hc) hl

/-- A transfer to the second user, who was invited and has accepted, is within the condition. -/
theorem always_hasActiveOwner_founded :
    Along (step id) (fun s c => ¬ SelfDemotion studio.id s c) founded
      [.on (drawsFrom 20 0 "t") 1 10 (.createInvite "admin@example.com" 6),
        .acceptInvite (drawsFrom 30 0 "") 2 "t",
        .on (drawsFrom 40 0 "") 1 10 (.transferOwnership 2 7)] ∧
    Always (step id) (HasActiveOwner studio.id) founded
      [.on (drawsFrom 20 0 "t") 1 10 (.createInvite "admin@example.com" 6),
        .acceptInvite (drawsFrom 30 0 "") 2 "t",
        .on (drawsFrom 40 0 "") 1 10 (.transferOwnership 2 7)] := by
  have hl : Along (step id) (fun s c => ¬ SelfDemotion studio.id s c) founded
      [.on (drawsFrom 20 0 "t") 1 10 (.createInvite "admin@example.com" 6),
        .acceptInvite (drawsFrom 30 0 "") 2 "t",
        .on (drawsFrom 40 0 "") 1 10 (.transferOwnership 2 7)] :=
    ⟨fun h => h, fun h => h, fun h => absurd h.2.1 (by decide), trivial⟩
  exact ⟨hl, always_hasActiveOwner createWorkspace_founded _ hl⟩

/-- The founder, the only active owner, transfers the workspace to himself for the role Member. -/
theorem founder_transfers_to_himself :
    (createWorkspace id (drawsFrom 10 0 "") (userOf 1 "owner@example.com")
      studioRequest).Returns seeded studio founded ∧
    ¬ Always (step id) (HasActiveOwner studio.id) founded
      [.on (drawsFrom 20 0 "") 1 10 (.transferOwnership 1 7)] :=
  ⟨createWorkspace_founded, by decide⟩

end MarketingSuite.Workspaces.LastOwner
