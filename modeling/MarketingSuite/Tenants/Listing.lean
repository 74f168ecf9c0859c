import MarketingSuite.Tenants.Deletion
import Mathlib.Data.List.Dedup
import Mathlib.Data.List.Perm.Lattice

/-! # Listing and access

`get_user_workspaces` joins the workspaces with all their member rows, `get_current_workspace` looks
for a live and active one. Who was suspended or removed is on the list and does not get in. -/

namespace MarketingSuite.Tenants.Listing

open MarketingSuite.Lib.Programs MarketingSuite.Lib.Tables MarketingSuite.Lib.Runs
open MarketingSuite.Lib.Sessions
open MarketingSuite.Base.Values MarketingSuite.Base.Models MarketingSuite.Base.Schema
open MarketingSuite.Repositories.Base
open MarketingSuite.Api.Dependencies MarketingSuite.Api.Access
open MarketingSuite.Workspaces
open MarketingSuite.Workspaces.Repositories (getUserWorkspaces)
open MarketingSuite.Tenants.Deletion (Demand Body step act standing frames_dependencies)

/-! ### The query -/

/-- The member rows of a workspace. -/
def membersOf (db : Database) (w : Workspace) : List WorkspaceMember :=
  db.workspaceMembers.rows.filter fun m => m.workspaceId = w.id

/-- `select(Workspace).outerjoin(WorkspaceMember)`: a workspace comes once for each of its member
rows, and once if it has none. -/
def outerJoin (db : Database) : List (Workspace × Option WorkspaceMember) :=
  db.workspaces.rows.flatMap fun w =>
    if membersOf db w = [] then [(w, none)] else (membersOf db w).map fun m => (w, some m)

/-- The whole query. -/
def joined (db : Database) (userId : Uuid) : List Workspace :=
  (((outerJoin db).filter fun x => x.1.ownerId = userId || x.2.any fun m => m.userId = userId).filter
    fun x => x.1.deletedAt.isNone).map Prod.fst |>.dedup

variable {s : Database} {u : Uuid} {user : User} {w : Workspace} {l : List Workspace}

theorem mem_membersOf {m : WorkspaceMember} :
    m ∈ membersOf s w ↔ m ∈ s.workspaceMembers.rows ∧ m.workspaceId = w.id := by
  simp [membersOf]

theorem mem_outerJoin {o : Option WorkspaceMember} : (w, o) ∈ outerJoin s ↔
    w ∈ s.workspaces.rows ∧ ((o = none ∧ membersOf s w = []) ∨ ∃ m ∈ membersOf s w, o = some m) := by
  unfold outerJoin
  rw [List.mem_flatMap]
  constructor
  · rintro ⟨w', hw', hx⟩
    split_ifs at hx with hnil
    · obtain ⟨rfl, rfl⟩ := Prod.mk.inj (List.mem_singleton.mp hx)
      exact ⟨hw', Or.inl ⟨rfl, hnil⟩⟩
    · obtain ⟨m, hm, heq⟩ := List.mem_map.mp hx
      obtain ⟨rfl, rfl⟩ := Prod.mk.inj heq
      exact ⟨hw', Or.inr ⟨m, hm, rfl⟩⟩
  · rintro ⟨hw, ho⟩
    refine ⟨w, hw, ?_⟩
    rcases ho with ⟨rfl, hnil⟩ | ⟨m, hm, rfl⟩
    · rw [if_pos hnil]
      exact List.mem_singleton.mpr rfl
    · rw [if_neg (List.ne_nil_of_mem hm)]
      exact List.mem_map.mpr ⟨m, hm, rfl⟩

/-- Who is on the list: the owner, and whoever has a member row, in any status. -/
def OnList (s : Database) (u : Uuid) (w : Workspace) : Prop :=
  w ∈ s.workspaces.rows ∧ w.deletedAt = none ∧
    (w.ownerId = u ∨ ∃ m ∈ s.workspaceMembers.rows, m.workspaceId = w.id ∧ m.userId = u)

theorem mem_joined : w ∈ joined s u ↔ OnList s u w := by
  have hmem : w ∈ joined s u ↔ ∃ o, (w, o) ∈ outerJoin s ∧ w.deletedAt = none ∧
      (w.ownerId = u ∨ o.any (fun m => m.userId = u) = true) := by
    simp [joined]
  rw [hmem]
  constructor
  · rintro ⟨o, ho, hd, hwhere⟩
    obtain ⟨hw, ho⟩ := mem_outerJoin.mp ho
    refine ⟨hw, hd, hwhere.imp_right fun hany => ?_⟩
    obtain ⟨m, rfl, hu⟩ := (Option.any_eq_true _ _).mp hany
    rcases ho with ⟨hnone, -⟩ | ⟨m', hm', hsome⟩
    · cases hnone
    · obtain rfl := Option.some.inj hsome
      obtain ⟨hrow, hid⟩ := mem_membersOf.mp hm'
      exact ⟨m, hrow, hid, of_decide_eq_true hu⟩
  · rintro ⟨hw, hd, howner | ⟨m, hm, hid, hu⟩⟩
    · by_cases hnil : membersOf s w = []
      · exact ⟨none, mem_outerJoin.mpr ⟨hw, Or.inl ⟨rfl, hnil⟩⟩, hd, Or.inl howner⟩
      · obtain ⟨m, hm⟩ := List.exists_mem_of_ne_nil _ hnil
        exact ⟨some m, mem_outerJoin.mpr ⟨hw, Or.inr ⟨m, hm, rfl⟩⟩, hd, Or.inl howner⟩
    · refine ⟨some m, mem_outerJoin.mpr ⟨hw, Or.inr ⟨m, mem_membersOf.mpr ⟨hm, hid⟩, rfl⟩⟩, hd,
        Or.inr ?_⟩
      simp [hu]

theorem mem_getUserWorkspaces {t : Database} (h : (getUserWorkspaces u).Returns s l t) :
    t = s ∧ l.Nodup ∧ ∀ w, w ∈ l ↔ OnList s u w := by
  obtain ⟨rfl, rfl⟩ := Prog.returns_gets.mp h
  refine ⟨rfl, t.workspaces.nodup.filter _, fun w => ?_⟩
  simp only [Table.mem_select, OnList, Bool.and_eq_true, Bool.or_eq_true, decide_eq_true_eq,
    List.any_eq_true, Option.isNone_iff_eq_none]
  rw [and_comm (a := w.deletedAt = none)]

/-- **What the repository returns is the query**, up to the order, which it does not fix. -/
theorem getUserWorkspaces_perm {t : Database} (h : (getUserWorkspaces u).Returns s l t) :
    l.Perm (joined s u) := by
  obtain ⟨-, hnodup, hmem⟩ := mem_getUserWorkspaces h
  exact (List.perm_ext_iff_of_nodup hnodup (List.nodup_dedup _)).mpr fun w =>
    (hmem w).trans mem_joined.symm

/-! ### The two agree -/

/-- **The list of a user is what the user gets into**, each workspace once. -/
def Agrees (s : Database) (user : User) : Prop :=
  ∃ l, (getUserWorkspaces user.id).Returns s l s ∧ l.Nodup ∧
    ∀ w, w ∈ l ↔ w ∈ s.workspaces.rows ∧ w.deletedAt = none ∧
      (getCurrentWorkspace w.id user).succeeds s = true

/-- The user's memberships in the workspaces of others are active and not deleted. -/
def Current (s : Database) (u : Uuid) : Prop :=
  ∀ m ∈ s.workspaceMembers.rows, m.userId = u → ∀ w, IsOpen s m.workspaceId w → w.ownerId ≠ u →
    m.status = .active ∧ m.deletedAt = none

/-- **A user's list agrees with the access** exactly if no membership of the user, in a workspace of
another one that is not deleted, is suspended, removed or pending. -/
theorem agrees_iff_current : Agrees s user ↔ Current s user.id := by
  have henters : ∀ w ∈ s.workspaces.rows, w.deletedAt = none →
      ((getCurrentWorkspace w.id user).succeeds s = true ↔
        (∃ m, IsLive s w.id user.id m ∧ m.status = .active) ∨ w.ownerId = user.id) := by
    intro w hw hd
    rw [getCurrentWorkspace_succeeds_iff]
    constructor
    · rintro ⟨w', hopen, hin⟩
      obtain rfl := hopen.unique ⟨hw, rfl, hd⟩
      exact hin
    · exact fun hin => ⟨w, ⟨hw, rfl, hd⟩, hin⟩
  obtain ⟨l, hl⟩ : ∃ l, (getUserWorkspaces user.id).Returns s l s :=
    ⟨_, Prog.returns_gets.mpr ⟨rfl, rfl⟩⟩
  obtain ⟨-, hnodup, hmem⟩ := mem_getUserWorkspaces hl
  constructor
  · rintro ⟨l', hl', -, hagree⟩ m hm hu w ⟨hw, hid, hd⟩ howner
    obtain ⟨-, -, hmem'⟩ := mem_getUserWorkspaces hl'
    have hin := (hagree w).mp ((hmem' w).mpr ⟨hw, hd, Or.inr ⟨m, hm, hid.symm, hu⟩⟩)
    rcases (henters w hw hd).mp hin.2.2 with ⟨m', hlive, hact⟩ | howner'
    · have hsame : m' = m := by
        refine s.workspaceMembers.eq_of_not_compatible hlive.1 hm ?_
        simp [Keyed.compatible, hlive.2.1, hlive.2.2.1, hid, hu]
      rw [hsame] at hlive hact
      exact ⟨hact, hlive.2.2.2⟩
    · exact absurd howner' howner
  · intro hcur
    refine ⟨l, hl, hnodup, fun w => ?_⟩
    rw [hmem w]
    constructor
    · rintro ⟨hw, hd, hin⟩
      refine ⟨hw, hd, (henters w hw hd).mpr ?_⟩
      by_cases howner : w.ownerId = user.id
      · exact Or.inr howner
      · obtain ⟨m, hm, hid, hu⟩ := hin.resolve_left howner
        obtain ⟨hact, hlive⟩ := hcur m hm hu w ⟨hw, hid.symm, hd⟩ howner
        exact Or.inl ⟨m, ⟨hm, hid, hu, hlive⟩, hact⟩
    · rintro ⟨hw, hd, hin⟩
      refine ⟨hw, hd, ?_⟩
      rcases (henters w hw hd).mp hin with ⟨m, hlive, -⟩ | howner
      · exact Or.inr ⟨m, hlive.1, hlive.2.1, hlive.2.2.1⟩
      · exact Or.inl howner

/-! ### Runs without suspensions -/

/-- The operations after which a user with a member row may not get in: a suspension, a removal, and
a transfer, after which the row of the old owner counts. -/
def Lapses : Demand → Prop
  | .perform _ _ _ (.suspendMember _) => True
  | .perform _ _ _ (.removeMember _) => True
  | .perform _ _ _ (.transferOwnership _ _) => True
  | _ => False

/-- Every membership is in a workspace, and active unless it is the owner's or the workspace is
deleted. -/
structure Settled (s : Database) : Prop where
  rooted : ∀ m ∈ s.workspaceMembers.rows, ∃ w ∈ s.workspaces.rows, w.id = m.workspaceId
  current : ∀ u, Current s u

variable {lower : String → String} {s' t : Database} {q : Demand}

theorem settled_congr (h : standing t = standing s) (hs : Settled s) : Settled t := by
  have hmembers : t.workspaceMembers = s.workspaceMembers := congrArg Prod.fst h
  have hspaces : t.workspaces.rows.map (fun w => (w.id, w.ownerId, w.deletedAt)) =
      s.workspaces.rows.map fun w => (w.id, w.ownerId, w.deletedAt) :=
    congrArg (fun x => x.2.2) h
  have hback : ∀ w ∈ t.workspaces.rows, ∃ w' ∈ s.workspaces.rows, w'.id = w.id ∧
      w'.ownerId = w.ownerId ∧ w'.deletedAt = w.deletedAt := by
    intro w hw
    have hmem : (w.id, w.ownerId, w.deletedAt) ∈
        s.workspaces.rows.map fun w => (w.id, w.ownerId, w.deletedAt) := by
      rw [← hspaces]
      exact List.mem_map.mpr ⟨w, hw, rfl⟩
    obtain ⟨w', hw', heq⟩ := List.mem_map.mp hmem
    simp only [Prod.mk.injEq] at heq
    exact ⟨w', hw', heq⟩
  refine ⟨fun m hm => ?_, fun u m hm hu w hopen howner => ?_⟩
  · rw [hmembers] at hm
    obtain ⟨w, hw, hid⟩ := hs.rooted m hm
    have hmem : (w.id, w.ownerId, w.deletedAt) ∈
        t.workspaces.rows.map fun w => (w.id, w.ownerId, w.deletedAt) := by
      rw [hspaces]
      exact List.mem_map.mpr ⟨w, hw, rfl⟩
    obtain ⟨w', hw', heq⟩ := List.mem_map.mp hmem
    exact ⟨w', hw', (congrArg Prod.fst heq).trans hid⟩
  · rw [hmembers] at hm
    obtain ⟨w', hw', hid, how, hd⟩ := hback w hopen.1
    exact hs.current u m hm hu w' ⟨hw', hid.trans hopen.2.1, hd.trans hopen.2.2⟩
      fun h => howner (how.symm.trans h)

/-- Members that stay where they are, with a status that is active or the old one. -/
theorem settled_of_modify {f : WorkspaceMember → WorkspaceMember} {i : Uuid}
    {T : Table WorkspaceMember} {I : Table WorkspaceInvite} {N : Table Notification}
    {L : List AuditLog} (hs : Settled s) (hT : s.workspaceMembers.modify i f = some T)
    (hf : ∀ m : WorkspaceMember, (f m).workspaceId = m.workspaceId ∧ (f m).userId = m.userId ∧
      (f m).deletedAt = m.deletedAt ∧ ((f m).status = m.status ∨ (f m).status = .active)) :
    Settled { s with workspaceMembers := T, workspaceInvites := I, notifications := N,
                     auditLogs := L } := by
  have hold : ∀ m ∈ T.rows, ∃ m' ∈ s.workspaceMembers.rows, m.workspaceId = m'.workspaceId ∧
      m.userId = m'.userId ∧ m.deletedAt = m'.deletedAt ∧
        (m.status = m'.status ∨ m.status = .active) :=
    Table.exists_before_modify hT (fun _ => ⟨rfl, rfl, rfl, Or.inl rfl⟩) fun m' _ _ => hf m'
  refine ⟨fun m hm => ?_, fun u m hm hu w hopen howner => ?_⟩
  · obtain ⟨m', hm', hw, -⟩ := hold m hm
    rw [hw]
    exact hs.rooted m' hm'
  · obtain ⟨m', hm', hw, hu', hd, hst⟩ := hold m hm
    rw [hw] at hopen
    obtain ⟨hact, hlive⟩ := hs.current u m' hm' (hu'.symm.trans hu) w hopen howner
    refine ⟨?_, hd.trans hlive⟩
    rcases hst with hst | hst
    · exact hst.trans hact
    · exact hst

theorem settled_of_insert {m : WorkspaceMember} {T : Table WorkspaceMember}
    {I : Table WorkspaceInvite} {N : Table Notification} {L : List AuditLog} (hs : Settled s)
    (hT : s.workspaceMembers.insert m = some T) (hact : m.status = .active)
    (hlive : m.deletedAt = none) (hroot : ∃ w ∈ s.workspaces.rows, w.id = m.workspaceId) :
    Settled { s with workspaceMembers := T, workspaceInvites := I, notifications := N,
                     auditLogs := L } := by
  refine ⟨fun k hk => ?_, fun u k hk hu w hopen howner => ?_⟩
  · exact Table.forall_insert hT hs.rooted hroot k hk
  · rcases (Table.mem_insert hT).mp hk with hk | rfl
    · exact hs.current u k hk hu w hopen howner
    · exact ⟨hact, hlive⟩

theorem settled_of_effect {d : Draws} {user v : Uuid} {op : System.Op} (hs : Settled s)
    (h : System.Effect lower s (.on d user v op) s')
    (hq : ∀ caller, ¬ Lapses (.perform d caller v op)) : Settled s' := by
  have hno := hq (.error .typeError)
  cases h with
  | kept hI => exact ⟨hs.rooted, hs.current⟩
  | invited hw hI hins => exact ⟨hs.rooted, hs.current⟩
  | reassigned hw hm hp ho hg hT =>
    exact settled_of_modify hs hT fun _ => ⟨rfl, rfl, rfl, Or.inl rfl⟩
  | suspended hm hp hT => exact absurd trivial hno
  | reactivated hm hT => exact settled_of_modify hs hT fun _ => ⟨rfl, rfl, rfl, Or.inr rfl⟩
  | removed hm hp hT => exact absurd trivial hno
  | transferred hw howner hm hn hact ho hT hT' hW => exact absurd trivial hno

theorem settled_transact {p : Svc Unit} (hs : Settled s) (h : ∀ s', p.Returns s () s' → Settled s') :
    Settled (Session.transact p s).2 := by
  rw [Session.transact_snd]
  exact Prog.settle_inv hs fun _ s' hret => h s' hret

theorem settled_serve {p : Svc User} {body : User → Body} (hs : Settled s)
    (hp : p.Frames standing) :
    Settled (Session.serve (Session.exec p >>= fun user => (body user).val) s).2 :=
  settled_congr (Session.frames_serve (Session.keeps_bind (Session.keeps_exec hp) fun user =>
    (body user).property) s) hs

theorem settled_of_delete {w : Workspace} {a : Unit} {d : Draws} (hs : Settled s)
    (h : (Service.deleteWorkspace d user w).Returns s a s') : Settled s' := by
  obtain ⟨-, W, L, rfl, hW⟩ := Service.deleteWorkspace_spec h
  rcases hW with rfl | hW
  · exact ⟨hs.rooted, hs.current⟩
  · refine ⟨fun m hm => ?_, fun u m hm hu w' ⟨hw', hid, hd⟩ howner => ?_⟩
    · obtain ⟨w', hw', hid⟩ := hs.rooted m hm
      obtain ⟨v, hv, hid'⟩ := Table.exists_after_modify (R := fun w' v => v.id = w'.id) hW
        (fun _ => rfl) (fun _ _ _ => rfl) w' hw'
      exact ⟨v, hv, hid'.trans hid⟩
    · rcases (Table.mem_modify hW).mp hw' with ⟨hw', -⟩ | ⟨q, -, -, rfl⟩
      · exact hs.current u m hm hu w' ⟨hw', hid, hd⟩ howner
      · cases hd

theorem settled_of_create {d : Draws} {data : Service.WorkspaceCreateInternal} {a : Workspace}
    (hs : Settled s) (h : (Service.createWorkspace lower d user data).Returns s a s') :
    Settled s' := by
  obtain ⟨o, W, T, L, -, -, hW, hT, rfl⟩ := Service.createWorkspace_spec h
  refine ⟨fun m hm => ?_, fun u m hm hu w ⟨hw, hid, hd⟩ howner => ?_⟩
  · rcases (Table.mem_insert hT).mp hm with hm | rfl
    · obtain ⟨w, hw, hid⟩ := hs.rooted m hm
      exact ⟨w, (Table.mem_insert hW).mpr (Or.inl hw), hid⟩
    · exact ⟨a, Table.mem_insert_self hW, rfl⟩
  · rcases (Table.mem_insert hT).mp hm with hm | rfl
    · rcases (Table.mem_insert hW).mp hw with hw | rfl
      · exact hs.current u m hm hu w ⟨hw, hid, hd⟩ howner
      · -- the id of a new workspace is not that of one with members
        obtain ⟨w', hw', hid'⟩ := hs.rooted m hm
        exact absurd (hid'.trans hid.symm) (Table.apart_of_insert hW hw').1
    · exact ⟨rfl, rfl⟩

theorem settled_of_accept {d : Draws} {token : String} {a : Unit} (hs : Settled s)
    (h : (Invitations.acceptInvite d user token).Returns s a s') : Settled s' := by
  obtain ⟨invite, ha, T, I, N, L, hT, -, rfl⟩ := Invitations.acceptInvite_exact h
  rcases hT with ⟨-, rfl⟩ | ⟨hnew, hT⟩
  · exact ⟨hs.rooted, hs.current⟩
  · have href := (ha.joins.resolve_left hnew).references
    simp only [Model.references, Bool.and_eq_true] at href
    exact settled_of_insert hs hT rfl rfl (Table.has_iff.mp href.1.1.1)

/-- **The step lemma**: whatever is asked for but a suspension, a removal or a transfer. -/
theorem settled_step (hs : Settled s) (hq : ¬ Lapses q) : Settled (step lower s q) := by
  cases q with
  | perform d caller v op =>
    refine settled_transact hs fun s' h => ?_
    obtain ⟨user, t, hdeps, hrest⟩ := Prog.returns_bind.mp h
    obtain ⟨ws, t', hload, hop⟩ := Prog.returns_bind.mp hrest
    obtain ⟨rfl, hws, rfl⟩ := load_spec hload
    exact settled_of_effect (settled_congr ((frames_dependencies _).returns hdeps) hs)
      (System.effect_perform hws hop) fun caller' => by cases op <;> exact hq
  | deleteWorkspace d caller v =>
    refine settled_transact hs fun s' h => ?_
    obtain ⟨user, t, hdeps, hrest⟩ := Prog.returns_bind.mp h
    obtain ⟨ws, t', hload, hdelete⟩ := Prog.returns_bind.mp hrest
    obtain ⟨rfl, -, -⟩ := load_spec hload
    exact settled_of_delete (settled_congr ((frames_dependencies _).returns hdeps) hs) hdelete
  | endpoint d caller v guard body => exact settled_serve hs (frames_dependencies guard)
  | permissionOnly d caller v resource action body =>
    exact settled_serve hs (frames_permitted fun _ _ => rfl)
  | acceptInvite d caller token =>
    refine settled_transact hs fun s' h => ?_
    obtain ⟨user, t, hu, haccept⟩ := Prog.returns_bind.mp h
    exact settled_of_accept
      (settled_congr ((frames_getCurrentUser fun _ _ => rfl).returns hu) hs) haccept
  | createWorkspace d caller data =>
    refine settled_transact hs fun s' h => ?_
    obtain ⟨user, t, hu, hrest⟩ := Prog.returns_bind.mp h
    obtain ⟨ws, hcreate, -⟩ := Prog.returns_bind_pure.mp hrest
    exact settled_of_create
      (settled_congr ((frames_getCurrentUser fun _ _ => rfl).returns hu) hs) hcreate
  | getWorkspaces d caller =>
    refine settled_congr ?_ hs
    refine Session.frames_serve (Session.keeps_bind (Session.keeps_exec ?_) fun _ =>
      Session.keeps_pure _) s
    exact Prog.frames_bind (frames_getCurrentUser fun _ _ => rfl) fun _ => Prog.frames_gets _
  | cloneSystemRole d r v name =>
    refine settled_transact hs fun s' h => ?_
    obtain ⟨a, hclone, -⟩ := Prog.returns_bind_pure.mp h
    rcases Repositories.cloneSystemRoleToWorkspace_spec hclone with
      rfl | ⟨r, -, -, R, G, -, -, rfl⟩
    · exact hs
    · exact ⟨hs.rooted, hs.current⟩
  | expireInvites now =>
    refine settled_transact hs fun s' h => ?_
    obtain ⟨n, hexpire, -⟩ := Prog.returns_bind_pure.mp h
    obtain ⟨I, -, rfl⟩ := Invitations.expireInvites_evolved hexpire
    exact ⟨hs.rooted, hs.current⟩
  | unguarded body => exact settled_congr (Session.frames_serve body.property s) hs

/-- **The list of every user is what the user gets into** in the states of a run in which no
membership lapses, and in no others; and none lapses where nobody is suspended or removed and no
workspace is transferred. -/
theorem always_agrees_iff (lower : String → String) (s : Database) (l : List Demand) :
    (Always (step lower) (fun s => ∀ user, Agrees s user) s l ↔
      Always (step lower) (fun s => ∀ user : User, Current s user.id) s l) ∧
    (Settled s → Along (step lower) (fun _ q => ¬ Lapses q) s l →
      Always (step lower) (fun s => ∀ user, Agrees s user) s l) := by
  have hcongr : (fun s => ∀ user, Agrees s user) =
      fun s => ∀ user : User, Current s user.id :=
    funext fun s => propext (forall_congr' fun user => agrees_iff_current)
  rw [hcongr]
  refine ⟨Iff.rfl, fun hs hl => always_iff.mpr fun pre hpre => ?_⟩
  have halways := always_of_along (fun s q hs hq => settled_step hs hq) hs hl
  exact fun user => (always_iff.mp halways pre hpre).current user.id

/-- The workspace with its founder and an admin (member 30), where an Owner may update members. -/
def managed : Database :=
  { Deletion.populated with
    permissions := ⟨[⟨52, "workspace_member.update", "workspace_member", "update"⟩], by decide⟩
    rolePermissions := ⟨[⟨63, 5, 52⟩], by decide⟩ }

/-- The founder suspends the admin. -/
def suspension : Demand :=
  .perform (drawsFrom 60 0 "") (.ok ⟨.id 1, some "owner@example.com"⟩) 10 (.suspendMember 30)

/-- A suspended member finds the workspace on the list, and does not get in. -/
theorem suspended_admin_lists_workspace :
    ¬ Always (step id) (fun s => ∀ user, Agrees s user) managed [suspension] := by
  rintro ⟨-, h⟩
  have hagree := agrees_iff_current.mp (h (userOf 2 "admin@example.com"))
  have hrow : ∃ m ∈ (step id managed suspension).workspaceMembers.rows, m.userId = 2 ∧
      m.workspaceId = 10 ∧ m.status = .suspended := by decide
  have hopen : ∃ w ∈ (step id managed suspension).workspaces.rows, w.id = 10 ∧
      w.deletedAt = none ∧ w.ownerId ≠ 2 := by decide
  obtain ⟨m, hm, hu, hw, hst⟩ := hrow
  obtain ⟨w, hwm, hid, hd, howner⟩ := hopen
  have hact := (hagree m hm hu w ⟨hwm, hid.trans hw.symm, hd⟩ howner).1
  rw [hst] at hact
  cases hact

end MarketingSuite.Tenants.Listing
