import MarketingSuite.Lib.Sessions
import MarketingSuite.Base.Objects
import MarketingSuite.Repositories.Records

/-! # Notifications in the app

`InAppProvider.send` of `app/services/notifications/providers/in_app.py`, which writes a row in a
session of its own. The session is closed without a commit, and whatever is raised in it becomes the
answer `False`. -/

namespace MarketingSuite.Notifications.InApp

open MarketingSuite.Lib.Programs MarketingSuite.Lib.Tables MarketingSuite.Lib.Sessions
open MarketingSuite.Base.Values MarketingSuite.Base.Models MarketingSuite.Base.Schema
open MarketingSuite.Base.Objects MarketingSuite.Repositories.Base
open MarketingSuite.Repositories.Records

/-- The `data` argument. -/
abbrev Data : Type := Option (List (Key × Object))

/-- What the driver and the database make of values: the identifier that a text stands for, the
texts and the JSON that they take, and `bool` of the types that are none of JSON's. -/
structure Driver where
  uuid : String → Option Uuid
  text : String → Bool
  json : Object → Bool
  truth : Object → Bool

/-! ### The repository of the members -/

/-- `WorkspaceMemberRepository.get_by_workspace`. -/
def getByWorkspace (workspaceId : Uuid) : Svc (List WorkspaceMember) :=
  selectAll fun m => m.workspaceId = workspaceId && m.deletedAt.isNone

/-- The memberships of a user that are not deleted. -/
def isMembership (userId : Uuid) (m : WorkspaceMember) : Bool :=
  m.userId = userId && m.deletedAt.isNone

/-- `WorkspaceMemberRepository.get_by_user`. -/
def getByUser (userId : Uuid) : Svc (List WorkspaceMember) := selectAll (isMembership userId)

/-- `WorkspaceMemberRepository.get_active_members`. -/
def getActiveMembers (workspaceId : Uuid) : Svc (List WorkspaceMember) :=
  selectAll fun m => m.workspaceId = workspaceId && m.status = .active && m.deletedAt.isNone

/-- The methods of the repository that list members. -/
def listings : List (String × (Uuid → Svc (List WorkspaceMember))) :=
  [("get_by_workspace", getByWorkspace), ("get_by_user", getByUser),
    ("get_active_members", getActiveMembers)]

/-- `workspace_member_repo.<name>(db, id)`. -/
def callListing (name : String) (id : Uuid) : Svc (List WorkspaceMember) :=
  match listings.lookup name with
  | some method => method id
  | none => Prog.raise .attributeError

/-! ### Sending -/

/-- `data.get(key, default) if data else default`. -/
def field (data : Data) (key : String) (default : Object) : Object :=
  match data with
  | none => default
  | some l => (l.lookup (.str key)).getD default

/-- The value bound to the column `workspace_id`. -/
def bindUuid (drv : Driver) : Object → Option Uuid
  | .uuid i => some i
  | .str s => drv.uuid s
  | _ => none

/-- The value bound to the column `type`: its default if it is null, the member of a name. -/
def bindType : Object → Option NotificationType
  | .none => some .system
  | .str s => [("SYSTEM", .system), ("ALERT", .alert), ("MESSAGE", .message),
      ("BILLING", .billing)].lookup s
  | _ => none

/-- The value bound to the column `priority`. -/
def bindPriority : Object → Option NotificationPriority
  | .none => some .normal
  | .str s => [("LOW", .low), ("NORMAL", .normal), ("HIGH", .high), ("URGENT", .urgent)].lookup s
  | _ => none

/-- The value bound to the column `data`, which `json.dumps` has to write. -/
def bindData : Data → Except Exc Object
  | none => .ok .none
  | some l => encode unsupported (.dict l)

/-- `notification_repo.create`. -/
def createNotification (drv : Driver) (d : Draws) (workspaceId : Object) (userId : Uuid)
    (title body : String) (type priority : Object) (data : Data) : Svc Unit := do
  let w ← orRaise (bindUuid drv workspaceId) .dataError
  let kind ← orRaise (bindType type) .dataError
  let urgency ← orRaise (bindPriority priority) .dataError
  let json ← Prog.ofExcept (bindData data)
  Prog.require (drv.text title = true ∧ drv.text body = true ∧ drv.json json = true) .dataError
  notify (d.uuid 0) w userId title body kind urgency (d.now 0)

/-- The body of the session. -/
def attempt (drv : Driver) (d : Draws) (userId : Uuid) (title body : String) (data : Data) :
    Prog (Session Database) Exc Bool := do
  let named := field data "workspace_id" .none
  let workspaceId ←
    if named.truthy drv.truth = true then pure named
    else do
      let memberships ← Session.exec (callListing "get_by_user_id" userId)
      pure (match memberships with
        | [] => named
        | m :: _ => .uuid m.workspaceId)
  if workspaceId.truthy drv.truth = true then do
    Session.exec (createNotification drv d workspaceId userId title body
      (field data "type" (.str "SYSTEM")) (field data "priority" (.str "NORMAL")) data)
    pure true
  else pure false

/-- `InAppProvider.send`. -/
def send (drv : Driver) (d : Draws) (userId : Uuid) (title body : String) (data : Data) : Svc Bool :=
  (Session.serve (attempt drv d userId title body data)).handle fun _ => pure false

/-! ### What is reported -/

variable {drv : Driver} {d : Draws} {s s' : Database} {userId : Uuid} {title body : String}
  {data : Data} {b : Bool}

/-- The data name a workspace. -/
def Names (drv : Driver) (data : Data) : Prop :=
  (field data "workspace_id" .none).truthy drv.truth = true

/-- **The row can be inserted**: its workspace and its user are there, its values are such as the
columns take, and its identifier is new. -/
structure Insertable (drv : Driver) (d : Draws) (s : Database) (userId : Uuid) (title body : String)
    (data : Data) : Prop where
  workspace : ∃ w, bindUuid drv (field data "workspace_id" .none) = some w ∧
    s.workspaces.has w = true
  user : s.users.has userId = true
  kind : (bindType (field data "type" (.str "SYSTEM"))).isSome = true
  urgency : (bindPriority (field data "priority" (.str "NORMAL"))).isSome = true
  texts : drv.text title = true ∧ drv.text body = true
  json : ∃ v, bindData data = .ok v ∧ drv.json v = true
  fresh : ∀ n ∈ s.notifications.rows, n.id ≠ d.uuid 0

/-- There is a notification for the user, with the title and the body. -/
def Shown (s : Database) (userId : Uuid) (title body : String) : Prop :=
  ∃ n ∈ s.notifications.rows, n.userId = userId ∧ n.title = title ∧ n.body = body

theorem returns_createNotification :
    (∃ t, (createNotification drv d (field data "workspace_id" .none) userId title body
      (field data "type" (.str "SYSTEM")) (field data "priority" (.str "NORMAL")) data).Returns s ()
        t) ↔ Insertable drv d s userId title body data := by
  simp only [createNotification, Prog.returns_bind, returns_orRaise, Prog.returns_ofExcept,
    Prog.returns_require, notify, returns_create, Prog.returns_pure]
  constructor
  · rintro ⟨_, w, _, ⟨hw, rfl⟩, kind, _, ⟨hkind, rfl⟩, urgency, _, ⟨hurgency, rfl⟩, v, _, ⟨hv, rfl⟩,
      _, _, ⟨⟨htitle, hbody, hjson⟩, rfl⟩, _, _, ⟨-, href, N, hN, rfl⟩, -, -⟩
    obtain ⟨hhome, huser⟩ := Bool.and_eq_true_iff.mp href
    exact ⟨⟨w, hw, hhome⟩, huser, by rw [hkind]; rfl, by rw [hurgency]; rfl, ⟨htitle, hbody⟩,
      ⟨v, hv, hjson⟩, fun n hn => (Table.apart_of_insert hN hn).1⟩
  · rintro ⟨⟨w, hw, hhome⟩, huser, hkind, hurgency, ⟨htitle, hbody⟩, ⟨v, hv, hjson⟩, hfresh⟩
    obtain ⟨kind, hkind⟩ := Option.isSome_iff_exists.mp hkind
    obtain ⟨urgency, hurgency⟩ := Option.isSome_iff_exists.mp hurgency
    obtain ⟨N, hN⟩ := Table.exists_insert
      (r := (⟨d.uuid 0, w, userId, title, body, kind, urgency, none, d.now 0⟩ : Notification))
      fun n hn => (⟨hfresh n hn, rfl⟩ : Apart n _)
    exact ⟨_, w, s, ⟨hw, rfl⟩, kind, s, ⟨hkind, rfl⟩, urgency, s, ⟨hurgency, rfl⟩, v, s, ⟨hv, rfl⟩,
      (), s, ⟨⟨htitle, hbody, hjson⟩, rfl⟩, _, _,
      ⟨rfl, Bool.and_eq_true_iff.mpr ⟨hhome, huser⟩, N, hN, rfl⟩, trivial, rfl⟩

/-- **The repository has no `get_by_user_id`**, so that without a workspace the session raises. -/
theorem attempt_raises (h : ¬ Names drv data) :
    (attempt drv d userId title body data).Raises (Session.fresh s) .attributeError
      ⟨s, some s⟩ := by
  have hcall : (Session.exec (callListing "get_by_user_id" userId)).Raises (Session.fresh s)
      .attributeError ⟨s, some s⟩ := rfl
  unfold Names at h
  simp only [attempt, if_neg h]
  exact (Prog.raises_bind_of_raises hcall).mpr ⟨rfl, rfl⟩

theorem attempt_named (h : Names drv data) : attempt drv d userId title body data = (do
    Session.exec (createNotification drv d (field data "workspace_id" .none) userId title body
      (field data "type" (.str "SYSTEM")) (field data "priority" (.str "NORMAL")) data)
    pure true) := by
  unfold Names at h
  simp only [attempt, if_pos h, Prog.pure_bind]

theorem sent_of_returns {t : Option Database}
    (h : (attempt drv d userId title body data).Returns (Session.fresh s) b ⟨s, t⟩) :
    (send drv d userId title body data).Returns s b s :=
  Prog.returns_handle.mpr (.inl (Session.returns_serve.mpr ⟨_, h, rfl⟩))

theorem sent_of_raises {e : Exc} {t : Option Database}
    (h : (attempt drv d userId title body data).Raises (Session.fresh s) e ⟨s, t⟩) :
    (send drv d userId title body data).Returns s false s :=
  Prog.returns_handle.mpr (.inr ⟨e, s, Session.raises_serve.mpr ⟨_, h, rfl⟩,
    Prog.returns_pure.mpr ⟨rfl, rfl⟩⟩)

theorem exists_send (drv : Driver) (d : Draws) (s : Database) (userId : Uuid) (title body : String)
    (data : Data) : ∃ a, (send drv d userId title body data).Returns s a s ∧
      (a = true ↔ Names drv data ∧ Insertable drv d s userId title body data) := by
  by_cases hn : Names drv data
  · rcases (createNotification drv d (field data "workspace_id" .none) userId title body
      (field data "type" (.str "SYSTEM")) (field data "priority" (.str "NORMAL"))
      data).returns_or_raises s with ⟨_, t, h⟩ | ⟨e, t, h⟩
    · have hins := returns_createNotification.mp ⟨t, h⟩
      refine ⟨true, sent_of_returns (t := some t) ?_, by simp [hn, hins]⟩
      rw [attempt_named hn]
      exact Prog.returns_bind_pure.mpr ⟨(), Session.returns_exec.mpr ⟨t, h, rfl⟩, rfl⟩
    · have hnot : ¬ Insertable drv d s userId title body data := fun hins => by
        obtain ⟨t', h'⟩ := returns_createNotification.mpr hins
        exact Prog.not_raises_of_returns h' h
      refine ⟨false, sent_of_raises (e := e) (t := some t) ?_, by simp [hnot]⟩
      rw [attempt_named hn]
      refine (Prog.raises_bind_of_raises ?_).mpr ⟨rfl, rfl⟩
      unfold Prog.Raises at h ⊢
      simp [Session.exec, Session.fresh, Session.view, h]
  · exact ⟨false, sent_of_raises (attempt_raises hn), by simp [hn]⟩

/-- **What is sent and what is left**: the answer is whether the row could be inserted, and nothing
is left of it. -/
theorem returns_send : (send drv d userId title body data).Returns s b s' ↔
    s' = s ∧ (b = true ↔ Names drv data ∧ Insertable drv d s userId title body data) := by
  obtain ⟨a, ha, hiff⟩ := exists_send drv d s userId title body data
  constructor
  · intro hb
    obtain ⟨rfl, rfl⟩ := Prog.returns_unique ha hb
    exact ⟨rfl, hiff⟩
  · rintro ⟨rfl, hb⟩
    have hab : a = b := Bool.eq_iff_iff.mpr (hiff.trans hb.symm)
    exact hab ▸ ha

/-- **Delivery is reported truthfully**: the answer is whether the notification is there afterwards,
and without a workspace in the data one of the user's workspaces is used. -/
structure Truthful (drv : Driver) (d : Draws) (s : Database) (userId : Uuid) (title body : String)
    (data : Data) : Prop where
  delivered : ∃ b s', (send drv d userId title body data).Returns s b s' ∧
    (b = true ↔ Shown s' userId title body)
  fallback : ¬ Names drv data → (∃ m ∈ s.workspaceMembers.rows, isMembership userId m = true) →
    ∃ s', (send drv d userId title body data).Returns s true s' ∧
      ∃ n ∈ s'.notifications.rows, n.userId = userId ∧ n.title = title ∧ n.body = body ∧
        ∃ m ∈ s.workspaceMembers.rows, isMembership userId m = true ∧
          n.workspaceId = m.workspaceId

/-- **When delivery is reported truthfully**: if the data name a workspace, exactly if the row can be
inserted just where one like it is there already, and otherwise exactly if there is none like it and
the user has no membership. -/
theorem inApp_truthful_iff (drv : Driver) (d : Draws) (s : Database) (userId : Uuid)
    (title body : String) (data : Data) : Truthful drv d s userId title body data ↔
    (Names drv data → (Insertable drv d s userId title body data ↔ Shown s userId title body)) ∧
      (¬ Names drv data → ¬ Shown s userId title body ∧
        ∀ m ∈ s.workspaceMembers.rows, isMembership userId m = false) := by
  constructor
  · rintro ⟨⟨b, s', hret, hb⟩, hfall⟩
    obtain ⟨rfl, hiff⟩ := returns_send.mp hret
    refine ⟨fun hn => ?_, fun hn => ⟨fun hshown => ?_, fun m hm => ?_⟩⟩
    · rw [← hb, hiff]
      exact (and_iff_right hn).symm
    · exact hn (hiff.mp (hb.mpr hshown)).1
    · by_contra hmem
      obtain ⟨t, hsent, -⟩ := hfall hn ⟨m, hm, (Bool.not_eq_false _).mp hmem⟩
      exact hn ((returns_send.mp hsent).2.mp rfl).1
  · rintro ⟨hnamed, hunnamed⟩
    by_cases hn : Names drv data
    · refine ⟨?_, fun hnot => absurd hn hnot⟩
      by_cases hins : Insertable drv d s userId title body data
      · exact ⟨true, s, returns_send.mpr ⟨rfl, by simp [hn, hins]⟩, by simp [(hnamed hn).mp hins]⟩
      · have hshown : ¬ Shown s userId title body := fun h => hins ((hnamed hn).mpr h)
        exact ⟨false, s, returns_send.mpr ⟨rfl, by simp [hins]⟩, by simp [hshown]⟩
    · obtain ⟨hshown, hmem⟩ := hunnamed hn
      refine ⟨⟨false, s, returns_send.mpr ⟨rfl, by simp [hn]⟩, by simp [hshown]⟩, ?_⟩
      rintro - ⟨m, hm, hmine⟩
      rw [hmem m hm] at hmine
      exact absurd hmine Bool.false_ne_true

/-- A notification that names its workspace is reported as delivered, and is not there. -/
theorem sent_is_not_there :
    let drv : Driver :=
      ⟨fun t => if t = "0000000a-0000-0000-0000-000000000000" then some 10 else none,
        fun _ => true, fun _ => true, fun _ => true⟩
    let data : Data := some [(.str "workspace_id", .str "0000000a-0000-0000-0000-000000000000")]
    ∃ s', (send drv (drawsFrom 50 0 "") 1 "Welcome" "Your studio is ready." data).Returns twoStudios
      true s' ∧ ¬ Shown s' 1 "Welcome" "Your studio is ready." := by
  refine ⟨twoStudios, ?_, fun ⟨n, hn, _⟩ => List.not_mem_nil hn⟩
  exact Prog.returns_of_fst (by decide +kernel)

end MarketingSuite.Notifications.InApp
