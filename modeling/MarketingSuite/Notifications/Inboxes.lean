import MarketingSuite.Lib.Journals
import MarketingSuite.Lib.Lookups
import MarketingSuite.Repositories.Records

/-! # Inboxes

The notification service and its endpoints: `app/services/notification.py`,
`app/repositories/notification.py` and `app/api/v1/endpoints/notifications.py`. All notifications
are rows of one table; an `Inbox` is what one user should see of it, a list of their own. The
endpoints serve every user as if they had such a list for themselves. -/

namespace MarketingSuite.Notifications.Inboxes

open MarketingSuite.Lib.Programs MarketingSuite.Lib.Tables MarketingSuite.Lib.Runs
open MarketingSuite.Lib.Journals
open MarketingSuite.Base.Values MarketingSuite.Base.Models MarketingSuite.Base.Schema
open MarketingSuite.Repositories.Base MarketingSuite.Repositories.Records

/-! ### The repository and the service -/

/-- `NotificationRepository.get_unread_for_user`; the database puts the newest first. -/
def getUnreadForUser (arrange : List Notification → List Notification) (userId : Uuid) (limit : ℤ) :
    Svc (List Notification) :=
  selectPage (fun db => db.notifications.select fun n => n.userId = userId && n.readAt.isNone)
    arrange 0 limit

/-- `NotificationRepository.mark_all_as_read`. -/
def markAllAsRead (now : Time) (userId : Uuid) : Svc ℕ :=
  updateAll (fun n : Notification => n.userId = userId && n.readAt.isNone)
    fun n => { n with readAt := some now }

/-- `BaseRepository.delete` of a class without a `deleted_at`: the row goes. -/
def deleteRow (ρ : Type) [Keyed ρ Uuid] [Model ρ] (id : Uuid) : Svc Bool := do
  let found ← getById ρ id
  if found.isSome = true then do
    Prog.modify fun db => setTable db ((table db : Table ρ).erase id)
    pure true
  else pure false

/-- `NotificationService.delete`. -/
def delete (notificationId : Uuid) : Svc Bool := do
  let found ← getById Notification notificationId
  if found.isSome = true then do
    let _ ← deleteRow Notification notificationId
    pure true
  else pure false

/-! ### The endpoints -/

/-- What the endpoints of the notifications answer. -/
inductive Reply
  | notifications (l : List Notification)
  | notification (n : Notification)
  | message (text : String)
  | noContent
deriving DecidableEq, Repr

/-- What a user asks them; `now` is what the clock shows then. -/
inductive Request
  | list (limit : ℤ)
  | read (notificationId : Uuid) (now : Time)
  | readAll (now : Time)
  | delete (notificationId : Uuid)

/-- "Notification not found", unless it is one of the user's own. -/
def getOwn (userId notificationId : Uuid) : Svc Notification := do
  let found ← getById Notification notificationId
  let notification ← orRaise found (.http 404 "Notification not found")
  Prog.require (notification.userId = userId) (.http 404 "Notification not found")
  pure notification

section Endpoints

variable (arrange : List Notification → List Notification) (userId : Uuid)

/-- `list_unread_notifications`. -/
def listUnreadNotifications (limit : ℤ) : Svc Reply := do
  let l ← getUnreadForUser arrange userId limit
  pure (.notifications l)

/-- `mark_notification_as_read`. -/
def markNotificationAsRead (notificationId : Uuid) (now : Time) : Svc Reply := do
  let _ ← getOwn userId notificationId
  let read ← markAsRead now notificationId
  let notification ← orRaise read .validation
  pure (.notification notification)

/-- The message of `mark_all_notifications_as_read`. -/
def markedText (count : ℕ) : String := s!"{count} notifications marked as read"

/-- `mark_all_notifications_as_read`. -/
def markAllNotificationsAsRead (now : Time) : Svc Reply := do
  let count ← markAllAsRead now userId
  pure (.message (markedText count))

/-- `delete_notification`. -/
def deleteNotification (notificationId : Uuid) : Svc Reply := do
  let _ ← getOwn userId notificationId
  let _ ← delete notificationId
  pure .noContent

/-- The body of an endpoint, for the current user. -/
def endpoint : Request → Svc Reply
  | .list limit => listUnreadNotifications arrange userId limit
  | .read notificationId now => markNotificationAsRead userId notificationId now
  | .readAll now => markAllNotificationsAsRead userId now
  | .delete notificationId => deleteNotification userId notificationId

end Endpoints

/-! ### An inbox -/

/-- A notification once those that `p` picks are read: it keeps the time at which it was read
first. -/
def stamp (p : Notification → Bool) (now : Time) (n : Notification) : Notification :=
  if (p n && n.readAt.isNone) = true then { n with readAt := some now } else n

/-- The notifications of one user, oldest row first. -/
abbrev Inbox : Type := List Notification

namespace Inbox

/-- The notifications that were not read. -/
def unread (I : Inbox) : Inbox := I.filter fun n => n.readAt.isNone

/-- The inbox after a request of its owner. -/
def after (I : Inbox) : Request → Inbox
  | .list _ => I
  | .read i now => I.map (stamp (fun n => n.id = i) now)
  | .readAll now => I.map (stamp (fun _ => true) now)
  | .delete i => I.filter fun n => n.id ≠ i

/-- The answer to it. -/
def answer (arrange : List Notification → List Notification) (I : Inbox) :
    Request → Except Exc Reply
  | .list limit =>
    if 0 ≤ limit then .ok (.notifications ((arrange I.unread).take limit.toNat))
    else .error .dataError
  | .read i now =>
    match (I.after (.read i now)).find? fun n => n.id = i with
    | some n => .ok (.notification n)
    | none => .error (.http 404 "Notification not found")
  | .readAll _ => .ok (.message (markedText I.unread.length))
  | .delete i =>
    if (I.any fun n => n.id = i) = true then .ok .noContent
    else .error (.http 404 "Notification not found")

end Inbox

/-- The rows of a user. -/
def inboxOf (u : Uuid) (s : Database) : Inbox := s.notifications.rows.filter fun n => n.userId = u

/-- The foreign keys of the notifications hold. -/
def Linked (s : Database) : Prop :=
  ∀ n ∈ s.notifications.rows, s.workspaces.has n.workspaceId = true ∧ s.users.has n.userId = true

variable {arrange : List Notification → List Notification} {s s' : Database} {u v i w : Uuid}
  {now : Time} {T : Table Notification} {n : Notification} {q : Request}

/-! ### One request -/

/-- The state is `s` with other rows of `u`, who is left with `I`. -/
structure Served (u : Uuid) (s s' : Database) (I : Inbox) : Prop where
  own : inboxOf u s' = I
  others : ∀ v, v ≠ u → inboxOf v s' = inboxOf v s
  linked : Linked s → Linked s'

theorem served_refl (u : Uuid) (s : Database) : Served u s s (inboxOf u s) :=
  ⟨rfl, fun _ _ => rfl, fun h => h⟩

theorem mem_inboxOf : n ∈ inboxOf u s ↔ n ∈ s.notifications.rows ∧ n.userId = u := by
  simp [inboxOf]

theorem find_inboxOf (hn : n ∈ s.notifications.rows) (hi : n.id = i) (hu : n.userId = u) :
    (inboxOf u s).find? (fun n => n.id = i) = some n := by
  rcases hfind : (inboxOf u s).find? (fun n => n.id = i) with _ | m
  · have hne := List.find?_eq_none.mp hfind n (mem_inboxOf.mpr ⟨hn, hu⟩)
    simp [hi] at hne
  · have hmi : m.id = i := by simpa using List.find?_some hfind
    have hm := (mem_inboxOf.mp (List.mem_of_find?_eq_some hfind)).1
    rw [hfind, s.notifications.eq_of_key_eq hm hn (hmi.trans hi.symm)]

theorem inboxOf_map {g : Notification → Notification}
    (hT : T.rows = s.notifications.rows.map g) (hg : ∀ n, (g n).userId = n.userId) :
    inboxOf v { s with notifications := T } = (inboxOf v s).map g := by
  unfold inboxOf
  rw [hT, List.filter_map]
  simp only [Function.comp_def, hg]

theorem served_map {g : Notification → Notification} {I : Inbox}
    (hT : T.rows = s.notifications.rows.map g)
    (hg : ∀ n, (g n).userId = n.userId ∧ (g n).workspaceId = n.workspaceId)
    (hown : (inboxOf u s).map g = I)
    (hothers : ∀ n ∈ s.notifications.rows, n.userId ≠ u → g n = n) :
    Served u s { s with notifications := T } I where
  own := (inboxOf_map hT fun n => (hg n).1).trans hown
  others v hv := by
    rw [inboxOf_map hT fun n => (hg n).1]
    have hfixed : ∀ n ∈ inboxOf v s, g n = id n := by
      intro n hn
      obtain ⟨hmem, hu⟩ := mem_inboxOf.mp hn
      exact hothers n hmem (by rw [hu]; exact hv)
    rw [List.map_congr_left hfixed, List.map_id]
  linked h := by
    intro m hm
    have hm' : m ∈ s.notifications.rows.map g := hT ▸ hm
    obtain ⟨n, hn, rfl⟩ := List.mem_map.mp hm'
    rw [(hg n).1, (hg n).2]
    exact h n hn

theorem getOwn_cases (u i : Uuid) (s : Database) :
    (∃ n, (getOwn u i).Returns s n s ∧ n ∈ s.notifications.rows ∧ n.id = i ∧ n.userId = u) ∨
      (getOwn u i).Raises s (.http 404 "Notification not found") s ∧
        ∀ n ∈ inboxOf u s, n.id ≠ i := by
  obtain ⟨found, hget⟩ := exists_getById (ρ := Notification) s i
  obtain ⟨-, hf⟩ := getById_spec hget
  rcases found with _ | n
  · refine Or.inr ⟨?_, fun n hn hi => ?_⟩
    · exact (Prog.raises_bind_of_returns hget).mpr
        ((Prog.raises_bind_of_raises (raises_orRaise.mpr ⟨rfl, rfl, rfl⟩)).mpr ⟨rfl, rfl⟩)
    · exact absurd ((hf n).mpr ⟨(mem_inboxOf.mp hn).1, hi, rfl⟩) (by simp)
  · obtain ⟨hn, hi, -⟩ := (hf n).mp rfl
    have hraise : (orRaise (some n) (.http 404 "Notification not found")).Returns s n s :=
      returns_orRaise.mpr ⟨rfl, rfl⟩
    by_cases hu : n.userId = u
    · refine Or.inl ⟨n, ?_, hn, hi, hu⟩
      refine Prog.returns_bind.mpr ⟨_, s, hget, Prog.returns_bind.mpr ⟨n, s, hraise, ?_⟩⟩
      exact Prog.returns_bind.mpr ⟨(), s, Prog.returns_require.mpr ⟨hu, rfl⟩,
        Prog.returns_pure.mpr ⟨rfl, rfl⟩⟩
    · refine Or.inr ⟨?_, fun m hm hmi => hu ?_⟩
      · refine (Prog.raises_bind_of_returns hget).mpr
          ((Prog.raises_bind_of_returns hraise).mpr ?_)
        exact (Prog.raises_bind_of_raises (Prog.raises_require.mpr ⟨hu, rfl, rfl⟩)).mpr ⟨rfl, rfl⟩
      · obtain ⟨hmem, hmu⟩ := mem_inboxOf.mp hm
        rw [← s.notifications.eq_of_key_eq hmem hn (hmi.trans hi.symm)]
        exact hmu

/-- The notification `i` is read. -/
abbrev stampOne (i : Uuid) (now : Time) : Notification → Notification :=
  stamp (fun n => n.id = i) now

theorem stamp_fields (p : Notification → Bool) (now : Time) (n : Notification) :
    (stamp p now n).id = n.id ∧ (stamp p now n).userId = n.userId ∧
      (stamp p now n).workspaceId = n.workspaceId := by
  unfold stamp
  split_ifs <;> exact ⟨rfl, rfl, rfl⟩

theorem stamp_of_not {p : Notification → Bool} (h : ¬ p n = true) : stamp p now n = n :=
  if_neg (by simp [h])

/-- **`mark_as_read`** of a row that is there. -/
theorem markAsRead_returns (now : Time) (hlinked : Linked s) (hn : n ∈ s.notifications.rows)
    (hi : n.id = i) :
    ∃ T, T.rows = s.notifications.rows.map (stampOne i now) ∧
      (markAsRead now i).Returns s (some (stampOne i now n)) { s with notifications := T } := by
  have hone : ∀ m ∈ s.notifications.rows, m.id = i → m = n := fun m hm hmi =>
    s.notifications.eq_of_key_eq hm hn (hmi.trans hi.symm)
  by_cases hread : n.readAt.isNone = true
  · obtain ⟨T, hT⟩ := Table.exists_modify (T := s.notifications) (k := i)
      (f := fun n : Notification => { n with readAt := some now }) (fun _ => rfl) fun _ _ => rfl
    have hstamp : stampOne i now n = { n with readAt := some now } := by simp [stamp, hi, hread]
    have href : Model.references s { n with readAt := some now } = true := by
      simp [Model.references, hlinked n hn]
    refine ⟨T, ?_, ?_⟩
    · rw [Table.modify_eq_some.mp hT]
      refine List.map_congr_left fun m hm => ?_
      by_cases hmi : m.id = i
      · rw [hone m hm hmi, hstamp]
        exact if_pos hi
      · have hkept : stampOne i now m = m := stamp_of_not (by simp [hmi])
        rw [hkept]
        exact if_neg hmi
    · rw [hstamp]
      exact updateWhere_returns hn hi rfl hread href hT
  · have hfixed : ∀ m ∈ s.notifications.rows, stampOne i now m = id m := by
      intro m hm
      by_cases hmi : m.id = i
      · rw [hone m hm hmi]
        simp [stamp, hread]
      · exact stamp_of_not (by simp [hmi])
    refine ⟨s.notifications, ?_, ?_⟩
    · rw [List.map_congr_left hfixed, List.map_id]
    · rw [hfixed n hn]
      refine Prog.returns_bind.mpr ⟨some n, s, getById_returns hn hi rfl, ?_⟩
      rw [Prog.returns_ite, if_neg hread]
      exact Prog.returns_pure.mpr ⟨rfl, rfl⟩

/-- **`mark_notification_as_read`** serves its user's inbox. -/
theorem served_read (hlinked : Linked s) :
    (markNotificationAsRead u i now s).1 = (inboxOf u s).answer arrange (.read i now) ∧
      Served u s ((markNotificationAsRead u i now).settle s)
        ((inboxOf u s).after (.read i now)) := by
  rcases getOwn_cases u i s with ⟨n, hown, hn, hi, hu⟩ | ⟨hraises, hnone⟩
  · obtain ⟨T, hT, hmark⟩ := markAsRead_returns now hlinked hn hi
    have hret : (markNotificationAsRead u i now).Returns s (.notification (stampOne i now n))
        { s with notifications := T } := by
      refine Prog.returns_bind.mpr ⟨n, s, hown, Prog.returns_bind.mpr ⟨_, _, hmark, ?_⟩⟩
      exact Prog.returns_bind.mpr ⟨_, _, returns_orRaise.mpr ⟨rfl, rfl⟩,
        Prog.returns_pure.mpr ⟨rfl, rfl⟩⟩
    have hserved : Served u s { s with notifications := T }
        ((inboxOf u s).after (.read i now)) := by
      refine served_map hT (fun m => (stamp_fields _ now m).2) rfl fun m hm hne => ?_
      refine stamp_of_not fun hmi => hne ?_
      rw [s.notifications.eq_of_key_eq hm hn ((of_decide_eq_true hmi).trans hi.symm), hu]
    have hmem : stampOne i now n ∈ T.rows := by
      rw [hT]
      exact List.mem_map_of_mem hn
    obtain ⟨hid, huser, -⟩ := stamp_fields (fun n => n.id = i) now n
    have hfind : ((inboxOf u s).after (.read i now)).find? (fun n => n.id = i) =
        some (stampOne i now n) := by
      rw [← hserved.own]
      exact find_inboxOf hmem (hid.trans hi) (huser.trans hu)
    refine ⟨?_, by rw [Prog.settle_of_returns hret]; exact hserved⟩
    rw [Inbox.answer, hfind]
    exact congrArg Prod.fst hret
  · have hret : (markNotificationAsRead u i now).Raises s (.http 404 "Notification not found") s :=
      (Prog.raises_bind_of_raises hraises).mpr ⟨rfl, rfl⟩
    have hfixed : ∀ m ∈ inboxOf u s, stampOne i now m = id m := fun m hm =>
      stamp_of_not (by simp [hnone m hm])
    have hsame : (inboxOf u s).after (.read i now) = inboxOf u s := by
      rw [Inbox.after, List.map_congr_left hfixed, List.map_id]
    have hfind : (inboxOf u s).find? (fun n => n.id = i) = none :=
      List.find?_eq_none.mpr fun m hm => by simp [hnone m hm]
    rw [Prog.settle_of_raises hret, hsame]
    refine ⟨?_, served_refl u s⟩
    rw [Inbox.answer, hsame, hfind]
    exact congrArg Prod.fst hret

/-- **`mark_all_notifications_as_read`** serves its user's inbox. -/
theorem served_readAll :
    (markAllNotificationsAsRead u now s).1 = (inboxOf u s).answer arrange (.readAll now) ∧
      Served u s ((markAllNotificationsAsRead u now).settle s)
        ((inboxOf u s).after (.readAll now)) := by
  have hpairwise := s.notifications.pairwise_map_apart (g := stamp (fun n => n.userId = u) now)
    (fun n => (stamp_fields _ now n).1) fun _ _ _ => rfl
  have hT : s.notifications.modifyAll (fun n => n.userId = u && n.readAt.isNone)
      (fun n => { n with readAt := some now }) = some ⟨_, hpairwise⟩ :=
    Table.modifyAll_eq_some.mpr rfl
  have hlength : (s.notifications.select fun n => n.userId = u && n.readAt.isNone).length =
      (inboxOf u s).unread.length := by
    rw [Inbox.unread, inboxOf, List.filter_filter, Table.select]
    simp only [Bool.and_comm]
  have hret : (markAllNotificationsAsRead u now).Returns s
      (.message (markedText (inboxOf u s).unread.length))
      { s with notifications := ⟨_, hpairwise⟩ } := by
    rw [← hlength]
    refine Prog.returns_bind.mpr ⟨_, _, ?_, Prog.returns_pure.mpr ⟨rfl, rfl⟩⟩
    refine Prog.returns_bind.mpr ⟨s, s, Prog.returns_gets.mpr ⟨rfl, rfl⟩, ?_⟩
    refine Prog.returns_bind.mpr ⟨_, s, returns_orRaise.mpr ⟨hT, rfl⟩, ?_⟩
    exact Prog.returns_bind.mpr ⟨(), _, Prog.returns_modify.mpr rfl,
      Prog.returns_pure.mpr ⟨rfl, rfl⟩⟩
  refine ⟨congrArg Prod.fst hret, ?_⟩
  rw [Prog.settle_of_returns hret]
  refine served_map rfl (fun n => (stamp_fields _ now n).2) ?_ fun n _ hne =>
    stamp_of_not (by simp [hne])
  refine List.map_congr_left fun n hn => ?_
  simp [stamp, (mem_inboxOf.mp hn).2]

/-- **`delete_notification`** serves its user's inbox. -/
theorem served_delete :
    (deleteNotification u i s).1 = (inboxOf u s).answer arrange (.delete i) ∧
      Served u s ((deleteNotification u i).settle s) ((inboxOf u s).after (.delete i)) := by
  rcases getOwn_cases u i s with ⟨n, hown, hn, hi, hu⟩ | ⟨hraises, hnone⟩
  · have hget : (getById Notification i).Returns s (some n) s := getById_returns hn hi rfl
    have hret : (deleteNotification u i).Returns s .noContent
        { s with notifications := s.notifications.erase i } := by
      refine Prog.returns_bind.mpr ⟨n, s, hown, Prog.returns_bind.mpr
        ⟨true, _, Prog.returns_bind.mpr ⟨_, s, hget, ?_⟩, Prog.returns_pure.mpr ⟨rfl, rfl⟩⟩⟩
      refine Prog.returns_bind.mpr ⟨true, _, Prog.returns_bind.mpr ⟨_, s, hget, ?_⟩,
        Prog.returns_pure.mpr ⟨rfl, rfl⟩⟩
      exact Prog.returns_bind.mpr ⟨(), _, Prog.returns_modify.mpr rfl,
        Prog.returns_pure.mpr ⟨rfl, rfl⟩⟩
    have hany : ((inboxOf u s).any fun n => n.id = i) = true :=
      List.any_eq_true.mpr ⟨n, mem_inboxOf.mpr ⟨hn, hu⟩, by simp [hi]⟩
    have hrest : ∀ v, inboxOf v { s with notifications := s.notifications.erase i } =
        (inboxOf v s).after (.delete i) := by
      intro v
      simp only [inboxOf, Table.erase, Inbox.after, List.filter_filter, Bool.and_comm]
      rfl
    refine ⟨?_, ?_⟩
    · rw [Inbox.answer, if_pos hany]
      exact congrArg Prod.fst hret
    · rw [Prog.settle_of_returns hret]
      refine ⟨hrest u, fun v hv => ?_, fun h m hm => h m (Table.mem_erase.mp hm).1⟩
      rw [hrest v]
      refine List.filter_eq_self.mpr fun m hm => ?_
      obtain ⟨hmem, hmu⟩ := mem_inboxOf.mp hm
      simp only [decide_eq_true_eq]
      intro hmi
      rw [s.notifications.eq_of_key_eq hmem hn (hmi.trans hi.symm), hu] at hmu
      exact hv hmu.symm
  · have hret : (deleteNotification u i).Raises s (.http 404 "Notification not found") s :=
      (Prog.raises_bind_of_raises hraises).mpr ⟨rfl, rfl⟩
    have hany : ¬ ((inboxOf u s).any fun n => n.id = i) = true := by
      simp only [List.any_eq_true, decide_eq_true_eq, not_exists, not_and]
      exact hnone
    have hsame : (inboxOf u s).after (.delete i) = inboxOf u s :=
      List.filter_eq_self.mpr fun m hm => by simp [hnone m hm]
    rw [Prog.settle_of_raises hret, hsame]
    refine ⟨?_, served_refl u s⟩
    rw [Inbox.answer, if_neg hany]
    exact congrArg Prod.fst hret

/-- **`list_unread_notifications`** shows its user's inbox. -/
theorem served_list {limit : ℤ} :
    (listUnreadNotifications arrange u limit s).1 = (inboxOf u s).answer arrange (.list limit) ∧
      Served u s ((listUnreadNotifications arrange u limit).settle s)
        ((inboxOf u s).after (.list limit)) := by
  by_cases hlimit : 0 ≤ limit
  · have hselect : (s.notifications.select fun n => n.userId = u && n.readAt.isNone) =
        (inboxOf u s).unread := by
      rw [Inbox.unread, inboxOf, List.filter_filter, Table.select]
      simp only [Bool.and_comm]
    have hpage : (getUnreadForUser arrange u limit).Returns s
        ((arrange (inboxOf u s).unread).take limit.toNat) s := by
      refine Prog.returns_bind.mpr ⟨(), s, Prog.returns_require.mpr ⟨⟨le_refl 0, hlimit⟩, rfl⟩, ?_⟩
      refine Prog.returns_bind.mpr ⟨_, s, Prog.returns_gets.mpr ⟨rfl, rfl⟩, ?_⟩
      rw [hselect]
      exact Prog.returns_pure.mpr ⟨rfl, rfl⟩
    have hret : (listUnreadNotifications arrange u limit).Returns s
        (.notifications ((arrange (inboxOf u s).unread).take limit.toNat)) s :=
      Prog.returns_bind.mpr ⟨_, s, hpage, Prog.returns_pure.mpr ⟨rfl, rfl⟩⟩
    rw [Prog.settle_of_returns hret]
    refine ⟨?_, served_refl u s⟩
    rw [Inbox.answer, if_pos hlimit]
    exact congrArg Prod.fst hret
  · have hpage : (getUnreadForUser arrange u limit).Raises s .dataError s :=
      (Prog.raises_bind_of_raises (Prog.raises_require.mpr
        ⟨fun h => hlimit h.2, rfl, rfl⟩)).mpr ⟨rfl, rfl⟩
    have hret : (listUnreadNotifications arrange u limit).Raises s .dataError s :=
      (Prog.raises_bind_of_raises hpage).mpr ⟨rfl, rfl⟩
    rw [Prog.settle_of_raises hret]
    refine ⟨?_, served_refl u s⟩
    rw [Inbox.answer, if_neg hlimit]
    exact congrArg Prod.fst hret

/-- **Every endpoint** answers its user from their inbox, and touches no other. -/
theorem served_endpoint (arrange : List Notification → List Notification) (hlinked : Linked s)
    (u : Uuid) (q : Request) : (endpoint arrange u q s).1 = (inboxOf u s).answer arrange q ∧
      Served u s ((endpoint arrange u q).settle s) ((inboxOf u s).after q) := by
  cases q with
  | list limit => exact served_list
  | read i now => exact served_read hlinked
  | readAll now => exact served_readAll
  | delete i => exact served_delete

/-! ### Deliveries -/

/-- A notification that some service makes. -/
def notificationOf (id workspaceId userId : Uuid) (title body : String) (type : NotificationType)
    (priority : NotificationPriority) (createdAt : Time) : Notification :=
  ⟨id, workspaceId, userId, title, body, type, priority, none, createdAt⟩

theorem served_notify {title body : String} {type : NotificationType}
    {priority : NotificationPriority} {x : Unit}
    (h : (notify i w u title body type priority now).Returns s x s') :
    Served u s s' (inboxOf u s ++ [notificationOf i w u title body type priority now]) := by
  obtain ⟨_, hcreate, -⟩ := Prog.returns_bind_pure.mp h
  obtain ⟨-, href, T, hT, rfl⟩ := returns_create.mp hcreate
  have hrows : T.rows = s.notifications.rows ++
      [notificationOf i w u title body type priority now] := Table.insert_eq_some.mp hT
  have hinbox : ∀ v, inboxOf v { s with notifications := T } = inboxOf v s ++
      [notificationOf i w u title body type priority now].filter fun n => n.userId = v := by
    intro v
    simp only [inboxOf, hrows, List.filter_append]
  refine ⟨?_, fun v hv => ?_, fun hlinked m hm => ?_⟩
  · refine (hinbox u).trans ?_
    simp [notificationOf]
  · refine (hinbox v).trans ?_
    simp [notificationOf, hv.symm]
  · rcases (Table.mem_insert hT).mp hm with hold | rfl
    · exact hlinked m hold
    · have hnames : s.workspaces.has w = true ∧ s.users.has u = true := by
        simpa [Model.references] using href
      exact hnames

/-! ### Runs -/

/-- A delivery to a user, in a transaction that is committed, or a request of a user. The bodies of
the endpoints only flush; `committed` says whether their session is committed afterwards, which
`get_db_session` does not do. -/
inductive Event
  | deliver (id workspaceId userId : Uuid) (title body : String) (type : NotificationType)
    (priority : NotificationPriority) (createdAt : Time)
  | ask (userId : Uuid) (q : Request) (committed : Bool)

/-- Whom an event is about. -/
def Event.user : Event → Uuid
  | .deliver _ _ userId .. => userId
  | .ask userId .. => userId

/-- The state after an event. -/
def step (arrange : List Notification → List Notification) (s : Database) : Event → Database
  | .deliver id workspaceId userId title body type priority createdAt =>
    (notify id workspaceId userId title body type priority createdAt).settle s
  | .ask userId q committed =>
    if committed = true then (endpoint arrange userId q).settle s else s

/-- What a user sees of an event. -/
inductive Seen
  | delivered (n : Notification)
  | answered (q : Request) (reply : Except Exc Reply) (committed : Bool)

/-- What a user has seen. -/
structure Entry where
  user : Uuid
  seen : Seen

/-- The history with what is seen of an event; a delivery that fails is seen by nobody. -/
def note (arrange : List Notification → List Notification) (s : Database) (e : Event)
    (history : List Entry) : List Entry :=
  match e with
  | .deliver id workspaceId userId title body type priority createdAt =>
    if (notify id workspaceId userId title body type priority createdAt).succeeds s = true then
      history ++ [⟨userId, .delivered
        (notificationOf id workspaceId userId title body type priority createdAt)⟩]
    else history
  | .ask userId q committed =>
    history ++ [⟨userId, .answered q (endpoint arrange userId q s).1 committed⟩]

/-- **The history as a journal** of the inbox of one user: what was delivered is in it, and every
answer is the one that this inbox gives. -/
def inboxJournal (arrange : List Notification → List Notification) (u : Uuid) :
    Journal (Recorded Database (List Entry)) Event Entry Inbox Uuid where
  log h := h.history.filter fun e => e.user = u
  view h := inboxOf u h.state
  apply I e :=
    match e.seen with
    | .delivered n => some (I ++ [n])
    | .answered q reply committed =>
      if I.answer arrange q = reply then some (if committed = true then I.after q else I) else none
  author := Entry.user
  caller := Event.user

/-- What is seen of an event by its user, and by nobody else. -/
theorem accounts_of_served {h h' : Recorded Database (List Entry)} {e : Event} {x : Entry}
    {I : Inbox} (hx : x.user = e.user) (hhistory : h'.history = h.history ++ [x])
    (hserved : Served e.user h.state h'.state I)
    (happly : (inboxJournal arrange e.user).apply (inboxOf e.user h.state) x = some I) (u : Uuid) :
    (inboxJournal arrange u).Accounts h [e] h' := by
  by_cases hu : u = e.user
  · subst hu
    refine Journal.accounts_of_entry (e := x) ?_ hx ?_
    · simp [inboxJournal, hhistory, hx]
    · refine happly.trans ?_
      rw [← hserved.own]
      rfl
  · refine Journal.accounts_of_silent ?_ (hserved.others u hu)
    have hne : ¬ x.user = u := fun h => hu (h.symm.trans hx)
    simp [inboxJournal, hhistory, hne]

/-- **The step lemma**: an event is seen by its user as if the inbox were a list of their own. -/
theorem accounts_step (arrange : List Notification → List Notification)
    (h : Recorded Database (List Entry)) (e : Event) (hlinked : Linked h.state) (u : Uuid) :
    (inboxJournal arrange u).Accounts h [e] (record (step arrange) (note arrange) h e) ∧
      Linked (step arrange h.state e) := by
  cases e with
  | deliver i w v title body type priority now =>
    let e : Event := .deliver i w v title body type priority now
    rcases (notify i w v title body type priority now).settle_cases h.state with
      ⟨x, hret⟩ | ⟨hsettle, hfail⟩
    · have hserved : Served e.user h.state (step arrange h.state e) _ := served_notify hret
      have hnote : note arrange h.state e h.history = h.history ++
          [⟨v, .delivered (notificationOf i w v title body type priority now)⟩] :=
        if_pos (Prog.succeeds_of_returns hret)
      exact ⟨accounts_of_served rfl hnote hserved rfl u, hserved.linked hlinked⟩
    · have hstep : step arrange h.state e = h.state := hsettle
      have hnote : note arrange h.state e h.history = h.history := by
        refine if_neg fun hsucc => ?_
        obtain ⟨x, s', hret⟩ := Prog.succeeds_iff.mp hsucc
        exact hfail x s' hret
      rw [hstep, record, hstep, hnote]
      exact ⟨Journal.accounts_of_silent rfl rfl, hlinked⟩
  | ask v q committed =>
    obtain ⟨hanswer, hown⟩ := served_endpoint arrange hlinked v q
    let I := inboxOf v h.state
    have hserved : Served (Event.ask v q committed).user h.state
        (step arrange h.state (.ask v q committed))
        (if committed = true then I.after q else I) := by
      rcases committed with _ | _
      · exact served_refl v h.state
      · exact hown
    have happly : (inboxJournal arrange v).apply I
        ⟨v, .answered q (endpoint arrange v q h.state).1 committed⟩ =
          some (if committed = true then I.after q else I) := if_pos hanswer.symm
    exact ⟨accounts_of_served rfl rfl hserved happly u, hserved.linked hlinked⟩

/-- **Inboxes are separate**: whatever is delivered to whom and whoever asks for what, each user is
answered from a list of their own, which holds what was delivered to them as they left it. -/
theorem inboxes_are_separate (arrange : List Notification → List Notification) (s : Database)
    (hlinked : Linked s) (l : List Event) (u : Uuid) :
    (inboxJournal arrange u).Accounts ⟨s, []⟩ l
      (run (record (step arrange) (note arrange)) ⟨s, []⟩ l) :=
  Journal.accounts_run (I := fun h => Linked h.state)
    (fun h e hl => (accounts_step arrange h e hl u).2)
    (fun h e hl => (accounts_step arrange h e hl u).1) hlinked l

/-- A notification for each of the two users, and what they ask for. -/
def twoUsers : List Event :=
  [.deliver 90 10 1 "Invitation Sent" "" .system .low 5,
    .deliver 91 20 2 "Role Updated" "" .system .normal 6,
    .ask 2 (.read 90 7) true, .ask 1 (.readAll 8) true, .ask 1 (.delete 90) false]

/-- The first user's notification is read by that user's own request; it is not deleted, since that
was not committed. -/
theorem inboxes_are_separate_two_users :
    (inboxJournal id 1).Accounts ⟨twoStudios, []⟩ twoUsers
        (run (record (step id) (note id)) ⟨twoStudios, []⟩ twoUsers) ∧
      inboxOf 1 (run (step id) twoStudios twoUsers) =
        [{ notificationOf 90 10 1 "Invitation Sent" "" .system .low 5 with readAt := some 8 }] :=
  ⟨inboxes_are_separate id twoStudios (by simp [Linked, twoStudios, Database.empty, Table.empty])
    twoUsers 1, by decide +kernel⟩

end MarketingSuite.Notifications.Inboxes
