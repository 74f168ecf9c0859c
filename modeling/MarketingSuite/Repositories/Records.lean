import MarketingSuite.Repositories.Base

/-! # Audit log and notifications

`AuditLogService.create_audit_log` and `notification_repo.create`, which nearly every service calls
at its end. -/

namespace MarketingSuite.Repositories.Records

open MarketingSuite.Lib.Programs MarketingSuite.Lib.Tables
open MarketingSuite.Base.Values MarketingSuite.Base.Models MarketingSuite.Base.Schema
open MarketingSuite.Repositories.Base

/-- `AuditLogService.create_audit_log`; `timestamp` is the server's default. -/
def createAuditLog (log : AuditLog) : Svc Unit :=
  Prog.modify fun db => { db with auditLogs := db.auditLogs ++ [log] }

/-- `notification_repo.create` of an unread notification. -/
def notify (id workspaceId userId : Uuid) (title body : String) (type : NotificationType)
    (priority : NotificationPriority) (createdAt : Time) : Svc Unit := do
  let n : Notification := ⟨id, workspaceId, userId, title, body, type, priority, none, createdAt⟩
  let _ ← create n
  pure ()

/-- `NotificationRepository.mark_as_read`. -/
def markAsRead (now : Time) (notificationId : Uuid) : Svc (Option Notification) :=
  updateWhere notificationId (fun n => n.readAt.isNone) fun n => { n with readAt := some now }

/-- `s'` is `s` with other notifications and audit logs. -/
def Recorded (s s' : Database) : Prop :=
  ∃ N L, s' = { s with notifications := N, auditLogs := L }

variable {s s' : Database} {u : Unit} {log : AuditLog} {i w v : Uuid} {title body : String}
  {type : NotificationType} {priority : NotificationPriority} {t : Time}

theorem recorded_trans {s₁ s₂ s₃ : Database} (h : Recorded s₁ s₂) (h' : Recorded s₂ s₃) :
    Recorded s₁ s₃ := by
  obtain ⟨N, L, rfl⟩ := h
  obtain ⟨N', L', rfl⟩ := h'
  exact ⟨N', L', rfl⟩

theorem recorded_of_createAuditLog (h : (createAuditLog log).Returns s u s') : Recorded s s' := by
  obtain rfl := Prog.returns_modify.mp h
  exact ⟨s.notifications, s.auditLogs ++ [log], rfl⟩

theorem recorded_of_notify (h : (notify i w v title body type priority t).Returns s u s') :
    Recorded s s' := by
  obtain ⟨_, h, -⟩ := Prog.returns_bind_pure.mp h
  obtain ⟨-, -, N, -, rfl⟩ := returns_create.mp h
  exact ⟨N, s.auditLogs, rfl⟩

theorem createAuditLog_returns (s : Database) (log : AuditLog) :
    (createAuditLog log).Returns s () { s with auditLogs := s.auditLogs ++ [log] } :=
  Prog.returns_modify.mpr rfl

/-- A notification with a new id, of a user and a workspace that exist, is made. -/
theorem notify_succeeds (hi : ∀ n ∈ s.notifications.rows, n.id ≠ i)
    (hw : s.workspaces.has w = true) (hv : s.users.has v = true) :
    (notify i w v title body type priority t).succeeds s = true := by
  obtain ⟨N, hN⟩ := Table.exists_insert (r := ⟨i, w, v, title, body, type, priority, none, t⟩)
    fun n hn => (⟨hi n hn, rfl⟩ : Apart n _)
  have href : (s.workspaces.has w && s.users.has v) = true := by simp [hw, hv]
  exact Prog.succeeds_of_returns
    (Prog.returns_bind_pure.mpr ⟨_, returns_create.mpr ⟨rfl, href, N, hN, rfl⟩, rfl⟩)

theorem raisesOnly_notify {P : Exc → Prop} (hi : P .integrity) :
    Prog.RaisesOnly P (notify i w v title body type priority t) :=
  Prog.raisesOnly_bind (raisesOnly_create hi) fun _ => Prog.raisesOnly_pure ()

end MarketingSuite.Repositories.Records
