import MarketingSuite.Scheduler.System
import Mathlib.Data.List.Sort

/-! # The history of a campaign's schedule

`get_history` of `app/services/campaign_scheduler.py` and its endpoint in
`app/api/v1/campaign_schedule.py`, which resolves the workspace of the caller and does not pass it
on. The history that two tenants' states give is that of the tenant exactly if no other workspace
has acted on the campaign. -/

namespace MarketingSuite.Scheduler.Audit

open MarketingSuite.Lib.Programs MarketingSuite.Lib.Tables
open MarketingSuite.Base.Values MarketingSuite.Base.Models MarketingSuite.Base.Schema
open MarketingSuite.Repositories.Base
open MarketingSuite.Scheduler.Service MarketingSuite.Scheduler.System

/-- `order_by(AuditLog.timestamp.desc())`. -/
def newestFirst (l : List AuditLog) : List AuditLog :=
  l.insertionSort fun a b => b.timestamp ≤ a.timestamp

/-- The conditions of the query of `get_history`. -/
def isScheduleLog (campaignId : Uuid) (log : AuditLog) : Bool :=
  log.resourceType = "CAMPAIGN_SCHEDULE" && log.resourceId = campaignId

/-- `CampaignSchedulerService.get_history`. -/
def getHistory (campaignId : Uuid) : Svc (List AuditLog) :=
  Prog.gets fun db => newestFirst (db.auditLogs.filter (isScheduleLog campaignId))

/-- `get_campaign_publishing_history`, with what its dependencies resolve. -/
def getCampaignPublishingHistory (campaignId _currentUser _workspaceId : Uuid) :
    Svc (List AuditLog) := getHistory campaignId

/-- What was recorded for a workspace. -/
def isOf (w : Uuid) (log : AuditLog) : Bool := log.workspaceId = some w

/-- The history of a campaign as the workspace `w` recorded it. -/
def recordedFor (w campaignId : Uuid) (s : Database) : List AuditLog :=
  newestFirst ((s.auditLogs.filter (isOf w)).filter (isScheduleLog campaignId))

/-- `s'` differs from `s` in audit rows of other workspaces only. -/
structure SameFor (w : Uuid) (s s' : Database) : Prop where
  logs : s'.auditLogs.filter (isOf w) = s.auditLogs.filter (isOf w)
  rest : { s' with auditLogs := s.auditLogs } = s

/-- The history request in the context of `w` gives what was recorded for `w`, in both states. -/
structure Isolated (w campaignId user : Uuid) (s s' : Database) : Prop where
  left : (getCampaignPublishingHistory campaignId user w).Returns s (recordedFor w campaignId s) s
  right : (getCampaignPublishingHistory campaignId user w).Returns s'
    (recordedFor w campaignId s) s'

/-- No workspace but `w` has left an audit row for the campaign's schedule. -/
def NoForeignLog (w campaignId : Uuid) (s : Database) : Prop :=
  ∀ log ∈ s.auditLogs, isScheduleLog campaignId log = true → isOf w log = true

instance (w campaignId : Uuid) (s : Database) : Decidable (NoForeignLog w campaignId s) :=
  inferInstanceAs (Decidable (∀ log ∈ _, _ → _))

variable {w c u : Uuid} {s s' : Database} {l : List AuditLog} {log : AuditLog}

theorem newestFirst_spec (l : List AuditLog) :
    (newestFirst l).Pairwise (fun a b => b.timestamp ≤ a.timestamp) ∧ (newestFirst l).Perm l := by
  have htotal : Std.Total fun a b : AuditLog => b.timestamp ≤ a.timestamp :=
    ⟨fun a b => le_total b.timestamp a.timestamp⟩
  have htrans : IsTrans AuditLog fun a b => b.timestamp ≤ a.timestamp :=
    ⟨fun a b c hab hbc => le_trans hbc hab⟩
  exact ⟨List.pairwise_insertionSort _ l, List.perm_insertionSort _ l⟩

theorem mem_newestFirst : log ∈ newestFirst l ↔ log ∈ l := List.mem_insertionSort _

/-- A history request gives the rows of `w` exactly if there are no others. -/
theorem returns_recordedFor_iff :
    (getCampaignPublishingHistory c u w).Returns s (recordedFor w c s) s ↔ NoForeignLog w c s := by
  have hret : (getCampaignPublishingHistory c u w).Returns s (recordedFor w c s) s ↔
      recordedFor w c s = newestFirst (s.auditLogs.filter (isScheduleLog c)) := by
    simp [getCampaignPublishingHistory, getHistory]
  rw [hret]
  constructor
  · intro heq log hlog hc
    have hmem : log ∈ newestFirst (s.auditLogs.filter (isScheduleLog c)) :=
      mem_newestFirst.mpr (List.mem_filter.mpr ⟨hlog, hc⟩)
    rw [← heq] at hmem
    have hof := (List.mem_filter.mp (mem_newestFirst.mp hmem)).1
    exact (List.mem_filter.mp hof).2
  · intro hno
    unfold recordedFor
    rw [List.filter_filter]
    congr 1
    refine List.filter_congr fun log hlog => ?_
    by_cases hc : isScheduleLog c log = true
    · simp [hc, hno log hlog hc]
    · simp [hc]

/-- **The history is isolated** between two states that agree on the rows of the tenant exactly if
neither holds a row of another workspace for the campaign. -/
theorem history_isolated_iff (u : Uuid) (hsame : SameFor w s s') :
    Isolated w c u s s' ↔ NoForeignLog w c s ∧ NoForeignLog w c s' := by
  have hrecorded : recordedFor w c s' = recordedFor w c s := by
    unfold recordedFor
    rw [hsame.logs]
  rw [← returns_recordedFor_iff (u := u), ← returns_recordedFor_iff (u := u), hrecorded]
  exact ⟨fun h => ⟨h.left, h.right⟩, fun h => ⟨h.1, h.2⟩⟩

/-- What a rival leaves who publishes the campaign 30 of the workspace 10. -/
def rivalLogs : List AuditLog :=
  ((perform (drawsFrom 40 1 "") 30 20 2 .publish).settle launching.db).auditLogs

theorem history_isolated_other_campaign :
    Isolated 10 31 1 launching.db { launching.db with auditLogs := rivalLogs } := by
  have hsame : SameFor 10 launching.db { launching.db with auditLogs := rivalLogs } := ⟨rfl, rfl⟩
  exact (history_isolated_iff 1 hsame).mpr ⟨by decide, by decide⟩

/-- **A rival's row in the history**: the owner sees who tried to publish the campaign. -/
theorem rival_in_history :
    SameFor 10 launching.db { launching.db with auditLogs := rivalLogs } ∧
      ¬ Isolated 10 30 1 launching.db { launching.db with auditLogs := rivalLogs } := by
  refine ⟨⟨rfl, rfl⟩, fun h => ?_⟩
  have hlen := congrArg List.length
    (Except.ok.inj (congrArg Prod.fst h.right) : _ = recordedFor 10 30 launching.db)
  exact absurd hlen (by decide)

end MarketingSuite.Scheduler.Audit
