import MarketingSuite.Scheduler.AuditEntries
import MarketingSuite.Workspaces.Updates

/-! # What the audit log is given

The audit log is written after the row that an entry is about, and its dictionaries are encoded as
JSON by then. `_log_audit` of `app/services/campaign_scheduler.py` turns identifiers and datetimes
into strings before, `update_workspace` of `app/services/workspace.py` does not. -/

namespace MarketingSuite.Scheduler.AuditPayloads

open MarketingSuite.Lib.Programs
open MarketingSuite.Base.Values MarketingSuite.Base.Models MarketingSuite.Base.Schema
open MarketingSuite.Base.Encoding MarketingSuite.Repositories.Base MarketingSuite.Repositories.Records
open MarketingSuite.Scheduler.Service MarketingSuite.Scheduler.AuditEntries
open MarketingSuite.Workspaces.Updates

/-! ### The schedule operations -/

/-- The operations on a schedule that write to the audit log: the requests, which may find a
schedule, and the two ends of `execute_publish`. -/
inductive Operation
  | request (existed : Bool) (q : Request)
  | published
  | failed (error : String)

/-- What an operation passes to `_log_audit`. -/
structure RawQuote where
  action : String
  oldValues : Option Values
  newValues : Option Values

/-- A dictionary with a status. -/
def rawStatus (st : ScheduleStatus) : Option Values := some [("status", .str st.value)]

/-- The dictionaries as the operations build them. -/
def rawQuoteOf (campaignId workspaceId userId : Uuid) : Operation → RawQuote
  | .request existed (.schedule data) =>
    if existed = true then
      ⟨"UPDATE_SCHEDULE", none, some ([("publish_date", .datetime data.publishDate)] ++
        (data.timezone.map fun z => ("timezone", Value.str z)).toList ++
        [("status", .enum "SCHEDULED"), ("error_message", .none), ("updated_by", .uuid userId)])⟩
    else
      ⟨"CREATE_SCHEDULE", none, some [("publish_date", .datetime data.publishDate),
        ("timezone", .str (data.timezone.getD "UTC")), ("campaign_id", .uuid campaignId),
        ("workspace_id", .uuid workspaceId), ("created_by", .uuid userId),
        ("status", .enum "SCHEDULED")]⟩
  | .request _ .publish => ⟨"TRIGGER_PUBLISH", none, none⟩
  | .request _ .pause => ⟨"PAUSE_SCHEDULE", rawStatus .scheduled, rawStatus .paused⟩
  | .request _ .resume => ⟨"RESUME_SCHEDULE", rawStatus .paused, rawStatus .scheduled⟩
  | .request _ .cancel => ⟨"CANCEL_SCHEDULE", rawStatus .cancelled, rawStatus .cancelled⟩
  | .request _ .retry => ⟨"RETRY_PUBLISH", none, none⟩
  | .published => ⟨"PUBLISH_SUCCESS", none, none⟩
  | .failed error => ⟨"PUBLISH_FAILED", none, some [("error", .str error)]⟩

/-- What is written for them. -/
def quote (campaignId workspaceId userId : Uuid) : Operation → Quote
  | .request existed q => quoteOf campaignId workspaceId userId existed q
  | .published => ⟨"PUBLISH_SUCCESS", none, none⟩
  | .failed error => ⟨"PUBLISH_FAILED", none, some [("error", .str error)]⟩

/-- `json.dumps` of a dictionary or of nothing. -/
def dumps : Option Values → Option (Option (List (String × Json)))
  | none => some none
  | some l => (encodeDict l).map some

/-- `_log_audit`, from the dictionaries on. -/
def logValues (workspaceId userId : Uuid) (action : String) (campaignId : Uuid)
    (oldValues newValues : Option Values) (timestamp : Time) : Svc Unit := do
  let oldValues ← orRaise (dumps (sanitizeDict oldValues)) .typeError
  let newValues ← orRaise (dumps (sanitizeDict newValues)) .typeError
  createAuditLog
    { workspaceId := some workspaceId, actorId := some userId, action := action,
      resourceType := "CAMPAIGN_SCHEDULE", resourceId := campaignId, oldValues := oldValues,
      newValues := newValues, timestamp := timestamp }

/-- What an operation writes. -/
def RawQuote.log (raw : RawQuote) (workspaceId userId campaignId : Uuid) (timestamp : Time) :
    Svc Unit :=
  logValues workspaceId userId raw.action campaignId raw.oldValues raw.newValues timestamp

/-- The dictionaries that are passed on can be encoded. -/
structure RawQuote.Storable (raw : RawQuote) : Prop where
  old : ∀ l, sanitizeDict raw.oldValues = some l → Serializable l
  new : ∀ l, sanitizeDict raw.newValues = some l → Serializable l

variable {s s' : Database} {d : Draws} {c w v : Uuid} {q : Request} {op : Operation} {t : Time}
  {a : CampaignSchedule × List Job}

theorem storable_raw (raw : RawQuote) : raw.Storable :=
  ⟨fun _ => serializable_sanitizeDict, fun _ => serializable_sanitizeDict⟩

/-- The encoder makes the dictionaries that are written of those that are passed on. -/
theorem dumps_rawQuoteOf (c w v : Uuid) (op : Operation) :
    dumps (sanitizeDict (rawQuoteOf c w v op).oldValues) =
        some ((quote c w v op).oldValues.filter fun l => l ≠ []) ∧
      dumps (sanitizeDict (rawQuoteOf c w v op).newValues) =
        some ((quote c w v op).newValues.filter fun l => l ≠ []) := by
  rcases op with ⟨existed, q⟩ | _ | error
  · cases q with
    | schedule data =>
      rcases existed with _ | _
      · exact ⟨rfl, rfl⟩
      · refine ⟨rfl, ?_⟩
        rcases data with ⟨date, _ | z⟩
        · rfl
        · rfl
    | _ => exact ⟨rfl, rfl⟩
  · exact ⟨rfl, rfl⟩
  · exact ⟨rfl, rfl⟩

/-- **The entry of an operation** is what `_log_audit` makes of its dictionaries. -/
theorem log_rawQuoteOf (c w v : Uuid) (op : Operation) (t : Time) :
    (rawQuoteOf c w v op).log w v c t = logAudit w v (quote c w v op).action c
      (quote c w v op).oldValues (quote c w v op).newValues t := by
  obtain ⟨hold, hnew⟩ := dumps_rawQuoteOf c w v op
  have haction : (rawQuoteOf c w v op).action = (quote c w v op).action := by
    rcases op with ⟨existed, q⟩ | _ | error
    · cases q with
      | schedule data => rcases existed with _ | _ <;> rfl
      | _ => rfl
    · rfl
    · rfl
  unfold RawQuote.log logValues
  rw [hold, hnew, haction]
  rfl

theorem perform_logs_values (h : (perform d c w v q).Returns s a s') :
    ∃ existed, s'.auditLogs =
      (((rawQuoteOf c w v (.request existed q)).log w v c (d.now 1)) s).2.auditLogs := by
  obtain ⟨existed, hlogs⟩ := perform_logs h
  refine ⟨existed, ?_⟩
  rw [log_rawQuoteOf, hlogs]
  rfl

/-! ### All calls -/

/-- A call that writes to the audit log. -/
inductive Call
  | updateWorkspace (d : Draws) (user : User) (workspaceId : Uuid) (data : WorkspaceUpdate)
  | request (d : Draws) (campaignId workspaceId userId : Uuid) (q : Request)
  | executePublish (campaignId workspaceId userId : Uuid) (error : Option String)

/-- The two ends of `execute_publish`. -/
def ending : Option String → Operation
  | none => .published
  | some error => .failed error

/-- What the call passes to the audit log can be encoded, and writing it does not fail after the row
was changed. -/
def Safe (s : Store) : Call → Prop
  | .updateWorkspace d user i data => ∀ w ∈ s.db.workspaces.rows, w.id = i →
    ∀ c t, (change w data).Returns s (some c) t →
      (Serializable c.oldValues ∧ Serializable data.dump) ∧
        ∃ t', (auditUpdate d user w.id c.oldValues data.dump).Returns t () t'
  | .request d c w v q =>
    (∀ existed, (rawQuoteOf c w v (.request existed q)).Storable ∧
      ∀ db, ∃ db', ((rawQuoteOf c w v (.request existed q)).log w v c (d.now 1)).Returns db () db') ∧
    ∀ a db, (perform d c w v q).Returns s.db a db → ∃ existed, db.auditLogs =
      (((rawQuoteOf c w v (.request existed q)).log w v c (d.now 1)) s.db).2.auditLogs
  | .executePublish c w v error => (rawQuoteOf c w v (ending error)).Storable ∧
    ∀ t db, ∃ db', ((rawQuoteOf c w v (ending error)).log w v c t).Returns db () db'

/-- An update of a workspace that gets to the audit log sets neither a plan nor a user, unless both
the old and the new one are null. -/
def Clean (s : Store) : Call → Prop
  | .updateWorkspace _ _ i data => ∀ w ∈ s.db.workspaces.rows, w.id = i →
    data.dump.isEmpty = false → SlugFree s w data → Accepts s w data → ¬ RawIds s w data
  | _ => True

theorem log_returns (c w v : Uuid) (op : Operation) (t : Time) (db : Database) :
    ∃ db', ((rawQuoteOf c w v op).log w v c t).Returns db () db' := by
  rw [log_rawQuoteOf]
  exact ⟨_, createAuditLog_returns _ _⟩

theorem safe_updateWorkspace {s : Store} {w : Workspace} {data : WorkspaceUpdate} {user : User}
    (hw : w ∈ s.db.workspaces.rows) :
    (∀ c t, (change w data).Returns s (some c) t →
      (Serializable c.oldValues ∧ Serializable data.dump) ∧
        ∃ t', (auditUpdate d user w.id c.oldValues data.dump).Returns t () t') ↔
    (data.dump.isEmpty = false → SlugFree s w data → Accepts s w data → ¬ RawIds s w data) := by
  rcases change_cases data hw with ⟨hempty, hch⟩ | ⟨hgiven, ⟨htaken, hch⟩ |
    ⟨hfree, ⟨hacc, hch⟩ | ⟨hacc, t, -, hch⟩⟩⟩
  · refine iff_of_true (fun c t h => ?_) fun hgiven => absurd (hempty.symm.trans hgiven) (by simp)
    exact absurd (Prog.returns_unique hch h).1 (by simp)
  · refine iff_of_true (fun c t h => ?_) fun _ hfree => absurd hfree htaken
    exact absurd hch (Prog.not_raises_of_returns h)
  · refine iff_of_true (fun c t h => ?_) fun _ _ hacc' => absurd hacc' hacc
    exact absurd hch (Prog.not_raises_of_returns h)
  · constructor
    · intro h _ _ _
      exact taken_dump_iff.mp (h _ t hch).1.symm
    · intro h c t' hret
      obtain ⟨hc, rfl⟩ := Prog.returns_unique hch hret
      obtain rfl := Option.some.inj hc
      obtain ⟨hnew, hold⟩ := taken_dump_iff.mpr (h hgiven hfree hacc)
      exact ⟨⟨hold, hnew⟩, auditUpdate_returns hold hnew⟩

/-- **Exactly when the audit log takes what it is given.** -/
theorem audit_safe_iff (s : Store) (call : Call) : Safe s call ↔ Clean s call := by
  cases call with
  | updateWorkspace d user i data =>
    exact forall_congr' fun w => forall_congr' fun hw => imp_congr_right fun _ =>
      safe_updateWorkspace hw
  | request d c w v q =>
    refine iff_of_true ⟨fun existed => ⟨storable_raw _, log_returns c w v _ _⟩, ?_⟩ trivial
    exact fun a db h => perform_logs_values h
  | executePublish c w v error =>
    exact iff_of_true ⟨storable_raw _, log_returns c w v _⟩ trivial

/-! ### A plan for the first workspace -/

/-- Two workspaces and one plan. -/
def offered : Store where
  db := twoStudios
  plans := ⟨[⟨5, "Team", "team", none, 12, 120, 5, 2, 100, none, true, 0⟩],
    List.pairwise_singleton _ _⟩
  updatedBy _ := none

/-- **The first workspace gets a plan**: its identifier is passed to the audit log as it is. -/
theorem plan_is_not_storable : ¬ Safe offered (.updateWorkspace (drawsFrom 50 0 "")
    (userOf 1 "owner@example.com") 10 { planId := some (some 5) }) := by
  intro h
  obtain ⟨⟨-, hnew⟩, -⟩ := h (workspaceNamed 10 1 "studio") (by decide) rfl _ _
    (Prog.returns_of_fst rfl)
  exact absurd (hnew ("plan_id", .uuid 5) (by simp [WorkspaceUpdate.dump, field])) (by decide)

end MarketingSuite.Scheduler.AuditPayloads
