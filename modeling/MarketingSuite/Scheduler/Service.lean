import MarketingSuite.Repositories.Records

/-! # The campaign scheduler

`app/services/campaign_scheduler.py` and `app/repositories/campaign_schedule.py`: the requests. A
request gives back the row and the background tasks it queued, which run after it. -/

namespace MarketingSuite.Scheduler.Service

open MarketingSuite.Lib.Programs MarketingSuite.Lib.Tables
open MarketingSuite.Base.Values MarketingSuite.Base.Models MarketingSuite.Base.Schema
open MarketingSuite.Repositories.Base MarketingSuite.Repositories.Records

/-- `CampaignScheduleCreate`; `timezone` is `none` if the request leaves it to its default. -/
structure CampaignScheduleCreate where
  publishDate : DateTime
  timezone : Option String := none

/-- The arguments of a queued `execute_publish`. -/
structure Job where
  campaignId : Uuid
  workspaceId : Uuid
  userId : Uuid
deriving DecidableEq, Repr

/-- `CampaignScheduleRepository.get_by_campaign_id`, with the workspace given. -/
def getByCampaignId (campaignId workspaceId : Uuid) : Svc (Option CampaignSchedule) :=
  selectOne fun s : CampaignSchedule => s.campaignId = campaignId && s.workspaceId = workspaceId

/-- `CampaignSchedulerService._log_audit`; an empty dictionary is stored as null. -/
def logAudit (workspaceId userId : Uuid) (action : String) (campaignId : Uuid)
    (oldValues newValues : Option (List (String × Json))) (timestamp : Time) : Svc Unit :=
  createAuditLog
    { workspaceId := some workspaceId, actorId := some userId, action := action,
      resourceType := "CAMPAIGN_SCHEDULE", resourceId := campaignId,
      oldValues := oldValues.filter fun l => l ≠ [], newValues := newValues.filter fun l => l ≠ [],
      timestamp := timestamp }

/-- The status that the raw SQL of `schedule_campaign` reads: it does not look at `deleted_at`. -/
def campaignStatus (campaignId workspaceId : Uuid) : Svc (Option CampaignStatus) := do
  let found ← selectOne fun c : Campaign => c.id = campaignId && c.workspaceId = workspaceId
  pure (found.map Campaign.status)

/-- The fields that `schedule_campaign` sets on a schedule that exists. -/
def reschedule (data : CampaignScheduleCreate) (userId : Uuid) (s : CampaignSchedule) :
    CampaignSchedule :=
  { s with
    publishDate := data.publishDate.stored
    timezone := data.timezone.getD s.timezone
    status := .scheduled
    errorMessage := none
    updatedBy := some userId }

/-- A new schedule. -/
def scheduleOf (d : Draws) (campaignId workspaceId userId : Uuid) (publishDate : DateTime)
    (timezone : String) : CampaignSchedule where
  id := d.uuid 0
  workspaceId := workspaceId
  campaignId := campaignId
  publishDate := publishDate
  timezone := timezone
  status := .scheduled
  errorMessage := none
  retryCount := 0
  createdBy := some userId
  updatedBy := none

/-- `CampaignSchedulerService.schedule_campaign`. -/
def scheduleCampaign (d : Draws) (campaignId : Uuid) (data : CampaignScheduleCreate)
    (workspaceId userId : Uuid) : Svc (CampaignSchedule × List Job) := do
  let past ← orRaise (data.publishDate.lt ⟨d.now 0, true⟩) .typeError
  Prog.require (past = false) (.http 400 "Cannot schedule in the past")
  let found ← campaignStatus campaignId workspaceId
  let campStatus ← orRaise found (.http 404 "Campaign not found")
  Prog.require (campStatus ≠ .completed ∧ campStatus ≠ .archived)
    (.http 400 s!"Cannot schedule a {campStatus.value} campaign")
  let existing ← getByCampaignId campaignId workspaceId
  match existing with
  | some existing => do
    Prog.require (existing.status ≠ .published) (.http 400 "Campaign is already published")
    let updated ← update existing.id (reschedule data userId)
    logAudit workspaceId userId "UPDATE_SCHEDULE" campaignId none
      (some ([("publish_date", .time data.publishDate)] ++
        (data.timezone.map fun z => ("timezone", .str z)).toList ++
        [("status", .str "SCHEDULED"), ("error_message", .null), ("updated_by", .id userId)]))
      (d.now 1)
    pure (updated, [])
  | none => do
    let timezone := data.timezone.getD "UTC"
    let newSchedule ←
      create (scheduleOf d campaignId workspaceId userId data.publishDate.stored timezone)
    logAudit workspaceId userId "CREATE_SCHEDULE" campaignId none
      (some [("publish_date", .time data.publishDate), ("timezone", .str timezone),
        ("campaign_id", .id campaignId), ("workspace_id", .id workspaceId),
        ("created_by", .id userId), ("status", .str "SCHEDULED")]) (d.now 1)
    pure (newSchedule, [])

/-- The schedule that `publish_immediately` works on: "If no schedule exists, we create a dummy one
for the current time". -/
def scheduleToPublish (d : Draws) (campaignId workspaceId userId : Uuid) :
    Svc CampaignSchedule := do
  let schedule ← getByCampaignId campaignId workspaceId
  match schedule with
  | some s => do
    Prog.require (s.status ≠ .published) (.http 400 "Campaign is already published")
    pure s
  | none => create (scheduleOf d campaignId workspaceId userId ⟨d.now 0, true⟩ "UTC")

/-- `CampaignSchedulerService.publish_immediately`. -/
def publishImmediately (d : Draws) (campaignId workspaceId userId : Uuid) :
    Svc (CampaignSchedule × List Job) := do
  let schedule ← scheduleToPublish d campaignId workspaceId userId
  let updated ← update schedule.id fun s : CampaignSchedule => { s with status := .scheduled }
  logAudit workspaceId userId "TRIGGER_PUBLISH" campaignId none none (d.now 1)
  pure (updated, [⟨campaignId, workspaceId, userId⟩])

/-- `CampaignSchedulerService._get_and_validate_schedule`. -/
def getAndValidateSchedule (campaignId workspaceId : Uuid) : Svc CampaignSchedule := do
  let schedule ← getByCampaignId campaignId workspaceId
  orRaise schedule (.http 404 "Campaign schedule not found")

/-- What `pause_schedule`, `resume_schedule`, `cancel_schedule` and `retry_failed_publishing` share:
the schedule has an admitted status, is updated, and the audit log may quote the updated row. -/
def changeSchedule (d : Draws) (campaignId workspaceId userId : Uuid)
    (admits : ScheduleStatus → Bool) (refused : String) (f : CampaignSchedule → CampaignSchedule)
    (action : String) (oldValues newValues : CampaignSchedule → Option (List (String × Json)))
    (queued : List Job) : Svc (CampaignSchedule × List Job) := do
  let schedule ← getAndValidateSchedule campaignId workspaceId
  Prog.require (admits schedule.status = true) (.http 400 refused)
  let updated ← update schedule.id f
  logAudit workspaceId userId action campaignId (oldValues updated) (newValues updated) (d.now 1)
  pure (updated, queued)

/-- `CampaignSchedulerService.pause_schedule`. -/
def pauseSchedule (d : Draws) (campaignId workspaceId userId : Uuid) :
    Svc (CampaignSchedule × List Job) :=
  changeSchedule d campaignId workspaceId userId (fun st => st = .scheduled)
    "Only SCHEDULED campaigns can be paused"
    (fun s => { s with status := .paused, updatedBy := some userId }) "PAUSE_SCHEDULE"
    (fun _ => some [("status", .str ScheduleStatus.scheduled.value)])
    (fun _ => some [("status", .str ScheduleStatus.paused.value)]) []

/-- `CampaignSchedulerService.resume_schedule`. -/
def resumeSchedule (d : Draws) (campaignId workspaceId userId : Uuid) :
    Svc (CampaignSchedule × List Job) :=
  changeSchedule d campaignId workspaceId userId (fun st => st = .paused)
    "Only PAUSED campaigns can be resumed"
    (fun s => { s with status := .scheduled, updatedBy := some userId }) "RESUME_SCHEDULE"
    (fun _ => some [("status", .str ScheduleStatus.paused.value)])
    (fun _ => some [("status", .str ScheduleStatus.scheduled.value)]) []

/-- `CampaignSchedulerService.cancel_schedule`; `schedule.status` is read after the update, off the
row object that the update changed. -/
def cancelSchedule (d : Draws) (campaignId workspaceId userId : Uuid) :
    Svc (CampaignSchedule × List Job) :=
  changeSchedule d campaignId workspaceId userId (fun st => st ≠ .published && st ≠ .cancelled)
    "Cannot cancel a published or already cancelled schedule"
    (fun s => { s with status := .cancelled, updatedBy := some userId }) "CANCEL_SCHEDULE"
    (fun updated => some [("status", .str updated.status.value)])
    (fun _ => some [("status", .str ScheduleStatus.cancelled.value)]) []

/-- `CampaignSchedulerService.retry_failed_publishing`. -/
def retryFailedPublishing (d : Draws) (campaignId workspaceId userId : Uuid) :
    Svc (CampaignSchedule × List Job) :=
  changeSchedule d campaignId workspaceId userId (fun st => st = .failed)
    "Only FAILED campaigns can be retried"
    (fun s => { s with status := .scheduled, retryCount := s.retryCount + 1,
                       updatedBy := some userId }) "RETRY_PUBLISH"
    (fun _ => none) (fun _ => none) [⟨campaignId, workspaceId, userId⟩]

/-- The requests to the scheduler. -/
inductive Request
  | schedule (data : CampaignScheduleCreate)
  | publish
  | pause
  | resume
  | cancel
  | retry

/-- The service call behind a request. -/
def perform (d : Draws) (campaignId workspaceId userId : Uuid) :
    Request → Svc (CampaignSchedule × List Job)
  | .schedule data => scheduleCampaign d campaignId data workspaceId userId
  | .publish => publishImmediately d campaignId workspaceId userId
  | .pause => pauseSchedule d campaignId workspaceId userId
  | .resume => resumeSchedule d campaignId workspaceId userId
  | .cancel => cancelSchedule d campaignId workspaceId userId
  | .retry => retryFailedPublishing d campaignId workspaceId userId

/-! ### The life cycle of a schedule -/

/-- The statuses in which a request is admitted. -/
def Request.admits : Request → ScheduleStatus → Bool
  | .schedule _, st => st ≠ .published
  | .publish, st => st ≠ .published
  | .pause, st => st = .scheduled
  | .resume, st => st = .paused
  | .cancel, st => st ≠ .published && st ≠ .cancelled
  | .retry, st => st = .failed

/-- The status that a request leaves. -/
def Request.target : Request → ScheduleStatus
  | .schedule _ => .scheduled
  | .publish => .scheduled
  | .pause => .paused
  | .resume => .scheduled
  | .cancel => .cancelled
  | .retry => .scheduled

/-- What a request does to the schedule it finds. -/
def Request.change (userId : Uuid) : Request → CampaignSchedule → CampaignSchedule
  | .schedule data => reschedule data userId
  | .publish => fun s => { s with status := .scheduled }
  | .pause => fun s => { s with status := .paused, updatedBy := some userId }
  | .resume => fun s => { s with status := .scheduled, updatedBy := some userId }
  | .cancel => fun s => { s with status := .cancelled, updatedBy := some userId }
  | .retry => fun s => { s with status := .scheduled, retryCount := s.retryCount + 1,
                                updatedBy := some userId }

/-- What a request asks for besides the status of the schedule: `schedule_campaign` a time that has
not passed and a campaign of the workspace that is neither COMPLETED nor ARCHIVED. -/
def Request.guard (db : Database) (d : Draws) (c w : Uuid) : Request → Prop
  | .schedule data => data.publishDate.lt ⟨d.now 0, true⟩ = some false ∧
    ∃ k ∈ db.campaigns.rows, k.id = c ∧ k.workspaceId = w ∧ k.status ≠ .completed ∧
      k.status ≠ .archived
  | _ => True

/-- The requests that create the schedule if there is none. -/
def Request.creates : Request → Bool
  | .schedule _ => true
  | .publish => true
  | _ => false

/-- The tasks that a request queues. -/
def Request.queues (j : Job) : Request → List Job
  | .publish => [j]
  | .retry => [j]
  | _ => []

/-! ### What a request that returns did -/

variable {s s' : Database} {d : Draws} {c w v : Uuid} {u : Unit} {q : Request}
  {a : CampaignSchedule × List Job} {f : CampaignSchedule → CampaignSchedule} {st : ScheduleStatus}

/-- `f` sets the status and neither the id, the campaign nor the workspace. -/
def Sets (st : ScheduleStatus) (f : CampaignSchedule → CampaignSchedule) : Prop :=
  ∀ s, (f s).status = st ∧ (f s).id = s.id ∧ (f s).campaignId = s.campaignId ∧
    (f s).workspaceId = s.workspaceId

/-- `r` is the schedule of the campaign `c` in the workspace `w`. -/
def IsSchedule (s : Database) (c w : Uuid) (r : CampaignSchedule) : Prop :=
  r ∈ s.campaignSchedules.rows ∧ r.campaignId = c ∧ r.workspaceId = w

/-- `s'` is `s` with these schedules, and an entry in the audit log that is not that of a publish.
-/
def Logged (s : Database) (T : Table CampaignSchedule) (s' : Database) : Prop :=
  ∃ log, log.action ≠ "PUBLISH_SUCCESS" ∧
    s' = { s with campaignSchedules := T, auditLogs := s.auditLogs ++ [log] }

/-- The schedule `r` was changed by `f`, and its foreign keys hold after it. -/
def Rewritten (s : Database) (r : CampaignSchedule) (f : CampaignSchedule → CampaignSchedule)
    (s' : Database) : Prop :=
  Model.references s (f r) = true ∧
    ∃ T, s.campaignSchedules.modify r.id f = some T ∧ Logged s T s'

/-- The schedule `r` was added, and its foreign keys hold. -/
def Added (s : Database) (r : CampaignSchedule) (s' : Database) : Prop :=
  Model.references s r = true ∧ ∃ T, s.campaignSchedules.insert r = some T ∧ Logged s T s'

theorem returns_logAudit {action : String} {old new : Option (List (String × Json))} {t : Time}
    (h : (logAudit w v action c old new t).Returns s u s') :
    ∃ log : AuditLog, log.action = action ∧ log.resourceType = "CAMPAIGN_SCHEDULE" ∧
      log.resourceId = c ∧ log.workspaceId = some w ∧
      s' = { s with auditLogs := s.auditLogs ++ [log] } := by
  obtain rfl := Prog.returns_modify.mp h
  exact ⟨_, rfl, rfl, rfl, rfl, rfl⟩

theorem logged_of_logAudit {action : String} {old new : Option (List (String × Json))} {t : Time}
    {T : Table CampaignSchedule}
    (h : (logAudit w v action c old new t).Returns { s with campaignSchedules := T } u s')
    (hact : action ≠ "PUBLISH_SUCCESS") : Logged s T s' := by
  obtain ⟨log, rfl, -, -, -, rfl⟩ := returns_logAudit h
  exact ⟨log, hact, rfl⟩

theorem getByCampaignId_spec {o : Option CampaignSchedule}
    (h : (getByCampaignId c w).Returns s o s') : s' = s ∧ ∀ r, o = some r ↔ IsSchedule s c w r := by
  obtain ⟨rfl, h⟩ := selectOne_spec h
  refine ⟨rfl, fun r => ?_⟩
  rw [h r]
  simp only [Bool.and_eq_true, decide_eq_true_eq]
  rfl

theorem campaignStatus_spec {o : Option CampaignStatus}
    (h : (campaignStatus c w).Returns s o s') : s' = s ∧ ∀ st, o = some st →
      ∃ k ∈ s.campaigns.rows, k.id = c ∧ k.workspaceId = w ∧ k.status = st := by
  unfold campaignStatus at h
  rw [Prog.returns_bind] at h
  obtain ⟨found, t, hsel, h⟩ := h
  obtain ⟨rfl, hf⟩ := selectOne_spec hsel
  obtain ⟨rfl, rfl⟩ := Prog.returns_pure.mp h
  refine ⟨rfl, fun st hst => ?_⟩
  obtain ⟨k, rfl, rfl⟩ := Option.map_eq_some_iff.mp hst
  obtain ⟨hk, hp⟩ := (hf k).mp rfl
  simp only [Bool.and_eq_true, decide_eq_true_eq] at hp
  exact ⟨k, hk, hp.1, hp.2, rfl⟩

/-- **The update of a schedule** that was read: this row, by this function. -/
theorem update_spec {r b : CampaignSchedule} (hr : IsSchedule s c w r)
    (h : (update r.id f).Returns s b s') :
    b = f r ∧ Model.references s (f r) = true ∧
      ∃ T, s.campaignSchedules.modify r.id f = some T ∧ s' = { s with campaignSchedules := T } := by
  obtain ⟨q, hq, hk, rfl, href, T, hT, rfl⟩ := returns_update.mp h
  have hqr : q = r := s.campaignSchedules.eq_of_key_eq hq hr.1 hk
  subst hqr
  exact ⟨rfl, href, T, hT, rfl⟩

/-- The end of every request: a write, and an entry about it. -/
def writeAndLog (p : Svc CampaignSchedule) (w v c : Uuid) (action : String)
    (old new : CampaignSchedule → Option (List (String × Json))) (t : Time) (queued : List Job) :
    Svc (CampaignSchedule × List Job) := do
  let written ← p
  logAudit w v action c (old written) (new written) t
  pure (written, queued)

section Ends

variable {p : Svc CampaignSchedule} {action : String}
  {old new : CampaignSchedule → Option (List (String × Json))} {t : Time} {queued : List Job}

theorem writeAndLog_spec (h : (writeAndLog p w v c action old new t queued).Returns s a s') :
    a.2 = queued ∧ ∃ s₁, p.Returns s a.1 s₁ ∧
      (logAudit w v action c (old a.1) (new a.1) t).Returns s₁ () s' := by
  unfold writeAndLog at h
  rw [Prog.returns_bind] at h
  obtain ⟨b, s₁, hwrite, h⟩ := h
  obtain ⟨_, hlog, rfl⟩ := Prog.returns_bind_pure.mp h
  exact ⟨rfl, s₁, hwrite, hlog⟩

theorem rewritten_of_writeAndLog (hr : IsSchedule s c w r)
    (h : (writeAndLog (update r.id f) w v c action old new t queued).Returns s a s')
    (hact : action ≠ "PUBLISH_SUCCESS") : a.2 = queued ∧ a.1 = f r ∧ Rewritten s r f s' := by
  obtain ⟨hqueued, s₁, hupd, hlog⟩ := writeAndLog_spec h
  obtain ⟨ha, href, T, hT, rfl⟩ := update_spec hr hupd
  exact ⟨hqueued, ha, href, T, hT, logged_of_logAudit hlog hact⟩

theorem added_of_writeAndLog {k : CampaignSchedule}
    (h : (writeAndLog (create k) w v c action old new t queued).Returns s a s')
    (hact : action ≠ "PUBLISH_SUCCESS") : a.2 = queued ∧ a.1 = k ∧ Added s a.1 s' := by
  obtain ⟨hqueued, s₁, hcr, hlog⟩ := writeAndLog_spec h
  obtain ⟨ha, href, T, hT, rfl⟩ := returns_create.mp hcr
  rw [← ha] at href hT
  exact ⟨hqueued, ha, href, T, hT, logged_of_logAudit hlog hact⟩

end Ends

/-- **What `schedule_campaign` comes to**: the checks hold, and the schedule is changed or made. -/
theorem scheduleCampaign_cases {data : CampaignScheduleCreate}
    (h : (scheduleCampaign d c data w v).Returns s a s') :
    (Request.schedule data).guard s d c w ∧
    ((∃ r, IsSchedule s c w r ∧ r.status ≠ .published ∧
        (writeAndLog (update r.id (reschedule data v)) w v c "UPDATE_SCHEDULE" (fun _ => none)
          (fun _ => some ([("publish_date", .time data.publishDate)] ++
            (data.timezone.map fun z => ("timezone", .str z)).toList ++
            [("status", .str "SCHEDULED"), ("error_message", .null), ("updated_by", .id v)]))
          (d.now 1) []).Returns s a s') ∨
      (∀ r, ¬ IsSchedule s c w r) ∧
        (writeAndLog
          (create (scheduleOf d c w v data.publishDate.stored (data.timezone.getD "UTC"))) w v c
          "CREATE_SCHEDULE" (fun _ => none)
          (fun _ => some [("publish_date", .time data.publishDate),
            ("timezone", .str (data.timezone.getD "UTC")), ("campaign_id", .id c),
            ("workspace_id", .id w), ("created_by", .id v), ("status", .str "SCHEDULED")])
          (d.now 1) []).Returns s a s') := by
  unfold scheduleCampaign at h
  rw [Prog.returns_bind] at h
  obtain ⟨past, s₁, hlt, h⟩ := h
  obtain ⟨hpast, rfl⟩ := returns_orRaise.mp hlt
  rw [Prog.returns_bind] at h
  obtain ⟨_, s₂, hreq, h⟩ := h
  obtain ⟨rfl, rfl⟩ := Prog.returns_require.mp hreq
  rw [Prog.returns_bind] at h
  obtain ⟨o, s₃, hst, h⟩ := h
  obtain ⟨rfl, hcamp⟩ := campaignStatus_spec hst
  rw [Prog.returns_bind] at h
  obtain ⟨st, s₄, hraise, h⟩ := h
  obtain ⟨rfl, rfl⟩ := returns_orRaise.mp hraise
  rw [Prog.returns_bind] at h
  obtain ⟨_, s₅, hreq, h⟩ := h
  obtain ⟨hopen, rfl⟩ := Prog.returns_require.mp hreq
  obtain ⟨k, hk, hkc, hkw, rfl⟩ := hcamp st rfl
  rw [Prog.returns_bind] at h
  obtain ⟨ex, s₆, hex, h⟩ := h
  obtain ⟨rfl, hex⟩ := getByCampaignId_spec hex
  refine ⟨⟨hpast, k, hk, hkc, hkw, hopen⟩, ?_⟩
  rcases ex with _ | r
  · exact Or.inr ⟨fun r hr => absurd ((hex r).mpr hr) (by simp), h⟩
  · rw [Prog.returns_bind] at h
    obtain ⟨_, s₇, hreq, h⟩ := h
    obtain ⟨hne, rfl⟩ := Prog.returns_require.mp hreq
    exact Or.inl ⟨r, (hex r).mp rfl, hne, h⟩

theorem scheduleCampaign_spec {data : CampaignScheduleCreate}
    (h : (scheduleCampaign d c data w v).Returns s a s') :
    a.2 = [] ∧ (Request.schedule data).guard s d c w ∧
    ((∃ r, IsSchedule s c w r ∧ r.status ≠ .published ∧ a.1 = reschedule data v r ∧
        Rewritten s r (reschedule data v) s') ∨
      (∀ r, ¬ IsSchedule s c w r) ∧ ∃ t z, a.1 = scheduleOf d c w v t z ∧ Added s a.1 s') := by
  obtain ⟨hguard, ⟨r, hr, hne, h⟩ | ⟨hno, h⟩⟩ := scheduleCampaign_cases h
  · obtain ⟨hqueued, ha, hrew⟩ := rewritten_of_writeAndLog hr h (by decide)
    exact ⟨hqueued, hguard, Or.inl ⟨r, hr, hne, ha, hrew⟩⟩
  · obtain ⟨hqueued, ha, hadd⟩ := added_of_writeAndLog h (by decide)
    exact ⟨hqueued, hguard, Or.inr ⟨hno, _, _, ha, hadd⟩⟩

theorem scheduleToPublish_cases (h : (scheduleToPublish d c w v).Returns s r s') :
    (s' = s ∧ IsSchedule s c w r ∧ r.status ≠ .published) ∨
      (∀ r, ¬ IsSchedule s c w r) ∧ r = scheduleOf d c w v ⟨d.now 0, true⟩ "UTC" ∧
        Model.references s r = true ∧ ∃ T, s.campaignSchedules.insert r = some T ∧
          s' = { s with campaignSchedules := T } := by
  unfold scheduleToPublish at h
  rw [Prog.returns_bind] at h
  obtain ⟨ex, s₁, hex, h⟩ := h
  obtain ⟨rfl, hex⟩ := getByCampaignId_spec hex
  rcases ex with _ | r'
  · obtain ⟨rfl, href, T, hT, rfl⟩ := returns_create.mp h
    exact Or.inr ⟨fun r hr => absurd ((hex r).mpr hr) (by simp), rfl, href, T, hT, rfl⟩
  · rw [Prog.returns_bind] at h
    obtain ⟨_, s₂, hreq, h⟩ := h
    obtain ⟨hne, rfl⟩ := Prog.returns_require.mp hreq
    obtain ⟨rfl, rfl⟩ := Prog.returns_pure.mp h
    exact Or.inl ⟨rfl, (hex _).mp rfl, hne⟩

/-- **What `publish_immediately` comes to** after it has its schedule. -/
theorem publishImmediately_cases (h : (publishImmediately d c w v).Returns s a s') :
    ∃ r s₁, (scheduleToPublish d c w v).Returns s r s₁ ∧
      (writeAndLog (update r.id fun s : CampaignSchedule => { s with status := .scheduled }) w v c
        "TRIGGER_PUBLISH" (fun _ => none) (fun _ => none) (d.now 1) [⟨c, w, v⟩]).Returns s₁ a s' :=
  Prog.returns_bind.mp h

theorem publishImmediately_spec (h : (publishImmediately d c w v).Returns s a s') :
    a.2 = [⟨c, w, v⟩] ∧
    ((∃ r, IsSchedule s c w r ∧ r.status ≠ .published ∧ a.1 = { r with status := .scheduled } ∧
        Rewritten s r (fun s => { s with status := .scheduled }) s') ∨
      (∀ r, ¬ IsSchedule s c w r) ∧ ∃ t z, a.1 = scheduleOf d c w v t z ∧ Added s a.1 s') := by
  obtain ⟨r, s₁, hfound, hend⟩ := publishImmediately_cases h
  rcases scheduleToPublish_cases hfound with ⟨rfl, hr, hne⟩ | ⟨hno, rfl, href, T, hT, rfl⟩
  · obtain ⟨hqueued, ha, hrew⟩ := rewritten_of_writeAndLog hr hend (by decide)
    exact ⟨hqueued, Or.inl ⟨r, hr, hne, ha, hrew⟩⟩
  · obtain ⟨hqueued, s₂, hupd, hlog⟩ := writeAndLog_spec hend
    obtain ⟨q, hq, hk, ha, -, T', hT', rfl⟩ := returns_update.mp hupd
    -- the row that was just added is already as the update would have it
    have hmem : scheduleOf d c w v ⟨d.now 0, true⟩ "UTC" ∈ T.rows :=
      Table.mem_insert_self hT
    have hqr : q = scheduleOf d c w v ⟨d.now 0, true⟩ "UTC" := T.eq_of_key_eq hq hmem hk
    subst hqr
    have hfix : T.modify (d.uuid 0) (fun s => { s with status := .scheduled }) = some T := by
      refine Table.modify_of_fixed fun r hr hk => ?_
      rw [T.eq_of_key_eq hr hmem hk]
      rfl
    obtain rfl : T' = T := Option.some.inj (hT'.symm.trans hfix)
    refine ⟨hqueued, Or.inr ⟨hno, _, _, ha, ?_⟩⟩
    rw [ha]
    exact ⟨href, T', hT, logged_of_logAudit hlog (by decide)⟩

/-- **What the other requests come to.** -/
theorem changeSchedule_cases {admits : ScheduleStatus → Bool} {refused action : String}
    {old new : CampaignSchedule → Option (List (String × Json))} {queued : List Job}
    (h : (changeSchedule d c w v admits refused f action old new queued).Returns s a s') :
    ∃ r, IsSchedule s c w r ∧ admits r.status = true ∧
      (writeAndLog (update r.id f) w v c action old new (d.now 1) queued).Returns s a s' := by
  unfold changeSchedule getAndValidateSchedule at h
  rw [Prog.returns_bind] at h
  obtain ⟨r, s₁, hget, h⟩ := h
  rw [Prog.returns_bind] at hget
  obtain ⟨ex, s₂, hex, hget⟩ := hget
  obtain ⟨rfl, hex⟩ := getByCampaignId_spec hex
  obtain ⟨rfl, rfl⟩ := returns_orRaise.mp hget
  rw [Prog.returns_bind] at h
  obtain ⟨_, s₃, hreq, h⟩ := h
  obtain ⟨hadm, rfl⟩ := Prog.returns_require.mp hreq
  exact ⟨r, (hex r).mp rfl, hadm, h⟩

theorem changeSchedule_spec {admits : ScheduleStatus → Bool} {refused action : String}
    {old new : CampaignSchedule → Option (List (String × Json))} {queued : List Job}
    (h : (changeSchedule d c w v admits refused f action old new queued).Returns s a s')
    (hact : action ≠ "PUBLISH_SUCCESS") :
    a.2 = queued ∧ ∃ r, IsSchedule s c w r ∧ admits r.status = true ∧ a.1 = f r ∧
      Rewritten s r f s' := by
  obtain ⟨r, hr, hadm, h⟩ := changeSchedule_cases h
  obtain ⟨hqueued, ha, hrew⟩ := rewritten_of_writeAndLog hr h hact
  exact ⟨hqueued, r, hr, hadm, ha, hrew⟩

/-- What a request that returned did: it found a schedule in an admitted status and gave it the
target status, or there was none and it created one. -/
structure Served (s : Database) (d : Draws) (c w v : Uuid) (q : Request)
    (a : CampaignSchedule × List Job) (s' : Database) : Prop where
  queued : a.2 = q.queues ⟨c, w, v⟩
  guard : q.guard s d c w
  row : (∃ r, IsSchedule s c w r ∧ q.admits r.status = true ∧ a.1 = q.change v r ∧
      Rewritten s r (q.change v) s') ∨
    q.creates = true ∧ (∀ r, ¬ IsSchedule s c w r) ∧
      (∃ t z, a.1 = scheduleOf d c w v t z) ∧ Added s a.1 s'

theorem sets_change (v : Uuid) (q : Request) : Sets q.target (q.change v) := by
  cases q <;> exact fun _ => ⟨rfl, rfl, rfl, rfl⟩

theorem served_of_changeSchedule {admits : ScheduleStatus → Bool} {refused action : String}
    {old new : CampaignSchedule → Option (List (String × Json))} {queued : List Job}
    (h : (changeSchedule d c w v admits refused f action old new queued).Returns s a s')
    (hact : action ≠ "PUBLISH_SUCCESS") (hguard : q.guard s d c w) (hadm : admits = q.admits)
    (hqueue : queued = q.queues ⟨c, w, v⟩) (hf : f = q.change v) : Served s d c w v q a s' := by
  obtain ⟨hq₂, r, hr, had, ha, hrew⟩ := changeSchedule_spec h hact
  subst hf
  refine ⟨by rw [hq₂, hqueue], hguard, Or.inl ⟨r, hr, ?_, ha, hrew⟩⟩
  rw [← hadm]
  exact had

/-- **Requests**: a request that returns does what its life cycle says. -/
theorem perform_spec (h : (perform d c w v q).Returns s a s') : Served s d c w v q a s' := by
  cases q with
  | schedule data =>
    obtain ⟨h2, hguard, ⟨r, hr, hne, ha, hrew⟩ | ⟨hno, t, z, ha, hadd⟩⟩ := scheduleCampaign_spec h
    · exact ⟨h2, hguard, Or.inl ⟨r, hr, by simpa [Request.admits] using hne, ha, hrew⟩⟩
    · exact ⟨h2, hguard, Or.inr ⟨rfl, hno, ⟨t, z, ha⟩, hadd⟩⟩
  | publish =>
    obtain ⟨h2, ⟨r, hr, hne, ha, hrew⟩ | ⟨hno, t, z, ha, hadd⟩⟩ := publishImmediately_spec h
    · exact ⟨h2, trivial, Or.inl ⟨r, hr, by simpa [Request.admits] using hne, ha, hrew⟩⟩
    · exact ⟨h2, trivial, Or.inr ⟨rfl, hno, ⟨t, z, ha⟩, hadd⟩⟩
  | pause =>
    unfold perform pauseSchedule at h
    exact served_of_changeSchedule h (by decide) trivial rfl rfl rfl
  | resume =>
    unfold perform resumeSchedule at h
    exact served_of_changeSchedule h (by decide) trivial rfl rfl rfl
  | cancel =>
    unfold perform cancelSchedule at h
    exact served_of_changeSchedule h (by decide) trivial rfl rfl rfl
  | retry =>
    unfold perform retryFailedPublishing at h
    exact served_of_changeSchedule h (by decide) trivial rfl rfl rfl

end MarketingSuite.Scheduler.Service
