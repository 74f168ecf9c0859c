import MarketingSuite.Scheduler.Acceptance
import MarketingSuite.Scheduler.System

/-! # What the audit log says about a schedule

The entries that the requests of `app/services/campaign_scheduler.py` leave. `pause_schedule` and
`resume_schedule` admit one status and quote it as the old one; `cancel_schedule` admits three and
reads the old status off the row object, which `campaign_schedule_repo.update` has changed by
then. -/

namespace MarketingSuite.Scheduler.AuditEntries

open MarketingSuite.Lib.Programs MarketingSuite.Lib.Runs
open MarketingSuite.Base.Values MarketingSuite.Base.Models MarketingSuite.Base.Schema
open MarketingSuite.Repositories.Base
open MarketingSuite.Scheduler.Service MarketingSuite.Scheduler.Acceptance
open MarketingSuite.Scheduler.System

/-! ### The entries -/

/-- What a request tells the audit log. -/
structure Quote where
  action : String
  oldValues : Option (List (String × Json))
  newValues : Option (List (String × Json))

/-- The entry that is made of it. -/
def Quote.entry (quote : Quote) (workspaceId userId campaignId : Uuid) (timestamp : Time) :
    AuditLog where
  workspaceId := some workspaceId
  actorId := some userId
  action := quote.action
  resourceType := "CAMPAIGN_SCHEDULE"
  resourceId := campaignId
  oldValues := quote.oldValues.filter fun l => l ≠ []
  newValues := quote.newValues.filter fun l => l ≠ []
  timestamp := timestamp

/-- A dictionary with a status. -/
def statusDict (st : ScheduleStatus) : Option (List (String × Json)) :=
  some [("status", .str st.value)]

/-- What each request tells; `existed` says whether there was a schedule. -/
def quoteOf (campaignId workspaceId userId : Uuid) (existed : Bool) : Request → Quote
  | .schedule data =>
    if existed = true then
      ⟨"UPDATE_SCHEDULE", none, some ([("publish_date", .time data.publishDate)] ++
        (data.timezone.map fun z => ("timezone", .str z)).toList ++
        [("status", .str "SCHEDULED"), ("error_message", .null), ("updated_by", .id userId)])⟩
    else
      ⟨"CREATE_SCHEDULE", none, some [("publish_date", .time data.publishDate),
        ("timezone", .str (data.timezone.getD "UTC")), ("campaign_id", .id campaignId),
        ("workspace_id", .id workspaceId), ("created_by", .id userId),
        ("status", .str "SCHEDULED")]⟩
  | .publish => ⟨"TRIGGER_PUBLISH", none, none⟩
  | .pause => ⟨"PAUSE_SCHEDULE", statusDict .scheduled, statusDict .paused⟩
  | .resume => ⟨"RESUME_SCHEDULE", statusDict .paused, statusDict .scheduled⟩
  | .cancel => ⟨"CANCEL_SCHEDULE", statusDict .cancelled, statusDict .cancelled⟩
  | .retry => ⟨"RETRY_PUBLISH", none, none⟩

variable {s s' : Database} {d : Draws} {c w v : Uuid} {q : Request}
  {a : CampaignSchedule × List Job} {f : CampaignSchedule → CampaignSchedule} {log : AuditLog}

theorem frames_update_schedule {i : Uuid} : Prog.Frames Database.auditLogs (update i f) :=
  frames_update fun _ _ => rfl

theorem logs_of_logAudit (quote : Quote) {t : Time} {u : Unit}
    (h : (logAudit w v quote.action c quote.oldValues quote.newValues t).Returns s u s') :
    s'.auditLogs = s.auditLogs ++ [quote.entry w v c t] := by
  obtain rfl := Prog.returns_modify.mp h
  rfl

theorem logs_of_writeAndLog {p : Svc CampaignSchedule} {action : String}
    {old new : CampaignSchedule → Option (List (String × Json))} {t : Time} {queued : List Job}
    (hp : Prog.Frames Database.auditLogs p)
    (h : (writeAndLog p w v c action old new t queued).Returns s a s') :
    s'.auditLogs = s.auditLogs ++ [(⟨action, old a.1, new a.1⟩ : Quote).entry w v c t] := by
  obtain ⟨-, s₁, hwrite, hlog⟩ := writeAndLog_spec h
  rw [logs_of_logAudit ⟨action, old a.1, new a.1⟩ hlog, hp.returns hwrite]

/-- A request that only changes the schedule makes one entry, which may quote the changed row. -/
theorem changeSchedule_logs {admits : ScheduleStatus → Bool} {refused action : String}
    {old new : CampaignSchedule → Option (List (String × Json))} {queued : List Job}
    (h : (changeSchedule d c w v admits refused f action old new queued).Returns s a s') :
    ∃ r, s'.auditLogs = s.auditLogs ++ [(⟨action, old (f r), new (f r)⟩ : Quote).entry w v c
      (d.now 1)] := by
  obtain ⟨r, hr, -, h⟩ := changeSchedule_cases h
  obtain ⟨-, s₁, hupd, -⟩ := writeAndLog_spec h
  obtain ⟨ha, -⟩ := update_spec hr hupd
  refine ⟨r, ?_⟩
  rw [logs_of_writeAndLog frames_update_schedule h, ha]

theorem scheduleCampaign_logs {data : CampaignScheduleCreate}
    (h : (scheduleCampaign d c data w v).Returns s a s') : ∃ existed, s'.auditLogs =
      s.auditLogs ++ [(quoteOf c w v existed (.schedule data)).entry w v c (d.now 1)] := by
  obtain ⟨-, ⟨r, -, -, h⟩ | ⟨-, h⟩⟩ := scheduleCampaign_cases h
  · exact ⟨true, logs_of_writeAndLog frames_update_schedule h⟩
  · exact ⟨false, logs_of_writeAndLog (frames_create fun _ _ => rfl) h⟩

theorem publishImmediately_logs (h : (publishImmediately d c w v).Returns s a s') :
    s'.auditLogs = s.auditLogs ++ [(quoteOf c w v true .publish).entry w v c (d.now 1)] := by
  obtain ⟨r, s₁, hfound, h⟩ := publishImmediately_cases h
  have hkept : s₁.auditLogs = s.auditLogs := by
    rcases scheduleToPublish_cases hfound with ⟨rfl, -⟩ | ⟨-, -, -, T, -, rfl⟩
    · rfl
    · rfl
  rw [← hkept]
  exact logs_of_writeAndLog frames_update_schedule h

/-- **One request, one entry**, and what it says. -/
theorem perform_logs (h : (perform d c w v q).Returns s a s') : ∃ existed, s'.auditLogs =
    s.auditLogs ++ [(quoteOf c w v existed q).entry w v c (d.now 1)] := by
  cases q with
  | schedule data => exact scheduleCampaign_logs h
  | publish => exact ⟨true, publishImmediately_logs h⟩
  | pause =>
    unfold perform pauseSchedule at h
    obtain ⟨r, hlogs⟩ := changeSchedule_logs h
    exact ⟨true, hlogs⟩
  | resume =>
    unfold perform resumeSchedule at h
    obtain ⟨r, hlogs⟩ := changeSchedule_logs h
    exact ⟨true, hlogs⟩
  | cancel =>
    unfold perform cancelSchedule at h
    obtain ⟨r, hlogs⟩ := changeSchedule_logs h
    exact ⟨true, hlogs⟩
  | retry =>
    unfold perform retryFailedPublishing at h
    obtain ⟨r, hlogs⟩ := changeSchedule_logs h
    exact ⟨true, hlogs⟩

/-! ### Faithful entries -/

/-- `pause_schedule`, `resume_schedule` and `cancel_schedule`. -/
def controls : Request → Bool
  | .pause => true
  | .resume => true
  | .cancel => true
  | _ => false

/-- The status that is stored for the campaign `c` in the workspace `w`. -/
def storedStatus (s : Database) (c w : Uuid) : Option String :=
  (s.campaignSchedules.rows.find? fun r => r.campaignId = c && r.workspaceId = w).map
    fun r => r.status.value

/-- `values["status"]`. -/
def statusIn (values : Option (List (String × Json))) : Option String :=
  match values.bind fun l => l.lookup "status" with
  | some (.str st) => some st
  | _ => none

/-- The step is a successful pause, resume or cancel of the schedule, and `log` is the entry it
makes. -/
def Records (s : State) (e : Event) (c w : Uuid) (log : AuditLog) : Prop :=
  ∃ d v q a db, e = .request d c w v q ∧ controls q = true ∧
    (perform d c w v q).Returns s.db a db ∧ db.auditLogs = s.db.auditLogs ++ [log]

/-- Every successful pause, resume or cancel makes an entry, and the entry quotes the status stored
before the step and the one stored after it. -/
structure Faithful (str : Exc → String) (s : State) (e : Event) : Prop where
  made : ∀ d c w v q, e = .request d c w v q → controls q = true →
    (perform d c w v q).succeeds s.db = true → ∃ log, Records s e c w log
  old : ∀ c w log, Records s e c w log →
    ∃ st, storedStatus s.db c w = some st ∧ statusIn log.oldValues = some st
  new : ∀ c w log, Records s e c w log →
    ∃ st, storedStatus (step str s e).db c w = some st ∧ statusIn log.newValues = some st

/-- Two entries about a schedule whose status nothing has changed between them fit together: the
later one starts where the earlier one ended. -/
def Chained (str : Exc → String) (s : State) (l : List Event) : Prop :=
  ∀ pre e mid e' c w log log', pre ++ [e] ++ mid ++ [e'] <+: l →
    Records (run (step str) s pre) e c w log →
    Records (run (step str) s (pre ++ [e] ++ mid)) e' c w log' →
    storedStatus (run (step str) s (pre ++ [e])).db c w =
      storedStatus (run (step str) s (pre ++ [e] ++ mid)).db c w →
    statusIn log.newValues = statusIn log'.oldValues

/-- The step is not a cancellation of a schedule that is there and neither PUBLISHED nor CANCELLED.
-/
def NoCancel (s : State) (e : Event) : Prop :=
  ∀ d c w v, e = .request d c w v .cancel → ¬ Finds s.db c w v .cancel

variable {str : Exc → String} {S : State} {e : Event} {r : CampaignSchedule}

theorem storedStatus_of_isSchedule (hr : IsSchedule s c w r) :
    storedStatus s c w = some r.status.value := by
  have hp : (decide (r.campaignId = c) && decide (r.workspaceId = w)) = true := by
    simp [hr.2.1, hr.2.2]
  unfold storedStatus
  rcases hf : s.campaignSchedules.rows.find?
      fun r => decide (r.campaignId = c) && decide (r.workspaceId = w) with _ | q
  · exact absurd hp (List.find?_eq_none.mp hf r hr.1)
  · have hq := List.find?_some hf
    simp only [Bool.and_eq_true, decide_eq_true_eq] at hq
    obtain rfl : q = r := isSchedule_unique ⟨List.mem_of_find?_eq_some hf, hq⟩ hr
    rw [hf]
    rfl

theorem storedStatus_of_served (h : (perform d c w v q).Returns s a s')
    (hq : q.creates = false) : ∃ r, IsSchedule s c w r ∧ q.admits r.status = true ∧
      Finds s c w v q ∧ storedStatus s' c w = some q.target.value := by
  rcases (perform_spec h).row with ⟨r, hr, hadm, ha, hrew⟩ | ⟨hcr, -⟩
  · have hset := sets_change v q r
    have hmem : q.change v r ∈ s'.campaignSchedules.rows :=
      (mem_of_rewritten hr.1 hrew).mpr (Or.inr rfl)
    have hr' : IsSchedule s' c w (q.change v r) :=
      ⟨hmem, hset.2.2.1.trans hr.2.1, hset.2.2.2.trans hr.2.2⟩
    refine ⟨r, hr, hadm, ⟨r, hr, hadm, hrew.1⟩, ?_⟩
    rw [storedStatus_of_isSchedule hr', hset.1]
  · exact absurd (hq.symm.trans hcr) Bool.noConfusion

theorem step_request (h : (perform d c w v q).Returns S.db a s') :
    (step str S (.request d c w v q)).db = s' := by
  have hrun : (perform d c w v q).run S.db = (.ok a, s') := h
  simp only [step, serve, hrun]

/-- A pause quotes SCHEDULED, a resume PAUSED, a cancellation CANCELLED as the old status; the new
one is the status that the request leaves. -/
theorem statusIn_quoteOf (hq : controls q = true) {existed : Bool} {t : Time}
    (hlog : log = (quoteOf c w v existed q).entry w v c t) :
    statusIn log.newValues = some q.target.value ∧
      (q ≠ .cancel → ∀ st, q.admits st = true → statusIn log.oldValues = some st.value) ∧
      (q = .cancel → statusIn log.oldValues = some "CANCELLED") := by
  subst hlog
  cases q with
  | schedule data => exact absurd hq (by simp [controls])
  | publish => exact absurd hq (by simp [controls])
  | retry => exact absurd hq (by simp [controls])
  | pause =>
    refine ⟨rfl, fun _ st hst => ?_, fun hq => absurd hq (by simp)⟩
    obtain rfl : st = .scheduled := by simpa [Request.admits] using hst
    rfl
  | resume =>
    refine ⟨rfl, fun _ st hst => ?_, fun hq => absurd hq (by simp)⟩
    obtain rfl : st = .paused := by simpa [Request.admits] using hst
    rfl
  | cancel => exact ⟨rfl, fun hne => absurd rfl hne, fun _ => rfl⟩

theorem records_spec (str : Exc → String) (h : Records S e c w log) :
    ∃ d v q r existed, e = .request d c w v q ∧ controls q = true ∧ IsSchedule S.db c w r ∧
    q.admits r.status = true ∧ Finds S.db c w v q ∧
    log = (quoteOf c w v existed q).entry w v c (d.now 1) ∧
    storedStatus (step str S e).db c w = some q.target.value := by
  obtain ⟨d, v, q, a, db, rfl, hq, hret, hlog⟩ := h
  have hcr : q.creates = false := by
    cases q <;> first | rfl | exact absurd hq (by simp [controls])
  obtain ⟨r, hr, hadm, hfinds, hst⟩ := storedStatus_of_served hret hcr
  obtain ⟨existed, hlogs⟩ := perform_logs hret
  refine ⟨d, v, q, r, existed, rfl, hq, hr, hadm, hfinds, ?_, ?_⟩
  · exact List.singleton_inj.mp (List.append_cancel_left (hlog.symm.trans hlogs))
  · rw [step_request hret]
    exact hst

/-- **The step lemma**: a step leaves faithful entries exactly if it cancels nothing. -/
theorem faithful_iff_noCancel : Faithful str S e ↔ NoCancel S e := by
  constructor
  · rintro h d c w v rfl hfinds
    have hok : (perform d c w v .cancel).succeeds S.db = true :=
      succeeds_iff_accepts.mpr ⟨trivial, Or.inl hfinds⟩
    obtain ⟨log, hrec⟩ := h.made d c w v .cancel rfl rfl hok
    obtain ⟨st, hst, hold⟩ := h.old c w log hrec
    obtain ⟨d', v', q, r, existed, heq, hq, hr, hadm, -, hlog, -⟩ := records_spec str hrec
    obtain ⟨-, -, -, -, rfl⟩ := Event.request.inj heq
    have hquote := (statusIn_quoteOf hq hlog).2.2 rfl
    rw [storedStatus_of_isSchedule hr] at hst
    rw [hquote, ← hst] at hold
    obtain ⟨st', hst'⟩ : ∃ st', r.status = st' := ⟨_, rfl⟩
    rw [hst'] at hold hadm
    cases st' <;> simp [ScheduleStatus.value, Request.admits] at hold hadm
  · intro h
    refine ⟨?_, ?_, ?_⟩
    · rintro d c w v q rfl hq hok
      obtain ⟨a, db, hret⟩ := Prog.succeeds_iff.mp hok
      obtain ⟨existed, hlogs⟩ := perform_logs hret
      exact ⟨_, d, v, q, a, db, rfl, hq, hret, hlogs⟩
    · intro c w log hrec
      obtain ⟨d, v, q, r, existed, rfl, hq, hr, hadm, hfinds, hlog, -⟩ :=
        records_spec str hrec
      have hne : q ≠ .cancel := by
        rintro rfl
        exact h d c w v rfl hfinds
      exact ⟨_, storedStatus_of_isSchedule hr, (statusIn_quoteOf hq hlog).2.1 hne _ hadm⟩
    · intro c w log hrec
      obtain ⟨d, v, q, r, existed, rfl, hq, -, -, -, hlog, hst⟩ := records_spec str hrec
      exact ⟨_, hst, (statusIn_quoteOf hq hlog).1⟩

theorem chained_of_faithful {l : List Event} (h : Along (step str) (Faithful str) S l) :
    Chained str S l := by
  intro pre e mid e' c w log log' hpre hrec hrec' hsame
  have hfirst : Faithful str (run (step str) S pre) e := by
    refine along_iff.mp h pre e (List.IsPrefix.trans ?_ hpre)
    rw [List.append_assoc (pre ++ [e])]
    exact List.prefix_append _ _
  have hsecond : Faithful str (run (step str) S (pre ++ [e] ++ mid)) e' :=
    along_iff.mp h _ e' hpre
  obtain ⟨st, hst, hnew⟩ := hfirst.new c w log hrec
  obtain ⟨st', hst', hold⟩ := hsecond.old c w log' hrec'
  rw [run_append] at hsame
  rw [hnew, hold, ← hst, ← hst']
  exact hsame

/-- **The audit log is faithful** in a run, and its entries chain, exactly if no schedule is
cancelled in it. -/
theorem faithful_chained_iff (str : Exc → String) (s : State) (l : List Event) :
    (Along (step str) (Faithful str) s l ∧ Chained str s l) ↔ Along (step str) NoCancel s l := by
  have halong : Along (step str) (Faithful str) s l ↔ Along (step str) NoCancel s l :=
    along_congr (I := fun _ => True) (fun _ _ _ => trivial)
      (fun _ _ _ => faithful_iff_noCancel) trivial
  constructor
  · exact fun h => halong.mp h.1
  · exact fun h => ⟨halong.mpr h, chained_of_faithful (halong.mpr h)⟩

/-! ### The first workspace cancels -/

/-- Its owner has the campaign published, and cancels the schedule before the task runs. -/
def cancelLaunch : Event := .request (drawsFrom 50 2 "") 30 10 1 .cancel

/-- **A cancellation records CANCELLED as the old status** of a schedule that was SCHEDULED. -/
theorem cancelled_from_cancelled :
    ¬ (Along (step fun _ => "") (Faithful fun _ => "") launching [publishLaunch, cancelLaunch] ∧
      Chained (fun _ => "") launching [publishLaunch, cancelLaunch]) := by
  rintro ⟨⟨-, h, -⟩, -⟩
  have hok : (perform (drawsFrom 50 2 "") 30 10 1 .cancel).succeeds
      (step (fun _ => "") launching publishLaunch).db = true := by decide
  obtain ⟨log, hrec⟩ := h.made _ 30 10 1 .cancel rfl rfl hok
  obtain ⟨st, hst, hold⟩ := h.old 30 10 log hrec
  have hscheduled : storedStatus (step (fun _ => "") launching publishLaunch).db 30 10 =
      some "SCHEDULED" := by decide
  obtain ⟨d, v, q, r, existed, heq, hq, -, -, -, hlog, -⟩ :=
    records_spec (fun _ => "") hrec
  obtain ⟨-, -, -, -, rfl⟩ := Event.request.inj heq
  rw [(statusIn_quoteOf hq hlog).2.2 rfl, ← hst, hscheduled] at hold
  exact absurd hold (by decide)

end MarketingSuite.Scheduler.AuditEntries
