import MarketingSuite.Api.Dependencies
import MarketingSuite.Campaigns.Service
import MarketingSuite.Publishing.Service
import MarketingSuite.Scheduler.Acceptance

/-! # The endpoints

`app/api/v1/endpoints/campaigns.py`, `publishing.py` and `notifications.py`, and
`app/api/v1/campaign_schedule.py`: the endpoints that write. `get_db_session` gives every request a
session of its own and only closes it, so what stays is what the endpoint itself commits. -/

namespace MarketingSuite.Api.Endpoints

open MarketingSuite.Lib.Programs MarketingSuite.Lib.Tables MarketingSuite.Lib.Sessions
open MarketingSuite.Base.Values MarketingSuite.Base.Models MarketingSuite.Base.Schema
open MarketingSuite.Repositories.Base MarketingSuite.Repositories.Records
open MarketingSuite.Api.Dependencies MarketingSuite.Campaigns.Service
open MarketingSuite.Publishing.Service MarketingSuite.Scheduler.Service

/-- `CampaignScheduleUpdate`. -/
structure CampaignScheduleUpdate where
  publishDate : PatchField DateTime := none
  timezone : PatchField String := none
  status : PatchField ScheduleStatus := none

/-- `CampaignScheduleCreate(**schedule_data.model_dump(exclude_unset=True))`: the date is required,
no field may be null, and a status is ignored. -/
def CampaignScheduleUpdate.toCreate (data : CampaignScheduleUpdate) :
    Except Exc CampaignScheduleCreate :=
  match data.publishDate, data.timezone with
  | some (some publishDate), none => .ok ⟨publishDate, none⟩
  | some (some publishDate), some (some timezone) => .ok ⟨publishDate, some timezone⟩
  | _, _ => .error .validation

/-- The endpoints of `campaign_schedule.py` that write. -/
inductive ScheduleCall
  | scheduleCampaign (data : CampaignScheduleCreate)
  | updateCampaignSchedule (data : CampaignScheduleUpdate)
  | cancelCampaignSchedule
  | publishCampaignImmediately
  | pauseCampaignSchedule
  | resumeCampaignSchedule

/-- The request to the scheduler behind such an endpoint. -/
def ScheduleCall.request : ScheduleCall → Except Exc Scheduler.Service.Request
  | .scheduleCampaign data => .ok (.schedule data)
  | .updateCampaignSchedule data => do
    let data ← data.toCreate
    return .schedule data
  | .cancelCampaignSchedule => .ok .cancel
  | .publishCampaignImmediately => .ok .publish
  | .pauseCampaignSchedule => .ok .pause
  | .resumeCampaignSchedule => .ok .resume

/-- An endpoint with its arguments. -/
inductive Call
  | createCampaign (workspaceId : Uuid) (campaignIn : CampaignCreate)
  | updateCampaign (workspaceId campaignId : Uuid) (campaignIn : CampaignUpdate)
  | deleteCampaign (workspaceId campaignId : Uuid)
  | changeCampaignStatus (workspaceId campaignId : Uuid) (status : CampaignStatus)
  | publishContent (workspaceId : Uuid) (provider : Publisher) (request : PublishRequest)
  | markNotificationAsRead (workspaceId notificationId : Uuid)
  | campaignSchedule (campaignId : Uuid) (call : ScheduleCall)

/-- A request: its caller, its endpoint, and what it draws. -/
structure Request where
  caller : Caller
  draws : Draws
  call : Call

/-- The row that an answer reports. -/
inductive Answer
  | campaign (campaign : Campaign)
  | history (history : PublishHistory)
  | notification (notification : Notification)
  | schedule (schedule : CampaignSchedule)

/-- Python's `str.lower`, and `str` on exceptions. -/
structure Texts where
  lower : String → String
  textOf : Exc → String

/-- "Mock user dependency to allow the app to boot." -/
def mockUser (d : Draws) : Uuid := d.uuid 2

/-- "Mock workspace dependency to allow the app to boot." -/
def mockWorkspace (d : Draws) : Uuid := d.uuid 3

section Bodies

variable (texts : Texts) (d : Draws) (caller : Caller)

/-- `create_campaign`, which commits. -/
def createCampaign (workspaceId : Uuid) (campaignIn : CampaignCreate) :
    Prog (Session Database) Exc Answer := do
  let campaign ← Session.exec do
    let user ← admitted texts.lower d caller "campaign" "create" workspaceId
    Campaigns.Service.createCampaign d workspaceId user.id campaignIn
  Session.commit
  pure (.campaign campaign)

/-- `update_campaign`. -/
def updateCampaign (workspaceId campaignId : Uuid) (campaignIn : CampaignUpdate) :
    Svc Campaign := do
  let _ ← admitted texts.lower d caller "campaign" "update" workspaceId
  Campaigns.Service.updateCampaign workspaceId campaignId campaignIn

/-- `delete_campaign`, which commits. -/
def deleteCampaign (workspaceId campaignId : Uuid) : Prog (Session Database) Exc Answer := do
  let campaign ← Session.exec do
    let _ ← admitted texts.lower d caller "campaign" "delete" workspaceId
    Campaigns.Service.deleteCampaign d workspaceId campaignId
  Session.commit
  pure (.campaign campaign)

/-- `change_campaign_status`. -/
def changeCampaignStatus (workspaceId campaignId : Uuid) (status : CampaignStatus) :
    Svc Campaign := do
  let _ ← admitted texts.lower d caller "campaign" "update" workspaceId
  changeStatus workspaceId campaignId status

/-- `publish_content`. -/
def publishContent (workspaceId : Uuid) (provider : Publisher) (request : PublishRequest) :
    Prog (Session Database) Exc Answer := do
  let _ ← Session.exec (admitted texts.lower d caller "content" "publish" workspaceId)
  let history ← Publishing.Service.publishContent d texts.textOf provider workspaceId request
  pure (.history history)

/-- `mark_notification_as_read`; the permission is asked for in the workspace of a query parameter.
-/
def markNotificationAsRead (workspaceId notificationId : Uuid) : Svc Notification := do
  let user ← permitted texts.lower d caller "notifications" "read" workspaceId
  let found ← getById Notification notificationId
  let notification ← orRaise found (.http 404 "Notification not found")
  Prog.require (notification.userId = user.id) (.http 404 "Notification not found")
  let read ← markAsRead (d.now 0) notificationId
  orRaise read .validation

/-- The endpoints of `campaign_schedule.py`. The background tasks that they queue run after the
answer. -/
def campaignSchedule (campaignId : Uuid) (call : ScheduleCall) : Svc CampaignSchedule := do
  let request ← Prog.ofExcept call.request
  let answer ← perform d campaignId (mockWorkspace d) (mockUser d) request
  pure answer.1

/-- The body of an endpoint, with its dependencies, in the session of its request. -/
def endpoint : Call → Prog (Session Database) Exc Answer
  | .createCampaign w data => createCampaign texts d caller w data
  | .updateCampaign w i data =>
    Session.exec (Answer.campaign <$> updateCampaign texts d caller w i data)
  | .deleteCampaign w i => deleteCampaign texts d caller w i
  | .changeCampaignStatus w i st =>
    Session.exec (Answer.campaign <$> changeCampaignStatus texts d caller w i st)
  | .publishContent w provider request => publishContent texts d caller w provider request
  | .markNotificationAsRead w i =>
    Session.exec (Answer.notification <$> markNotificationAsRead texts d caller w i)
  | .campaignSchedule c call => Session.exec (Answer.schedule <$> campaignSchedule d c call)

end Bodies

/-- The answer to a request, and the state that a later session sees. -/
def respond (texts : Texts) (q : Request) : Svc Answer :=
  Session.serve (endpoint texts q.draws q.caller q.call)

end MarketingSuite.Api.Endpoints
