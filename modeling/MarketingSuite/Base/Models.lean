import MarketingSuite.Base.Values
import MarketingSuite.Lib.Tables

/-! # The rows of the database

The ORM classes of `app/models`, `app/jobs/models.py`, `app/integrations/oauth/models.py` and
`app/operations/audit/models.py`, with the columns that the functions below read or write, and their
unique constraints. The string form of an id (`resource_id`) is kept as the id. -/

namespace MarketingSuite.Base.Models

open MarketingSuite.Base.Values MarketingSuite.Lib.Tables

structure User where
  id : Uuid
  email : String
  supabaseUserId : Uuid
  firstName : Option String
  lastName : Option String
  isActive : Bool
  deletedAt : Option Time
deriving DecidableEq, Repr

structure Role where
  id : Uuid
  workspaceId : Option Uuid
  name : String
  description : Option String
  roleType : RoleType
  isSystem : Bool
deriving DecidableEq, Repr

structure Permission where
  id : Uuid
  name : String
  resource : String
  action : String
deriving DecidableEq, Repr

structure RolePermission where
  id : Uuid
  roleId : Uuid
  permissionId : Uuid
deriving DecidableEq, Repr

structure Workspace where
  id : Uuid
  name : String
  slug : String
  logoUrl : Option String
  timezone : String
  industry : Option String
  country : Option String
  defaultLanguage : String
  status : WorkspaceStatus
  planId : Option Uuid
  ownerId : Uuid
  createdBy : Option Uuid
  deletedAt : Option Time
deriving DecidableEq, Repr

structure WorkspaceMember where
  id : Uuid
  workspaceId : Uuid
  userId : Uuid
  roleId : Uuid
  status : MemberStatus
  invitedBy : Option Uuid
  acceptedAt : Option Time
  joinedAt : Option Time
  deletedAt : Option Time
deriving DecidableEq, Repr

structure WorkspaceInvite where
  id : Uuid
  workspaceId : Uuid
  email : String
  roleId : Uuid
  inviterId : Option Uuid
  token : String
  status : InviteStatus
  acceptedAt : Option Time
  revokedAt : Option Time
  expiresAt : Time
deriving DecidableEq, Repr

structure Notification where
  id : Uuid
  workspaceId : Uuid
  userId : Uuid
  title : String
  body : String
  type : NotificationType
  priority : NotificationPriority
  readAt : Option Time
  createdAt : Time
deriving DecidableEq, Repr

/-- A row of the audit log. Nothing refers to its id, so it has none here. -/
structure AuditLog where
  workspaceId : Option Uuid
  actorId : Option Uuid
  action : String
  resourceType : String
  resourceId : Uuid
  oldValues : Option (List (String × Json))
  newValues : Option (List (String × Json))
  timestamp : Time
deriving Repr

structure BrandKit where
  id : Uuid
  workspaceId : Uuid
deriving DecidableEq, Repr

/-- A campaign; `budget` is in cents, as the column keeps two decimals. -/
structure Campaign where
  id : Uuid
  workspaceId : Uuid
  ownerId : Uuid
  brandKitId : Option Uuid
  campaignName : String
  description : Option String
  objective : Option String
  campaignType : Option String
  targetChannels : Option String
  status : CampaignStatus
  budget : Option ℤ
  currency : Option String
  startDate : Option DateTime
  endDate : Option DateTime
  createdAt : Time
  deletedAt : Option Time
deriving DecidableEq, Repr

structure CampaignContent where
  id : Uuid
  workspaceId : Uuid
  campaignId : Uuid
  title : String
  contentType : ContentType
  status : ContentStatus
  language : Option String
  body : Option String
  summary : Option String
  hashtags : Option String
  cta : Option String
  seoTitle : Option String
  seoDescription : Option String
  version : ℕ
  parentVersionId : Option Uuid
  isCurrent : Bool
  scheduledPlaceholder : Option String
  metadata : Option Json
  createdAt : Time
  deletedAt : Option Time
deriving Repr

structure CampaignSchedule where
  id : Uuid
  workspaceId : Uuid
  campaignId : Uuid
  publishDate : DateTime
  timezone : String
  status : ScheduleStatus
  errorMessage : Option String
  retryCount : ℕ
  createdBy : Option Uuid
  updatedBy : Option Uuid
deriving DecidableEq, Repr

structure SocialAccount where
  id : Uuid
  workspaceId : Uuid
  provider : ApiProvider
  accountId : String
  name : String
  accessToken : String
  refreshToken : Option String
  expiresAt : Option DateTime
  isActive : Bool
  createdAt : Time
  deletedAt : Option Time
deriving DecidableEq, Repr

structure PublishHistory where
  id : Uuid
  workspaceId : Uuid
  campaignId : Option Uuid
  contentId : Uuid
  socialAccountId : Uuid
  status : PublishStatus
  externalPostId : Option String
  errorMessage : Option String
  publishedAt : Option Time
  createdAt : Time
  deletedAt : Option Time
deriving DecidableEq, Repr

structure IntegrationConnection where
  id : Uuid
  workspaceId : Uuid
  provider : String
  status : ConnectionStatus
  accessToken : Option String
  refreshToken : Option String
  expiresAt : Option DateTime
deriving DecidableEq, Repr

structure JobExecution where
  id : Uuid
  jobName : String
  queue : String
  status : JobStatus
  priority : JobPriority
  attempts : ℕ
  maxAttempts : ℕ
  payload : Json
  result : Option Json
  errorMessage : Option String
  startedAt : Option Time
  completedAt : Option Time
  failedAt : Option Time
deriving Repr

/-! ### Keys and unique constraints -/

instance : Keyed User Uuid where
  key := User.id
  compatible u v := u.email ≠ v.email && u.supabaseUserId ≠ v.supabaseUserId
  symm u v := by simp [eq_comm]

instance : Keyed Role Uuid where
  key := Role.id
  compatible _ _ := true
  symm _ _ := rfl

instance : Keyed Permission Uuid where
  key := Permission.id
  compatible p q := p.name ≠ q.name && (p.resource ≠ q.resource || p.action ≠ q.action)
  symm p q := by simp [eq_comm]

instance : Keyed RolePermission Uuid where
  key := RolePermission.id
  compatible p q := p.roleId ≠ q.roleId || p.permissionId ≠ q.permissionId
  symm p q := by simp [eq_comm]

instance : Keyed Workspace Uuid where
  key := Workspace.id
  compatible v w := v.slug ≠ w.slug
  symm v w := by simp [eq_comm]

instance : Keyed WorkspaceMember Uuid where
  key := WorkspaceMember.id
  compatible m n := m.workspaceId ≠ n.workspaceId || m.userId ≠ n.userId
  symm m n := by simp [eq_comm]

-- The second test is the partial unique index on pending invites.
instance : Keyed WorkspaceInvite Uuid where
  key := WorkspaceInvite.id
  compatible i j := i.token ≠ j.token &&
    !(i.status = .pending && j.status = .pending && i.workspaceId = j.workspaceId &&
      i.email = j.email)
  symm i j := by
    simp only [eq_comm (a := i.token), eq_comm (a := i.workspaceId), eq_comm (a := i.email),
      Bool.and_comm (decide (i.status = _)), ne_eq]

instance : Keyed Notification Uuid where
  key := Notification.id
  compatible _ _ := true
  symm _ _ := rfl

instance : Keyed BrandKit Uuid where
  key := BrandKit.id
  compatible _ _ := true
  symm _ _ := rfl

instance : Keyed Campaign Uuid where
  key := Campaign.id
  compatible c d := c.workspaceId ≠ d.workspaceId || c.campaignName ≠ d.campaignName
  symm c d := by simp [eq_comm]

instance : Keyed CampaignContent Uuid where
  key := CampaignContent.id
  compatible _ _ := true
  symm _ _ := rfl

instance : Keyed CampaignSchedule Uuid where
  key := CampaignSchedule.id
  compatible s t := s.campaignId ≠ t.campaignId
  symm s t := by simp [eq_comm]

instance : Keyed SocialAccount Uuid where
  key := SocialAccount.id
  compatible _ _ := true
  symm _ _ := rfl

instance : Keyed PublishHistory Uuid where
  key := PublishHistory.id
  compatible _ _ := true
  symm _ _ := rfl

instance : Keyed IntegrationConnection Uuid where
  key := IntegrationConnection.id
  compatible _ _ := true
  symm _ _ := rfl

instance : Keyed JobExecution Uuid where
  key := JobExecution.id
  compatible _ _ := true
  symm _ _ := rfl

end MarketingSuite.Base.Models
