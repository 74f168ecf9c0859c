import MarketingSuite.Base.Models

/-! # The schema

The tables, and for each ORM class where its table is, its `deleted_at` and its foreign keys. -/

namespace MarketingSuite.Base.Schema

open MarketingSuite.Base.Values MarketingSuite.Base.Models MarketingSuite.Lib.Tables

/-- The tables. -/
structure Database where
  users : Table User
  roles : Table Role
  permissions : Table Permission
  rolePermissions : Table RolePermission
  workspaces : Table Workspace
  workspaceMembers : Table WorkspaceMember
  workspaceInvites : Table WorkspaceInvite
  notifications : Table Notification
  auditLogs : List AuditLog
  brandKits : Table BrandKit
  campaigns : Table Campaign
  campaignContents : Table CampaignContent
  campaignSchedules : Table CampaignSchedule
  socialAccounts : Table SocialAccount
  publishHistory : Table PublishHistory
  integrationConnections : Table IntegrationConnection
  jobExecutions : Table JobExecution

/-- The database without rows. -/
def Database.empty : Database where
  users := .empty
  roles := .empty
  permissions := .empty
  rolePermissions := .empty
  workspaces := .empty
  workspaceMembers := .empty
  workspaceInvites := .empty
  notifications := .empty
  auditLogs := []
  brandKits := .empty
  campaigns := .empty
  campaignContents := .empty
  campaignSchedules := .empty
  socialAccounts := .empty
  publishHistory := .empty
  integrationConnections := .empty
  jobExecutions := .empty

/-- An optional foreign key is null or names a row. -/
def optionalRef {ρ : Type} [Keyed ρ Uuid] (T : Table ρ) : Option Uuid → Bool
  | none => true
  | some k => T.has k

/-- An ORM class: its table in the database, its `deleted_at` (`none` for a class without one), and
whether the foreign keys of a row name rows. -/
class Model (ρ : Type) [Keyed ρ Uuid] where
  table : Database → Table ρ
  setTable : Database → Table ρ → Database
  deletedAt : ρ → Option Time
  references : Database → ρ → Bool

export Model (table setTable)

instance : Model User where
  table := Database.users
  setTable db T := { db with users := T }
  deletedAt := User.deletedAt
  references _ _ := true

instance : Model Role where
  table := Database.roles
  setTable db T := { db with roles := T }
  deletedAt _ := none
  references db r := optionalRef db.workspaces r.workspaceId

instance : Model Permission where
  table := Database.permissions
  setTable db T := { db with permissions := T }
  deletedAt _ := none
  references _ _ := true

instance : Model RolePermission where
  table := Database.rolePermissions
  setTable db T := { db with rolePermissions := T }
  deletedAt _ := none
  references db rp := db.roles.has rp.roleId && db.permissions.has rp.permissionId

instance : Model Workspace where
  table := Database.workspaces
  setTable db T := { db with workspaces := T }
  deletedAt := Workspace.deletedAt
  references db w := db.users.has w.ownerId && optionalRef db.users w.createdBy

instance : Model WorkspaceMember where
  table := Database.workspaceMembers
  setTable db T := { db with workspaceMembers := T }
  deletedAt := WorkspaceMember.deletedAt
  references db m := db.workspaces.has m.workspaceId && db.users.has m.userId &&
    db.roles.has m.roleId && optionalRef db.users m.invitedBy

instance : Model WorkspaceInvite where
  table := Database.workspaceInvites
  setTable db T := { db with workspaceInvites := T }
  deletedAt _ := none
  references db i := db.workspaces.has i.workspaceId && db.roles.has i.roleId &&
    optionalRef db.users i.inviterId

instance : Model Notification where
  table := Database.notifications
  setTable db T := { db with notifications := T }
  deletedAt _ := none
  references db n := db.workspaces.has n.workspaceId && db.users.has n.userId

instance : Model BrandKit where
  table := Database.brandKits
  setTable db T := { db with brandKits := T }
  deletedAt _ := none
  references db b := db.workspaces.has b.workspaceId

instance : Model Campaign where
  table := Database.campaigns
  setTable db T := { db with campaigns := T }
  deletedAt := Campaign.deletedAt
  references db c := db.workspaces.has c.workspaceId && db.users.has c.ownerId &&
    optionalRef db.brandKits c.brandKitId

instance : Model CampaignContent where
  table := Database.campaignContents
  setTable db T := { db with campaignContents := T }
  deletedAt := CampaignContent.deletedAt
  references db c := db.workspaces.has c.workspaceId && db.campaigns.has c.campaignId &&
    optionalRef db.campaignContents c.parentVersionId

instance : Model CampaignSchedule where
  table := Database.campaignSchedules
  setTable db T := { db with campaignSchedules := T }
  deletedAt _ := none
  references db s := db.workspaces.has s.workspaceId && db.campaigns.has s.campaignId &&
    optionalRef db.users s.createdBy && optionalRef db.users s.updatedBy

instance : Model SocialAccount where
  table := Database.socialAccounts
  setTable db T := { db with socialAccounts := T }
  deletedAt := SocialAccount.deletedAt
  references db a := db.workspaces.has a.workspaceId

instance : Model PublishHistory where
  table := Database.publishHistory
  setTable db T := { db with publishHistory := T }
  deletedAt := PublishHistory.deletedAt
  references db h := db.workspaces.has h.workspaceId && optionalRef db.campaigns h.campaignId &&
    db.campaignContents.has h.contentId && db.socialAccounts.has h.socialAccountId

instance : Model IntegrationConnection where
  table := Database.integrationConnections
  setTable db T := { db with integrationConnections := T }
  deletedAt _ := none
  references _ _ := true

instance : Model JobExecution where
  table := Database.jobExecutions
  setTable db T := { db with jobExecutions := T }
  deletedAt _ := none
  references _ _ := true

/-! ### A small installation -/

/-- A user as the sign-up leaves it. -/
def userOf (id : Uuid) (email : String) : User := ⟨id, email, id, none, none, true, none⟩

/-- An active workspace. -/
def workspaceNamed (id ownerId : Uuid) (slug : String) : Workspace where
  id := id
  name := slug
  slug := slug
  logoUrl := none
  timezone := "UTC"
  industry := none
  country := none
  defaultLanguage := "en"
  status := .active
  planId := none
  ownerId := ownerId
  createdBy := some ownerId
  deletedAt := none

/-- The workspace 10 of the user 1 and the workspace 20 of the user 2. -/
def twoStudios : Database :=
  { Database.empty with
    users := ⟨[userOf 1 "owner@example.com", userOf 2 "rival@example.com"], by decide⟩
    workspaces := ⟨[workspaceNamed 10 1 "studio", workspaceNamed 20 2 "rival"], by decide⟩ }

end MarketingSuite.Base.Schema
