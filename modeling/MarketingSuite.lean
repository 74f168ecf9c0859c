import MarketingSuite.Lib.Programs
import MarketingSuite.Lib.Tables
import MarketingSuite.Lib.Runs
import MarketingSuite.Lib.Sessions
import MarketingSuite.Repositories.Base
import MarketingSuite.Repositories.Records
import MarketingSuite.Workspaces.Repositories
import MarketingSuite.Workspaces.Members
import MarketingSuite.Workspaces.Invitations
import MarketingSuite.Workspaces.Service
import MarketingSuite.Workspaces.System
import MarketingSuite.Workspaces.LastOwner
import MarketingSuite.Workspaces.Escalation
import MarketingSuite.Campaigns.Service
import MarketingSuite.Scheduler.Service
import MarketingSuite.Scheduler.Task
import MarketingSuite.Scheduler.System
import MarketingSuite.Scheduler.PauseWins
import MarketingSuite.Scheduler.PublishedFinal
import MarketingSuite.Scheduler.AtMostOnce
import MarketingSuite.Scheduler.Tenancy
import MarketingSuite.Scheduler.Acceptance
import MarketingSuite.Scheduler.ClosedCampaigns
import MarketingSuite.Scheduler.InTurn
import MarketingSuite.Content.Service
import MarketingSuite.Content.CurrentVersion
import MarketingSuite.Base.Payloads
import MarketingSuite.Jobs.Worker
import MarketingSuite.Lib.Upserts
import MarketingSuite.Sync.Engine
import MarketingSuite.Sync.Accounts
import MarketingSuite.Sync.Results
import MarketingSuite.Sync.Durability
import MarketingSuite.Api.Dependencies
import MarketingSuite.Publishing.Service
import MarketingSuite.Api.Endpoints
import MarketingSuite.Api.Durability
import MarketingSuite.Content.Versions
import MarketingSuite.Base.Texts
import MarketingSuite.Tenants.Events
import MarketingSuite.Tenants.Tokens
import MarketingSuite.Tenants.Acceptance
import MarketingSuite.Tenants.Addresses
import MarketingSuite.Api.Access
import MarketingSuite.Tenants.Roles
import MarketingSuite.Tenants.Owners
import MarketingSuite.Api.Routes
import MarketingSuite.Tenants.Deletion
import MarketingSuite.Integrations.Service
import MarketingSuite.Social.Providers
import MarketingSuite.Social.Refresh
import MarketingSuite.Jobs.Queue
import MarketingSuite.Jobs.System
import MarketingSuite.Jobs.Outcomes
import MarketingSuite.Jobs.Agreement
import MarketingSuite.Jobs.Attempts
import MarketingSuite.Integrations.Webhooks
import MarketingSuite.Scheduler.Audit
import MarketingSuite.Integrations.OAuth
import MarketingSuite.Integrations.Connectors
import MarketingSuite.Integrations.Connections
import MarketingSuite.Social.Factory
import MarketingSuite.Publishing.Truth
import MarketingSuite.Lib.Relations
import MarketingSuite.Lib.Shares
import MarketingSuite.Isolation.Rows
import MarketingSuite.Isolation.Providers
import MarketingSuite.Isolation.Calls
import MarketingSuite.Integrations.Breaker
import MarketingSuite.Lib.Transactions
import MarketingSuite.Workspaces.Concurrency
import MarketingSuite.Integrations.Concurrency
import MarketingSuite.Tenants.Listing
import MarketingSuite.Social.AllOrNothing
import MarketingSuite.Sync.Entries
import MarketingSuite.Sync.Idempotence
import MarketingSuite.Sync.Credentials
import MarketingSuite.Sync.Expiry
import MarketingSuite.Integrations.Meta
import MarketingSuite.Sync.Pages
import MarketingSuite.Publishing.Tokens
import MarketingSuite.Publishing.Disconnected
import MarketingSuite.Integrations.Counting
import MarketingSuite.Integrations.Retries
import MarketingSuite.Lib.Buckets
import MarketingSuite.Integrations.RateLimit
import MarketingSuite.Lib.Loops
import MarketingSuite.Base.Http
import MarketingSuite.Uploads.YouTube
import MarketingSuite.Uploads.Termination
import MarketingSuite.Uploads.Completion
import MarketingSuite.Uploads.ByteExact
import MarketingSuite.Uploads.Processing
import MarketingSuite.Uploads.Twitter
import MarketingSuite.Lib.Traces
import MarketingSuite.Integrations.SyncEngines
import MarketingSuite.Integrations.TokenErrors
import MarketingSuite.Sync.Rejections
import MarketingSuite.Sync.TokenChain
import MarketingSuite.Lib.Base64
import MarketingSuite.Integrations.Secrets
import MarketingSuite.Workspaces.Resending
import MarketingSuite.Campaigns.Awareness
import MarketingSuite.Scheduler.AuditEntries
import MarketingSuite.Campaigns.Filters
import MarketingSuite.Api.FirstLogin
import MarketingSuite.Lib.Paging
import MarketingSuite.Plans.Service
import MarketingSuite.Analytics.Paging
import MarketingSuite.Analytics.Metrics
import MarketingSuite.Base.Encoding
import MarketingSuite.Workspaces.Updates
import MarketingSuite.Scheduler.AuditPayloads
import MarketingSuite.Plans.Updates
import MarketingSuite.Api.PartialUpdates
import MarketingSuite.Events.Dispatcher
import MarketingSuite.Integrations.Signatures
import MarketingSuite.Workspaces.Slugs
import MarketingSuite.Announcements.Service
import MarketingSuite.Base.Objects
import MarketingSuite.Jobs.Fields
import MarketingSuite.Jobs.Retrying
import MarketingSuite.Jobs.Serializer
import MarketingSuite.Workspaces.CustomRoles
import MarketingSuite.Workspaces.Seeding
import MarketingSuite.Notifications.InApp
import MarketingSuite.Lib.Gathering
import MarketingSuite.Lib.Chains
import MarketingSuite.Content.VersionChains
import MarketingSuite.Lib.Exchanges
import MarketingSuite.Social.Publishers
import MarketingSuite.Publishing.Platforms
import MarketingSuite.Lib.Journals
import MarketingSuite.Lib.Lookups
import MarketingSuite.Tenants.AuditTrail
import MarketingSuite.Notifications.Inboxes
import MarketingSuite.Lib.Unwinding
import MarketingSuite.Isolation.Bystanders
import MarketingSuite.Api.AccessMatrix
import MarketingSuite.Tenants.Solitude
import MarketingSuite.Lib.Origins
import MarketingSuite.Integrations.Authority
import MarketingSuite.Sync.AtRest
import MarketingSuite.Analytics.Snapshots
import MarketingSuite.Lib.Lives
import MarketingSuite.Campaigns.Lifecycle
import MarketingSuite.Lib.Overlaps
import MarketingSuite.Content.Requests
import MarketingSuite.Content.Branches
