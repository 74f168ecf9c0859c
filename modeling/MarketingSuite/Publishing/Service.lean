import MarketingSuite.Lib.Sessions
import MarketingSuite.Repositories.Base

/-! # The publishing service

`PublishingService.publish_content` of `app/services/publishing.py`. The provider publishes in
between two writes of the request's session; when it refreshes a token it stores it in a session of
its own. -/

namespace MarketingSuite.Publishing.Service

open MarketingSuite.Lib.Programs MarketingSuite.Lib.Tables MarketingSuite.Lib.Sessions
open MarketingSuite.Base.Values MarketingSuite.Base.Models MarketingSuite.Base.Schema
open MarketingSuite.Repositories.Base

/-- `PublishRequest`. -/
structure PublishRequest where
  contentId : Uuid
  socialAccountId : Uuid

/-- The `publish_content` of a social provider: it gives the external id or raises, and what it
stores in sessions of its own is not the publish history. -/
structure Publisher where
  publish : SocialAccount → CampaignContent → Svc String
  keepsHistory : ∀ account content, (publish account content).Frames Database.publishHistory

/-- The history row before the provider is called. -/
def pendingHistory (d : Draws) (workspaceId : Uuid) (content : CampaignContent)
    (account : SocialAccount) : PublishHistory where
  id := d.uuid 0
  workspaceId := workspaceId
  campaignId := some content.campaignId
  contentId := content.id
  socialAccountId := account.id
  status := .pending
  externalPostId := none
  errorMessage := none
  publishedAt := none
  createdAt := d.now 0
  deletedAt := none

/-- "Fetch relations and validate". -/
def fetchRelations (workspaceId : Uuid) (request : PublishRequest) :
    Svc (CampaignContent × SocialAccount) := do
  let content ← getById CampaignContent request.contentId
  let content ← orRaise content (.http 404 "Content not found")
  Prog.require (content.workspaceId = workspaceId) (.http 404 "Content not found")
  let account ← getById SocialAccount request.socialAccountId
  let account ← orRaise account (.http 404 "Social account not found")
  Prog.require (account.workspaceId = workspaceId) (.http 404 "Social account not found")
  pure (content, account)

/-- What the outcome of the provider sets on the history row. -/
def concluded (d : Draws) (textOf : Exc → String) (outcome : Except Exc String)
    (h : PublishHistory) : PublishHistory :=
  match outcome with
  | .ok externalId =>
    { h with status := .published, externalPostId := some externalId, publishedAt := some (d.now 1) }
  | .error e => { h with status := .failed, errorMessage := some (textOf e) }

/-- The outcome of a program, as a value. -/
def outcomeOf {σ α : Type} (p : Prog σ Exc α) : Prog σ Exc (Except Exc α) :=
  (do
    let a ← p
    pure (Except.ok a) : Prog σ Exc (Except Exc α)).handle fun e => pure (.error e)

/-- `PublishingService.publish_content`. -/
def publishContent (d : Draws) (textOf : Exc → String) (provider : Publisher) (workspaceId : Uuid)
    (request : PublishRequest) : Prog (Session Database) Exc PublishHistory := do
  let (content, account) ← Session.exec (fetchRelations workspaceId request)
  let history ← Session.exec (create (pendingHistory d workspaceId content account))
  let outcome ← outcomeOf (Session.outside (provider.publish account content))
  Session.exec (update history.id (concluded d textOf outcome))

/-- `PublishStatus.value`. -/
def statusValue : PublishStatus → String
  | .pending => "PENDING"
  | .published => "PUBLISHED"
  | .failed => "FAILED"

/-- `PublishingService.get_publish_history`; a filter that is not given passes every row. -/
def getPublishHistory (workspaceId : Uuid) (skip limit : ℤ) (campaignId contentId : Option Uuid)
    (status : Option String) (socialAccountId : Option Uuid) : Svc (List PublishHistory) :=
  newestPage (fun h => h.workspaceId = workspaceId &&
      (campaignId = none || h.campaignId = campaignId) &&
      (contentId = none || some h.contentId = contentId) &&
      (!truthy status || some (statusValue h.status) = status) &&
      (socialAccountId = none || some h.socialAccountId = socialAccountId))
    PublishHistory.createdAt skip limit

/-! ### Which calls are accepted, and what they report -/

variable {d : Draws} {textOf : Exc → String} {provider : Publisher} {w : Uuid}
  {request : PublishRequest} {content : CampaignContent} {account : SocialAccount} {s : Database}

/-- The content and the account of a request, in the workspace. -/
structure Relations (s : Database) (w : Uuid) (request : PublishRequest) (content : CampaignContent)
    (account : SocialAccount) : Prop where
  content_mem : content ∈ s.campaignContents.rows
  content_id : content.id = request.contentId
  content_kept : content.deletedAt = none
  content_workspace : content.workspaceId = w
  account_mem : account ∈ s.socialAccounts.rows
  account_id : account.id = request.socialAccountId
  account_kept : account.deletedAt = none
  account_workspace : account.workspaceId = w

/-- The requests that are accepted: content and account are those of the workspace, and the history
row can be made. -/
def AcceptsPublish (s : Database) (d : Draws) (w : Uuid) (request : PublishRequest) : Prop :=
  ∃ content account, Relations s w request content account ∧
    Model.references s (pendingHistory d w content account) = true ∧
    ∀ h ∈ s.publishHistory.rows, h.id ≠ d.uuid 0

theorem fetchRelations_spec {s' : Database} {p : CampaignContent × SocialAccount}
    (h : (fetchRelations w request).Returns s p s') : s' = s ∧ Relations s w request p.1 p.2 := by
  unfold fetchRelations at h
  rw [Prog.returns_bind] at h
  obtain ⟨foundContent, s₁, hget, h⟩ := h
  obtain ⟨rfl, hcontent⟩ := getById_spec hget
  rw [Prog.returns_bind] at h
  obtain ⟨content, s₂, hraise, h⟩ := h
  obtain ⟨rfl, rfl⟩ := returns_orRaise.mp hraise
  rw [Prog.returns_bind] at h
  obtain ⟨_, s₃, hreq, h⟩ := h
  obtain ⟨hw, rfl⟩ := Prog.returns_require.mp hreq
  rw [Prog.returns_bind] at h
  obtain ⟨foundAccount, s₄, hget', h⟩ := h
  obtain ⟨rfl, haccount⟩ := getById_spec hget'
  rw [Prog.returns_bind] at h
  obtain ⟨account, s₅, hraise', h⟩ := h
  obtain ⟨rfl, rfl⟩ := returns_orRaise.mp hraise'
  rw [Prog.returns_bind] at h
  obtain ⟨_, s₆, hreq', h⟩ := h
  obtain ⟨hw', rfl⟩ := Prog.returns_require.mp hreq'
  obtain ⟨rfl, rfl⟩ := Prog.returns_pure.mp h
  obtain ⟨hc, hck, hcd⟩ := (hcontent content).mp rfl
  obtain ⟨ha, hak, had⟩ := (haccount account).mp rfl
  exact ⟨rfl, hc, hck, hcd, hw, ha, hak, had, hw'⟩

theorem fetchRelations_returns (h : Relations s w request content account) :
    (fetchRelations w request).Returns s (content, account) s := by
  have hcontent : (getById CampaignContent request.contentId).Returns s (some content) s :=
    getById_returns h.content_mem h.content_id h.content_kept
  have haccount : (getById SocialAccount request.socialAccountId).Returns s (some account) s :=
    getById_returns h.account_mem h.account_id h.account_kept
  unfold fetchRelations
  refine Prog.returns_bind.mpr ⟨_, s, hcontent, Prog.returns_bind.mpr ⟨content, s, ?_, ?_⟩⟩
  · exact returns_orRaise.mpr ⟨rfl, rfl⟩
  refine Prog.returns_bind.mpr ⟨(), s, Prog.returns_require.mpr ⟨h.content_workspace, rfl⟩, ?_⟩
  refine Prog.returns_bind.mpr ⟨_, s, haccount, Prog.returns_bind.mpr ⟨account, s, ?_, ?_⟩⟩
  · exact returns_orRaise.mpr ⟨rfl, rfl⟩
  refine Prog.returns_bind.mpr ⟨(), s, Prog.returns_require.mpr ⟨h.account_workspace, rfl⟩, ?_⟩
  exact Prog.returns_pure.mpr ⟨rfl, rfl⟩

theorem outcomeOf_returns (p : Svc String) (c : Database) (v : Option Database) :
    (outcomeOf (Session.outside p)).Returns ⟨c, v⟩ (p c).1 ⟨(p c).2, v⟩ := by
  rcases hp : p c with ⟨e | x, c'⟩
  · simp [outcomeOf, Prog.Returns, Prog.handle, bind, pure, Session.outside, hp]
  · simp [outcomeOf, Prog.Returns, Prog.handle, bind, pure, Session.outside, hp]

theorem concluded_id {outcome : Except Exc String} {h : PublishHistory} :
    (concluded d textOf outcome h).id = h.id := by
  rcases outcome with e | x <;> rfl

theorem references_concluded {outcome : Except Exc String} {h : PublishHistory} :
    Model.references s (concluded d textOf outcome h) = Model.references s h := by
  rcases outcome with e | x <;> rfl

theorem Relations.unique {content' : CampaignContent} {account' : SocialAccount}
    (h : Relations s w request content account) (h' : Relations s w request content' account') :
    content' = content ∧ account' = account :=
  ⟨s.campaignContents.eq_of_key_eq h'.content_mem h.content_mem
    (h'.content_id.trans h.content_id.symm),
   s.socialAccounts.eq_of_key_eq h'.account_mem h.account_mem
    (h'.account_id.trans h.account_id.symm)⟩

/-- **`publish_content`**: an accepted call returns the row that the outcome of the provider
concludes. -/
theorem publishContent_concludes (textOf : Exc → String) (provider : Publisher) (c : Database)
    (hrel : Relations s w request content account) (h : AcceptsPublish s d w request) :
    ∃ v, (publishContent d textOf provider w request).Returns ⟨c, some s⟩
      (concluded d textOf (provider.publish account content c).1
        (pendingHistory d w content account))
      ⟨(provider.publish account content c).2, some v⟩ := by
  obtain ⟨content', account', hrel', href, hnew⟩ := h
  obtain ⟨rfl, rfl⟩ := hrel.unique hrel'
  obtain ⟨T, hT⟩ := Table.exists_insert (T := s.publishHistory)
    (r := pendingHistory d w content' account') fun h hh => ⟨hnew h hh, rfl⟩
  have hout := outcomeOf_returns (provider.publish account' content') c
    (some { s with publishHistory := T })
  obtain ⟨U, hU⟩ := Table.exists_modify (T := T) (k := d.uuid 0)
    (f := concluded d textOf (provider.publish account' content' c).1)
    (fun _ => concluded_id) fun _ _ => rfl
  have hmem : pendingHistory d w content' account' ∈ T.rows := Table.mem_insert_self hT
  have hcreate : (create (pendingHistory d w content' account')).Returns s
      (pendingHistory d w content' account') { s with publishHistory := T } :=
    returns_create.mpr ⟨rfl, href, T, hT, rfl⟩
  have hupdate : (update (d.uuid 0) (concluded d textOf
        (provider.publish account' content' c).1)).Returns { s with publishHistory := T }
      (concluded d textOf (provider.publish account' content' c).1
        (pendingHistory d w content' account')) { s with publishHistory := U } := by
    refine returns_update.mpr ⟨_, hmem, rfl, rfl, ?_, U, hU, rfl⟩
    rw [references_concluded]
    exact href
  refine ⟨{ s with publishHistory := U }, ?_⟩
  unfold publishContent
  refine Prog.returns_bind.mpr ⟨(content', account'), ⟨c, some s⟩, ?_, ?_⟩
  · exact Session.returns_exec.mpr ⟨s, fetchRelations_returns hrel, rfl⟩
  refine Prog.returns_bind.mpr ⟨_, _, Session.returns_exec.mpr ⟨_, hcreate, rfl⟩, ?_⟩
  refine Prog.returns_bind.mpr ⟨_, _, hout, ?_⟩
  exact Session.returns_exec.mpr ⟨_, hupdate, rfl⟩

theorem publishContent_returns (textOf : Exc → String) (provider : Publisher) (c : Database)
    (h : AcceptsPublish s d w request) :
    ∃ a c' v, (publishContent d textOf provider w request).Returns ⟨c, some s⟩ a ⟨c', some v⟩ ∧
      a.id = d.uuid 0 ∧ c'.publishHistory = c.publishHistory := by
  obtain ⟨content, account, hrel, -, -⟩ := id h
  obtain ⟨v, hret⟩ := publishContent_concludes textOf provider c hrel h
  exact ⟨_, _, v, hret, concluded_id, provider.keepsHistory account content c⟩

theorem acceptsPublish_of_returns {c : Database} {a : PublishHistory} {s' : Session Database}
    (h : (publishContent d textOf provider w request).Returns ⟨c, some s⟩ a s') :
    AcceptsPublish s d w request := by
  unfold publishContent at h
  rw [Prog.returns_bind] at h
  obtain ⟨⟨content, account⟩, s₁, hfetch, h⟩ := h
  obtain ⟨v, hrun, rfl⟩ := Session.returns_exec.mp hfetch
  obtain ⟨hv, hrel⟩ := fetchRelations_spec hrun
  obtain ⟨_, s₂, hcreate, -⟩ := Prog.returns_bind.mp h
  obtain ⟨t, hrun', rfl⟩ := Session.returns_exec.mp hcreate
  rw [Session.view_pending] at hv hrel hrun'
  rw [hv] at hrun'
  obtain ⟨-, href, T, hT, -⟩ := returns_create.mp hrun'
  exact ⟨content, account, hrel, href, fun h hh => (Table.apart_of_insert hT hh).1⟩

end MarketingSuite.Publishing.Service
