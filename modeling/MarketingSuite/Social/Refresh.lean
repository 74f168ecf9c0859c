import MarketingSuite.Base.Texts
import MarketingSuite.Lib.Runs
import MarketingSuite.Social.Providers
import MarketingSuite.Sync.Durability
import MarketingSuite.Workspaces.System

/-! # Refreshed tokens

`connect_provider` stores a connection under the name of its provider in lower case, and the social
providers look for it under the value of `ApiProvider`, which is in upper case. So no refresh finds
the row in which it is to store the new tokens, and every publication that needs one fails after the
refresh token was spent. -/

namespace MarketingSuite.Social.Refresh

open MarketingSuite.Lib.Programs MarketingSuite.Lib.Tables MarketingSuite.Lib.Sessions
open MarketingSuite.Lib.Runs
open MarketingSuite.Base.Values MarketingSuite.Base.Models MarketingSuite.Base.Schema
open MarketingSuite.Base.Texts (CharProperties lower_idem)
open MarketingSuite.Base.Payloads (Dict)
open MarketingSuite.Repositories.Base
open MarketingSuite.Sync.Engine (registered decryptToken getByWorkspaceAndProvider executeSyncJob)
open MarketingSuite.Sync.Durability (returns_executeSyncJob)
open MarketingSuite.Sync.Results (returns_persist)
open MarketingSuite.Sync.Accounts (returns_saveAll)
open MarketingSuite.Integrations.Service
open MarketingSuite.Social.Providers

/-! ### The life of the connections -/

/-- A request of another part of the system, which leaves the connections alone. -/
abbrev Other : Type := { p : Svc Unit // p.Frames Database.integrationConnections }

/-- What can happen to connections and social accounts. -/
inductive Event
  | connect (env : Integrations.Service.Env) (d : Draws) (w : Uuid) (provider authCode : String)
      (codeVerifier : Option String)
  | disconnect (env : Sync.Engine.Env) (w : Uuid) (provider : String)
  | sync (env : Sync.Engine.Env) (payload : Dict)
  | publish (env : Providers.Env) (platform : Platform) (account : SocialAccount)
      (content : CampaignContent) (assets : List Asset)
  | other (body : Other)

/-- The state after an event. A call of the integration service is a transaction, and so is one of
the sync engine where its caller commits; a provider commits by itself. -/
def step (lower : String → String) (s : Database) : Event → Database
  | .connect env d w provider authCode codeVerifier =>
    (connectProvider { env with lower := lower } d w provider authCode codeVerifier).settle s
  | .disconnect env w provider =>
    (disconnectProvider { env with lower := lower } w provider).settle s
  | .sync env payload => (executeSyncJob { env with lower := lower } payload).settle s
  | .publish env platform account content assets =>
    (publishContent env platform content assets ⟨s, account, []⟩).2.db
  | .other body => (body.val s).2

/-! ### What a refresh is to do -/

/-- The workspace has a connection that `connect_provider` stored for the platform; the account is
one of the platform, in the same workspace, with a refresh token and an expiry less than five
minutes ahead; and the token endpoint answers with these tokens. -/
structure Due (env : Providers.Env) (platform : Platform) (s : Database) (account : SocialAccount)
    (tokens : NewTokens) : Prop where
  connected : ∃ c ∈ s.integrationConnections.rows, c.workspaceId = account.workspaceId ∧
    c.provider = platform.key
  mem : account ∈ s.socialAccounts.rows
  kept : account.deletedAt = none
  ofPlatform : account.provider = platform.provider
  refreshToken : truthy account.refreshToken = true
  expires : expiresSoon env account = true
  answer : refreshOf env platform (decryptToken env.toEnv (account.refreshToken.getD "")) =
    .ok tokens

/-- The new tokens are in both rows, and the platform was asked to publish. -/
structure Persisted (env : Providers.Env) (platform : Platform) (account : SocialAccount)
    (tokens : NewTokens) (k : Desk) : Prop where
  connection : ∃ c ∈ k.db.integrationConnections.rows, c.workspaceId = account.workspaceId ∧
    c.provider = platform.key ∧ c = (tokens.encrypted env account).writeConnection c
  account : ∃ a ∈ k.db.socialAccounts.rows, a.id = account.id ∧ ∃ token,
    (tokens.encrypted env account).accessToken = some token ∧
      a = (tokens.encrypted env account).writeAccount token a
  published : ∃ token, .publish platform token ∈ k.calls

/-- The checks of the input that the provider of a platform makes. -/
def checkInput (account : SocialAccount) (content : CampaignContent) (assets : List Asset) :
    Platform → Work Unit
  | .twitter => checkText .twitter account content
  | .linkedin => do
    checkText .linkedin account content
    checkAuthor account
  | .google => do
    checkText .google account content
    checkAssets assets

/-- What the provider raises when it does not find a row. -/
def missingRecords : Exc :=
  .integration "Failed to persist refreshed tokens: Missing database records for token persistence."

/-- **The invariant**: a connection has a name of the registry, in lower case. None is with Google,
whose connector refuses the arguments of the service. -/
def Named (s : Database) : Prop :=
  ∀ c ∈ s.integrationConnections.rows, c.provider ∈ registered ∧ c.provider ≠ "google"

variable {lower : String → String} {env : Providers.Env} {platform : Platform} {s s' : Database}
  {account : SocialAccount} {content : CampaignContent} {assets : List Asset} {tokens : NewTokens}
  {x : Secrets} {calls : List PlatformCall} {k : Desk}

/-! ### A provider at work -/

theorem value_not_registered (platform : Platform) :
    platform.provider.value ∉ registered := by
  cases platform <;> decide

theorem lookup_none (hs : Named s) (w : Uuid) (platform : Platform) :
    (getByWorkspaceAndProvider w (some platform.provider.value)).Returns s none s := by
  refine getByWorkspaceAndProvider_none fun c hc _ hkey => ?_
  rw [Option.some.injEq] at hkey
  exact value_not_registered platform (hkey ▸ (hs c hc).1)

/-- **Nothing can be stored**: the dedicated session finds no connection, and rolls back. -/
theorem persist_raises (hs : Named s) :
    (persist env platform account x).Raises s missingRecords s := by
  obtain ⟨o, hget⟩ : ∃ o, (getById SocialAccount account.id).Returns s o s :=
    exists_getById s account.id
  have hboth : (updateBoth platform account x).Raises (Session.fresh s)
      (.integration "Missing database records for token persistence.") ⟨s, some s⟩ := by
    unfold updateBoth
    rw [Prog.raises_bind_of_returns
      (Session.returns_exec.mpr ⟨s, lookup_none hs account.workspaceId platform, rfl⟩),
      Prog.raises_bind_of_returns (Session.returns_exec.mpr ⟨s, hget, rfl⟩)]
    rfl
  have hrollback : (Session.rollback : Prog (Session Database) Exc Unit).Returns ⟨s, some s⟩ ()
      (Session.fresh s) := rfl
  refine Session.raises_serve.mpr ⟨Session.fresh s, ?_, rfl⟩
  refine Prog.raises_handle.mpr ⟨_, _, hboth, ?_⟩
  rw [Prog.raises_bind_of_returns hrollback]
  rfl

theorem ask_returns {α : Type} {call : PlatformCall} {answer : Except Exc α} {a : α}
    (h : answer = .ok a) : (ask call answer).Returns k a { k with calls := call :: k.calls } := by
  rw [h]
  rfl

/-- **The refresh token is spent, and then the refresh fails.** -/
theorem refreshTokens_raises (hs : Named s) (hdue : Due env platform s account tokens) :
    (refreshTokens env platform).Raises ⟨s, account, calls⟩ missingRecords
      ⟨s, account, .refresh platform (decryptToken env.toEnv (account.refreshToken.getD "")) ::
        calls⟩ := by
  unfold refreshTokens
  rw [Prog.raises_bind_of_returns (Prog.returns_gets.mpr ⟨rfl, rfl⟩), if_pos hdue.expires,
    Prog.raises_bind_of_returns (Prog.returns_require (b := ()).mpr ⟨hdue.refreshToken, rfl⟩),
    Prog.raises_bind_of_returns (ask_returns hdue.answer)]
  refine Prog.raises_bind.mpr (Or.inl (Prog.raises_focus.mpr ⟨s, persist_raises hs, rfl⟩))

theorem preserves_ask {α : Type} (call : PlatformCall) (answer : Except Exc α) :
    (ask call answer).Preserves fun k => k.db = s :=
  Prog.preserves_bind (Prog.preserves_modify fun _ h => h) fun _ => Prog.preserves_ofExcept _

/-- **A refresh that returns had nothing to do**, as no other one can be stored. -/
theorem refreshTokens_returns (hs : Named k.db) {k' : Desk} {u : Unit} :
    (refreshTokens env platform).Returns k u k' ↔ expiresSoon env k.account = false ∧ k' = k := by
  have hread : (Prog.gets Desk.account : Work SocialAccount).Returns k k.account k :=
    Prog.returns_gets.mpr ⟨rfl, rfl⟩
  unfold refreshTokens
  constructor
  · intro h
    rw [Prog.Returns, Prog.bind_of_returns hread] at h
    by_cases hsoon : expiresSoon env k.account = true
    · rw [if_pos hsoon] at h
      obtain ⟨_, k₁, hreq, h⟩ := Prog.returns_bind.mp h
      obtain ⟨-, rfl⟩ := Prog.returns_require.mp hreq
      obtain ⟨tokens, k₂, hask, h⟩ := Prog.returns_bind.mp h
      obtain ⟨_, k₃, hpersist, -⟩ := Prog.returns_bind.mp h
      obtain ⟨s', hret, -⟩ := Prog.returns_focus.mp hpersist
      have hdb : k₂.db = k₁.db := by
        have hkeep := preserves_ask (s := k₁.db)
          (.refresh platform (decryptToken env.toEnv (k₁.account.refreshToken.getD "")))
          (refreshOf env platform (decryptToken env.toEnv (k₁.account.refreshToken.getD ""))) k₁ rfl
        rw [hask] at hkeep
        exact hkeep
      rw [← hdb] at hs
      exact absurd (Eq.trans (Eq.symm hret) (persist_raises hs)) (by simp)
    · rw [if_neg hsoon] at h
      rw [Bool.not_eq_true] at hsoon
      exact ⟨hsoon, (Prog.returns_pure.mp h).2⟩
  · rintro ⟨hsoon, rfl⟩
    rw [Prog.Returns, Prog.bind_of_returns hread, if_neg (by rw [hsoon]; decide)]
    rfl

theorem frames_checkText {platform : Platform} :
    (checkText platform account content).Frames id :=
  Prog.frames_bind (Prog.frames_require _ _) fun _ => Prog.frames_require _ _

theorem frames_checkAssets : (checkAssets assets).Frames id := by
  rcases assets with _ | ⟨asset, _ | ⟨asset', l⟩⟩
  · exact Prog.frames_pure _
  · refine Prog.frames_bind (Prog.frames_require _ _) fun _ => ?_
    exact Prog.frames_bind (Prog.frames_require _ _) fun _ => Prog.frames_require _ _
  · exact Prog.frames_raise _

theorem frames_checkInput : (checkInput account content assets platform).Frames id := by
  cases platform with
  | twitter => exact frames_checkText
  | linkedin => exact Prog.frames_bind frames_checkText fun _ => Prog.frames_require _ _
  | google => exact Prog.frames_bind frames_checkText fun _ => frames_checkAssets

/-- A publication is the checks of its input, the refresh, and the call of the platform. -/
theorem publishContent_eq : publishContent env platform content assets =
    (do
      let account ← Prog.gets Desk.account
      checkInput account content assets platform
      refreshTokens env platform
      publishAs env platform content assets) := by
  cases platform with
  | twitter => rfl
  | linkedin =>
    unfold publishContent linkedinPublishContent checkInput
    simp only [Prog.bind_assoc]
  | google =>
    unfold publishContent googlePublishContent checkInput
    simp only [Prog.bind_assoc]

/-- **The refresh token is spent, and the publication fails**, unless the input was refused. -/
theorem publishContent_raises (hs : Named s) (hdue : Due env platform s account tokens)
    (hin : (checkInput account content assets platform).succeeds ⟨s, account, []⟩ = true) :
    (publishContent env platform content assets).Raises ⟨s, account, []⟩ missingRecords
      ⟨s, account,
        [.refresh platform (decryptToken env.toEnv (account.refreshToken.getD ""))]⟩ := by
  obtain ⟨u, k, hk⟩ := Prog.succeeds_iff.mp hin
  obtain rfl : k = ⟨s, account, []⟩ := frames_checkInput.returns hk
  rw [publishContent_eq, Prog.raises_bind_of_returns (Prog.returns_gets.mpr ⟨rfl, rfl⟩),
    Prog.raises_bind_of_returns hk]
  exact Prog.raises_bind.mpr (Or.inl (refreshTokens_raises hs hdue))

/-- A refused input ends the publication before anything was asked of the platform. -/
theorem publishContent_refused
    (hin : (checkInput account content assets platform).succeeds ⟨s, account, []⟩ ≠ true) :
    ∃ e, (publishContent env platform content assets).Raises ⟨s, account, []⟩ e
      ⟨s, account, []⟩ := by
  rcases (checkInput account content assets platform).returns_or_raises ⟨s, account, []⟩ with
    ⟨u, k, hk⟩ | ⟨e, k, hk⟩
  · exact absurd (Prog.succeeds_of_returns hk) hin
  · obtain rfl : k = ⟨s, account, []⟩ := frames_checkInput.raises hk
    refine ⟨e, ?_⟩
    rw [publishContent_eq, Prog.raises_bind_of_returns (Prog.returns_gets.mpr ⟨rfl, rfl⟩)]
    exact Prog.raises_bind.mpr (Or.inl hk)

/-! ### The connections over a run -/

theorem preserves_refreshTokens (hs : Named s) (env : Providers.Env) (platform : Platform) :
    (refreshTokens env platform).Preserves fun k => k.db = s := by
  have hpersist : ∀ (account : SocialAccount) (x : Secrets),
      (onDatabase (persist env platform account x)).Preserves fun k => k.db = s := by
    rintro account x k rfl
    have hraise : (persist env platform account x).Raises k.db missingRecords k.db :=
      persist_raises hs
    exact congrArg Prod.snd hraise
  refine Prog.preserves_bind (Prog.preserves_gets _) fun account => ?_
  refine Prog.preserves_ite ?_ (Prog.preserves_pure _)
  refine Prog.preserves_bind (Prog.preserves_require _ _) fun _ => ?_
  refine Prog.preserves_bind (preserves_ask _ _) fun _ => ?_
  exact Prog.preserves_bind (hpersist _ _) fun _ => Prog.preserves_modify fun _ h => h

theorem publishContent_db (hs : Named s) (account : SocialAccount) (calls : List PlatformCall) :
    (publishContent env platform content assets ⟨s, account, calls⟩).2.db = s := by
  have hall : (publishContent env platform content assets).Preserves fun k => k.db = s := by
    rw [publishContent_eq]
    refine Prog.preserves_bind (Prog.preserves_gets _) fun account => ?_
    refine Prog.preserves_bind (Prog.preserves_of_frames frames_checkInput) fun _ => ?_
    refine Prog.preserves_bind (preserves_refreshTokens hs env platform) fun _ => ?_
    exact Prog.preserves_bind (Prog.preserves_gets _) fun _ => preserves_ask _ _
  exact hall ⟨s, account, calls⟩ rfl

theorem named_of_modify {i : Uuid} {f : IntegrationConnection → IntegrationConnection}
    {T : Table IntegrationConnection} (hs : Named s)
    (hT : s.integrationConnections.modify i f = some T) (hf : ∀ c, (f c).provider = c.provider) :
    Named { s with integrationConnections := T } := by
  refine Table.forall_modify hT hs fun r hr _ => ?_
  rw [hf r]
  exact hs r hr

theorem named_connectProvider {world : Integrations.Service.Env} {d : Draws} {w : Uuid}
    {provider authCode : String} {codeVerifier : Option String} {c : IntegrationConnection}
    (hs : Named s) (h : (connectProvider world d w provider authCode codeVerifier).Returns s c s')
    (hlower : ∀ name, world.lower (world.lower name) = world.lower name) : Named s' := by
  obtain ⟨hreg, tokens, hcall, hsave⟩ := connectProvider_spec h
  rw [hlower provider] at hreg
  have hgoogle : world.lower provider ≠ "google" := by
    intro hname
    rw [callConnect, if_pos hname] at hcall
    exact absurd hcall (by simp)
  obtain ⟨c, T, rfl, -, hp, rfl, ⟨-, hT⟩ | ⟨rfl, hT, -⟩⟩ := saveConnection_spec hsave
  · exact named_of_modify hs hT fun _ => rfl
  · intro q hq
    rcases (Table.mem_insert hT).mp hq with hold | rfl
    · exact hs q hold
    · exact ⟨hreg, hgoogle⟩

theorem named_disconnectProvider {world : Sync.Engine.Env} {w : Uuid} {provider : String} {b : Bool}
    (hs : Named s) (h : (disconnectProvider world w provider).Returns s b s') : Named s' := by
  obtain ⟨i, T, rfl, hT⟩ := disconnectProvider_spec h
  exact named_of_modify hs hT fun _ => rfl

theorem named_executeSyncJob {world : Sync.Engine.Env} {payload result : Dict} (hs : Named s)
    (h : (executeSyncJob world payload).Returns s result s') : Named s' := by
  obtain ⟨call, -, -, hpersist⟩ := returns_executeSyncJob.mp h
  obtain ⟨x, -, hsave⟩ := returns_persist.mp hpersist
  obtain ⟨-, T, -, rfl⟩ := returns_saveAll.mp hsave
  exact hs

/-- **Every event keeps the names.** -/
theorem named_step (u : CharProperties) (s : Database) (e : Event) (hs : Named s) :
    Named (step (Base.Texts.lower u) s e) := by
  cases e with
  | connect env d w provider authCode codeVerifier =>
    rw [step]
    refine Prog.settle_inv (I := Named) hs fun c s' h => ?_
    exact named_connectProvider hs h fun name => lower_idem u name
  | disconnect env w provider =>
    rw [step]
    exact Prog.settle_inv (I := Named) hs fun b s' h => named_disconnectProvider hs h
  | sync env payload =>
    rw [step]
    exact Prog.settle_inv (I := Named) hs fun result s' h => named_executeSyncJob hs h
  | publish env platform account content assets =>
    have hdb : step (Base.Texts.lower u) s (.publish env platform account content assets) = s :=
      publishContent_db hs account []
    rw [hdb]
    exact hs
  | other body =>
    intro c hc
    rw [step, body.property s] at hc
    exact hs c hc

theorem named_run (u : CharProperties) {s₀ : Database} (h₀ : s₀.integrationConnections.rows = [])
    (l : List Event) : Named (run (step (Base.Texts.lower u)) s₀ l) := by
  have hstart : Named s₀ := by
    intro c hc
    rw [h₀] at hc
    exact absurd hc List.not_mem_nil
  exact inv_run (named_step u) l hstart

theorem not_due_google (u : CharProperties) {s₀ : Database}
    (h₀ : s₀.integrationConnections.rows = []) (l : List Event) :
    ¬ Due env .google (run (step (Base.Texts.lower u)) s₀ l) account tokens := by
  intro hdue
  obtain ⟨c, hc, -, hkey⟩ := hdue.connected
  exact (named_run u h₀ l c hc).2 hkey

/-- **No refresh is ever stored.** After any run that began without connections, a publication that
is to refresh a token stores nothing and does not publish; and if its input is valid it has spent
the refresh token and fails for lack of database records. -/
theorem refresh_is_lost (u : CharProperties) {s₀ : Database}
    (h₀ : s₀.integrationConnections.rows = []) (l : List Event)
    (hdue : Due env platform (run (step (Base.Texts.lower u)) s₀ l) account tokens)
    (content : CampaignContent) (assets : List Asset) :
    let s := run (step (Base.Texts.lower u)) s₀ l
    let after := (publishContent env platform content assets ⟨s, account, []⟩).2
    ¬ Persisted env platform account tokens after ∧ after.db = s ∧
      ((checkInput account content assets platform).succeeds ⟨s, account, []⟩ = true →
        (publishContent env platform content assets).Raises ⟨s, account, []⟩ missingRecords after ∧
        after.calls =
          [.refresh platform (decryptToken env.toEnv (account.refreshToken.getD ""))]) := by
  intro s after
  have hs : Named s := named_run u h₀ l
  have hdb : after.db = s := publishContent_db hs account []
  by_cases hin : (checkInput account content assets platform).succeeds ⟨s, account, []⟩ = true
  · have hraise := publishContent_raises hs hdue hin
    have hafter : after = ⟨s, account,
        [.refresh platform (decryptToken env.toEnv (account.refreshToken.getD ""))]⟩ :=
      congrArg Prod.snd hraise
    refine ⟨fun h => ?_, hdb, fun _ => ⟨?_, ?_⟩⟩
    · obtain ⟨token, hpub⟩ := h.published
      rw [hafter] at hpub
      simp at hpub
    · rw [hafter]
      exact hraise
    · rw [hafter]
  · obtain ⟨e, hraise⟩ := publishContent_refused hin
    have hafter : after = ⟨s, account, []⟩ := congrArg Prod.snd hraise
    refine ⟨fun h => ?_, hdb, fun h => absurd h hin⟩
    obtain ⟨token, hpub⟩ := h.published
    rw [hafter] at hpub
    exact absurd hpub List.not_mem_nil

/-! ### A token that is spent for nothing -/

/-- No character is cased, which decides the final sigma alone. -/
def plain : CharProperties := ⟨fun _ => false, fun _ => false⟩

/-- Twitter gives a refresh token for a refresh token. Now is the minute 116. -/
def twitter : Providers.Env where
  encrypt _ token := "gAAAA" ++ token
  decrypt token := some (String.ofList (token.toList.drop 5))
  lower := Base.Texts.lower plain
  strOf
    | .str text => text
    | _ => ""
  textOf _ := ""
  connector _ _ _ := .ok [("profile", .obj [("id", .str "42"), ("username", .str "studio")])]
  uuid _ := 70
  now := minutes 116
  tokenEndpoint _ _ := .ok ⟨some "access2", some "refresh2", some (some 7200)⟩
  answeredAt := minutes 116
  post _ _ _ _ _ := .ok "1000"

/-- The first tokens, which are good until the minute 120. -/
def firstTokens : Integrations.Service.Env where
  toEnv := twitter.toEnv
  connect _ _ _ := .ok ⟨some "access1", some "refresh1", some ⟨minutes 120, true⟩⟩

/-- The workspace 10 connects Twitter, and its account is synchronised. -/
def connectTwitter : List Event :=
  [.connect firstTokens (drawsFrom 50 0 "") 10 "Twitter" "code" (some "verifier"),
    .sync twitter.toEnv [("workspace_id", .id 10), ("provider", .str "twitter")]]

/-- The database after that. -/
def connected : Database :=
  run (step (Base.Texts.lower plain)) Workspaces.System.founded connectTwitter

/-- The account of the workspace. -/
def studioAccount : SocialAccount where
  id := 70
  workspaceId := 10
  provider := .twitter
  accountId := "42"
  name := "studio"
  accessToken := "gAAAAaccess1"
  refreshToken := some "gAAAArefresh1"
  expiresAt := some ⟨minutes 120, true⟩
  isActive := true
  createdAt := minutes 116
  deletedAt := none

/-- What Twitter answers to the refresh token. -/
def newTokens : NewTokens := ⟨some "access2", some "refresh2", ⟨minutes 236, true⟩⟩

/-- A post with a text. -/
def post : CampaignContent where
  id := 30
  workspaceId := 10
  campaignId := 20
  title := "Launch"
  contentType := .socialPost
  status := .approved
  language := none
  body := some "We are open"
  summary := none
  hashtags := none
  cta := none
  seoTitle := none
  seoDescription := none
  version := 1
  parentVersionId := none
  isCurrent := true
  scheduledPlaceholder := none
  metadata := none
  createdAt := 0
  deletedAt := none

theorem due_connected : Due twitter .twitter connected studioAccount newTokens where
  connected := by decide
  mem := by decide
  kept := rfl
  ofPlatform := rfl
  refreshToken := by decide
  expires := by decide
  answer := by rfl

/-- A refresh that is due, and fails. -/
theorem refresh_is_lost_connected :
    (publishContent twitter .twitter post []).Raises ⟨connected, studioAccount, []⟩ missingRecords
      (publishContent twitter .twitter post [] ⟨connected, studioAccount, []⟩).2 := by
  have hlost := refresh_is_lost plain rfl connectTwitter due_connected post []
  exact (hlost.2.2 (by decide)).1

/-- The account expires in four minutes, Twitter answers with new tokens, and they are lost. -/
theorem new_tokens_are_lost : Due twitter .twitter connected studioAccount newTokens ∧
    ¬ Persisted twitter .twitter studioAccount newTokens
      (publishContent twitter .twitter post [] ⟨connected, studioAccount, []⟩).2 := by
  have hcalls : (publishContent twitter .twitter post [] ⟨connected, studioAccount, []⟩).2.calls =
      [.refresh .twitter "refresh1"] := by decide
  refine ⟨due_connected, fun h => ?_⟩
  obtain ⟨token, hpub⟩ := h.published
  rw [hcalls] at hpub
  simp at hpub

end MarketingSuite.Social.Refresh
