import MarketingSuite.Base.Payloads
import MarketingSuite.Integrations.Service

/-! # The connectors

The `connect` of the connectors in `ConnectorRegistry`, with the OAuth handlers and sync engines
under `app/integrations/connectors`, the retry policy and the circuit breaker that stand between
them and `connect_provider`, and `connect_provider` over both. What the providers answer is a
parameter, one for each attempt. -/

namespace MarketingSuite.Integrations.Connectors

open MarketingSuite.Lib.Programs
open MarketingSuite.Base.Values MarketingSuite.Base.Models MarketingSuite.Base.Schema
open MarketingSuite.Base.Payloads MarketingSuite.Repositories.Base
open MarketingSuite.Sync.Engine (decryptToken)
open MarketingSuite.Integrations.Service (Tokens saveConnection refusal)

/-! ### What the providers answer -/

/-- The answer of an endpoint: a body that the code accepts, a body that makes it raise, or a
status other than 200. `oauthException` says that the type of the error in the body is
`OAuthException`. -/
inductive Response (α : Type)
  | ok (body : α)
  | raises (e : Exc)
  | refused (status : ℕ) (text : String) (oauthException : Bool)

/-- The body, where what is raised for another status depends on the status and the text. -/
def Response.read {α : Type} (refuse : ℕ → String → Bool → Exc) : Response α → Except Exc α
  | .ok body => .ok body
  | .raises e => .error e
  | .refused status text oauthException => .error (refuse status text oauthException)

/-- A token. OAuth has no empty ones. -/
abbrev Token : Type := {s : String // s ≠ ""}

/-- `GoogleTokenResponse`, `LinkedInTokenResponse` and `TwitterTokenResponse`. -/
structure TokenResponse where
  accessToken : Token
  refreshToken : Option Token
  expiresIn : ℤ

/-- `FacebookTokenResponse` and `InstagramTokenResponse`. -/
structure LongLivedToken where
  accessToken : Token
  expiresIn : Option ℤ

/-- `FacebookPageWithInstagram`. -/
structure InstagramPage where
  id : String
  accessToken : String
  instagramBusinessAccount : Option (List (String × String))

/-- The body of Slack's answer, if it says `ok`, or its `error`. -/
inductive SlackBody
  | ok (accessToken : Token) (botUserId teamName : String)
  | failed (error : Option String)

/-- The random parts of a mock token. -/
structure MockDraws where
  access : String
  refresh : String

/-- The endpoints of Google and of LinkedIn. -/
structure TokenApi where
  exchangeCode : String → Response TokenResponse
  fetchProfile : String → Response Dict

/-- The endpoints of Twitter, which takes the verifier. -/
structure TwitterApi where
  exchangeCode : String → String → Response TokenResponse
  fetchProfile : String → Response Dict

/-- The endpoints of the Graph API: those for tokens, and for the profile. -/
structure FacebookApi where
  exchangeCode : String → Response (Option String)
  exchangeForLongLivedToken : String → Response LongLivedToken
  fetchProfile : String → Response Dict

/-- The same for Instagram, with the pages and the profile of an account. -/
structure InstagramApi where
  exchangeCode : String → Response (Option String)
  exchangeForLongLivedToken : String → Response LongLivedToken
  fetchPages : String → Response (List InstagramPage)
  fetchProfile : String → String → Response Dict

/-- The connector classes. -/
inductive ConnectorClass
  | mock | linkedin | facebook | instagram | google | slack | twitter
deriving DecidableEq, Repr

/-- What a connector talks to. -/
def Api : ConnectorClass → Type
  | .mock => MockDraws
  | .linkedin => TokenApi
  | .facebook => FacebookApi
  | .instagram => InstagramApi
  | .google => TokenApi
  | .slack => String → Response SlackBody
  | .twitter => TwitterApi

/-! ### The connectors -/

/-- What `connect` returns; `info` is what stays for `metadata_info`. -/
structure Metadata where
  accessToken : Option String
  refreshToken : Option String
  expiresAt : Option DateTime
  info : Dict

/-- What `connect_provider` takes out of it. -/
def Metadata.tokens (m : Metadata) : Tokens := ⟨m.accessToken, m.refreshToken, m.expiresAt⟩

/-- The instants that a `datetime` can be. -/
def isDatetime (t : Time) : Bool := -62135596800000000 ≤ t && t ≤ 253402300799999999

/-- `datetime.now(timezone.utc) + timedelta(seconds=expires_in)`. -/
def expiry (now : Time) (expiresIn : ℤ) : Except Exc DateTime :=
  let t := now + seconds expiresIn
  if isDatetime t = true then .ok ⟨t, true⟩ else .error (.raised "date value out of range")

/-- An `IntegrationError` with the text of the response. -/
def withText (message : String) (_ : ℕ) (text : String) (_ : Bool) : Exc :=
  .integration (message ++ text)

/-- What the Graph API raises for a request with a token. -/
def graphError (expired what : String) (status : ℕ) (_ : String) (oauthException : Bool) : Exc :=
  if (status = 400 ∨ status = 401) ∧ oauthException = true then .oauthToken expired
  else .integration ("Failed to fetch " ++ what ++ " (Status: " ++ toString status ++ ")")

/-- `profile_data.get(key, default)`. -/
def field (profile : Dict) (key : String) (default : Json) : Json :=
  (profile.lookup key).getD default

/-- `MockConnector.connect`. -/
def MockConnector.connect (now : Time) (draws : MockDraws) (authCode : String) :
    Except Exc Metadata :=
  if authCode = "invalid_code" then .error (.valueError "Invalid auth code")
  else .ok
    { accessToken := some ("mock_access_" ++ draws.access)
      refreshToken := some ("mock_refresh_" ++ draws.refresh)
      expiresAt := some ⟨now + seconds 3600, true⟩
      info := [("mock_account_id", .str "acc_12345")] }

/-- `GoogleConnector.connect`. -/
def GoogleConnector.connect (now : Time) (api : TokenApi) (authCode : String) :
    Except Exc Metadata := do
  let token ← (api.exchangeCode authCode).read (withText "Failed to exchange code: ")
  let expiresAt ← expiry now token.expiresIn
  let profile ← (api.fetchProfile token.accessToken).read (withText "Failed to fetch profile: ")
  return {
    accessToken := some token.accessToken
    refreshToken := token.refreshToken.map (·.val)
    expiresAt := some expiresAt
    info := [("author_id", field profile "id" .null), ("profile_name", field profile "email" (.str ""))] }

/-- `LinkedInConnector.connect`. -/
def LinkedInConnector.connect (strOf : Json → String) (now : Time) (api : TokenApi)
    (authCode : String) : Except Exc Metadata := do
  let token ← (api.exchangeCode authCode).read (withText "Failed to exchange code: ")
  let expiresAt ← expiry now token.expiresIn
  let profile ← (api.fetchProfile token.accessToken).read (withText "Failed to fetch profile: ")
  let sub := field profile "sub" .null
  if isTruthy sub = false then
    .error (.integration "LinkedIn profile response is missing the required 'sub' identifier.")
  else
    let first := strOf (field profile "localizedFirstName" (.str ""))
    let last := strOf (field profile "localizedLastName" (.str ""))
    return {
      accessToken := some token.accessToken
      refreshToken := token.refreshToken.map (·.val)
      expiresAt := some expiresAt
      info := [("author_urn", .str ("urn:li:person:" ++ strOf sub)),
        ("profile_name", .str (strip (first ++ " " ++ last)))] }

/-- `token_response.expires_in or (60 * 24 * 3600)`. -/
def LongLivedToken.lifetime (token : LongLivedToken) : ℤ :=
  match token.expiresIn with
  | none => 60 * 24 * 3600
  | some n => if n = 0 then 60 * 24 * 3600 else n

/-- `exchange_code` of Facebook and of Instagram: a short-lived token, then a long-lived one. -/
def exchangeLongLived (now : Time) (exchangeCode : String → Response (Option String))
    (exchangeForLongLivedToken : String → Response LongLivedToken) (authCode : String) :
    Except Exc (Token × DateTime) := do
  let shortLived ← (exchangeCode authCode).read (withText "Failed to exchange code: ")
  if truthy shortLived = false then
    .error (.integration "Access token missing from exchange response.")
  else
    let token ← (exchangeForLongLivedToken (shortLived.getD "")).read
      (withText "Failed to get long-lived token: ")
    let expiresAt ← expiry now token.lifetime
    return (token.accessToken, expiresAt)

/-- `FacebookConnector.connect`. -/
def FacebookConnector.connect (now : Time) (api : FacebookApi) (authCode : String) :
    Except Exc Metadata := do
  let (accessToken, expiresAt) ←
    exchangeLongLived now api.exchangeCode api.exchangeForLongLivedToken authCode
  let profile ← (api.fetchProfile accessToken).read
    (graphError "Facebook access token is invalid or expired." "profile")
  return {
    accessToken := some accessToken
    refreshToken := none
    expiresAt := some expiresAt
    info := [("author_id", field profile "id" .null), ("profile_name", field profile "name" (.str ""))] }

/-- `InstagramSyncEngine.perform_sync`: the profiles of the accounts that the pages are linked to. -/
def performSync (api : InstagramApi) (accessToken : String) : List InstagramPage → Except Exc (List Dict)
  | [] => .ok []
  | page :: pages =>
    match page.instagramBusinessAccount with
    | none => performSync api accessToken pages
    | some account =>
      match account.lookup "id" with
      | none => .error (.keyError "id")
      | some igId => do
        let profile ← (api.fetchProfile accessToken igId).read
          (graphError "Instagram/Facebook access token is invalid or expired." "IG profile")
        let rest ← performSync api accessToken pages
        return setItem "page_access_token" (.str page.accessToken)
          (setItem "linked_page_id" (.str page.id) profile) :: rest

/-- `InstagramConnector.connect`. -/
def InstagramConnector.connect (now : Time) (api : InstagramApi) (authCode : String) :
    Except Exc Metadata := do
  let (accessToken, expiresAt) ←
    exchangeLongLived now api.exchangeCode api.exchangeForLongLivedToken authCode
  let pages ← (api.fetchPages accessToken).read
    (graphError "Instagram/Facebook access token is invalid or expired." "pages")
  let profiles ← performSync api accessToken pages
  let primary := profiles.head?.getD []
  return {
    accessToken := some accessToken
    refreshToken := none
    expiresAt := some expiresAt
    info := [("author_id", field primary "id" .null), ("profile_name",
      either (either (field primary "username" .null) (field primary "name" .null)) (.str ""))] }

/-- `SlackConnector.connect`. -/
def SlackConnector.connect (exchangeCode : String → Response SlackBody) (authCode : String) :
    Except Exc Metadata := do
  let body ← (exchangeCode authCode).read fun status _ _ =>
    .integration ("HTTP error during code exchange: " ++ toString status)
  match body with
  | .failed error =>
    .error (.integration ("Slack OAuth failed: " ++ error.getD "Unknown Slack OAuth Error"))
  | .ok accessToken botUserId teamName =>
    return {
      accessToken := some accessToken
      refreshToken := none
      expiresAt := none
      info := [("author_id", .str botUserId), ("profile_name", .str teamName)] }

/-- `TwitterConnector.connect`. -/
def TwitterConnector.connect (textOf : Exc → String) (now : Time) (api : TwitterApi)
    (authCode : String) (codeVerifier : Option String) : Except Exc Metadata :=
  if truthy codeVerifier = false then
    .error (.integration
      "code_verifier is strictly required for X/Twitter OAuth 2.0 PKCE token exchange.")
  else do
    let token ← (api.exchangeCode authCode (codeVerifier.getD "")).read
      (withText "Failed to exchange code: ")
    let expiresAt ← expiry now token.expiresIn
    match (api.fetchProfile token.accessToken).read (withText "Failed to fetch user profile: ") with
    | .error e =>
      .error (.integration ("Token exchange succeeded but profile fetch failed: " ++ textOf e))
    | .ok profile =>
      return {
        accessToken := some token.accessToken
        refreshToken := token.refreshToken.map (·.val)
        expiresAt := some expiresAt
        info := [("metadata", .obj profile)] }

/-- What a connector needs besides its endpoints: `str`, `str` on exceptions, and the clock. -/
structure Ambient where
  strOf : Json → String
  textOf : Exc → String
  now : Time

/-- The body of the `connect` of a class. -/
def connect (a : Ambient) (c : ConnectorClass) (api : Api c) (authCode : String)
    (codeVerifier : Option String) : Except Exc Metadata :=
  match c, api with
  | .mock, draws => MockConnector.connect a.now draws authCode
  | .linkedin, api => LinkedInConnector.connect a.strOf a.now api authCode
  | .facebook, api => FacebookConnector.connect a.now api authCode
  | .instagram, api => InstagramConnector.connect a.now api authCode
  | .google, api => GoogleConnector.connect a.now api authCode
  | .slack, exchangeCode => SlackConnector.connect exchangeCode authCode
  | .twitter, api => TwitterConnector.connect a.textOf a.now api authCode codeVerifier

/-- The parameters that the `connect` of a class declares. -/
def connectParams : ConnectorClass → List String
  | .google => ["auth_code"]
  | _ => ["auth_code", "code_verifier"]

/-- `connector.connect(auth_code, code_verifier=code_verifier)`. -/
def callConnect (a : Ambient) (c : ConnectorClass) (api : Api c) (authCode : String)
    (codeVerifier : Option String) : Except Exc Metadata :=
  if "code_verifier" ∈ connectParams c then connect a c api authCode codeVerifier
  else .error .typeError

/-! ### The retry policy -/

/-- What a call through a circuit breaker raises: `CircuitBreakerOpenError`, or what the function
raised. -/
inductive Failure
  | circuitOpen
  | raised (e : Exc)

/-- The exception that leaves `_connect`. -/
def Failure.exc : Failure → Exc
  | .circuitOpen => .integration "Circuit breaker is OPEN. Try again after 60 seconds."
  | .raised e => e

section Retries

variable {σ α : Type}

/-- The attempts from the `k`-th one on, with so many retries left. -/
def attemptsFrom (f : ℕ → Prog σ Failure α) : ℕ → ℕ → Prog σ Failure α
  | 0, k => f k
  | retries + 1, k => (f k).handle fun
    | .circuitOpen => Prog.raise .circuitOpen
    | .raised _ => attemptsFrom f retries (k + 1)

/-- `retry_policy`: an open breaker is not tried again. -/
def retryPolicy (maxRetries : ℕ) (f : ℕ → Prog σ Failure α) : Prog σ Failure α :=
  attemptsFrom f maxRetries 0

end Retries

/-! ### The circuit breaker -/

inductive CircuitState
  | closed | opened | halfOpen
deriving DecidableEq, Repr

/-- `CircuitBreaker`, with the defaults of its constructor. -/
structure CircuitBreaker where
  state : CircuitState := .closed
  failureCount : ℕ := 0
  lastFailureTime : Time := 0
deriving DecidableEq, Repr

namespace CircuitBreaker

/-- `failure_threshold`. -/
def failureThreshold : ℕ := 5

/-- `recovery_timeout`. -/
def recoveryTimeout : Time := seconds 60

/-- The property `state`, which may move to HALF_OPEN. -/
def current (now : Time) (b : CircuitBreaker) : CircuitBreaker :=
  if b.state = .opened ∧ recoveryTimeout ≤ now - b.lastFailureTime then { b with state := .halfOpen }
  else b

/-- `record_failure`. -/
def recordFailure (now : Time) (b : CircuitBreaker) : CircuitBreaker where
  state := if b.state = .halfOpen ∨ failureThreshold ≤ b.failureCount + 1 then .opened else b.state
  failureCount := b.failureCount + 1
  lastFailureTime := now

/-- `record_success`. -/
def recordSuccess (b : CircuitBreaker) : CircuitBreaker :=
  { b with state := .closed, failureCount := 0 }

/-- `call`, of a function with this outcome. `start` and `finish` are the two readings of the clock.
-/
def call {α : Type} (start finish : Time) (outcome : Except Exc α) :
    Prog CircuitBreaker Failure α := fun b =>
  let b := b.current start
  if b.state = .opened then (.error .circuitOpen, b)
  else match outcome with
    | .ok a => (.ok a, b.recordSuccess)
    | .error e => (.error (.raised e), b.recordFailure finish)

end CircuitBreaker

/-! ### Connecting -/

/-- The process and its database. -/
structure World where
  db : Database
  breakers : String → CircuitBreaker

/-- The world around the service: the environment variables, `str.upper`, the providers at each
attempt, and the readings of the clock before, in and after it. -/
structure Env extends toEngine : Sync.Engine.Env where
  upper : String → String
  environ : String → Option String
  api : (c : ConnectorClass) → ℕ → Api c
  before : ℕ → Time
  during : ℕ → Time
  after : ℕ → Time

/-- The result of `get_provider_credentials`. -/
structure Credentials where
  clientId : String
  clientSecret : String
deriving DecidableEq

/-- `SecretService.get_provider_credentials`. -/
def getProviderCredentials (env : Env) (provider : String) : Credentials where
  clientId := (env.environ (env.upper provider ++ "_CLIENT_ID")).getD ""
  clientSecret := (env.environ (env.upper provider ++ "_CLIENT_SECRET")).getD ""

/-- A connector. -/
structure Connector where
  cls : ConnectorClass
  credentials : Credentials
  accessToken : Option String
deriving DecidableEq

/-- `ConnectorRegistry._registry`. -/
def registry : List (String × ConnectorClass) :=
  [("mock", .mock), ("linkedin", .linkedin), ("facebook", .facebook), ("instagram", .instagram),
    ("google", .google), ("slack", .slack), ("twitter", .twitter)]

/-- `ConnectorRegistry.get_connector`. -/
def getConnector (env : Env) (providerName : String) : Except Exc ConnectorClass :=
  match registry.lookup (env.lower providerName) with
  | some c => .ok c
  | none => .error (.valueError ("No connector registered for provider: " ++ providerName))

/-- `ConnectorFactory.create`. -/
def createConnector (env : Env) (providerName : String) (credentials : Credentials)
    (accessToken : Option String) : Except Exc Connector := do
  let cls ← getConnector env providerName
  return ⟨cls, credentials, accessToken⟩

/-- `IntegrationService.get_connector_instance`. -/
def getConnectorInstance (env : Env) (connection : IntegrationConnection) : Except Exc Connector :=
  let provider := env.lower connection.provider
  let credentials := getProviderCredentials env provider
  createConnector env provider credentials
    (connection.accessToken.map (decryptToken env.toEngine))

/-- The world with another breaker for a provider. -/
def World.setBreaker (w : World) (provider : String) (b : CircuitBreaker) : World :=
  { w with breakers := fun name => if name = provider then b else w.breakers name }

/-- Run a program on the breaker of a provider. -/
def onBreaker {α : Type} (provider : String) (p : Prog CircuitBreaker Failure α) :
    Prog World Exc α := fun w =>
  ((p (w.breakers provider)).1.mapError Failure.exc,
    w.setBreaker provider (p (w.breakers provider)).2)

/-- Run a program on the database. -/
def onDatabase {α : Type} (p : Svc α) : Prog World Exc α :=
  Prog.focus World.db (fun w db => { w with db := db }) p

/-- `_connect`: each attempt goes through the breaker. -/
def connectThrough (env : Env) (connector : Connector) (authCode : String)
    (codeVerifier : Option String) : Prog CircuitBreaker Failure Metadata :=
  retryPolicy 2 fun k => CircuitBreaker.call (env.before k) (env.after k)
    (callConnect ⟨env.strOf, env.textOf, env.during k⟩ connector.cls (env.api connector.cls k)
      authCode codeVerifier)

/-- `IntegrationService.connect_provider`. -/
def connectProvider (env : Env) (d : Draws) (workspaceId : Uuid) (provider authCode : String)
    (codeVerifier : Option String) : Prog World Exc IntegrationConnection := do
  let provider := env.lower provider
  let credentials := getProviderCredentials env provider
  let connector ← Prog.ofExcept (createConnector env provider credentials none)
  (do
    let metadata ← onBreaker provider (connectThrough env connector authCode codeVerifier)
    onDatabase (saveConnection env.toEngine d workspaceId provider metadata.tokens)).handle
      fun e => Prog.raise (refusal env.toEngine e)

/-! ### What a connector returns -/

/-- The tokens that a provider grants. -/
structure Granted where
  accessToken : Token
  refreshToken : Option Token

/-- A token answer that a date can come of. -/
def GrantsToken (now : Time) (answer : Response TokenResponse) (profile : Token → Response Dict)
    (accept : Dict → Prop) (g : Granted) : Prop :=
  ∃ token body, answer = .ok token ∧ isDatetime (now + seconds token.expiresIn) = true ∧
    profile token.accessToken = .ok body ∧ accept body ∧ g = ⟨token.accessToken, token.refreshToken⟩

/-- The two token answers of the Graph API. -/
def GrantsLongLived (now : Time) (first : Response (Option String))
    (second : String → Response LongLivedToken) (g : Granted) : Prop :=
  ∃ shortLived token, first = .ok (some shortLived) ∧ shortLived ≠ "" ∧
    second shortLived = .ok token ∧ isDatetime (now + seconds token.lifetime) = true ∧
    g = ⟨token.accessToken, none⟩

/-- **The provider goes through with the flow**: its answers are successful, and it grants these
tokens. The mock refuses one code, and Twitter is asked with a verifier only; LinkedIn's profile has
a subject, and every account that a page is linked to for Instagram an id and a profile. -/
def Grants (now : Time) (c : ConnectorClass) (api : Api c) (authCode : String)
    (codeVerifier : Option String) (g : Granted) : Prop :=
  match c, api with
  | .mock, draws => authCode ≠ "invalid_code" ∧
      g.accessToken.val = "mock_access_" ++ draws.access ∧
      g.refreshToken.map (·.val) = some ("mock_refresh_" ++ draws.refresh)
  | .linkedin, api => GrantsToken now (api.exchangeCode authCode) (fun t => api.fetchProfile t)
      (fun profile => isTruthy (field profile "sub" .null) = true) g
  | .facebook, api =>
    GrantsLongLived now (api.exchangeCode authCode) api.exchangeForLongLivedToken g ∧
      ∃ profile, api.fetchProfile g.accessToken = .ok profile
  | .instagram, api =>
    GrantsLongLived now (api.exchangeCode authCode) api.exchangeForLongLivedToken g ∧
      ∃ pages, api.fetchPages g.accessToken = .ok pages ∧
        ∀ page ∈ pages, ∀ account, page.instagramBusinessAccount = some account →
          ∃ igId profile, account.lookup "id" = some igId ∧
            api.fetchProfile g.accessToken igId = .ok profile
  | .google, api => GrantsToken now (api.exchangeCode authCode) (fun t => api.fetchProfile t)
      (fun _ => True) g
  | .slack, exchangeCode => ∃ botUserId teamName,
      exchangeCode authCode = .ok (.ok g.accessToken botUserId teamName) ∧ g.refreshToken = none
  | .twitter, api => truthy codeVerifier = true ∧
    GrantsToken now (api.exchangeCode authCode (codeVerifier.getD "")) (fun t => api.fetchProfile t)
      (fun _ => True) g

variable {a : Ambient} {c : ConnectorClass} {api : Api c} {authCode : String} {now : Time}
  {codeVerifier : Option String} {g : Granted} {m : Metadata}

/-- The tokens in what `connect` returned are the granted ones. -/
def Metadata.Carries (m : Metadata) (g : Granted) : Prop :=
  m.accessToken = some g.accessToken.val ∧ m.refreshToken = g.refreshToken.map (·.val)

theorem expiry_eq_ok {n : ℤ} (h : isDatetime (now + seconds n) = true) :
    expiry now n = .ok ⟨now + seconds n, true⟩ := if_pos h

theorem exchangeLongLived_of_grants {first : String → Response (Option String)}
    {second : String → Response LongLivedToken}
    (h : GrantsLongLived now (first authCode) second g) :
    ∃ expiresAt, exchangeLongLived now first second authCode = .ok (g.accessToken, expiresAt) ∧
      g.refreshToken = none := by
  obtain ⟨shortLived, token, hfirst, hne, hsecond, hdate, rfl⟩ := h
  have hgiven : truthy (some shortLived) = true := by simpa [truthy] using hne
  refine ⟨⟨now + seconds token.lifetime, true⟩, ?_, rfl⟩
  simp only [exchangeLongLived, hfirst, Response.read, Prog.ok_bind, hgiven, Option.getD_some,
    hsecond, expiry_eq_ok hdate]
  rfl

theorem performSync_of_grants {api : InstagramApi} {accessToken : String}
    {pages : List InstagramPage}
    (h : ∀ page ∈ pages, ∀ account, page.instagramBusinessAccount = some account →
      ∃ igId profile, account.lookup "id" = some igId ∧
        api.fetchProfile accessToken igId = .ok profile) :
    ∃ profiles, performSync api accessToken pages = .ok profiles := by
  induction pages with
  | nil => exact ⟨[], rfl⟩
  | cons page pages ih =>
    obtain ⟨rest, hrest⟩ := ih fun q hq => h q (List.mem_cons_of_mem _ hq)
    rcases haccount : page.instagramBusinessAccount with _ | account
    · exact ⟨rest, by simp only [performSync, haccount, hrest]⟩
    · obtain ⟨igId, profile, hid, hprofile⟩ := h page (by simp) account haccount
      simp only [performSync, haccount, hid, hprofile, Response.read, Prog.ok_bind, hrest]
      exact ⟨_, rfl⟩

/-- **A connector that takes a verifier returns the granted tokens.** -/
theorem callConnect_of_grants (hgrants : Grants a.now c api authCode codeVerifier g)
    (hgoogle : c ≠ .google) :
    ∃ m, callConnect a c api authCode codeVerifier = .ok m ∧ m.Carries g := by
  have hcall : callConnect a c api authCode codeVerifier = connect a c api authCode codeVerifier := by
    refine if_pos ?_
    cases c with
    | google => exact absurd rfl hgoogle
    | _ => decide
  rw [hcall]
  cases c with
  | mock =>
    obtain ⟨hcode, haccess, hrefresh⟩ := hgrants
    exact ⟨_, if_neg hcode, congrArg some haccess.symm, hrefresh.symm⟩
  | linkedin =>
    obtain ⟨token, profile, hexchange, hdate, hprofile, hsub, rfl⟩ := hgrants
    simp only [connect, LinkedInConnector.connect, hexchange, Response.read, Prog.ok_bind,
      expiry_eq_ok hdate, hprofile, hsub]
    exact ⟨_, rfl, rfl, rfl⟩
  | facebook =>
    obtain ⟨hlong, profile, hprofile⟩ := hgrants
    obtain ⟨expiresAt, hexchange, hnone⟩ := exchangeLongLived_of_grants hlong
    simp only [connect, FacebookConnector.connect, hexchange, Prog.ok_bind, hprofile, Response.read]
    exact ⟨_, rfl, rfl, by rw [hnone]; rfl⟩
  | instagram =>
    obtain ⟨hlong, pages, hpages, haccounts⟩ := hgrants
    obtain ⟨expiresAt, hexchange, hnone⟩ := exchangeLongLived_of_grants hlong
    obtain ⟨profiles, hsync⟩ := performSync_of_grants haccounts
    simp only [connect, InstagramConnector.connect, hexchange, Prog.ok_bind, hpages, Response.read,
      hsync]
    exact ⟨_, rfl, rfl, by rw [hnone]; rfl⟩
  | google => exact absurd rfl hgoogle
  | slack =>
    obtain ⟨botUserId, teamName, hexchange, hnone⟩ := hgrants
    simp only [connect, SlackConnector.connect, hexchange, Response.read, Prog.ok_bind]
    exact ⟨_, rfl, rfl, by rw [hnone]; rfl⟩
  | twitter =>
    obtain ⟨hgiven, token, profile, hexchange, hdate, hprofile, -, rfl⟩ := hgrants
    simp only [connect, TwitterConnector.connect, hgiven, hexchange, Response.read, Prog.ok_bind,
      expiry_eq_ok hdate, hprofile]
    exact ⟨_, rfl, rfl, rfl⟩

/-- **Google's takes none**, so that calling it raises before it asks anybody. -/
theorem callConnect_google {api : Api .google} :
    callConnect a .google api authCode codeVerifier = .error .typeError := rfl

/-! ### Attempts -/

section Attempts

variable {σ α : Type} {f : ℕ → Prog σ Failure α} {s s' : σ} {x : α} {b b' : CircuitBreaker}
  {start finish : Time}

theorem attemptsFrom_returns {k : ℕ} (retries : ℕ) (h : (f k).Returns s x s') :
    (attemptsFrom f retries k).Returns s x s' := by
  cases retries with
  | zero => exact h
  | succ retries => exact Prog.returns_handle.mpr (Or.inl h)

theorem not_attemptsFrom_returns (h : ∀ k s x s', ¬ (f k).Returns s x s') (retries k : ℕ) (s : σ) :
    ¬ (attemptsFrom f retries k).Returns s x s' := by
  induction retries generalizing k s with
  | zero => exact h k s x s'
  | succ retries ih =>
    intro hret
    rcases Prog.returns_handle.mp hret with hone | ⟨e, t, -, hnext⟩
    · exact h k s x s' hone
    · rcases e with _ | e
      · exact Prog.returns_raise.mp hnext
      · exact ih (k + 1) t hnext

theorem call_returns (hclosed : b.state = .closed) :
    (CircuitBreaker.call start finish (.ok x)).Returns b x b.recordSuccess := by
  have hcur : b.current start = b := if_neg (by simp [hclosed])
  simp [Prog.Returns, CircuitBreaker.call, hcur, hclosed]

theorem not_call_returns {e : Exc} :
    ¬ (CircuitBreaker.call start finish (.error e)).Returns b x b' := by
  unfold Prog.Returns CircuitBreaker.call
  dsimp only
  split_ifs
  · simp
  · simp

end Attempts

/-! ### What a connection that returns did -/

variable {env : Env} {d : Draws} {w : Uuid} {provider : String} {world world' : World}
  {connection : IntegrationConnection}

theorem returns_onBreaker {α : Type} {p : Prog CircuitBreaker Failure α} {x : α} :
    (onBreaker provider p).Returns world x world' ↔
      ∃ b, p.Returns (world.breakers provider) x b ∧ world' = world.setBreaker provider b := by
  unfold Prog.Returns onBreaker
  rcases hp : p (world.breakers provider) with ⟨e | y, b⟩
  · simp [Except.mapError]
  · simp only [Except.mapError, Prod.mk.injEq, Except.ok.injEq]
    constructor
    · rintro ⟨rfl, rfl⟩
      exact ⟨b, ⟨rfl, rfl⟩, rfl⟩
    · rintro ⟨_, ⟨rfl, rfl⟩, rfl⟩
      exact ⟨rfl, rfl⟩

theorem returns_onDatabase {α : Type} {p : Svc α} {x : α} :
    (onDatabase p).Returns world x world' ↔
      ∃ db, p.Returns world.db x db ∧ world' = { world with db := db } := by
  unfold Prog.Returns onDatabase Prog.focus
  rcases hp : p world.db with ⟨y, db⟩
  simp only [Prod.mk.injEq]
  constructor
  · rintro ⟨rfl, rfl⟩
    exact ⟨db, ⟨rfl, rfl⟩, rfl⟩
  · rintro ⟨_, ⟨rfl, rfl⟩, rfl⟩
    exact ⟨rfl, rfl⟩

/-- **`connect_provider`** saves the tokens that the connector got through the retry policy and the
breaker of the provider. -/
theorem connectProvider_returns :
    (connectProvider env d w provider authCode codeVerifier).Returns world connection world' ↔
      ∃ connector m b db, createConnector env (env.lower provider)
          (getProviderCredentials env (env.lower provider)) none = .ok connector ∧
        (connectThrough env connector authCode codeVerifier).Returns
          (world.breakers (env.lower provider)) m b ∧
        (saveConnection env.toEngine d w (env.lower provider) m.tokens).Returns world.db
          connection db ∧
        world' = { world.setBreaker (env.lower provider) b with db := db } := by
  unfold connectProvider
  rw [Prog.returns_bind]
  constructor
  · rintro ⟨connector, t, hcreate, htry⟩
    obtain ⟨hconnector, rfl⟩ := Prog.returns_ofExcept.mp hcreate
    rcases Prog.returns_handle.mp htry with hbody | ⟨e, t, -, hraise⟩
    · obtain ⟨m, t, hthrough, hsave⟩ := Prog.returns_bind.mp hbody
      obtain ⟨b, hattempt, rfl⟩ := returns_onBreaker.mp hthrough
      obtain ⟨db, hsaved, rfl⟩ := returns_onDatabase.mp hsave
      exact ⟨connector, m, b, db, hconnector, hattempt, hsaved, rfl⟩
    · exact (Prog.returns_raise.mp hraise).elim
  · rintro ⟨connector, m, b, db, hconnector, hattempt, hsaved, rfl⟩
    refine ⟨connector, world, Prog.returns_ofExcept.mpr ⟨hconnector, rfl⟩, ?_⟩
    refine Prog.returns_handle.mpr (Or.inl (Prog.returns_bind.mpr
      ⟨m, world.setBreaker (env.lower provider) b, ?_, ?_⟩))
    · exact returns_onBreaker.mpr ⟨b, hattempt, rfl⟩
    · exact returns_onDatabase.mpr ⟨db, hsaved, rfl⟩

end MarketingSuite.Integrations.Connectors
