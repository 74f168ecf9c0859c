import MarketingSuite.Base.Payloads
import MarketingSuite.Repositories.Base

/-! # The sync engine

`SyncEngine.execute_sync_job` of `app/integrations/sync/engine.py`, with what it calls of
`app/integrations/oauth`, `app/integrations/secrets/service.py` and `app/integrations/registry.py`.
Every provider's branch reads the accounts off the result and upserts them one by one. What lies
outside the program (the provider behind a connector, Fernet, Python's `str` and `lower`, and the
ids and the time that new rows get) is an `Env`. -/

namespace MarketingSuite.Sync.Engine

open MarketingSuite.Lib.Programs MarketingSuite.Lib.Tables
open MarketingSuite.Base.Values MarketingSuite.Base.Models MarketingSuite.Base.Schema
open MarketingSuite.Base.Payloads MarketingSuite.Repositories.Base

/-- The world around a sync. A token is encrypted anew at every call: `encrypt k` is the `k`-th
call. `connector provider token sync_type` is the outcome of `connector.sync`, `uuid a` the id that
a new row for the account `a` gets, `zone` how far the server's local time is ahead of UTC. -/
structure Env where
  encrypt : ℕ → String → String
  decrypt : String → Option String
  lower : String → String
  strOf : Json → String
  textOf : Exc → String
  connector : String → Option String → Json → Except Exc Dict
  uuid : String → Uuid
  now : Time
  zone : Time := 0

variable (env : Env)

/-! ### Secrets and connections -/

/-- `SecretService.encrypt_token`. -/
def encryptToken (k : ℕ) (token : String) : String :=
  if token = "" then token else env.encrypt k token

/-- `SecretService.decrypt_token`, which gives a token back that it cannot decrypt. -/
def decryptToken (token : String) : String :=
  if token = "" then token else (env.decrypt token).getD token

/-- `IntegrationConnectionRepository.get_by_workspace_and_provider`, of a provider that is null or a
text. -/
def getByWorkspaceAndProvider (workspaceId : Uuid) (provider : Option String) :
    Svc (Option IntegrationConnection) := do
  let rows ← selectAll fun c : IntegrationConnection =>
    c.workspaceId = workspaceId && some c.provider = provider
  pure rows.head?

/-- The names in `ConnectorRegistry`. -/
def registered : List String :=
  ["mock", "linkedin", "facebook", "instagram", "google", "slack", "twitter"]

/-- `IntegrationService.get_connector_instance`: the `sync` of the connector. -/
def getConnectorInstance (connection : IntegrationConnection) :
    Except Exc (Json → Except Exc Dict) :=
  let provider := env.lower connection.provider
  if env.lower provider ∈ registered then
    .ok (env.connector provider (connection.accessToken.map (decryptToken env)))
  else .error (.valueError ("No connector registered for provider: " ++ provider))

/-! ### The upsert of an account -/

/-- What a branch of the sync says about an account. -/
structure AccountData where
  accountId : String
  name : String
  accessToken : String
deriving DecidableEq, Repr

/-- The refresh token and the expiry, in the branches that write them. -/
abbrev Refresh : Type := Option (Option String × Option DateTime)

/-- The fields that an update of `existing` sets. -/
def AccountData.write (refresh : Refresh) (a : AccountData) (existing : SocialAccount) :
    SocialAccount :=
  { existing with
    name := a.name
    accessToken := a.accessToken
    refreshToken := match refresh with
      | none => existing.refreshToken
      | some (token, _) => token
    expiresAt := match refresh with
      | none => existing.expiresAt
      | some (_, expiresAt) => expiresAt
    isActive := true }

/-- A new row for an account, with the defaults of the columns. -/
def blank (workspaceId : Uuid) (provider : ApiProvider) (accountId : String) : SocialAccount where
  id := env.uuid accountId
  workspaceId := workspaceId
  provider := provider
  accountId := accountId
  name := ""
  accessToken := ""
  refreshToken := none
  expiresAt := none
  isActive := true
  createdAt := env.now
  deletedAt := none

/-- The filters of `get_all`. -/
def ofAccount (workspaceId : Uuid) (provider : ApiProvider) (accountId : String)
    (r : SocialAccount) : Bool :=
  r.workspaceId = workspaceId && r.provider = provider && r.accountId = accountId

/-- Find the account, and update it or create it. -/
def upsertAccount (workspaceId : Uuid) (provider : ApiProvider) (refresh : Refresh)
    (a : AccountData) : Svc Unit := do
  let existingAccounts ← getAll (ofAccount workspaceId provider a.accountId) SocialAccount.createdAt
  match existingAccounts.head? with
  | some existing => do
    let _ ← update existing.id (a.write refresh)
    pure ()
  | none => do
    let _ ← create (a.write refresh (blank env workspaceId provider a.accountId))
    pure ()

/-- One round of a loop over a result: read the account, if there is one, and upsert it. -/
def saveAccount (workspaceId : Uuid) (provider : ApiProvider) (refresh : Refresh)
    (read : Except Exc (Option AccountData)) : Svc Unit :=
  match read with
  | .error e => Prog.raise e
  | .ok none => pure ()
  | .ok (some a) => upsertAccount env workspaceId provider refresh a

/-! ### What the branches read -/

/-- An entry with an id, a name and a token of its own: no token, no account. -/
def ofEntry (k : ℕ) (entry : Json) (token : Json) (name : Except Exc Json) :
    Except Exc (Option AccountData) := do
  if isTruthy token = false then
    return none
  let id ← subscript entry "id"
  let accountId ← bindText env.strOf id
  let accessToken ← match asStr env.strOf token with
    | some t => .ok (encryptToken env k t)
    | none => .error .attributeError
  let name ← name
  let accountId ← match accountId with
    | some a => .ok a
    | none => .error .integrity
  let name ← storeText env.strOf name
  return some ⟨accountId, name, accessToken⟩

/-- A page of Facebook. -/
def pageAccount (page : Json) (k : ℕ) : Except Exc (Option AccountData) := do
  let token ← get page "access_token" .null
  ofEntry env k page token (subscript page "name")

/-- An account of Instagram. -/
def instagramAccount (profile : Json) (k : ℕ) : Except Exc (Option AccountData) := do
  let token ← get profile "page_access_token" .null
  ofEntry env k profile token do
    let username ← get profile "username" .null
    let name ← get profile "name" .null
    return either (either username name) (.str "Unknown")

/-- The profile of LinkedIn. -/
def linkedinAccount (connection : IntegrationConnection) (profile : Json) :
    Except Exc (Option AccountData) := do
  let sub ← get profile "sub" .null
  if isTruthy sub = false then
    return none
  match connection.accessToken with
  | none => return none
  | some token =>
    if token = "" then
      return none
    let encryptedToken := encryptToken env 0 (decryptToken env token)
    let first ← get profile "localizedFirstName" (.str "")
    let last ← get profile "localizedLastName" (.str "")
    let accountName := strip (env.strOf first ++ " " ++ env.strOf last)
    return some ⟨"urn:li:person:" ++ env.strOf sub, orElse (some accountName) "LinkedIn Member",
      encryptedToken⟩

/-- The encrypted refresh token and the expiry that the accounts of a connection get. -/
def refreshOf (connection : IntegrationConnection) : Refresh :=
  let token := match connection.refreshToken with
    | none => none
    | some token => if token = "" then none else some (encryptToken env 1 (decryptToken env token))
  some (token, connection.expiresAt.map (DateTime.storedIn env.zone))

/-- The profile of Twitter. -/
def twitterAccount (connection : IntegrationConnection) (profile : Json) :
    Except Exc (Option AccountData) := do
  let id ← get profile "id" .null
  if isTruthy id = false then
    return none
  match connection.accessToken with
  | none => return none
  | some token =>
    if token = "" then
      return none
    let encryptedToken := encryptToken env 0 (decryptToken env token)
    let username ← get profile "username" .null
    let name ← get profile "name" .null
    let accountName ← storeText env.strOf (either (either username name) (.str "X Member"))
    return some ⟨env.strOf id, accountName, encryptedToken⟩

/-- A location of a business account of Google. -/
def locationAccount (encryptedToken : String) (accountData location : Json) :
    Except Exc (Option AccountData) := do
  let locationId ← get location "location_id" .null
  let name ← get location "location_name" .null
  let locationName := either name (.str "GBP Location")
  if isTruthy locationId = false then
    return none
  let accountId ← subscript accountData "account_id"
  let name ← storeText env.strOf locationName
  return some ⟨"accounts/" ++ env.strOf accountId ++ "/locations/" ++ env.strOf locationId, name,
    encryptedToken⟩

/-! ### The branches -/

section Branches

variable (workspaceId : Uuid) (connection : IntegrationConnection)

/-- Bridge of the Facebook pages. -/
def savePages (pages : Json) : Svc Unit := do
  let pages ← Prog.ofExcept (iterate env.strOf pages)
  Prog.forEach (fun p => saveAccount env workspaceId .meta none (pageAccount env p.1 p.2))
    pages.zipIdx

/-- Bridge of the Instagram accounts. -/
def saveInstagramAccounts (profiles : Json) : Svc Unit := do
  let profiles ← Prog.ofExcept (iterate env.strOf profiles)
  Prog.forEach (fun p => saveAccount env workspaceId .instagram none (instagramAccount env p.1 p.2))
    profiles.zipIdx

/-- Bridge of the LinkedIn profile. -/
def saveLinkedinProfile (profile : Json) : Svc Unit :=
  saveAccount env workspaceId .linkedin none (linkedinAccount env connection profile)

/-- Bridge of the Twitter profile. -/
def saveTwitterProfile (profile : Json) : Svc Unit :=
  saveAccount env workspaceId .twitter (refreshOf env connection)
    (twitterAccount env connection profile)

/-- The locations of a business account. -/
def saveLocations (encryptedToken : String) (accountData : Json) : Svc Unit := do
  let locations ← Prog.ofExcept (get accountData "locations" (.arr []))
  let locations ← Prog.ofExcept (iterate env.strOf locations)
  Prog.forEach (fun location => saveAccount env workspaceId .google (refreshOf env connection)
    (locationAccount env encryptedToken accountData location)) locations

/-- Bridge of the Google business accounts. -/
def saveBusinessAccounts (businessAccounts : Json) : Svc Unit :=
  match connection.accessToken with
  | none => pure ()
  | some token =>
    if token = "" then pure ()
    else do
      let encryptedToken := encryptToken env 0 (decryptToken env token)
      let accounts ← Prog.ofExcept (iterate env.strOf businessAccounts)
      Prog.forEach (saveLocations env workspaceId connection encryptedToken) accounts

/-- A bridge runs if the result has its key. -/
def bridge (result : Dict) (key : String) (save : Json → Svc Unit) : Svc Unit :=
  match result.lookup key with
  | some value => save value
  | none => pure ()

/-- The bridge that the provider and the keys of the result select. -/
def persist (result : Dict) : Svc Unit :=
  if connection.provider = "facebook" then bridge result "pages" (savePages env workspaceId)
  else if connection.provider = "instagram" then
    bridge result "instagram_accounts" (saveInstagramAccounts env workspaceId)
  else if connection.provider = "linkedin" then
    bridge result "profile" (saveLinkedinProfile env workspaceId connection)
  else if connection.provider = "twitter" then
    bridge result "profile" (saveTwitterProfile env workspaceId connection)
  else if connection.provider = "google" then
    bridge result "business_accounts" (saveBusinessAccounts env workspaceId connection)
  else pure ()

end Branches

/-- `SyncEngine.execute_sync_job`. -/
def executeSyncJob (payload : Dict) : Svc Dict := do
  let workspaceId ← Prog.ofExcept (item payload "workspace_id")
  let workspaceId ← Prog.ofExcept (uuidOf workspaceId)
  let provider ← Prog.ofExcept (item payload "provider")
  let syncType := (payload.lookup "sync_type").getD (.str "full")
  let provider ← Prog.ofExcept (bindText env.strOf provider)
  let found ← getByWorkspaceAndProvider workspaceId provider
  let connection ← orRaise found (.raised "Connection lost before sync could execute.")
  let sync ← Prog.ofExcept (getConnectorInstance env connection)
  match sync syncType with
  | .ok result => do
    persist env workspaceId connection result
    pure result
  | .error (.oauthToken text) => do
    let _ ← update connection.id fun c : IntegrationConnection => { c with status := .expired }
    Prog.raise (.oauthToken text)
  | .error e => Prog.raise e

end MarketingSuite.Sync.Engine
