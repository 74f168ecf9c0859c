import MarketingSuite.Integrations.Connectors
import MarketingSuite.Lib.Sessions

/-! # The social providers

`publish_content` of `app/services/social/twitter_provider.py`, `linkedin_provider.py` and
`google_provider.py`, up to the call of the platform: the checks of the input, and the refresh of a
token that expires within five minutes, which is spent at the platform before the new ones are
stored in a session of their own. The state is the database, the account object in memory and what
was asked of the platforms. -/

namespace MarketingSuite.Social.Providers

open MarketingSuite.Lib.Programs MarketingSuite.Lib.Tables MarketingSuite.Lib.Sessions
open MarketingSuite.Base.Values MarketingSuite.Base.Models MarketingSuite.Base.Schema
open MarketingSuite.Repositories.Base
open MarketingSuite.Sync.Engine (encryptToken decryptToken getByWorkspaceAndProvider)
open MarketingSuite.Integrations.Service (strOfExc)
open MarketingSuite.Integrations.Connectors (expiry)

/-- The three platforms. -/
inductive Platform
  | twitter | linkedin | google
deriving DecidableEq, Repr

namespace Platform

/-- The member of `ApiProvider` that the provider of the platform uses. -/
def provider : Platform → ApiProvider
  | twitter => .twitter
  | linkedin => .linkedin
  | google => .google

/-- The platform in messages. -/
def name : Platform → String
  | twitter => "Twitter"
  | linkedin => "LinkedIn"
  | google => "Google"

/-- The platform in the registry of connectors. -/
def key : Platform → String
  | twitter => "twitter"
  | linkedin => "linkedin"
  | google => "google"

end Platform

/-- An asset of a content. -/
structure Asset where
  fileName : String
  assetType : AssetType
  mimeType : String
  fileSize : ℤ
  publicUrl : Option String

/-- The fields of a token endpoint's answer that are used; `expires_in` may be missing, or null. -/
structure TokenResponse where
  accessToken : Option String
  refreshToken : Option String
  expiresIn : Option (Option ℤ)

/-- What `refresh_token` of an OAuth handler returns. -/
structure NewTokens where
  accessToken : Option String
  refreshToken : Option String
  expiresAt : DateTime

/-- The world around the providers: the token endpoints, whose answers come at the instant
`answeredAt`, and the platforms, which get a token, an account, a content and its assets. -/
structure Env extends Sync.Engine.Env where
  tokenEndpoint : Platform → String → Except Exc TokenResponse
  answeredAt : Time
  post : Platform → String → SocialAccount → CampaignContent → List Asset → Except Exc String

/-- What is asked of a platform: new tokens for a refresh token, or to publish with a token. -/
inductive PlatformCall
  | refresh (platform : Platform) (refreshToken : String)
  | publish (platform : Platform) (token : String)
deriving DecidableEq, Repr

/-- The state: the database, the account object, and the calls of platforms, the last one first. -/
structure Desk where
  db : Database
  account : SocialAccount
  calls : List PlatformCall

/-- A program of a provider. -/
abbrev Work (α : Type) : Type := Prog Desk Exc α

variable (env : Env)

/-- Work on the database. -/
def onDatabase {α : Type} (p : Svc α) : Work α :=
  Prog.focus Desk.db (fun k db => { k with db := db }) p

/-- Ask a platform. -/
def ask {α : Type} (call : PlatformCall) (answer : Except Exc α) : Work α := do
  Prog.modify fun k => { k with calls := call :: k.calls }
  Prog.ofExcept answer

/-! ### New tokens -/

/-- `datetime.now(timezone.utc) + timedelta(seconds=n)`, of which there is none for a null. -/
def expiryAfter : Option ℤ → Except Exc DateTime
  | some n => expiry env.answeredAt n
  | none => .error .typeError

/-- The two fields that the responses of Twitter and LinkedIn must have. -/
def TokenResponse.validated (r : TokenResponse) : Except Exc (String × ℤ) :=
  match r.accessToken, r.expiresIn with
  | some token, some (some n) => .ok (token, n)
  | _, _ => .error .validation

/-- `TwitterOAuthHandler.refresh_token`. -/
def twitterRefresh (refreshToken : String) : Except Exc NewTokens := do
  let r ← env.tokenEndpoint .twitter refreshToken
  let (token, n) ← r.validated
  let expiresAt ← expiryAfter env (some n)
  return ⟨some token, r.refreshToken, expiresAt⟩

/-- `LinkedInOAuthHandler.refresh_token`. -/
def linkedinRefresh (refreshToken : String) : Except Exc NewTokens := do
  let r ← env.tokenEndpoint .linkedin refreshToken
  let (token, n) ← r.validated
  let expiresAt ← expiryAfter env (some n)
  return ⟨some token, some (orElse r.refreshToken refreshToken), expiresAt⟩

/-- `GoogleOAuthHandler.refresh_access_token`. -/
def googleRefresh (refreshToken : String) : Except Exc NewTokens := do
  let r ← env.tokenEndpoint .google refreshToken
  let expiresAt ← expiryAfter env (r.expiresIn.getD (some 3599))
  return ⟨r.accessToken, none, expiresAt⟩

/-- The refresh of a platform. -/
def refreshOf : Platform → String → Except Exc NewTokens
  | .twitter => twitterRefresh env
  | .linkedin => linkedinRefresh env
  | .google => googleRefresh env

/-! ### Storing them -/

/-- The encrypted tokens. -/
structure Secrets where
  accessToken : Option String
  refreshToken : Option String
  expiresAt : DateTime

/-- Encrypt new tokens: "Preserve existing refresh token if not returned". -/
def NewTokens.encrypted (tokens : NewTokens) (account : SocialAccount) : Secrets where
  accessToken := tokens.accessToken.map (encryptToken env.toEnv 0)
  refreshToken := if truthy tokens.refreshToken = true
    then tokens.refreshToken.map (encryptToken env.toEnv 1) else account.refreshToken
  expiresAt := tokens.expiresAt

/-- "IntegrationConnection uses naive UTC". -/
def Secrets.writeConnection (x : Secrets) (c : IntegrationConnection) : IntegrationConnection :=
  { c with accessToken := x.accessToken, refreshToken := x.refreshToken,
           expiresAt := some { x.expiresAt with aware := false } }

/-- "SocialAccount uses timezone-aware". Its access token is not null. -/
def Secrets.writeAccount (x : Secrets) (token : String) (a : SocialAccount) : SocialAccount :=
  { a with accessToken := token, refreshToken := x.refreshToken, expiresAt := some x.expiresAt }

/-- "Update BOTH records in the same dedicated session". -/
def updateBoth (platform : Platform) (account : SocialAccount) (x : Secrets) :
    Prog (Session Database) Exc Unit := do
  let conn ← Session.exec
    (getByWorkspaceAndProvider account.workspaceId (some platform.provider.value))
  let socAccount ← Session.exec (getById SocialAccount account.id)
  match conn, socAccount with
  | some conn, some socAccount => do
    Session.exec do
      let _ ← update conn.id x.writeConnection
      let token ← orRaise x.accessToken .integrity
      let _ ← update socAccount.id (x.writeAccount token)
      pure ()
    Session.commit
  | _, _ => Prog.raise (.integration "Missing database records for token persistence.")

/-- The dedicated session. -/
def persist (platform : Platform) (account : SocialAccount) (x : Secrets) : Svc Unit :=
  Session.serve ((updateBoth platform account x).handle fun e => do
    Session.rollback
    Prog.raise (.integration ("Failed to persist refreshed tokens: " ++ strOfExc env.toEnv e)))

/-- The token of the account expires within five minutes. -/
def expiresSoon (account : SocialAccount) : Bool :=
  account.expiresAt.any fun e => e.instant < env.now + minutes 5

/-- "Check token expiration", which the three providers do alike. -/
def refreshTokens (platform : Platform) : Work Unit := do
  let account ← Prog.gets Desk.account
  if expiresSoon env account = true then do
    Prog.require (truthy account.refreshToken = true)
      (.integration (platform.name ++ " token expired and no refresh token available."))
    let decryptedRefresh := decryptToken env.toEnv (account.refreshToken.getD "")
    let newTokens ← ask (.refresh platform decryptedRefresh)
      (refreshOf env platform decryptedRefresh)
    let x := newTokens.encrypted env account
    onDatabase (persist env platform account x)
    Prog.modify fun k => { k with account := x.writeAccount (x.accessToken.getD "") k.account }
  else pure ()

/-! ### The providers -/

/-- The first two checks of every provider. -/
def checkText (platform : Platform) (account : SocialAccount) (content : CampaignContent) :
    Work Unit := do
  Prog.require (account.accessToken ≠ "")
    (.integration (platform.name ++ " SocialAccount missing access token."))
  Prog.require (truthy content.body = true ∧ strip (content.body.getD "") ≠ "")
    (.integration (platform.name ++ " text publishing requires non-empty body content."))

/-- `s.startswith(p)`. -/
def startsWith (s p : String) : Bool := p.toList.isPrefixOf s.toList

/-- The check of the author that LinkedIn's provider makes. -/
def checkAuthor (account : SocialAccount) : Work Unit :=
  Prog.require (startsWith account.accountId "urn:li:person:" = true)
    (.integration ("Invalid LinkedIn author URN: " ++ account.accountId))

/-- The checks of the one asset that Google's provider takes. -/
def checkAsset (asset : Asset) : Work Unit := do
  Prog.require (asset.publicUrl.any (fun u => startsWith u "http://" || startsWith u "https://") =
    true) (.integration "Asset public_url must be a valid HTTP/HTTPS URL.")
  Prog.require
    (startsWith asset.mimeType "video/" = true ∨ startsWith asset.mimeType "image/" = true)
    (.integration ("Unsupported MIME type " ++ asset.mimeType ++
      ". Only images and videos are supported."))
  Prog.require (startsWith asset.mimeType "image/" = true →
      asset.mimeType ∈ ["image/jpeg", "image/png", "image/webp"])
    (.integration ("Image format " ++ asset.mimeType ++
      " is not supported by Google Business Profile."))

/-- The checks of the assets that Google's provider makes. -/
def checkAssets : List Asset → Work Unit
  | [] => pure ()
  | [asset] => checkAsset asset
  | _ => Prog.raise
    (.integration "Google Provider only supports a single image or video for publishing.")

/-- Go on to publish, with the token of the account object in memory. -/
def publishAs (platform : Platform) (content : CampaignContent) (assets : List Asset) :
    Work String := do
  let account ← Prog.gets Desk.account
  let decryptedToken := decryptToken env.toEnv account.accessToken
  ask (.publish platform decryptedToken) (env.post platform decryptedToken account content assets)

/-- `TwitterProvider.publish_content`. -/
def twitterPublishContent (content : CampaignContent) (assets : List Asset) : Work String := do
  let account ← Prog.gets Desk.account
  checkText .twitter account content
  refreshTokens env .twitter
  publishAs env .twitter content assets

/-- `LinkedInProvider.publish_content`. -/
def linkedinPublishContent (content : CampaignContent) (assets : List Asset) : Work String := do
  let account ← Prog.gets Desk.account
  checkText .linkedin account content
  checkAuthor account
  refreshTokens env .linkedin
  publishAs env .linkedin content assets

/-- `GoogleProvider.publish_content`. -/
def googlePublishContent (content : CampaignContent) (assets : List Asset) : Work String := do
  let account ← Prog.gets Desk.account
  checkText .google account content
  checkAssets assets
  refreshTokens env .google
  publishAs env .google content assets

/-- `publish_content` of the provider of a platform. -/
def publishContent : Platform → CampaignContent → List Asset → Work String
  | .twitter => twitterPublishContent env
  | .linkedin => linkedinPublishContent env
  | .google => googlePublishContent env

end MarketingSuite.Social.Providers
