import MarketingSuite.Base.Http
import MarketingSuite.Integrations.Meta
import MarketingSuite.Lib.Traces

/-! # The sync engines, request by request

`perform_sync` of the engines in `app/integrations/connectors/*/sync.py` and `_fetch_profile` of
`TwitterConnector`, with the statuses that they look at. Each engine has exceptions of its own, all
of them an `IntegrationError`; those for Meta raise an `OAuthTokenError` for a token that is not
valid. Before an API that answers every request alike those two are the engines of
`Integrations.Meta` (`Facebook.always_performSync`, `Instagram.always_performSync`). -/

namespace MarketingSuite.Integrations.SyncEngines

open MarketingSuite.Lib.Programs MarketingSuite.Lib.Traces
open MarketingSuite.Base.Values MarketingSuite.Base.Payloads MarketingSuite.Base.Http
open MarketingSuite.Integrations.Meta

/-- A GET, with the fields that a request to the Graph API asks for. -/
structure Request where
  url : String
  fields : String
deriving DecidableEq, Repr

/-- What answers a token: a response, which may depend on how many there were, or the text of a
`httpx.RequestError`. -/
abbrev Web : Type := ℕ → Request → Except String Response

/-- A program that keeps the responses. -/
abbrev Heard (α : Type) : Type := Prog (List Response) Exc α

/-- Send a request, and read the response. -/
def fetch {α : Type} (web : Web) (request : Request) (body : Response → Except Exc α) : Heard α :=
  hear (fun heard => (web heard.length request).mapError .raised) >>= fun response =>
    Prog.ofExcept (body response)

/-- What a sync of another type than "full" returns. -/
def fullOnly (syncType : Json) (sync : Heard Dict) : Heard Dict :=
  match syncType with
  | .str s => if s = "full" then sync else pure skipped
  | _ => pure skipped

/-! ### Meta -/

/-- `err_data.get("error", {}).get("type")`. -/
def errorType (response : Response) : Except Exc Json := do
  let errData ← response.parse
  let error ← get errData "error" (.obj [])
  get error "type" .null

/-- `err_type == "OAuthException"`. -/
def isOAuthException : Json → Bool
  | .str s => s = "OAuthException"
  | _ => false

/-- The exception for a status that is not 200. A body that is no JSON is passed over. -/
def graphError (rejected failed : String) (response : Response) : Exc :=
  let apiError := .integration (failed ++ " (Status: " ++ toString response.status ++ ")")
  match errorType response with
  | .ok errType =>
    if (response.status = 400 ∨ response.status = 401) ∧ isOAuthException errType = true then
      .oauthToken rejected
    else apiError
  | .error (.valueError _) => apiError
  | .error e => e

/-- The body of a response of the Graph API. -/
def graphBody (rejected failed : String) (response : Response) : Except Exc Json :=
  if response.status ≠ 200 then .error (graphError rejected failed response) else response.parse

/-- `BASE_URL`. -/
def graphUrl : String := "https://graph.facebook.com/v26.0"

section Engines

variable (strOf : Json → String) (web : Web)

namespace Facebook

def rejected : String := "Facebook access token is invalid or expired."

/-- `fetch_profile`. -/
def fetchProfile : Heard Json :=
  fetch web ⟨graphUrl ++ "/me", "id,name"⟩ (graphBody rejected "Failed to fetch profile")

/-- `fetch_pages`. -/
def fetchPages : Heard (List Json) :=
  fetch web ⟨graphUrl ++ "/me/accounts", "id,name,access_token,category,tasks"⟩ fun response =>
    graphBody rejected "Failed to fetch pages" response >>= dataField facebookPageInfo

/-- `perform_sync`. -/
def performSync (syncType : Json) : Heard Dict :=
  fullOnly syncType do
    let profile ← fetchProfile web
    let pages ← fetchPages web
    pure [("profile", profile), ("pages", .arr pages), ("records_synced", .int (1 + pages.length))]

end Facebook

namespace Instagram

def rejected : String := "Instagram/Facebook access token is invalid or expired."

/-- The pages in the body that have an Instagram account. -/
def linkedPages (data : Json) : Except Exc (List Json) := do
  let pages ← dataField facebookPageWithInstagram data
  Prog.collect (fun page => do
    let account ← subscript page "instagram_business_account"
    return if isNotNull account = true then [page] else []) pages

/-- `fetch_pages_with_instagram`. -/
def fetchPagesWithInstagram : Heard (List Json) :=
  fetch web ⟨graphUrl ++ "/me/accounts", "id,name,access_token,instagram_business_account"⟩
    fun response => graphBody rejected "Failed to fetch pages" response >>= linkedPages

/-- `fetch_profile`. -/
def fetchProfile (igAccountId : Json) : Heard Json :=
  fetch web ⟨graphUrl ++ "/" ++ strOf igAccountId, "id,username,name,profile_picture_url"⟩
    (graphBody rejected "Failed to fetch IG profile")

/-- What is attached to a profile. -/
def attach (page profile : Json) : Except Exc Json := do
  let pageId ← subscript page "id"
  let profile ← assign profile "linked_page_id" pageId
  let pageToken ← subscript page "access_token"
  assign profile "page_access_token" pageToken

/-- One round of the loop over the linked pages. -/
def linkedProfile (page : Json) : Heard (List Json) := do
  let account ← Prog.ofExcept (subscript page "instagram_business_account")
  let igId ← Prog.ofExcept (subscript account "id")
  let profile ← fetchProfile strOf web igId
  let profile ← Prog.ofExcept (attach page profile)
  pure [profile]

/-- `perform_sync`. -/
def performSync (syncType : Json) : Heard Dict :=
  fullOnly syncType do
    let linkedPages ← fetchPagesWithInstagram web
    let profiles ← Prog.gather (linkedProfile strOf web) linkedPages
    pure [("instagram_accounts", .arr profiles), ("records_synced", .int profiles.length)]

end Instagram

/-! ### LinkedIn -/

namespace LinkedIn

/-- `len(j)`. -/
def lengthOf (j : Json) : Except Exc ℕ :=
  match j, asStr strOf j with
  | _, some s => .ok s.length
  | .arr l, none => .ok l.length
  | .obj l, none => .ok l.length
  | _, none => .error .typeError

/-- `fetch_profile`. -/
def fetchProfile : Heard Json :=
  fetch web ⟨"https://api.linkedin.com/v2/userinfo", ""⟩ fun response =>
    if response.status ≠ 200 then
      .error (.integration ("Failed to fetch profile: " ++ response.text))
    else response.parse

/-- `fetch_organizations`: "Often people don't have this permission, so we return empty instead of
failing the whole sync". -/
def fetchOrganizations : Heard Json :=
  fetch web ⟨"https://api.linkedin.com/v2/organizationalEntityAcls?q=roleAssignee", ""⟩
    fun response =>
      if response.status ≠ 200 then .ok (.arr [])
      else response.parse >>= fun data => get data "elements" (.arr [])

/-- `perform_sync`. -/
def performSync (syncType : Json) : Heard Dict :=
  fullOnly syncType do
    let profile ← fetchProfile web
    let orgs ← fetchOrganizations web
    let count ← Prog.ofExcept (lengthOf strOf orgs)
    pure [("profile", profile), ("organizations", orgs), ("records_synced", .int (1 + count))]

end LinkedIn

/-! ### Twitter -/

namespace Twitter

/-- `_fetch_profile`. -/
def fetchProfile : Heard Json :=
  fetch web ⟨"https://api.twitter.com/2/users/me", ""⟩ fun response =>
    if response.status ≠ 200 then
      .error (.integration ("Failed to fetch user profile: " ++ response.text))
    else response.parse >>= fun data => get data "data" (.obj [])

/-- `sync`, of any type. -/
def sync : Heard Dict := do
  let profileData ← fetchProfile web
  pure [("profile", profileData), ("records_synced", .int 1)]

end Twitter

/-! ### Google -/

namespace Google

/-- A field `bool`, which pydantic reads off some numbers and texts, too. -/
def boolField (l : Dict) (key : String) : Except Exc Json :=
  match l.lookup key with
  | some (.bool b) => .ok (.bool b)
  | some (.int n) => if n = 1 then .ok (.bool true) else if n = 0 then .ok (.bool false)
    else .error .validation
  | some (.str s) =>
    let s := String.ofList (s.toList.map Char.toLower)
    if s ∈ ["t", "y", "on", "yes", "true", "1"] then .ok (.bool true)
    else if s ∈ ["f", "n", "no", "off", "false", "0"] then .ok (.bool false)
    else .error .validation
  | _ => .error .validation

/-- `GoogleProfileResponse`, and its `model_dump`. -/
def profileResponse : Json → Except Exc Json
  | .obj l => do
    let id ← strField l "id"
    let email ← strField l "email"
    let verifiedEmail ← boolField l "verified_email"
    let name ← strField l "name"
    let givenName ← strField l "given_name"
    let familyName ← strField l "family_name"
    let picture ← strField l "picture"
    let locale ← strField l "locale"
    return .obj [("id", id), ("email", email), ("verified_email", verifiedEmail), ("name", name),
      ("given_name", givenName), ("family_name", familyName), ("picture", picture),
      ("locale", locale)]
  | _ => .error .typeError

/-- `fetch_profile`. -/
def fetchProfile : Heard Json :=
  fetch web ⟨"https://www.googleapis.com/oauth2/v2/userinfo", ""⟩ fun response =>
    if response.status ≠ 200 then
      .error (.integration ("Failed to fetch profile: " ++ response.text))
    else response.parse >>= profileResponse

/-- The list under a key of the body, of the two requests to the business profile. -/
def listOf (key denied failed : String) (response : Response) : Except Exc Json :=
  if response.status = 401 ∨ response.status = 403 then
    .error (.integration (denied ++ response.text))
  else if response.status ≠ 200 then .error (.integration (failed ++ response.text))
  else response.parse >>= fun data => get data key (.arr [])

/-- `fetch_accounts`. -/
def fetchAccounts : Heard Json :=
  fetch web ⟨"https://mybusinessaccountmanagement.googleapis.com/v1/accounts", ""⟩
    (listOf "accounts" "Permission denied fetching GMB accounts: "
      "Failed to fetch GMB accounts: ")

/-- `fetch_locations`. -/
def fetchLocations (accountName : String) : Heard Json :=
  fetch web ⟨"https://mybusinessbusinessinformation.googleapis.com/v1/" ++ accountName ++
      "/locations?readMask=name,title", ""⟩
    (listOf "locations" "Permission denied fetching GMB locations: "
      "Failed to fetch GMB locations: ")

/-- `s.split("/")[-1]`. -/
def lastPart (s : String) : String :=
  String.ofList (s.toList.reverse.takeWhile fun c => c ≠ '/').reverse

/-- `split` of a value that should be a text. -/
def textOf (j : Json) : Except Exc String :=
  match asStr strOf j with
  | some s => .ok s
  | none => .error .attributeError

/-- A location, if it has a name. -/
def parsedLocation (loc : Json) : Except Exc (List Json) := do
  let name ← get loc "name" (.str "")
  if isTruthy name = false then
    return []
  let name ← textOf strOf name
  let title ← get loc "title" (.str "")
  return [.obj [("location_id", .str (lastPart name)), ("location_name", title)]]

/-- An account with its locations, if it has a name. -/
def businessAccount (account : Json) : Heard (List Json) := do
  let name ← Prog.ofExcept (get account "name" (.str ""))
  if isTruthy name = false then
    pure []
  else
    let name ← Prog.ofExcept (textOf strOf name)
    let locations ← fetchLocations web name
    let locations ← Prog.ofExcept (iterate strOf locations)
    let parsedLocations ← Prog.ofExcept (Prog.collect (parsedLocation strOf) locations)
    let accountName ← Prog.ofExcept (get account "accountName" (.str ""))
    pure [.obj [("account_id", .str (lastPart name)), ("account_name", accountName),
      ("locations", .arr parsedLocations)]]

/-- `perform_sync`. -/
def performSync (syncType : Json) : Heard Dict :=
  fullOnly syncType do
    let profile ← fetchProfile web
    let accounts ← fetchAccounts web
    let accounts ← Prog.ofExcept (iterate strOf accounts)
    let businessAccounts ← Prog.gather (businessAccount strOf web) accounts
    pure [("profile", profile), ("business_accounts", .arr businessAccounts),
      ("records_synced", .int (1 + businessAccounts.length))]

end Google

end Engines

/-! ### The connectors -/

/-- The providers whose connectors sync accounts. -/
inductive SyncProvider
  | facebook | instagram | linkedin | twitter | google
deriving DecidableEq, Repr

namespace SyncProvider

def ofName : String → Option SyncProvider
  | "facebook" => some facebook
  | "instagram" => some instagram
  | "linkedin" => some linkedin
  | "twitter" => some twitter
  | "google" => some google
  | _ => none

/-- What a connector without a token raises. -/
def missingToken : SyncProvider → Exc
  | twitter => .integration "Missing access token for profile fetch."
  | facebook | instagram | linkedin | google => .valueError "Access token required for sync."

/-- The engine of a connector with a token. -/
def performSync (strOf : Json → String) (web : Web) (syncType : Json) : SyncProvider → Heard Dict
  | facebook => Facebook.performSync web syncType
  | instagram => Instagram.performSync strOf web syncType
  | linkedin => LinkedIn.performSync strOf web syncType
  | twitter => Twitter.sync web
  | google => Google.performSync strOf web syncType

/-- `sync` of the connector. The web is that of the token. -/
def sync (p : SyncProvider) (strOf : Json → String) (web : String → Web)
    (accessToken : Option String) (syncType : Json) : Heard Dict :=
  if truthy accessToken = true then p.performSync strOf (web (accessToken.getD "")) syncType
  else Prog.raise p.missingToken

end SyncProvider

/-! ### The Graph API -/

section Graph

variable (answer : Request → Except String Response)

/-- The body of a GET, if its answer does not depend on those before. -/
def graphAnswer (rejected failed : String) (request : Request) : Except Exc Json :=
  (answer request).mapError .raised >>= graphBody rejected failed

/-- The Graph API of the engine for Facebook. -/
def Facebook.graphOf : Graph where
  me := graphAnswer answer rejected "Failed to fetch profile" ⟨graphUrl ++ "/me", "id,name"⟩
  accounts := graphAnswer answer rejected "Failed to fetch pages"
    ⟨graphUrl ++ "/me/accounts", "id,name,access_token,category,tasks"⟩
  profile _ := .error .typeError

/-- The Graph API of the engine for Instagram. -/
def Instagram.graphOf (strOf : Json → String) : Graph where
  me := .error .typeError
  accounts := graphAnswer answer rejected "Failed to fetch pages"
    ⟨graphUrl ++ "/me/accounts", "id,name,access_token,instagram_business_account"⟩
  profile igAccountId := graphAnswer answer rejected "Failed to fetch IG profile"
    ⟨graphUrl ++ "/" ++ strOf igAccountId, "id,username,name,profile_picture_url"⟩

variable {answer}

theorem always_fetch {α : Type} {request : Request} {body : Response → Except Exc α} :
    Always ((answer request).mapError .raised >>= body) (fetch (fun _ => answer) request body) :=
  always_hear_bind

theorem always_fullOnly {f : Json → Except Exc Dict} {sync : Heard Dict} {syncType : Json}
    (hskip : syncType ≠ .str "full" → f syncType = .ok skipped)
    (hfull : Always (f (.str "full")) sync) : Always (f syncType) (fullOnly syncType sync) := by
  unfold fullOnly
  cases syncType with
  | str s =>
    dsimp only
    split_ifs with hs
    · rw [hs]
      exact hfull
    · rw [hskip fun h => hs (Json.str.inj h)]
      exact always_ofExcept (.ok skipped)
  | _ =>
    rw [hskip (by simp)]
    exact always_ofExcept (.ok skipped)

/-- **The engine for Facebook**, before an API that answers every request in one way. -/
theorem Facebook.always_performSync (syncType : Json) :
    Always (facebookPerformSync (graphOf answer) syncType)
      (performSync (fun _ => answer) syncType) := by
  refine always_fullOnly (fun hne => ?_) ?_
  · unfold facebookPerformSync
    split
    · exact absurd rfl hne
    · rfl
  · refine always_bind always_fetch fun profile => ?_
    have hpages : Always (Meta.fetchPages (graphOf answer)) (fetchPages fun _ => answer) := by
      unfold Meta.fetchPages graphOf graphAnswer
      rw [bind_assoc]
      exact always_fetch
    exact always_bind hpages fun pages => always_ofExcept (.ok _)

theorem Instagram.always_linkedProfile (strOf : Json → String) (page : Json) :
    Always ((Meta.linkedProfile (graphOf answer strOf) page).map fun x => [x])
      (linkedProfile strOf (fun _ => answer) page) := by
  have hread : ((Meta.linkedProfile (graphOf answer strOf) page).map fun x => [x]) = (do
      let account ← subscript page "instagram_business_account"
      let igId ← subscript account "id"
      let profile ← (graphOf answer strOf).profile igId
      let profile ← attach page profile
      .ok [profile]) := by
    show (fun x => [x]) <$> Meta.linkedProfile (graphOf answer strOf) page = _
    unfold Meta.linkedProfile attach
    simp only [map_eq_pure_bind, bind_assoc]
    rfl
  rw [hread]
  refine always_bind (always_ofExcept _) fun account => ?_
  refine always_bind (always_ofExcept _) fun igId => ?_
  refine always_bind always_fetch fun profile => ?_
  exact always_bind (always_ofExcept _) fun profile => always_ofExcept (.ok _)

/-- **The engine for Instagram**, before such an API. -/
theorem Instagram.always_performSync (strOf : Json → String) (syncType : Json) :
    Always (instagramPerformSync (graphOf answer strOf) syncType)
      (performSync strOf (fun _ => answer) syncType) := by
  refine always_fullOnly (fun hne => ?_) ?_
  · unfold instagramPerformSync
    split
    · exact absurd rfl hne
    · rfl
  · have hpages : Always (Meta.fetchPagesWithInstagram (graphOf answer strOf))
        (fetchPagesWithInstagram fun _ => answer) := by
      unfold Meta.fetchPagesWithInstagram graphOf graphAnswer
      simp only [bind_assoc]
      exact always_fetch
    refine always_bind hpages fun pages => ?_
    exact always_bind (always_gather (always_linkedProfile strOf) pages) fun profiles =>
      always_ofExcept (.ok _)

end Graph

end MarketingSuite.Integrations.SyncEngines
