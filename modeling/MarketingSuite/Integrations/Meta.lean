import MarketingSuite.Base.Payloads
import MarketingSuite.Lib.Programs

/-! # The syncs of Meta's connectors

`FacebookSyncEngine` and `InstagramSyncEngine` of `app/integrations/connectors/facebook/sync.py` and
`app/integrations/connectors/instagram/sync.py`, with the schemas of the pages in the `schemas.py`
beside them, against which the response of `/me/accounts` is validated before anything is read off
it. What the Graph API answers is a `Graph`. -/

namespace MarketingSuite.Integrations.Meta

open MarketingSuite.Lib.Programs
open MarketingSuite.Base.Values MarketingSuite.Base.Payloads

/-- The Graph API, as it answers to an access token: the bodies of `/me`, of `/me/accounts` and of an
Instagram account, or what is raised for another status than 200. -/
structure Graph where
  me : Except Exc Json
  accounts : Except Exc Json
  profile : Json → Except Exc Json

/-! ### Fields of the schemas -/

/-- A field `str`, which is required. -/
def strField (l : Dict) (key : String) : Except Exc Json :=
  match l.lookup key with
  | some v => if isText v = true then .ok v else .error .validation
  | none => .error .validation

/-- A field `Optional[str] = None`. -/
def optionalStrField (l : Dict) (key : String) : Except Exc Json :=
  match l.lookup key with
  | none => .ok .null
  | some .null => .ok .null
  | some v => if isText v = true then .ok v else .error .validation

/-- A field `List[str] = Field(default_factory=list)`. -/
def strListField (l : Dict) (key : String) : Except Exc Json :=
  match l.lookup key with
  | none => .ok (.arr [])
  | some (.arr vs) => if vs.all isText = true then .ok (.arr vs) else .error .validation
  | some _ => .error .validation

/-- A field `Optional[Dict[str, str]] = None`. -/
def optionalStrDictField (l : Dict) (key : String) : Except Exc Json :=
  match l.lookup key with
  | none => .ok .null
  | some .null => .ok .null
  | some (.obj vs) => if vs.all (fun p => isText p.2) = true then .ok (.obj vs)
    else .error .validation
  | some _ => .error .validation

/-- A field `data: List[...] = Field(default_factory=list)` of a response, by the schema of its
elements. -/
def dataField (element : Json → Except Exc Json) : Json → Except Exc (List Json)
  | .obj l =>
    match l.lookup "data" with
    | none => .ok []
    | some (.arr vs) => Prog.collect (fun v => (element v).map fun x => [x]) vs
    | some _ => .error .validation
  | _ => .error .typeError

/-! ### Facebook -/

/-- `FacebookPageInfo`, and its `model_dump`. -/
def facebookPageInfo : Json → Except Exc Json
  | .obj l => do
    let id ← strField l "id"
    let name ← strField l "name"
    let accessToken ← strField l "access_token"
    let category ← optionalStrField l "category"
    let tasks ← strListField l "tasks"
    return .obj [("id", id), ("name", name), ("access_token", accessToken), ("category", category),
      ("tasks", tasks)]
  | _ => .error .validation

variable (g : Graph)

/-- `fetch_pages`, with `FacebookPagesResponse`. -/
def fetchPages : Except Exc (List Json) := do
  let data ← g.accounts
  dataField facebookPageInfo data

/-- What a sync of another type than "full" returns. -/
def skipped : Dict := [("status", .str "skipped"), ("reason", .str "unsupported sync type")]

/-- `FacebookSyncEngine.perform_sync`. -/
def facebookPerformSync : Json → Except Exc Dict
  | .str "full" => do
    let profile ← g.me
    let pages ← fetchPages g
    return [("profile", profile), ("pages", .arr pages), ("records_synced", .int (1 + pages.length))]
  | _ => .ok skipped

/-! ### Instagram -/

/-- `FacebookPageWithInstagram`, and its `model_dump`. -/
def facebookPageWithInstagram : Json → Except Exc Json
  | .obj l => do
    let id ← strField l "id"
    let name ← strField l "name"
    let accessToken ← strField l "access_token"
    let account ← optionalStrDictField l "instagram_business_account"
    return .obj [("id", id), ("name", name), ("access_token", accessToken),
      ("instagram_business_account", account)]
  | _ => .error .validation

/-- `j is not None`. -/
def isNotNull : Json → Bool
  | .null => false
  | _ => true

/-- `fetch_pages_with_instagram`. -/
def fetchPagesWithInstagram : Except Exc (List Json) := do
  let data ← g.accounts
  let pages ← dataField facebookPageWithInstagram data
  let linked ← Prog.collect (fun page => do
    let account ← subscript page "instagram_business_account"
    return if isNotNull account = true then [page] else []) pages
  return linked

/-- `profile[key] = value`. -/
def assign (profile : Json) (key : String) (value : Json) : Except Exc Json :=
  match profile with
  | .obj l => .ok (.obj (setItem key value l))
  | _ => .error .typeError

/-- One round of the loop over the linked pages. -/
def linkedProfile (page : Json) : Except Exc Json := do
  let account ← subscript page "instagram_business_account"
  let igId ← subscript account "id"
  let profile ← g.profile igId
  let pageId ← subscript page "id"
  let profile ← assign profile "linked_page_id" pageId
  let pageToken ← subscript page "access_token"
  assign profile "page_access_token" pageToken

/-- `InstagramSyncEngine.perform_sync`. -/
def instagramPerformSync : Json → Except Exc Dict
  | .str "full" => do
    let linkedPages ← fetchPagesWithInstagram g
    let profiles ← Prog.collect (fun page => (linkedProfile g page).map fun x => [x]) linkedPages
    return [("instagram_accounts", .arr profiles), ("records_synced", .int profiles.length)]
  | _ => .ok skipped

/-! ### The connectors -/

/-- `sync` of `FacebookConnector` and `InstagramConnector`. -/
def connectorSync (performSync : Json → Except Exc Dict) (accessToken : Option String)
    (syncType : Json) : Except Exc Dict :=
  if truthy accessToken = true then performSync syncType
  else .error (.valueError "Access token required for sync.")

end MarketingSuite.Integrations.Meta
