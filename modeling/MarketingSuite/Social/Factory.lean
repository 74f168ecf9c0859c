import MarketingSuite.Social.Providers

/-! # The providers and their factory

The classes of `app/services/social/` with the calls they make of their publishers
(`app/integrations/connectors/*/publisher.py`), and `SocialProviderFactory.get_provider`, which maps
every member of `ApiProvider` to one of them. What a publisher answers is a parameter; every call of
one is noted with its token and its answer. -/

namespace MarketingSuite.Social.Factory

open MarketingSuite.Lib.Programs MarketingSuite.Lib.Tables MarketingSuite.Lib.Sessions
open MarketingSuite.Base.Values MarketingSuite.Base.Models MarketingSuite.Base.Schema
open MarketingSuite.Repositories.Base
open MarketingSuite.Sync.Engine (decryptToken)
open MarketingSuite.Social.Providers (Desk startsWith checkText checkAuthor checkAssets
  refreshTokens)

/-! ### Publishers -/

/-- What a publisher is called for, one constructor for each method that publishes. -/
inductive Post
  | facebookText (pageId message : String)
  | facebookImage (pageId message imageUrl : String)
  | facebookVideo (pageId title description fileUrl : String)
  | instagramImage (igUserId imageUrl caption : String)
  | linkedinText (authorUrn text : String)
  | linkedinImage (authorUrn text : String) (imageBinary : List UInt8) (mimeType : String)
  | tweet (text : String) (mediaIds : List String)
  | youtubeVideo (assetUrl title description : String) (fileSize : ℤ) (mimeType : String)
  | localPost (accountId text : String) (imageUrl : Option String)
deriving DecidableEq, Repr

/-- The platform that the publisher belongs to. -/
def Post.provider : Post → ApiProvider
  | facebookText .. | facebookImage .. | facebookVideo .. => .meta
  | instagramImage .. => .instagram
  | linkedinText .. | linkedinImage .. => .linkedin
  | tweet .. => .twitter
  | youtubeVideo .. | localPost .. => .google

/-- An asset of a content, with its key. -/
structure MediaAsset extends Providers.Asset where
  id : Uuid

/-- `AssetType.value`. -/
def assetTypeValue : AssetType → String
  | .image => "IMAGE"
  | .video => "VIDEO"
  | .document => "DOCUMENT"
  | .audio => "AUDIO"
  | .logo => "LOGO"
  | .icon => "ICON"
  | .other => "OTHER"

/-- How a download fails: no response, or one with an error status. -/
inductive DownloadError
  | request (text : String)
  | status (text : String)

/-- A response that is streamed. -/
structure Download where
  contentLength : Option ℕ
  content : Except DownloadError (List UInt8)

/-- What is uploaded to Twitter: bytes, or the stream of an address. -/
inductive Upload
  | bytes (content : List UInt8)
  | stream (url : String)

/-- The world around the providers: `publisher token post` is the `id` in the answer to a post, or
the exception of the publisher, and `hex` the digits of the mock's identifier. -/
structure Env extends toProviders : Providers.Env where
  publisher : String → Post → Except Exc (Option String)
  download : String → Except DownloadError Download
  fetch : String → Except Exc (List UInt8)
  uploadMedia : String → Upload → String → ℤ → String → Except Exc String
  linkedinApiVersion : Option String
  isDecimal : Char → Bool
  assetsOf : CampaignContent → List MediaAsset
  hex : String

/-- A call of a publisher, and its answer. -/
structure Call where
  token : String
  post : Post
  answer : Except Exc (Option String)

/-- The state of a provider at work, with the calls of publishers. -/
structure Stage where
  desk : Desk
  asked : List Call

/-- A program of a provider. -/
abbrev Act (α : Type) : Type := Prog Stage Exc α

/-- The work up to the publisher. -/
def onDesk {α : Type} (p : Providers.Work α) : Act α :=
  Prog.focus Stage.desk (fun t k => { t with desk := k }) p

/-- The account object in memory. -/
def readAccount : Act SocialAccount := Prog.gets fun t => t.desk.account

variable (env : Env)

/-- Call a publisher. -/
def askPublisher (token : String) (post : Post) : Act (Option String) := do
  Prog.modify fun t => { t with asked := ⟨token, post, env.publisher token post⟩ :: t.asked }
  Prog.ofExcept (env.publisher token post)

/-- The token of an account object. -/
def tokenOf (account : SocialAccount) : String := decryptToken env.toEnv account.accessToken

/-- Publish, and insist on an id. -/
def deliver (post : Post) (missing : Exc) : Act String := do
  let account ← readAccount
  let postId ← askPublisher env (tokenOf env account) post
  Prog.require (truthy postId = true) missing
  pure (postId.getD "")

/-- The check of the token that the providers for Meta make. -/
def checkToken (account : SocialAccount) : Act Unit :=
  Prog.require (account.accessToken ≠ "") (.integration
    ("No access token available for social account " ++ env.strOf (.id account.id)))

/-- The first asset that is an image. -/
def imageAsset (assets : List MediaAsset) : Option MediaAsset :=
  assets.find? fun a => a.assetType = .image

/-- `not s.strip()`, or no text at all. -/
def blankText (text : Option String) : Bool := ¬ (truthy text = true ∧ strip (text.getD "") ≠ "")

/-! ### Facebook and Instagram -/

/-- "Route based on assets". -/
def facebookPost (account : SocialAccount) (content : CampaignContent) :
    List MediaAsset → Except Exc Post
  | [] =>
    if blankText content.body = true then
      .error (.integration ("Campaign content " ++ env.strOf (.id content.id) ++
        " body is empty, and no assets provided."))
    else .ok (.facebookText account.accountId (content.body.getD ""))
  | [asset] =>
    if truthy asset.publicUrl = true then
      match asset.assetType with
      | .image => .ok (.facebookImage account.accountId (orElse content.body "")
          (asset.publicUrl.getD ""))
      | .video => .ok (.facebookVideo account.accountId content.title (orElse content.body "")
          (asset.publicUrl.getD ""))
      | t => .error (.integration ("Unsupported asset type for Facebook: " ++ assetTypeValue t))
    else .error (.integration ("Asset " ++ env.strOf (.id asset.id) ++ " missing public_url"))
  | assets => .error (.integration
      ("Facebook currently only supports up to 1 asset for MVP, found " ++ toString assets.length))

/-- `FacebookProvider.publish_content`. -/
def facebookPublishContent (content : CampaignContent) (assets : List MediaAsset) : Act String := do
  let account ← readAccount
  checkToken env account
  let post ← Prog.ofExcept (facebookPost env account content assets)
  deliver env post (.integration "Meta API did not return a valid post ID.")

/-- The post of the first image. -/
def instagramPost (account : SocialAccount) (content : CampaignContent)
    (assets : List MediaAsset) : Except Exc Post :=
  match imageAsset assets with
  | none => .error (.integration ("Campaign content " ++ env.strOf (.id content.id) ++
      " missing IMAGE asset required for Instagram."))
  | some asset =>
    if truthy asset.publicUrl = true then
      .ok (.instagramImage account.accountId (asset.publicUrl.getD "") (orElse content.body ""))
    else .error (.integration ("Campaign content " ++ env.strOf (.id content.id) ++
      " image asset missing public_url."))

/-- `InstagramProvider.publish_content`. -/
def instagramPublishContent (content : CampaignContent) (assets : List MediaAsset) :
    Act String := do
  let account ← readAccount
  checkToken env account
  let post ← Prog.ofExcept (instagramPost env account content assets)
  deliver env post (.integration "Meta API did not return a valid post ID.")

/-! ### LinkedIn -/

/-- `re.match(r"^\d{6}$", s)`: the dollar also matches before a newline at the end. -/
def isVersion (isDecimal : Char → Bool) (s : String) : Bool :=
  let digits := if s.toList.getLast? = some '\n' then s.toList.dropLast else s.toList
  digits.length = 6 && digits.all isDecimal

/-- The constructor of `LinkedInPublisher`. -/
def linkedinPublisher : Except Exc Unit :=
  match env.linkedinApiVersion with
  | none => .error (.integration "LINKEDIN_API_VERSION is not configured in the environment.")
  | some version =>
    if version = "" then
      .error (.integration "LINKEDIN_API_VERSION is not configured in the environment.")
    else if isVersion env.isDecimal version = true then .ok ()
    else .error (.integration
      ("LINKEDIN_API_VERSION '" ++ version ++ "' must be in YYYYMM format."))

/-- Five megabytes. -/
def maxSizeBytes : ℕ := 5 * 1024 * 1024

/-- What is raised for a download that failed: only a `RequestError` is caught. -/
def DownloadError.raised (url : String) : DownloadError → Exc
  | request text => .integration ("Failed to download image from " ++ url ++ ": " ++ text)
  | status text => .raised text

/-- "Stream the response to check content length safely". -/
def downloadImage (url : String) : Except Exc (List UInt8) :=
  match env.download url with
  | .error e => .error (e.raised url)
  | .ok response =>
    if response.contentLength.any (fun n => maxSizeBytes < n) = true then
      .error (.integration ("Image size exceeds the maximum allowed limit of " ++
        toString maxSizeBytes ++ " bytes."))
    else
      match response.content with
      | .error e => .error (e.raised url)
      | .ok imageBinary =>
        if maxSizeBytes < imageBinary.length then
          .error (.integration ("Downloaded image size exceeds the maximum allowed limit of " ++
            toString maxSizeBytes ++ " bytes."))
        else .ok imageBinary

/-- The post of the first image, or of the text. -/
def linkedinPost (account : SocialAccount) (content : CampaignContent)
    (assets : List MediaAsset) : Except Exc Post :=
  match imageAsset assets with
  | none => .ok (.linkedinText account.accountId (content.body.getD ""))
  | some asset =>
    if truthy asset.publicUrl = true then
      if asset.mimeType ∈ ["image/jpeg", "image/png", "image/gif"] then
        match downloadImage env (asset.publicUrl.getD "") with
        | .error e => .error e
        | .ok imageBinary => .ok (.linkedinImage account.accountId (content.body.getD "")
            imageBinary asset.mimeType)
      else .error (.integration ("Unsupported LinkedIn image MIME type: " ++ asset.mimeType))
    else .error (.integration "Image asset is missing a public URL.")

/-- `LinkedInProvider.publish_content`. -/
def linkedinPublishContent (content : CampaignContent) (assets : List MediaAsset) : Act String := do
  let account ← readAccount
  onDesk (checkText .linkedin account content)
  onDesk (checkAuthor account)
  onDesk (refreshTokens env.toProviders .linkedin)
  Prog.ofExcept (linkedinPublisher env)
  let post ← Prog.ofExcept (linkedinPost env account content assets)
  deliver env post (.integration "Failed to retrieve valid post ID from LinkedIn.")

/-! ### Twitter -/

/-- `mime_type.startswith("video/")`. -/
def isVideo (asset : MediaAsset) : Bool := startsWith asset.mimeType "video/"

/-- "Stream the video in chunks to avoid OOM". -/
def uploadVideo (token : String) (asset : MediaAsset) (url : String) : Except Exc String :=
  if 512 * 1024 * 1024 < asset.fileSize then
    .error (.integration ("Video " ++ asset.fileName ++ " exceeds 512MB limit."))
  else if asset.mimeType ∈ ["video/mp4", "video/quicktime"] then
    match env.uploadMedia token (.stream url) asset.mimeType asset.fileSize "tweet_video" with
    | .ok mediaId => .ok mediaId
    | .error e => .error (.integration ("Failed to stream and upload video " ++ asset.fileName ++
        ": " ++ Integrations.Service.strOfExc env.toEnv e))
  else .error (.integration
    ("Video format " ++ asset.mimeType ++ " is not supported for Twitter MVP."))

/-- "Image flow". -/
def uploadImage (token : String) (asset : MediaAsset) (url : String) : Except Exc String :=
  if 5 * 1024 * 1024 < asset.fileSize then
    .error (.integration ("Image " ++ asset.fileName ++ " exceeds 5MB limit."))
  else if asset.mimeType ∈ ["image/jpeg", "image/png", "image/webp"] then
    match env.fetch url >>= fun fileBytes => env.uploadMedia token (.bytes fileBytes)
        asset.mimeType fileBytes.length "tweet_image" with
    | .ok mediaId => .ok mediaId
    | .error e => .error (.integration ("Failed to download and upload image " ++ asset.fileName ++
        ": " ++ Integrations.Service.strOfExc env.toEnv e))
  else .error (.integration
    ("Image format " ++ asset.mimeType ++ " is not supported for Twitter MVP."))

/-- One round of the loop over the assets. -/
def uploadAsset (token : String) (asset : MediaAsset) : Except Exc String :=
  if asset.publicUrl.any (fun u => startsWith u "http://" || startsWith u "https://") = true then
    if isVideo asset = true then uploadVideo env token asset (asset.publicUrl.getD "")
    else uploadImage env token asset (asset.publicUrl.getD "")
  else .error (.integration "Asset public_url must be a valid HTTP/HTTPS URL.")

/-- The identifiers of the uploaded media. -/
def uploadAssets (token : String) (assets : List MediaAsset) : Except Exc (List String) :=
  let hasVideo := assets.any isVideo
  if hasVideo = true ∧ 1 < assets.length then
    .error (.integration ("Twitter does not support attaching multiple videos or mixing images " ++
      "with video in a single post."))
  else (assets.take (if hasVideo = true then 1 else 4)).mapM (uploadAsset env token)

/-- `TwitterProvider.publish_content`. -/
def twitterPublishContent (content : CampaignContent) (assets : List MediaAsset) : Act String := do
  let account ← readAccount
  onDesk (checkText .twitter account content)
  onDesk (refreshTokens env.toProviders .twitter)
  let account ← readAccount
  let token := tokenOf env account
  Prog.require (token ≠ "") (.integration "Missing access token for Twitter publisher.")
  let mediaIds ← Prog.ofExcept (uploadAssets env token assets)
  deliver env (.tweet (content.body.getD "") mediaIds)
    (.integration "Failed to retrieve valid post ID from Twitter.")

/-! ### Google -/

/-- `str(post_id)`. -/
def strOptional (s : Option String) : String := s.getD "None"

/-- A video goes to YouTube, an image or a text to the business profile. -/
def googlePost (account : SocialAccount) (content : CampaignContent) : List MediaAsset → Post
  | [] => .localPost account.accountId (content.body.getD "") none
  | asset :: _ =>
    if isVideo asset = true then
      .youtubeVideo (asset.publicUrl.getD "") (content.body.getD "") (content.body.getD "")
        asset.fileSize asset.mimeType
    else .localPost account.accountId (content.body.getD "") asset.publicUrl

/-- The checks of `GoogleProvider.publish_content`. -/
def googleChecks (account : SocialAccount) (content : CampaignContent)
    (assets : List MediaAsset) : Providers.Work Unit := do
  checkText .google account content
  checkAssets (assets.map MediaAsset.toAsset)

/-- `GoogleProvider.publish_content`, which does not check the id. -/
def googlePublishContent (content : CampaignContent) (assets : List MediaAsset) : Act String := do
  let account ← readAccount
  onDesk (googleChecks account content assets)
  onDesk (refreshTokens env.toProviders .google)
  let account ← readAccount
  let postId ← askPublisher env (tokenOf env account) (googlePost account content assets)
  pure (strOptional postId)

/-! ### The factory -/

/-- `MockSocialProvider.publish_content`: "Simulate an external post ID". -/
def mockPublishContent : Act String :=
  pure ("mock_post_" ++ String.ofList (env.hex.toList.take 8))

/-- The classes. -/
inductive SocialProvider
  | mock | facebook | instagram | linkedin | google | twitter
deriving DecidableEq, Repr

/-- `SocialProviderFactory.get_provider`: "Fallback for unconnected or unimplemented" is the mock. -/
def getProvider : ApiProvider → SocialProvider
  | .mock => .mock
  | .meta => .facebook
  | .instagram => .instagram
  | .linkedin => .linkedin
  | .google => .google
  | .twitter => .twitter
  | .openai | .claude | .gemini | .stripe => .mock

namespace SocialProvider

/-- The parameters of `publish_content` that have no default. -/
def parameters : SocialProvider → List String
  | google => ["db", "account", "content"]
  | mock | facebook | instagram | linkedin | twitter => ["account", "content"]

/-- The body of `publish_content`. -/
def body (content : CampaignContent) (assets : List MediaAsset) : SocialProvider → Act String
  | mock => mockPublishContent env
  | facebook => facebookPublishContent env content assets
  | instagram => instagramPublishContent env content assets
  | linkedin => linkedinPublishContent env content assets
  | google => googlePublishContent env content assets
  | twitter => twitterPublishContent env content assets

/-- `provider_impl.publish_content(account, content)`: the body runs if the two arguments are all
that it needs. -/
def publishContent (content : CampaignContent) (assets : List MediaAsset) (p : SocialProvider) :
    Act String :=
  if p.parameters.length = 2 then p.body env content assets else Prog.raise .typeError

end SocialProvider

end MarketingSuite.Social.Factory
