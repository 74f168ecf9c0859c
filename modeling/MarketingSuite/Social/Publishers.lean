import MarketingSuite.Base.Http
import MarketingSuite.Lib.Exchanges
import MarketingSuite.Social.Factory

/-! # The publishers

The methods that publish, of `app/integrations/connectors/*/publisher.py` and
`google/business_profile.py`, with the requests that they send. A platform answers as it likes. -/

namespace MarketingSuite.Social.Publishers

open MarketingSuite.Lib.Programs MarketingSuite.Lib.Exchanges
open MarketingSuite.Base.Values MarketingSuite.Base.Payloads MarketingSuite.Base.Http
open MarketingSuite.Social.Factory (Post)

/-! ### Requests -/

/-- What a publisher asks. -/
inductive Endpoint
  | feed (pageId : String)
  | photos (pageId : String)
  | videos (pageId : String)
  | media (igUserId : String)
  | mediaPublish (igUserId : String)
  | posts
  | initializeUpload
  | upload (url : String)
  | tweets
  | localPosts (accountId : String)
deriving DecidableEq, Repr

namespace Endpoint

/-- `BASE_URL` of the publishers for Meta, with `META_GRAPH_API_VERSION`. -/
def baseUrl : String := "https://graph.facebook.com/v26.0"

/-- The address. -/
def url : Endpoint → String
  | feed pageId => baseUrl ++ "/" ++ pageId ++ "/feed"
  | photos pageId => baseUrl ++ "/" ++ pageId ++ "/photos"
  | videos pageId => baseUrl ++ "/" ++ pageId ++ "/videos"
  | media igUserId => baseUrl ++ "/" ++ igUserId ++ "/media"
  | mediaPublish igUserId => baseUrl ++ "/" ++ igUserId ++ "/media_publish"
  | posts => "https://api.linkedin.com/rest/posts"
  | initializeUpload => "https://api.linkedin.com/rest/images?action=initializeUpload"
  | upload url => url
  | tweets => "https://api.twitter.com/2/tweets"
  | localPosts accountId => "https://mybusiness.googleapis.com/v4/" ++ accountId ++ "/localPosts"

/-- The platform that such a request asks for a post, if it asks for one. -/
def asksFor : Endpoint → Option ApiProvider
  | feed _ | photos _ | videos _ => some .meta
  | mediaPublish _ => some .instagram
  | posts => some .linkedin
  | tweets => some .twitter
  | localPosts _ => some .google
  | media _ | initializeUpload | upload _ => none

end Endpoint

/-- The body of a request. -/
inductive Body
  | form (fields : List (String × Json))
  | json (value : Json)
  | content (bytes : List UInt8)

/-- The verbs that are used. -/
inductive Method
  | post | put
deriving DecidableEq, Repr

/-- A request. -/
structure Request where
  method : Method
  endpoint : Endpoint
  headers : List (String × String)
  body : Body

/-- A request to a platform, with what came back. -/
abbrev Call : Type := Exchange Request Exc Response

/-- The platforms, and whatever else answers. -/
abbrev World : Type := Partner Request Exc Response

/-- A program of a publisher. -/
abbrev Talk (α : Type) : Type := Lib.Exchanges.Talk Request Exc Response α

section Publishers

variable (w : World) (strOf : Json → String) (accessToken : String)

/-! ### Facebook -/

/-- What the three methods of `FacebookPublisher` do. -/
def publishForm (endpoint : Endpoint) (fields : List (String × Json)) (kind : String) :
    Talk Json := do
  let response ← exchange w
    ⟨.post, endpoint, [], .form (fields ++ [("access_token", .str accessToken)])⟩
  Prog.require (response.status = 200)
    (.integration ("Failed to publish " ++ kind ++ " post: " ++ response.text))
  Prog.ofExcept response.parse

/-- `FacebookPublisher.publish_text_post`. -/
def facebookTextPost (pageId message : String) : Talk Json :=
  publishForm w accessToken (.feed pageId) [("message", .str message)] "text"

/-- `FacebookPublisher.publish_image_post`. -/
def facebookImagePost (pageId message imageUrl : String) : Talk Json :=
  publishForm w accessToken (.photos pageId) [("caption", .str message), ("url", .str imageUrl)]
    "image"

/-- `FacebookPublisher.publish_video_post`. -/
def facebookVideoPost (pageId title description fileUrl : String) : Talk Json :=
  publishForm w accessToken (.videos pageId)
    [("title", .str title), ("description", .str description), ("file_url", .str fileUrl)] "video"

/-! ### Instagram -/

/-- "Step 1: Create Media Container". -/
def createContainer (igUserId imageUrl caption : String) : Talk Json := do
  let containerResponse ← exchange w ⟨.post, .media igUserId, [], .form
    [("image_url", .str imageUrl), ("caption", .str caption), ("access_token", .str accessToken)]⟩
  Prog.require (containerResponse.status = 200)
    (.integration ("Failed to create media container: " ++ containerResponse.text))
  let containerData ← Prog.ofExcept containerResponse.parse
  let creationId ← Prog.ofExcept (get containerData "id" .null)
  Prog.require (isTruthy creationId = true)
    (.integration "Media container creation did not return an ID.")
  pure creationId

/-- `InstagramPublisher.publish_image_post`. -/
def instagramImagePost (igUserId imageUrl caption : String) : Talk Json := do
  let creationId ← createContainer w accessToken igUserId imageUrl caption
  let publishResponse ← exchange w ⟨.post, .mediaPublish igUserId, [], .form
    [("creation_id", creationId), ("access_token", .str accessToken)]⟩
  Prog.require (publishResponse.status = 200)
    (.integration ("Failed to publish media container: " ++ publishResponse.text))
  Prog.ofExcept publishResponse.parse

/-! ### LinkedIn -/

/-- `self.headers` of `LinkedInPublisher`. -/
def linkedinHeaders (apiVersion : String) : List (String × String) :=
  [("Authorization", "Bearer " ++ accessToken), ("X-Restli-Protocol-Version", "2.0.0"),
    ("Content-Type", "application/json"), ("LinkedIn-Version", apiVersion)]

/-- The last step of both methods: the post, and `x-restli-id` of the answer. -/
def createPost (apiVersion : String) (payload : Dict) (kind missing : String) : Talk String := do
  let response ← exchange w
    ⟨.post, .posts, linkedinHeaders accessToken apiVersion, .json (.obj payload)⟩
  Prog.require (response.status = 201)
    (.integration ("Failed to publish " ++ kind ++ " post: " ++ response.text))
  let postId := response.header "x-restli-id"
  Prog.require (truthy postId = true) (.integration missing)
  pure (postId.getD "")

/-- The payload of a post. -/
def postPayload (authorUrn text : String) : Dict :=
  [("author", .str authorUrn), ("lifecycleState", .str "PUBLISHED"), ("commentary", .str text),
    ("visibility", .str "PUBLIC")]

/-- `LinkedInPublisher.publish_text_post`. -/
def linkedinTextPost (apiVersion authorUrn text : String) : Talk String :=
  createPost w accessToken apiVersion (postPayload authorUrn text) "text"
    "LinkedIn returned success but 'x-restli-id' was missing from headers."

/-- `LinkedInPublisher._initialize_upload`. -/
def initializeUpload (apiVersion authorUrn : String) : Talk (Json × Json) := do
  let response ← exchange w ⟨.post, .initializeUpload, linkedinHeaders accessToken apiVersion,
    .json (.obj [("initializeUploadRequest", .obj [("owner", .str authorUrn)])])⟩
  Prog.require (response.status = 200)
    (.integration ("Failed to initialize image upload: " ++ response.text))
  let data ← Prog.ofExcept response.parse
  -- Only a `KeyError` is caught
  match (do
    let value ← subscript data "value"
    let uploadUrl ← subscript value "uploadUrl"
    let imageUrn ← subscript value "image"
    return (uploadUrl, imageUrn) : Except Exc (Json × Json)) with
  | .error (.keyError _) =>
    Prog.raise (.integration ("Invalid response from initializeUpload: " ++ response.text))
  | x => Prog.ofExcept x

/-- `LinkedInPublisher._upload_binary`. The address has to be a text. -/
def uploadBinary (uploadUrl : Json) (imageBinary : List UInt8) (mimeType : String) : Talk Unit :=
  match asStr strOf uploadUrl with
  | none => Prog.raise .typeError
  | some url => do
    let response ← exchange w ⟨.put, .upload url, [("Content-Type", mimeType)], .content imageBinary⟩
    Prog.require (response.status = 200 ∨ response.status = 201)
      (.integration ("Failed to upload image binary: " ++ response.text))

/-- `LinkedInPublisher.publish_image_post`. -/
def linkedinImagePost (apiVersion authorUrn text : String) (imageBinary : List UInt8)
    (mimeType : String) : Talk String := do
  let (uploadUrl, imageUrn) ← initializeUpload w accessToken apiVersion authorUrn
  uploadBinary w strOf uploadUrl imageBinary mimeType
  createPost w accessToken apiVersion (postPayload authorUrn text ++
      [("content", .obj [("media", .obj [("id", imageUrn)])])]) "image"
    "LinkedIn returned success for image post but 'x-restli-id' was missing from headers."

/-! ### Twitter -/

/-- The payload of a tweet. -/
def tweetPayload (text : String) (mediaIds : List String) : Dict :=
  (if text = "" then [] else [("text", .str text)]) ++
    if mediaIds = [] then []
    else [("media", .obj [("media_ids", .arr (mediaIds.map Json.str))])]

/-- `TwitterPublisher.publish_post`. -/
def tweet (text : String) (mediaIds : List String) : Talk String := do
  Prog.require (strip text ≠ "" ∨ mediaIds ≠ [])
    (.integration "Tweet must contain either text or media.")
  let response ← exchange w ⟨.post, .tweets,
    [("Authorization", "Bearer " ++ accessToken), ("Content-Type", "application/json")],
    .json (.obj (tweetPayload text mediaIds))⟩
  Prog.require (response.status ≠ 401) (.integration "Twitter access token is missing or expired.")
  Prog.require (response.status = 200 ∨ response.status = 201)
    (.integration ("Twitter API error (" ++ toString response.status ++ "): " ++ response.text))
  let data ← Prog.ofExcept (response.parse.mapError fun _ =>
    .integration ("Malformed JSON response from Twitter API: " ++ response.text))
  let inner ← Prog.ofExcept (get data "data" (.obj []))
  let tweetId ← Prog.ofExcept (get inner "id" .null)
  Prog.require (isTruthy tweetId = true)
    (.integration ("Twitter API response missing tweet ID: " ++ strOf data))
  pure (strOf tweetId)

/-! ### Google -/

/-- `GoogleBusinessProfilePublisher.publish_post`. -/
def localPost (accountId text : String) (imageUrl : Option String) : Talk String := do
  let media : Dict := if truthy imageUrl = true then
      [("media", .arr [.obj [("mediaFormat", .str "PHOTO"), ("sourceUrl", .str (imageUrl.getD ""))]])]
    else []
  let response ← exchange w ⟨.post, .localPosts accountId,
    [("Authorization", "Bearer " ++ accessToken), ("Content-Type", "application/json")],
    .json (.obj ([("languageCode", .str "en-US"), ("summary", .str text),
      ("topicType", .str "STANDARD")] ++ media))⟩
  Prog.require (response.status ≠ 401)
    (.integration "Google Business Profile access token is invalid or expired.")
  Prog.require (response.status ≠ 403)
    (.integration "Forbidden. Ensure the account has permission and 'business.manage' scope.")
  Prog.require (response.status ≠ 429)
    (.integration "Google Business Profile rate limit exceeded.")
  Prog.require (response.status < 400) (.integration
    ("Google API returned error " ++ toString response.status ++ ": " ++ response.text))
  let data ← Prog.ofExcept response.parse
  let postName ← Prog.ofExcept (get data "name" .null)
  Prog.require (isTruthy postName = true)
    (.integration "Google Business Profile response missing 'name' identifier.")
  pure (strOf postName)

/-! ### A call for a post -/

/-- `str(id)` of a value that is true. -/
def idOf (id : Json) : Option String := if isTruthy id = true then some (strOf id) else none

/-- `response.get("id")`, which the providers for Meta make a text. -/
def idIn (response : Json) : Talk (Option String) := do
  let postId ← Prog.ofExcept (get response "id" .null)
  pure (idOf strOf postId)

/-- The id of a publisher that insists on one. -/
def found (p : Talk String) : Talk (Option String) := do
  let postId ← p
  pure (some postId)

/-- What the publishers are given besides: the version of LinkedIn's interface, and the uploads to
YouTube, which have a protocol of their own. -/
structure Setting where
  apiVersion : String
  uploadVideo : String → Post → Except Exc (Option String)

/-- The method of the publisher for a post, and the `id` that it gives. -/
def call (x : Setting) : Post → Talk (Option String)
  | .facebookText pageId message => facebookTextPost w accessToken pageId message >>= idIn strOf
  | .facebookImage pageId message imageUrl =>
    facebookImagePost w accessToken pageId message imageUrl >>= idIn strOf
  | .facebookVideo pageId title description fileUrl =>
    facebookVideoPost w accessToken pageId title description fileUrl >>= idIn strOf
  | .instagramImage igUserId imageUrl caption =>
    instagramImagePost w accessToken igUserId imageUrl caption >>= idIn strOf
  | .linkedinText authorUrn text =>
    found (linkedinTextPost w accessToken x.apiVersion authorUrn text)
  | .linkedinImage authorUrn text imageBinary mimeType =>
    found
      (linkedinImagePost w strOf accessToken x.apiVersion authorUrn text imageBinary mimeType)
  | .tweet text mediaIds => found (tweet w strOf accessToken text mediaIds)
  | .localPost accountId text imageUrl =>
    found (localPost w strOf accessToken accountId text imageUrl)
  | post@(.youtubeVideo ..) => Prog.ofExcept (x.uploadVideo accessToken post)

end Publishers

/-! ### What an answer says -/

/-- The value at a key of a JSON object. -/
def fieldOf (key : String) (default : Json) : Json → Option Json
  | .obj l => some ((l.lookup key).getD default)
  | _ => none

/-- The JSON of a response. -/
def jsonOf (response : Response) : Option Json := response.json.toOption

/-- **An answer accepts a post** if the publisher takes it for a success: the id in it, if there is
one. A platform may have made a post whose answer is lost or is none of these. -/
def Endpoint.accepted (strOf : Json → String) (response : Response) :
    Endpoint → Option (Option String)
  | feed _ | photos _ | videos _ | mediaPublish _ =>
    if response.status = 200 then
      ((jsonOf response).bind (fieldOf "id" .null)).map (idOf strOf)
    else none
  | posts =>
    if response.status = 201 ∧ truthy (response.header "x-restli-id") = true then
      some (response.header "x-restli-id")
    else none
  | tweets =>
    if response.status = 200 ∨ response.status = 201 then
      (((jsonOf response).bind (fieldOf "data" (.obj []))).bind (fieldOf "id" .null)).bind
        fun id => (idOf strOf id).map some
    else none
  | localPosts _ =>
    if response.status < 400 then
      ((jsonOf response).bind (fieldOf "name" .null)).bind fun id => (idOf strOf id).map some
    else none
  | media _ | initializeUpload | upload _ => none

/-- The call asks a platform for a post. -/
def Asks (q : Call) : Prop := q.request.endpoint.asksFor.isSome = true

/-- The call asks this platform for a post. -/
def AsksOf (platform : ApiProvider) (q : Call) : Prop :=
  q.request.endpoint.asksFor = some platform

/-- The acceptance in the answer to a call that asks the platform for a post. -/
def acceptedBy (strOf : Json → String) (platform : ApiProvider) (q : Call) :
    Option (Option String) :=
  match q.answer with
  | .ok response =>
    if q.request.endpoint.asksFor = some platform then q.request.endpoint.accepted strOf response
    else none
  | .error _ => none

/-- The id in an answer by which the platform accepts a post. -/
def acceptedId (strOf : Json → String) (platform : ApiProvider) (q : Call) : Option String :=
  (acceptedBy strOf platform q).join.filter fun id => id ≠ ""

/-! ### Every publisher commits last -/

variable {w : World} {strOf : Json → String} {token : String}

theorem acceptedBy_ok {i : Request} {platform : ApiProvider} {response : Response}
    (h : i.endpoint.asksFor = some platform) :
    acceptedBy strOf platform ⟨i, .ok response⟩ = i.endpoint.accepted strOf response := if_pos h

theorem parse_eq_ok {response : Response} {j : Json} :
    response.parse = .ok j ↔ jsonOf response = some j := by
  rw [Response.parse, jsonOf]
  rcases response.json with e | x
  · simp [Except.mapError, Except.toOption]
  · simp [Except.mapError, Except.toOption]

theorem mapError_parse_eq_ok {response : Response} {j : Json} {f : Exc → Exc} :
    response.parse.mapError f = .ok j ↔ jsonOf response = some j := by
  rw [← parse_eq_ok]
  rcases response.parse with e | x
  · simp [Except.mapError]
  · simp [Except.mapError]

theorem get_eq_ok {x default j : Json} {key : String} :
    Base.Payloads.get x key default = .ok j ↔ fieldOf key default x = some j := by
  cases x <;> simp [Base.Payloads.get, fieldOf]

theorem accepted_meta {endpoint : Endpoint} {response : Response} {a : Option String}
    (h : endpoint.asksFor = some .meta ∨ endpoint.asksFor = some .instagram) :
    endpoint.accepted strOf response = some a ↔ response.status = 200 ∧
      ∃ j, jsonOf response = some j ∧ ∃ i, fieldOf "id" .null j = some i ∧ a = idOf strOf i := by
  have hread : endpoint.accepted strOf response = if response.status = 200 then
      ((jsonOf response).bind (fieldOf "id" .null)).map (idOf strOf) else none := by
    cases endpoint <;> simp [Endpoint.asksFor] at h <;> rfl
  rw [hread]
  by_cases hstatus : response.status = 200
  · rw [if_pos hstatus, Option.map_eq_some_iff]
    simp only [Option.bind_eq_some_iff]
    constructor
    · rintro ⟨i, ⟨j, hj, hi⟩, rfl⟩
      exact ⟨hstatus, j, hj, i, hi, rfl⟩
    · rintro ⟨-, j, hj, i, hi, rfl⟩
      exact ⟨i, ⟨j, hj, hi⟩, rfl⟩
  · simp [hstatus]

theorem accepted_posts {response : Response} {a : Option String} :
    Endpoint.posts.accepted strOf response = some a ↔ response.status = 201 ∧
      truthy (response.header "x-restli-id") = true ∧
        a = some ((response.header "x-restli-id").getD "") := by
  by_cases hok : response.status = 201 ∧ truthy (response.header "x-restli-id") = true
  · obtain ⟨hstatus, htruthy⟩ := hok
    have hid : response.header "x-restli-id" =
        some ((response.header "x-restli-id").getD "") := by
      rcases hheader : response.header "x-restli-id" with _ | id
      · simp [hheader, truthy] at htruthy
      · rfl
    rw [Endpoint.accepted, if_pos ⟨hstatus, htruthy⟩, ← hid]
    simp [hstatus, htruthy, eq_comm]
  · rw [Endpoint.accepted, if_neg hok]
    simp only [reduceCtorEq, false_iff]
    exact fun h => hok ⟨h.1, h.2.1⟩

theorem map_idOf {i : Json} {a : Option String} :
    (idOf strOf i).map some = some a ↔ isTruthy i = true ∧ a = some (strOf i) := by
  unfold idOf
  split_ifs with h
  · simp [h, eq_comm]
  · simp [h]

theorem accepted_tweets {response : Response} {a : Option String} :
    Endpoint.tweets.accepted strOf response = some a ↔
      (response.status = 200 ∨ response.status = 201) ∧ ∃ j, jsonOf response = some j ∧
        ∃ data, fieldOf "data" (.obj []) j = some data ∧ ∃ i, fieldOf "id" .null data = some i ∧
          isTruthy i = true ∧ a = some (strOf i) := by
  by_cases hstatus : response.status = 200 ∨ response.status = 201
  · rw [Endpoint.accepted, if_pos hstatus]
    simp only [Option.bind_eq_some_iff, map_idOf]
    constructor
    · rintro ⟨i, ⟨data, ⟨j, hj, hdata⟩, hi⟩, ha⟩
      exact ⟨hstatus, j, hj, data, hdata, i, hi, ha⟩
    · rintro ⟨-, j, hj, data, hdata, i, hi, ha⟩
      exact ⟨i, ⟨data, ⟨j, hj, hdata⟩, hi⟩, ha⟩
  · rw [Endpoint.accepted, if_neg hstatus]
    simp [hstatus]

theorem accepted_localPosts {accountId : String} {response : Response} {a : Option String} :
    (Endpoint.localPosts accountId).accepted strOf response = some a ↔ response.status < 400 ∧
      ∃ j, jsonOf response = some j ∧ ∃ i, fieldOf "name" .null j = some i ∧
        isTruthy i = true ∧ a = some (strOf i) := by
  by_cases hstatus : response.status < 400
  · rw [Endpoint.accepted, if_pos hstatus]
    simp only [Option.bind_eq_some_iff, map_idOf]
    constructor
    · rintro ⟨i, ⟨j, hj, hi⟩, ha⟩
      exact ⟨hstatus, j, hj, i, hi, ha⟩
    · rintro ⟨-, j, hj, i, hi, ha⟩
      exact ⟨i, ⟨j, hj, hi⟩, ha⟩
  · rw [Endpoint.accepted, if_neg hstatus]
    simp [hstatus]

theorem commitsLast_form {endpoint : Endpoint} {fields : List (String × Json)} {kind : String}
    (h : endpoint.asksFor = some .meta) :
    CommitsLast Asks (AsksOf .meta) (acceptedBy strOf .meta)
      (publishForm w token endpoint fields kind >>= idIn strOf) := by
  unfold publishForm
  rw [Prog.bind_assoc]
  refine commitsLast_exchange (fun _ => ?_) (fun r => ?_) fun x a s => ?_
  · simp [Asks, AsksOf, h]
  · refine Prog.frames_bind ?_ fun _ => ?_
    · refine Prog.frames_bind (Prog.frames_require _ _) fun _ => Prog.frames_ofExcept _
    · exact Prog.frames_bind (Prog.frames_ofExcept _) fun _ => Prog.frames_pure _
  · rcases x with e | r
    · simp [acceptedBy]
    · rw [acceptedBy_ok h, accepted_meta (Or.inl h)]
      simp [parse_eq_ok, get_eq_ok, idIn, and_assoc]

theorem quiet_createContainer {igUserId imageUrl caption : String} :
    Quiet Asks (createContainer w token igUserId imageUrl caption) := by
  refine quiet_bind (quiet_exchange fun _ => by simp [Asks, Endpoint.asksFor]) fun r => ?_
  refine quiet_of_silent (Prog.frames_bind (Prog.frames_require _ _) fun _ => ?_)
  refine Prog.frames_bind (Prog.frames_ofExcept _) fun _ => ?_
  refine Prog.frames_bind (Prog.frames_ofExcept _) fun _ => ?_
  exact Prog.frames_bind (Prog.frames_require _ _) fun _ => Prog.frames_pure _

theorem commitsLast_instagram {igUserId imageUrl caption : String} :
    CommitsLast Asks (AsksOf .instagram) (acceptedBy strOf .instagram)
      (instagramImagePost w token igUserId imageUrl caption >>= idIn strOf) := by
  unfold instagramImagePost
  rw [Prog.bind_assoc]
  refine commitsLast_bind quiet_createContainer fun creationId => ?_
  rw [Prog.bind_assoc]
  refine commitsLast_exchange (fun _ => ?_) (fun r => ?_) fun x a s => ?_
  · simp [Asks, AsksOf, Endpoint.asksFor]
  · refine Prog.frames_bind ?_ fun _ => ?_
    · refine Prog.frames_bind (Prog.frames_require _ _) fun _ => Prog.frames_ofExcept _
    · exact Prog.frames_bind (Prog.frames_ofExcept _) fun _ => Prog.frames_pure _
  · rcases x with e | r
    · simp [acceptedBy]
    · rw [acceptedBy_ok rfl, accepted_meta (Or.inr rfl)]
      simp [parse_eq_ok, get_eq_ok, idIn, and_assoc]

theorem frames_found {p : Talk String} (hp : p.Frames id) : (found p).Frames id :=
  Prog.frames_bind hp fun _ => Prog.frames_pure _

theorem commitsLast_createPost {apiVersion : String} {payload : Dict} {kind missing : String} :
    CommitsLast Asks (AsksOf .linkedin) (acceptedBy strOf .linkedin)
      (found (createPost w token apiVersion payload kind missing)) := by
  unfold found createPost
  rw [Prog.bind_assoc]
  refine commitsLast_exchange (fun _ => ?_) (fun r => ?_) fun x a s => ?_
  · simp [Asks, AsksOf, Endpoint.asksFor]
  · refine frames_found (Prog.frames_bind (Prog.frames_require _ _) fun _ => ?_)
    exact Prog.frames_bind (Prog.frames_require _ _) fun _ => Prog.frames_pure _
  · rcases x with e | r
    · simp [acceptedBy]
    · rw [acceptedBy_ok rfl, accepted_posts]
      simp [and_assoc]

theorem quiet_initializeUpload {apiVersion authorUrn : String} :
    Quiet Asks (initializeUpload w token apiVersion authorUrn) := by
  refine quiet_bind (quiet_exchange fun _ => by simp [Asks, Endpoint.asksFor]) fun r => ?_
  refine quiet_of_silent (Prog.frames_bind (Prog.frames_require _ _) fun _ => ?_)
  refine Prog.frames_bind (Prog.frames_ofExcept _) fun data => ?_
  split
  · exact Prog.frames_raise _
  · exact Prog.frames_ofExcept _

theorem quiet_uploadBinary {uploadUrl : Json} {imageBinary : List UInt8} {mimeType : String} :
    Quiet Asks (uploadBinary w strOf uploadUrl imageBinary mimeType) := by
  unfold uploadBinary
  rcases asStr strOf uploadUrl with _ | url
  · exact quiet_of_silent (Prog.frames_raise _)
  · refine quiet_bind (quiet_exchange fun _ => by simp [Asks, Endpoint.asksFor]) fun r => ?_
    exact quiet_of_silent (Prog.frames_require _ _)

theorem commitsLast_linkedinImage {apiVersion authorUrn text : String} {imageBinary : List UInt8}
    {mimeType : String} : CommitsLast Asks (AsksOf .linkedin) (acceptedBy strOf .linkedin)
      (found (linkedinImagePost w strOf token apiVersion authorUrn text imageBinary mimeType)) := by
  unfold found linkedinImagePost
  rw [Prog.bind_assoc]
  refine commitsLast_bind quiet_initializeUpload fun p => ?_
  rw [Prog.bind_assoc]
  exact commitsLast_bind quiet_uploadBinary fun _ => commitsLast_createPost

theorem commitsLast_tweet {text : String} {mediaIds : List String} :
    CommitsLast Asks (AsksOf .twitter) (acceptedBy strOf .twitter)
      (found (tweet w strOf token text mediaIds)) := by
  unfold found tweet
  rw [Prog.bind_assoc]
  refine commitsLast_bind (quiet_of_silent (Prog.frames_require _ _)) fun _ => ?_
  rw [Prog.bind_assoc]
  refine commitsLast_exchange (fun _ => ?_) (fun r => ?_) fun x a s => ?_
  · simp [Asks, AsksOf, Endpoint.asksFor]
  · refine frames_found (Prog.frames_bind (Prog.frames_require _ _) fun _ => ?_)
    refine Prog.frames_bind (Prog.frames_require _ _) fun _ => ?_
    refine Prog.frames_bind (Prog.frames_ofExcept _) fun _ => ?_
    refine Prog.frames_bind (Prog.frames_ofExcept _) fun _ => ?_
    refine Prog.frames_bind (Prog.frames_ofExcept _) fun _ => ?_
    exact Prog.frames_bind (Prog.frames_require _ _) fun _ => Prog.frames_pure _
  · rcases x with e | r
    · simp [acceptedBy]
    · have hstatus : (r.status ≠ 401 ∧ (r.status = 200 ∨ r.status = 201)) ↔
          (r.status = 200 ∨ r.status = 201) := by omega
      rw [acceptedBy_ok rfl, accepted_tweets, ← hstatus]
      simp [mapError_parse_eq_ok, get_eq_ok, and_assoc]

theorem commitsLast_localPost {accountId text : String} {imageUrl : Option String} :
    CommitsLast Asks (AsksOf .google) (acceptedBy strOf .google)
      (found (localPost w strOf token accountId text imageUrl)) := by
  unfold found localPost
  rw [Prog.bind_assoc]
  refine commitsLast_exchange (fun _ => ?_) (fun r => ?_) fun x a s => ?_
  · simp [Asks, AsksOf, Endpoint.asksFor]
  · refine frames_found (Prog.frames_bind (Prog.frames_require _ _) fun _ => ?_)
    refine Prog.frames_bind (Prog.frames_require _ _) fun _ => ?_
    refine Prog.frames_bind (Prog.frames_require _ _) fun _ => ?_
    refine Prog.frames_bind (Prog.frames_require _ _) fun _ => ?_
    refine Prog.frames_bind (Prog.frames_ofExcept _) fun _ => ?_
    refine Prog.frames_bind (Prog.frames_ofExcept _) fun _ => ?_
    exact Prog.frames_bind (Prog.frames_require _ _) fun _ => Prog.frames_pure _
  · rcases x with e | r
    · simp [acceptedBy]
    · have hstatus : (r.status ≠ 401 ∧ r.status ≠ 403 ∧ r.status ≠ 429 ∧ r.status < 400) ↔
          r.status < 400 := by omega
      rw [acceptedBy_ok rfl, accepted_localPosts, ← hstatus]
      simp [parse_eq_ok, get_eq_ok, and_assoc]

/-- A video for YouTube. -/
def isUpload : Post → Bool
  | .youtubeVideo .. => true
  | _ => false

/-- **A publisher asks for one post at most, with its last request**, and gives the id in the
answer. -/
theorem commitsLast_call {x : Setting} {post : Post} (h : isUpload post = false) :
    CommitsLast Asks (AsksOf post.provider) (acceptedBy strOf post.provider)
      (call w strOf token x post) := by
  cases post with
  | facebookText pageId message => exact commitsLast_form rfl
  | facebookImage pageId message imageUrl => exact commitsLast_form rfl
  | facebookVideo pageId title description fileUrl => exact commitsLast_form rfl
  | instagramImage igUserId imageUrl caption => exact commitsLast_instagram
  | linkedinText authorUrn text => exact commitsLast_createPost
  | linkedinImage authorUrn text imageBinary mimeType => exact commitsLast_linkedinImage
  | tweet text mediaIds => exact commitsLast_tweet
  | localPost accountId text imageUrl => exact commitsLast_localPost
  | youtubeVideo => exact absurd h (by simp [isUpload])

end MarketingSuite.Social.Publishers
