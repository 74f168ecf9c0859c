import MarketingSuite.Base.Http
import MarketingSuite.Lib.Loops

/-! # Uploading to YouTube

`YouTubePublisher.upload_video` of `app/integrations/connectors/google/youtube.py`. It opens an upload
and sends the asset in a loop that begins again where the server says it got to. What the servers
answer in a round of the loop is a `Round`. -/

namespace MarketingSuite.Uploads.YouTube

open MarketingSuite.Lib.Programs MarketingSuite.Lib.Loops
open MarketingSuite.Base.Values MarketingSuite.Base.Payloads MarketingSuite.Base.Http

/-- What is raised: `GoogleApiError`, its subclass `GoogleQuotaError`, `GoogleAuthError`,
`httpx.RequestError`, and what Python raises. -/
inductive UploadError
  | api (text : String) (statusCode : Option ℕ)
  | quota (text : String)
  | auth (text : String)
  | request (text : String)
  | python (e : Exc)
deriving DecidableEq, Repr

/-- `except (httpx.RequestError, GoogleApiError)`. -/
def UploadError.isCaught : UploadError → Bool
  | api .. | quota _ | request _ => true
  | auth _ | python _ => false

/-- `str(e)`, of an error that is caught. -/
def UploadError.str : UploadError → String
  | api text _ | quota text | auth text | request text => text
  | python _ => ""

/-- A request that got no response. -/
def lost : Lost → UploadError
  | .request text => .request text
  | .other e => .python e

/-- The answer to a request. -/
def answer {α σ : Type} (x : Except Lost α) : Prog σ UploadError α := Prog.ofExcept (x.mapError lost)

/-- `_handle_errors`. -/
def handleErrors {σ : Type} (response : Response) : Prog σ UploadError Unit :=
  if response.status = 401 then
    Prog.raise (.auth "Google access token is invalid or expired.")
  else if response.status = 403 then
    Prog.raise (.auth "Forbidden. Ensure the account has permission and 'youtube.upload' scope.")
  else if response.status = 429 then Prog.raise (.quota "YouTube rate limit exceeded.")
  else if 400 ≤ response.status then
    Prog.raise (.api ("YouTube API returned error " ++ toString response.status ++ ": " ++
      response.text) (some response.status))
  else pure ()

/-! ### Opening the upload -/

/-- The request that opens an upload. -/
structure Opening where
  authorization : String
  contentLength : String
  contentType : String
  title : String
  description : String
  privacyStatus : String

/-- The first characters of a text, or what stands for none. -/
def shortened (n : ℕ) (default : String) (s : String) : String :=
  if s = "" then default else String.ofList (s.toList.take n)

/-- What `upload_video` is called with, the address of the asset apart. -/
structure Video where
  title : String
  description : String
  fileSize : ℤ
  mimeType : String

/-- The headers and the payload of the first request. -/
def opening (accessToken : String) (v : Video) : Opening where
  authorization := "Bearer " ++ accessToken
  contentLength := toString v.fileSize
  contentType := v.mimeType
  title := shortened 100 "Untitled Video" v.title
  description := shortened 5000 "" v.description
  privacyStatus := "private"

/-- The URL of the opened upload. -/
def locationOf (response : Response) : Prog σ UploadError String := do
  handleErrors response
  let location := (response.header "Location").getD ""
  Prog.require (location ≠ "")
    (.api "YouTube upload initialization failed: missing Location header." none)
  pure location

/-! ### The requests of a round -/

/-- A response that is streamed, with all its bytes. -/
structure AssetResponse where
  status : ℕ
  body : List UInt8

/-- `Content-Range`. -/
structure ContentRange where
  first : ℕ
  last : ℤ
  total : ℤ
deriving DecidableEq, Repr

def ContentRange.text (r : ContentRange) : String :=
  "bytes " ++ toString r.first ++ "-" ++ toString r.last ++ "/" ++ toString r.total

/-- A request that sends a part of the video. -/
structure Put where
  contentLength : ℤ
  contentRange : ContentRange
  body : List UInt8
deriving DecidableEq, Repr

/-- The answers of one round: to the GET of the asset with the `Range` that begins at a byte, if it
has one, to the PUT, and to the PUT that asks for the status of an upload of so many bytes. -/
structure Round where
  asset : Option ℕ → Except Lost AssetResponse
  put : Put → Except Lost Response
  status : ℤ → Except Lost Response

/-- The variables of the loop, and what was sent so far. -/
structure Upload where
  uploadedBytes : ℕ
  retries : ℕ
  puts : List Put

/-- A part of a round. `some` is an id that is returned. -/
abbrev Work (α : Type) : Type := Prog Upload UploadError α

variable (fileSize : ℤ) (r : Round)

/-- What is sent of what the asset server gave. -/
def putFrom (uploadedBytes : ℕ) (body : List UInt8) : Put where
  contentLength := fileSize - uploadedBytes
  contentRange := ⟨uploadedBytes, fileSize - 1, fileSize⟩
  body := body

/-- The `Range` of the GET. -/
def rangeFrom (uploadedBytes : ℕ) : Option ℕ := if 0 < uploadedBytes then some uploadedBytes else none

/-- The GET, and the PUT of what it streams. -/
def transfer : Work Response := do
  let uploadedBytes ← Prog.gets Upload.uploadedBytes
  let asset ← answer (r.asset (rangeFrom uploadedBytes))
  Prog.require (asset.status = 200 ∨ asset.status = 206)
    (.api ("Failed to fetch asset from URL: " ++ toString asset.status) none)
  let put := putFrom fileSize uploadedBytes asset.body
  Prog.modify fun s => { s with puts := s.puts ++ [put] }
  answer (r.put put)

/-- `response.json().get("id")`. -/
def idOf (response : Response) : Work Json :=
  Prog.ofExcept ((response.parse >>= fun data => get data "id" .null).mapError .python)

/-- The `Range` header of a response, if it is not empty. -/
def rangeOf (response : Response) : Option String :=
  (response.header "Range").bind fun range => if range = "" then none else some range

/-- `uploaded_bytes = int(range_header.split("-")[1]) + 1`. -/
def acknowledge (range : String) : Work Unit := do
  let lastByte ← Prog.ofExcept ((lastByteOf range).mapError .python)
  Prog.modify fun s => { s with uploadedBytes := lastByte + 1 }

/-- What follows the response to a PUT. -/
def receive (response : Response) : Work (Option Json) := do
  if response.status = 200 ∨ response.status = 201 then
    let videoId ← idOf response
    Prog.require (isTruthy videoId = true) (.api "YouTube response missing video 'id'." none)
    pure (some videoId)
  else if response.status = 308 then
    match rangeOf response with
    | some range =>
      acknowledge range
      pure none
    | none => Prog.raise (.api "308 response missing Range header." none)
  else
    handleErrors response
    pure none

/-- The `except` clause up to the response of the status query. -/
def query (e : UploadError) : Work Response := do
  Prog.modify fun s => { s with retries := s.retries - 1 }
  let retries ← Prog.gets Upload.retries
  Prog.require (retries ≠ 0) (.api ("YouTube video upload failed after retries: " ++ e.str) none)
  answer (r.status fileSize)

/-- What follows the response to a status query. -/
def recover (response : Response) : Work (Option Json) := do
  if response.status = 308 then
    match rangeOf response with
    | some range =>
      acknowledge range
      pure none
    | none =>
      Prog.modify fun s => { s with uploadedBytes := 0 }
      pure none
  else if response.status = 200 ∨ response.status = 201 then
    let videoId ← idOf response
    pure (some videoId)
  else
    handleErrors response
    pure none

/-- A round of the loop, which goes on without an id. -/
def attempt : Work (Option Json) :=
  (transfer fileSize r >>= receive).handle fun e =>
    if e.isCaught = true then query fileSize r e >>= recover else Prog.raise e

/-! ### The loop -/

/-- How an upload ends, and the state it leaves. -/
abbrev Outcome : Type := Except UploadError Json × Upload

/-- What is raised after the loop. -/
def incomplete : UploadError := .api "YouTube upload did not complete." none

/-- The condition of the `while`. -/
def Active (s : Upload) : Prop := (s.uploadedBytes : ℤ) < fileSize ∧ 0 < s.retries

instance (s : Upload) : Decidable (Active fileSize s) := inferInstanceAs (Decidable (_ ∧ _))

/-- A round, with the condition before it. -/
def body (s : Upload) (r : Round) : Upload ⊕ Outcome :=
  if Active fileSize s then
    match attempt fileSize r s with
    | (.ok none, t) => .inl t
    | (.ok (some videoId), t) => .inr (.ok videoId, t)
    | (.error e, t) => .inr (.error e, t)
  else .inr (.error incomplete, s)

/-- The variables before the loop. -/
def begun : Upload := ⟨0, 3, []⟩

/-- The servers, as they answer to one upload. -/
structure Servers where
  post : Opening → Except Lost Response
  round : ℕ → Round

section Runs

variable (accessToken : String) (v : Video) (w : Servers)

/-- The first request, and the URL of the upload. -/
def openUpload : Work String := answer (w.post (opening accessToken v)) >>= locationOf

/-- `upload_video` up to the loop. -/
def start : Upload ⊕ Outcome :=
  match openUpload accessToken v w begun with
  | (.ok _, s) => .inl s
  | (.error e, s) => .inr (.error e, s)

/-- `upload_video`, after `k` rounds of the loop. -/
def uploadVideo (k : ℕ) : Upload ⊕ Outcome :=
  rounds (body v.fileSize) w.round (start accessToken v w) k

/-- The upload comes to the round `k` of the loop. -/
def InRound (k : ℕ) (s : Upload) : Prop := uploadVideo accessToken v w k = .inl s

/-- The upload ends so. -/
def Finishes (x : Outcome) : Prop := ∃ k, uploadVideo accessToken v w k = .inr x

end Runs

/-! ### What a round does -/

variable {fileSize r} {s t u : Upload} {e : UploadError} {response : Response} {videoId : Json}

theorem body_goes_on :
    body fileSize s r = .inl t ↔ Active fileSize s ∧ (attempt fileSize r).Returns s none t := by
  unfold body Prog.Returns
  by_cases hactive : Active fileSize s
  · rw [if_pos hactive]
    rcases attempt fileSize r s with ⟨e | _ | videoId, t'⟩
    · simp
    · simp [hactive]
    · simp
  · simp [hactive]

theorem body_returns : body fileSize s r = .inr (.ok videoId, t) ↔
    Active fileSize s ∧ (attempt fileSize r).Returns s (some videoId) t := by
  unfold body Prog.Returns
  by_cases hactive : Active fileSize s
  · rw [if_pos hactive]
    rcases attempt fileSize r s with ⟨e | _ | videoId', t'⟩
    · simp
    · simp
    · simp [hactive]
  · simp [hactive]

theorem body_raises : body fileSize s r = .inr (.error e, t) ↔
    (Active fileSize s ∧ (attempt fileSize r).Raises s e t) ∨
      (¬ Active fileSize s ∧ e = incomplete ∧ t = s) := by
  unfold body Prog.Raises
  by_cases hactive : Active fileSize s
  · rw [if_pos hactive]
    rcases attempt fileSize r s with ⟨e' | _ | videoId, t'⟩
    · simp [hactive]
    · simp [hactive]
    · simp [hactive]
  · simp [hactive, eq_comm]

variable (fileSize r)

/-- The PUT of a round is answered. -/
def Sent (s : Upload) (response : Response) (t : Upload) : Prop :=
  (transfer fileSize r).Returns s response t

/-- The status query of a round is answered. -/
def Queried (s : Upload) (response : Response) (t : Upload) : Prop :=
  ∃ e u, (transfer fileSize r >>= receive).Raises s e u ∧ e.isCaught = true ∧
    (query fileSize r e).Returns u response t

/-- A response in a round, to its PUT or to its status query. -/
def Answered (s : Upload) (response : Response) : Prop :=
  ∃ t, Sent fileSize r s response t ∨ Queried fileSize r s response t

variable {fileSize r}

/-- **A round returns** what the answer to its PUT, or to its status query, makes it return. -/
theorem attempt_returns_iff {x : Option Json} : (attempt fileSize r).Returns s x t ↔
    (∃ response u, Sent fileSize r s response u ∧ (receive response).Returns u x t) ∨
      ∃ response u, Queried fileSize r s response u ∧ (recover response).Returns u x t := by
  unfold attempt
  rw [Prog.returns_handle, Prog.returns_bind]
  refine or_congr Iff.rfl ?_
  constructor
  · rintro ⟨e, u, hraises, h⟩
    rcases hcaught : e.isCaught with _ | _
    · simp [hcaught] at h
    · rw [if_pos hcaught, Prog.returns_bind] at h
      obtain ⟨response, u', hquery, hrecover⟩ := h
      exact ⟨response, u', ⟨e, u, hraises, hcaught, hquery⟩, hrecover⟩
  · rintro ⟨response, u', ⟨e, u, hraises, hcaught, hquery⟩, hrecover⟩
    refine ⟨e, u, hraises, ?_⟩
    rw [if_pos hcaught]
    exact Prog.returns_bind.mpr ⟨response, u', hquery, hrecover⟩

/-! ### What follows an answer -/

/-- The upload is accepted. -/
def Accepted (response : Response) : Prop := response.status = 200 ∨ response.status = 201

/-- A status that `_handle_errors` lets pass, and that nothing else looks at. -/
def Passes (response : Response) : Prop :=
  response.status < 400 ∧ response.status ≠ 308 ∧ ¬ Accepted response

instance (response : Response) : Decidable (Accepted response) :=
  inferInstanceAs (Decidable (_ ∨ _))

instance (response : Response) : Decidable (Passes response) := inferInstanceAs (Decidable (_ ∧ _))

/-- How many bytes a response with the status 308 acknowledges. -/
def acknowledged (response : Response) : Option ℕ :=
  if response.status = 308 then
    (rangeOf response).bind fun range => (lastByteOf range).toOption.map fun n => n + 1
  else none

/-- The id in a response. -/
def videoIdOf (response : Response) : Except Exc Json :=
  response.parse >>= fun data => get data "id" .null

theorem returns_handleErrors {a : Unit} : (handleErrors response : Work Unit).Returns s a t ↔
    response.status < 400 ∧ t = s := by
  unfold handleErrors
  split_ifs with h401 h403 h429 h400
  · simp [h401]
  · simp [h403]
  · simp [h429]
  · simp [not_lt.mpr h400]
  · simp [not_le.mp h400]

theorem returns_idOf : (idOf response).Returns s videoId t ↔
    videoIdOf response = .ok videoId ∧ t = s := by
  rw [idOf, Prog.returns_ofExcept]
  refine and_congr_left fun _ => ?_
  show (videoIdOf response).mapError _ = _ ↔ _
  rcases videoIdOf response with e | id
  · simp [Except.mapError]
  · simp [Except.mapError]

theorem acknowledged_eq_some {n : ℕ} : acknowledged response = some n ↔
    response.status = 308 ∧ ∃ range m, rangeOf response = some range ∧
      lastByteOf range = .ok m ∧ n = m + 1 := by
  unfold acknowledged
  by_cases h308 : response.status = 308
  · rcases hrange : rangeOf response with _ | range
    · simp [h308]
    · rcases hlast : lastByteOf range with e | m
      · simp [h308, hlast, Except.toOption]
      · simp [h308, hlast, Except.toOption, eq_comm]
  · simp [h308]

theorem returns_acknowledge {x : Option Json} {range : String} (h308 : response.status = 308)
    (hrange : rangeOf response = some range) :
    (acknowledge range >>= fun _ => (pure none : Work (Option Json))).Returns s x t ↔
      x = none ∧ ∃ n, acknowledged response = some n ∧ t = { s with uploadedBytes := n } := by
  unfold acknowledge acknowledged
  rw [if_pos h308, hrange]
  rcases hlast : lastByteOf range with e | m
  · simp [hlast, Except.mapError, Except.toOption]
  · simp [hlast, Except.mapError, Except.toOption, and_comm]

/-- **After a PUT**: what goes on. -/
theorem receive_goes_on : (receive response).Returns s none t ↔
    (∃ n, acknowledged response = some n ∧ t = { s with uploadedBytes := n }) ∨
      (Passes response ∧ t = s) := by
  unfold receive
  by_cases haccepted : Accepted response
  · have h308 : response.status ≠ 308 := by
      rcases haccepted with h | h
      · simp [h]
      · simp [h]
    have hpasses : ¬ Passes response := fun h => h.2.2 haccepted
    rw [if_pos (show response.status = 200 ∨ response.status = 201 from haccepted)]
    simp [acknowledged, h308, hpasses]
  · rw [if_neg (show ¬ (response.status = 200 ∨ response.status = 201) from haccepted)]
    by_cases h308 : response.status = 308
    · rw [if_pos h308]
      have hpasses : ¬ Passes response := fun h => h.2.1 h308
      rcases hrange : rangeOf response with _ | range
      · simp [hpasses, acknowledged_eq_some, hrange]
      · simp [returns_acknowledge h308 hrange, hpasses]
    · rw [if_neg h308]
      simp [returns_handleErrors, acknowledged, h308, Passes, haccepted]

/-- **After a PUT**: what is returned. -/
theorem receive_returns : (receive response).Returns s (some videoId) t ↔
    Accepted response ∧ videoIdOf response = .ok videoId ∧ isTruthy videoId = true ∧ t = s := by
  unfold receive
  by_cases haccepted : Accepted response
  · rw [if_pos (show response.status = 200 ∨ response.status = 201 from haccepted)]
    simp only [Prog.returns_bind, returns_idOf, Prog.returns_require, Prog.returns_pure,
      Option.some.injEq, haccepted, true_and]
    constructor
    · rintro ⟨_, _, ⟨hid, rfl⟩, -, _, ⟨htruthy, rfl⟩, rfl, rfl⟩
      exact ⟨hid, htruthy, rfl⟩
    · rintro ⟨hid, htruthy, rfl⟩
      exact ⟨videoId, t, ⟨hid, rfl⟩, (), t, ⟨htruthy, rfl⟩, rfl, rfl⟩
  · rw [if_neg (show ¬ (response.status = 200 ∨ response.status = 201) from haccepted)]
    split_ifs
    · rcases rangeOf response with _ | range
      · simp [haccepted]
      · simp [haccepted]
    · simp [haccepted]

/-- **After a status query**: what goes on. -/
theorem recover_goes_on : (recover response).Returns s none t ↔
    (∃ n, acknowledged response = some n ∧ t = { s with uploadedBytes := n }) ∨
      (response.status = 308 ∧ rangeOf response = none ∧ t = { s with uploadedBytes := 0 }) ∨
      (Passes response ∧ t = s) := by
  unfold recover
  by_cases h308 : response.status = 308
  · rw [if_pos h308]
    have hpasses : ¬ Passes response := fun h => h.2.1 h308
    rcases hrange : rangeOf response with _ | range
    · simp [hpasses, acknowledged_eq_some, hrange, h308]
    · simp [returns_acknowledge h308 hrange, hpasses]
  · rw [if_neg h308]
    by_cases haccepted : Accepted response
    · have hpasses : ¬ Passes response := fun h => h.2.2 haccepted
      rw [if_pos (show response.status = 200 ∨ response.status = 201 from haccepted)]
      simp [acknowledged, h308, hpasses]
    · rw [if_neg (show ¬ (response.status = 200 ∨ response.status = 201) from haccepted)]
      simp [returns_handleErrors, acknowledged, h308, Passes, haccepted]

/-- **After a status query**: what is returned, which nothing checks. -/
theorem recover_returns : (recover response).Returns s (some videoId) t ↔
    Accepted response ∧ videoIdOf response = .ok videoId ∧ t = s := by
  unfold recover
  by_cases h308 : response.status = 308
  · have haccepted : ¬ Accepted response := by simp [Accepted, h308]
    rw [if_pos h308]
    rcases rangeOf response with _ | range
    · simp [haccepted]
    · simp [haccepted]
  · rw [if_neg h308]
    by_cases haccepted : Accepted response
    · rw [if_pos (show response.status = 200 ∨ response.status = 201 from haccepted)]
      simp only [Prog.returns_bind, returns_idOf, Prog.returns_pure, Option.some.injEq, haccepted,
        true_and]
      constructor
      · rintro ⟨_, _, ⟨hid, rfl⟩, rfl, rfl⟩
        exact ⟨hid, rfl⟩
      · rintro ⟨hid, rfl⟩
        exact ⟨videoId, t, ⟨hid, rfl⟩, rfl, rfl⟩
    · rw [if_neg (show ¬ (response.status = 200 ∨ response.status = 201) from haccepted)]
      simp [haccepted]

/-! ### What it leaves alone -/

section Frames

variable {β : Type} {f : Upload → β}

theorem frames_answer {α : Type} (x : Except Lost α) : (answer x : Work α).Frames f :=
  Prog.frames_ofExcept _

theorem frames_handleErrors (response : Response) : (handleErrors response : Work Unit).Frames f :=
  Prog.frames_ite (Prog.frames_raise _) <| Prog.frames_ite (Prog.frames_raise _) <|
    Prog.frames_ite (Prog.frames_raise _) <| Prog.frames_ite (Prog.frames_raise _)
      (Prog.frames_pure _)

theorem frames_transfer (hf : ∀ s puts, f { s with puts := puts } = f s) :
    (transfer fileSize r).Frames f := by
  refine Prog.frames_bind (Prog.frames_gets _) fun _ => ?_
  refine Prog.frames_bind (frames_answer _) fun _ => ?_
  refine Prog.frames_bind (Prog.frames_require _ _) fun _ => ?_
  exact Prog.frames_bind (Prog.frames_modify fun s => hf s _) fun _ => frames_answer _

theorem frames_acknowledge (hf : ∀ s n, f { s with uploadedBytes := n } = f s) (range : String) :
    (acknowledge range).Frames f :=
  Prog.frames_bind (Prog.frames_ofExcept _) fun _ => Prog.frames_modify fun s => hf s _

theorem frames_receive (hf : ∀ s n, f { s with uploadedBytes := n } = f s) (response : Response) :
    (receive response).Frames f := by
  refine Prog.frames_ite ?_ (Prog.frames_ite ?_ ?_)
  · refine Prog.frames_bind (Prog.frames_ofExcept _) fun _ => ?_
    exact Prog.frames_bind (Prog.frames_require _ _) fun _ => Prog.frames_pure _
  · split
    · exact Prog.frames_bind (frames_acknowledge hf _) fun _ => Prog.frames_pure _
    · exact Prog.frames_raise _
  · exact Prog.frames_bind (frames_handleErrors response) fun _ => Prog.frames_pure _

theorem frames_query (hf : ∀ s n, f { s with retries := n } = f s) :
    (query fileSize r e).Frames f := by
  refine Prog.frames_bind (Prog.frames_modify fun s => hf s _) fun _ => ?_
  refine Prog.frames_bind (Prog.frames_gets _) fun _ => ?_
  exact Prog.frames_bind (Prog.frames_require _ _) fun _ => frames_answer _

theorem frames_recover (hf : ∀ s n, f { s with uploadedBytes := n } = f s) (response : Response) :
    (recover response).Frames f := by
  refine Prog.frames_ite ?_ (Prog.frames_ite ?_ ?_)
  · split
    · exact Prog.frames_bind (frames_acknowledge hf _) fun _ => Prog.frames_pure _
    · exact Prog.frames_bind (Prog.frames_modify fun s => hf s _) fun _ => Prog.frames_pure _
  · exact Prog.frames_bind (Prog.frames_ofExcept _) fun _ => Prog.frames_pure _
  · exact Prog.frames_bind (frames_handleErrors response) fun _ => Prog.frames_pure _

end Frames

theorem atomic_acknowledge (range : String) : (acknowledge range).Atomic :=
  Prog.atomic_bind (Prog.atomic_of_frames (Prog.frames_ofExcept _))
    (fun _ _ _ h => (Prog.returns_ofExcept.mp h).2) fun _ => Prog.atomic_modify _

theorem atomic_receive (response : Response) : (receive response).Atomic := by
  unfold receive
  split_ifs
  · refine Prog.atomic_bind (Prog.atomic_of_frames (Prog.frames_ofExcept _))
      (fun _ _ _ h => (Prog.returns_ofExcept.mp h).2) fun id => ?_
    exact Prog.atomic_bind_pure (Prog.atomic_require _ _)
  · rcases rangeOf response with _ | range
    · exact Prog.atomic_raise _
    · exact Prog.atomic_bind_pure (atomic_acknowledge range)
  · exact Prog.atomic_bind_pure (Prog.atomic_of_frames (frames_handleErrors response))

/-! ### Before the loop -/

section Start

variable {accessToken : String} {v : Video} {w : Servers} {x : Outcome}

theorem frames_openUpload {β : Type} {f : Upload → β} : (openUpload accessToken v w).Frames f := by
  refine Prog.frames_bind (frames_answer _) fun response => ?_
  refine Prog.frames_bind (frames_handleErrors response) fun _ => ?_
  exact Prog.frames_bind (Prog.frames_require _ _) fun _ => Prog.frames_pure _

theorem eq_begun (h : start accessToken v w = .inl s) : s = begun := by
  unfold start at h
  rcases hout : openUpload accessToken v w begun with ⟨e | location, t⟩
  · simp [hout] at h
  · rw [hout] at h
    obtain rfl := Sum.inl.inj h
    exact (frames_openUpload (f := id)).returns hout

theorem start_ends (h : start accessToken v w = .inr x) :
    ∃ e, x = (.error e, begun) ∧ (openUpload accessToken v w).Raises begun e begun := by
  unfold start at h
  rcases hout : openUpload accessToken v w begun with ⟨e | location, t⟩
  · rw [hout] at h
    obtain rfl := Sum.inr.inj h
    obtain rfl : t = begun := (frames_openUpload (f := id)).raises hout
    exact ⟨e, rfl, hout⟩
  · simp [hout] at h

/-- **How an upload ends**: before the loop, or in some round. -/
theorem finishes_iff : Finishes accessToken v w x ↔
    start accessToken v w = .inr x ∨
      ∃ k s, InRound accessToken v w k s ∧ body v.fileSize s (w.round k) = .inr x := ends_iff

end Start

/-! ### The variables after a round -/

theorem Sent.variables (h : Sent fileSize r s response t) :
    t.uploadedBytes = s.uploadedBytes ∧ t.retries = s.retries :=
  ⟨(frames_transfer (f := Upload.uploadedBytes) fun _ _ => rfl).returns h,
    (frames_transfer (f := Upload.retries) fun _ _ => rfl).returns h⟩

theorem Queried.variables (h : Queried fileSize r s response t) :
    t.uploadedBytes = s.uploadedBytes ∧ t.retries = s.retries - 1 ∧ t.retries ≠ 0 := by
  obtain ⟨e, u, hraises, -, hquery⟩ := h
  have hu : u.uploadedBytes = s.uploadedBytes ∧ u.retries = s.retries := by
    rcases Prog.raises_bind.mp hraises with h | ⟨response', u', hsent, h⟩
    · exact ⟨(frames_transfer (f := Upload.uploadedBytes) fun _ _ => rfl).raises h,
        (frames_transfer (f := Upload.retries) fun _ _ => rfl).raises h⟩
    · rw [atomic_receive response' _ _ _ h]
      exact Sent.variables hsent
  simp only [query, answer, Prog.returns_bind, Prog.returns_modify, Prog.returns_gets,
    Prog.returns_require, Prog.returns_ofExcept] at hquery
  obtain ⟨_, _, rfl, _, _, ⟨rfl, rfl⟩, _, _, ⟨hretries, rfl⟩, -, rfl⟩ := hquery
  exact ⟨hu.1, congrArg (· - 1) hu.2, hretries⟩

/-- **What goes on**: a PUT was answered and the retries are as before, or a status query was
answered and there is one less. -/
theorem attempt_goes_on (h : (attempt fileSize r).Returns s none t) :
    (∃ response u, Sent fileSize r s response u ∧ t.retries = s.retries ∧
      (acknowledged response = some t.uploadedBytes ∨
        (Passes response ∧ t.uploadedBytes = s.uploadedBytes))) ∨
    (∃ response u, Queried fileSize r s response u ∧ (0 < t.retries ∧ t.retries < s.retries) ∧
      (acknowledged response = some t.uploadedBytes ∨ t.uploadedBytes = 0 ∨
        t.uploadedBytes = s.uploadedBytes)) := by
  rcases attempt_returns_iff.mp h with ⟨response, u, hsent, h⟩ | ⟨response, u, hquery, h⟩
  · obtain ⟨huploaded, hretries⟩ := hsent.variables
    refine Or.inl ⟨response, u, hsent, ?_⟩
    rcases receive_goes_on.mp h with ⟨n, hn, rfl⟩ | ⟨hpasses, rfl⟩
    · exact ⟨hretries, Or.inl hn⟩
    · exact ⟨hretries, Or.inr ⟨hpasses, huploaded⟩⟩
  · obtain ⟨huploaded, hretries, hpos⟩ := hquery.variables
    have hless : 0 < u.retries ∧ u.retries < s.retries := by omega
    refine Or.inr ⟨response, u, hquery, ?_⟩
    rcases recover_goes_on.mp h with ⟨n, hn, rfl⟩ | ⟨-, -, rfl⟩ | ⟨-, rfl⟩
    · exact ⟨hless, Or.inl hn⟩
    · exact ⟨hless, Or.inr (Or.inl rfl)⟩
    · exact ⟨hless, Or.inr (Or.inr huploaded)⟩

/-! ### An upload -/

/-- A response without a body. -/
def bare (status : ℕ) (header : String → Option String) : Response :=
  ⟨status, header, "", .error "Expecting value: line 1 column 1 (char 0)"⟩

/-- A video of 1000 bytes. -/
def clip : Video := ⟨"Launch", "", 1000, "video/mp4"⟩

/-- The answer to the first request. -/
def opened : Response :=
  bare 200 fun name => if name = "Location" then some "https://upload.youtube.com/location" else none

end MarketingSuite.Uploads.YouTube
