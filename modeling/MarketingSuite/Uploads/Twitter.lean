import MarketingSuite.Base.Http
import MarketingSuite.Lib.Loops

/-! # Uploading to Twitter

`TwitterPublisher.upload_media` of `app/integrations/connectors/twitter/publisher.py`: INIT, an APPEND
for each chunk, FINALIZE, and then STATUS until the media is processed. All requests carry the token
of the publisher. -/

namespace MarketingSuite.Uploads.Twitter

open MarketingSuite.Lib.Programs MarketingSuite.Lib.Loops
open MarketingSuite.Base.Values MarketingSuite.Base.Payloads MarketingSuite.Base.Http

/-- The data of INIT. -/
structure InitPayload where
  totalBytes : String
  mediaType : String
  mediaCategory : String
deriving DecidableEq, Repr

/-- The data of an APPEND. Bytes that are sent at once have no `segment_index`. -/
structure Append where
  mediaId : String
  segmentIndex : Option String
  media : List UInt8
  mimeType : String
deriving DecidableEq, Repr

inductive Request
  | init (payload : InitPayload)
  | append (data : Append)
  | finalize (mediaId : String)
  | status (mediaId : String)
deriving DecidableEq, Repr

/-- A request, and its response or what is raised instead. -/
structure Call where
  request : Request
  answer : Except Exc Response

/-- The server: `status k` is its answer to the `k`-th STATUS. -/
structure Server where
  init : InitPayload → Except Exc Response
  append : Append → Except Exc Response
  finalize : String → Except Exc Response
  status : ℕ → String → Except Exc Response

/-- Chunks one after another, until the iteration ends or raises. -/
structure Stream where
  chunks : List (List UInt8)
  failure : Option Exc

/-- `file_bytes`. -/
inductive FileBytes
  | bytes (content : List UInt8)
  | stream (content : Stream)

/-- A part of an upload, with the calls in their order. -/
abbrev Work (α : Type) : Type := Prog (List Call) Exc α

/-- Send a request. -/
def send (request : Request) (answer : Except Exc Response) : Work Response := do
  Prog.modify fun calls => calls ++ [⟨request, answer⟩]
  Prog.ofExcept answer

/-- A status that is not accepted. -/
def failed (phase : String) (response : Response) : Exc :=
  .integration (phase ++ " media upload failed (" ++ toString response.status ++ "): " ++
    response.text)

section Upload

variable (strOf : Json → String) (w : Server) (mimeType : String)

/-- INIT, and `str(media_id)`. -/
def initMedia (payload : InitPayload) : Work String := do
  let response ← send (.init payload) (w.init payload)
  Prog.require (response.status ≠ 401)
    (.integration "Twitter access token is missing or expired for media upload.")
  Prog.require (response.status = 200 ∨ response.status = 202) (failed "INIT" response)
  let initData ← Prog.ofExcept response.parse
  let data ← Prog.ofExcept (get initData "data" (.obj []))
  let mediaId ← Prog.ofExcept (get data "id" .null)
  Prog.require (isTruthy mediaId = true)
    (.integration ("Failed to parse media_id from INIT response: " ++ strOf initData))
  pure (strOf mediaId)

/-- One APPEND. -/
def append (data : Append) : Work Unit := do
  let response ← send (.append data) (w.append data)
  Prog.require (response.status = 200 ∨ response.status = 204) (failed "APPEND" response)

/-- The APPEND of a chunk. -/
def segment (mediaId : String) (segmentIndex : ℕ) (chunk : List UInt8) : Append :=
  ⟨mediaId, some (toString segmentIndex), chunk, mimeType⟩

/-- The loop over the chunks. -/
def appendChunks (mediaId : String) : ℕ → List (List UInt8) → Work Unit
  | _, [] => pure ()
  | segmentIndex, chunk :: chunks => do
    append w (segment mimeType mediaId segmentIndex chunk)
    appendChunks mediaId (segmentIndex + 1) chunks

/-- All APPENDs. -/
def appendAll (mediaId : String) : FileBytes → Work Unit
  | .bytes content => append w ⟨mediaId, none, content, mimeType⟩
  | .stream content => do
    appendChunks w mimeType mediaId 0 content.chunks
    match content.failure with
    | some e => Prog.raise e
    | none => pure ()

/-- `processing_info` in a response. -/
def infoOf (default : Json) (response : Response) : Except Exc Json := do
  let body ← response.parse
  let data ← get body "data" (.obj [])
  get data "processing_info" default

/-- FINALIZE, and its `processing_info`. -/
def finalize (mediaId : String) : Work Json := do
  let response ← send (.finalize mediaId) (w.finalize mediaId)
  Prog.require (response.status = 200 ∨ response.status = 201) (failed "FINALIZE" response)
  Prog.ofExcept (infoOf .null response)

/-! ### Polling -/

/-- The variables of the loop. -/
structure Poll where
  mediaId : String
  processingInfo : Json
  state : Json
  calls : List Call

/-- How an upload ends, and its calls. -/
abbrev Outcome : Type := Except Exc String × List Call

/-- `state == text`. -/
def isState (text : String) : Json → Bool
  | .str s => s = text
  | _ => false

/-- `state in ("pending", "in_progress")`. -/
def isPolling (state : Json) : Bool := isState "pending" state || isState "in_progress" state

/-- `asyncio.sleep(delay)`, which compares its argument with a number. -/
def sleep : Json → Except Exc Unit
  | .int _ | .bool _ => .ok ()
  | _ => .error .typeError

/-- A round up to the test of the state: the `processing_info` and the state in the answer. -/
def poll (mediaId : String) (processingInfo : Json) (answer : Except Exc Response) :
    Work (Json × Json) := do
  let checkAfterSecs ← Prog.ofExcept (get processingInfo "check_after_secs" (.int 5))
  Prog.ofExcept (sleep checkAfterSecs)
  let response ← send (.status mediaId) answer
  Prog.require (response.status = 200) (failed "STATUS" response)
  let processingInfo ← Prog.ofExcept (infoOf (.obj []) response)
  let state ← Prog.ofExcept (get processingInfo "state" .null)
  pure (processingInfo, state)

/-- What is raised for media that could not be processed. -/
def failure (processingInfo : Json) : Exc :=
  match (do
    let error ← get processingInfo "error" (.obj [])
    get error "message" (.str "Unknown error")) with
  | .ok message => .integration ("Media processing failed: " ++ strOf message)
  | .error e => e

/-- A round of the loop, with the condition before it. -/
def pollBody (s : Poll) (answer : String → Except Exc Response) : Poll ⊕ Outcome :=
  if isPolling s.state = true then
    match poll s.mediaId s.processingInfo (answer s.mediaId) s.calls with
    | (.error e, calls) => .inr (.error e, calls)
    | (.ok (processingInfo, state), calls) =>
      if isState "failed" state = true then .inr (.error (failure strOf processingInfo), calls)
      else if isState "succeeded" state = true then .inr (.ok s.mediaId, calls)
      else .inl ⟨s.mediaId, processingInfo, state, calls⟩
  else .inr (.ok s.mediaId, s.calls)

/-- What is known before the loop: the media, its `processing_info`, and the state if there is one. -/
def prepare (payload : InitPayload) (fileBytes : FileBytes) : Work (String × Json × Json) := do
  let mediaId ← initMedia strOf w payload
  appendAll w payload.mediaType mediaId fileBytes
  let processingInfo ← finalize w mediaId
  if isTruthy processingInfo = true then
    let state ← Prog.ofExcept (get processingInfo "state" .null)
    pure (mediaId, processingInfo, state)
  else pure (mediaId, processingInfo, .null)

/-- `upload_media` up to the loop. -/
def start (payload : InitPayload) (fileBytes : FileBytes) : Poll ⊕ Outcome :=
  match prepare strOf w payload fileBytes [] with
  | (.ok (mediaId, processingInfo, state), calls) => .inl ⟨mediaId, processingInfo, state, calls⟩
  | (.error e, calls) => .inr (.error e, calls)

/-- `upload_media`, called with what INIT sends and the bytes, after `k` rounds of the loop. -/
def uploadMedia (payload : InitPayload) (fileBytes : FileBytes) (k : ℕ) : Poll ⊕ Outcome :=
  rounds (pollBody strOf) w.status (start strOf w payload fileBytes) k

end Upload

end MarketingSuite.Uploads.Twitter
