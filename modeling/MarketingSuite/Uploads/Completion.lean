import MarketingSuite.Uploads.YouTube
import MarketingSuite.Social.Factory

/-! # What an upload to YouTube reports

A video that is reported has a real id, and one that the server has is not reported lost. The id of a
response to a PUT is checked, that of a response to a status query is not; and the loop ends when all
bytes are acknowledged, whether there was an id or not. -/

namespace MarketingSuite.Uploads.Completion

open MarketingSuite.Lib.Programs MarketingSuite.Lib.Loops
open MarketingSuite.Base.Values MarketingSuite.Base.Payloads MarketingSuite.Base.Http
open MarketingSuite.Social.Factory (strOptional)
open MarketingSuite.Uploads.YouTube

section Rounds

variable (fileSize : ℤ) (r : Round) (s : Upload)

/-- In a round, the server acknowledges all bytes. -/
def AllReceived : Prop :=
  ∃ response, Answered fileSize r s response ∧
    (Accepted response ∨ ∃ n : ℕ, acknowledged response = some n ∧ fileSize ≤ n)

/-- The answers of a round that the code is made for: one to a status query that accepts the upload
has an id, and one with the status 308 acknowledges less than all bytes. -/
structure Expected : Prop where
  hasId : ∀ response t videoId, Queried fileSize r s response t → Accepted response →
    videoIdOf response = .ok videoId → isTruthy videoId = true
  bytesLeft : ∀ response n, Answered fileSize r s response → acknowledged response = some n →
    (n : ℤ) < fileSize

end Rounds

section Uploads

variable (accessToken : String) (v : Video) (w : Servers)

/-- **A video is reported only with a real id**, from a response that accepts the upload. -/
def ReportsIds : Prop :=
  ∀ videoId t, Finishes accessToken v w (.ok videoId, t) → isTruthy videoId = true ∧
    ∃ k s response, InRound accessToken v w k s ∧ Answered v.fileSize (w.round k) s response ∧
      Accepted response ∧ videoIdOf response = .ok videoId

/-- **A video that is received is not reported lost.** -/
def LosesNothing : Prop :=
  ∀ k s, InRound accessToken v w k s → Active v.fileSize s →
    AllReceived v.fileSize (w.round k) s → ∀ t, ¬ Finishes accessToken v w (.error incomplete, t)

end Uploads

variable {fileSize : ℤ} {r : Round} {s t : Upload} {response : Response} {accessToken : String}
  {v : Video} {w : Servers}

/-! ### One round -/

theorem body_of_acknowledged (hactive : Active fileSize s) {n : ℕ}
    (hanswer : Answered fileSize r s response) (hack : acknowledged response = some n) :
    ∃ t, body fileSize s r = .inl t ∧ t.uploadedBytes = n := by
  obtain ⟨u, hsent | hquery⟩ := hanswer
  · have hreceive : (receive response).Returns u none { u with uploadedBytes := n } :=
      receive_goes_on.mpr (Or.inl ⟨n, hack, rfl⟩)
    have hattempt := attempt_returns_iff.mpr (Or.inl ⟨response, u, hsent, hreceive⟩)
    exact ⟨_, body_goes_on.mpr ⟨hactive, hattempt⟩, rfl⟩
  · have hrecover : (recover response).Returns u none { u with uploadedBytes := n } :=
      recover_goes_on.mpr (Or.inl ⟨n, hack, rfl⟩)
    have hattempt := attempt_returns_iff.mpr (Or.inr ⟨response, u, hquery, hrecover⟩)
    exact ⟨_, body_goes_on.mpr ⟨hactive, hattempt⟩, rfl⟩

theorem body_of_queried (hactive : Active fileSize s) {videoId : Json}
    (hquery : Queried fileSize r s response t) (haccepted : Accepted response)
    (hid : videoIdOf response = .ok videoId) : body fileSize s r = .inr (.ok videoId, t) := by
  have hrecover : (recover response).Returns t (some videoId) t :=
    recover_returns.mpr ⟨haccepted, hid, rfl⟩
  exact body_returns.mpr
    ⟨hactive, attempt_returns_iff.mpr (Or.inr ⟨response, t, hquery, hrecover⟩)⟩

/-- An error that is not the one after the loop. -/
def Other (e : UploadError) : Prop := e ≠ incomplete

theorem other_of_not_caught {e : UploadError} (h : e.isCaught = false) : Other e := by
  rintro rfl
  cases h

theorem other_python {α : Type} {x : Except Exc α} :
    (Prog.ofExcept (x.mapError .python) : Work α).RaisesOnly Other := by
  refine Prog.raisesOnly_ofExcept fun e he => ?_
  rcases x with e' | a
  · cases he
    exact other_of_not_caught rfl
  · cases he

theorem other_answer {α : Type} (x : Except Lost α) : (answer x : Work α).RaisesOnly Other := by
  refine Prog.raisesOnly_ofExcept fun e he => ?_
  rcases x with l | a
  · cases he
    cases l with
    | request text => simp [Other, lost, incomplete]
    | other e => exact other_of_not_caught rfl
  · cases he

theorem other_handleErrors (response : Response) :
    (handleErrors response : Work Unit).RaisesOnly Other :=
  Prog.raisesOnly_ite (Prog.raisesOnly_raise (other_of_not_caught rfl)) <|
    Prog.raisesOnly_ite (Prog.raisesOnly_raise (other_of_not_caught rfl)) <|
      Prog.raisesOnly_ite (Prog.raisesOnly_raise (by simp [Other, incomplete])) <|
        Prog.raisesOnly_ite (Prog.raisesOnly_raise (by simp [Other, incomplete]))
          (Prog.raisesOnly_pure _)

theorem other_exhausted (text : String) :
    Other (.api ("YouTube video upload failed after retries: " ++ text) none) := by
  intro h
  have htext := congrArg String.toList (UploadError.api.inj h).1
  rw [String.toList_append] at htext
  have hchar := congrArg (fun l : List Char => l[8]?) htext
  rw [List.getElem?_append_left (by decide)] at hchar
  exact absurd hchar (by decide)

theorem other_query (e : UploadError) : (query fileSize r e).RaisesOnly Other := by
  refine Prog.raisesOnly_bind (Prog.raisesOnly_modify _) fun _ => ?_
  refine Prog.raisesOnly_bind (Prog.raisesOnly_gets _) fun _ => ?_
  exact Prog.raisesOnly_bind (Prog.raisesOnly_require _ (other_exhausted _)) fun _ => other_answer _

theorem other_recover (response : Response) : (recover response).RaisesOnly Other := by
  refine Prog.raisesOnly_ite ?_ (Prog.raisesOnly_ite ?_ ?_)
  · rcases rangeOf response with _ | range
    · exact Prog.raisesOnly_bind (Prog.raisesOnly_modify _) fun _ => Prog.raisesOnly_pure _
    · refine Prog.raisesOnly_bind ?_ fun _ => Prog.raisesOnly_pure _
      exact Prog.raisesOnly_bind other_python fun _ => Prog.raisesOnly_modify _
  · exact Prog.raisesOnly_bind other_python fun _ => Prog.raisesOnly_pure _
  · exact Prog.raisesOnly_bind (other_handleErrors response) fun _ => Prog.raisesOnly_pure _

/-- **No round raises what is raised after the loop.** -/
theorem other_attempt : (attempt fileSize r).RaisesOnly Other := by
  refine Prog.raisesOnly_handle fun e => ?_
  split_ifs with hcaught
  · exact Prog.raisesOnly_bind (other_query e) other_recover
  · exact Prog.raisesOnly_raise (other_of_not_caught (Bool.eq_false_iff.mpr hcaught))

theorem other_openUpload : (openUpload accessToken v w).RaisesOnly Other := by
  refine Prog.raisesOnly_bind (other_answer _) fun response => ?_
  refine Prog.raisesOnly_bind (other_handleErrors response) fun _ => ?_
  exact Prog.raisesOnly_bind (Prog.raisesOnly_require _ (by simp [Other, incomplete])) fun _ =>
    Prog.raisesOnly_pure _

/-! ### Any sequence of answers -/

/-- **Where the loop stands**: if every 308 acknowledged less than all bytes, bytes are left, and
retries too, unless there was nothing to upload. -/
theorem active_of_expected (hexpected : ∀ k s, InRound accessToken v w k s → Active v.fileSize s →
      Expected v.fileSize (w.round k) s) (hsize : 0 < v.fileSize) {k : ℕ}
    (hs : InRound accessToken v w k s) : Active v.fileSize s := by
  refine inv_of_reaches (I := fun _ s => Active v.fileSize s) (fun s hs => ?_)
    (fun k s t hs hactive hbody => ?_) hs
  · obtain rfl := eq_begun hs
    exact ⟨by simpa [begun] using hsize, by decide⟩
  · obtain ⟨-, hattempt⟩ := body_goes_on.mp hbody
    have hbytes := (hexpected k s hs hactive).bytesLeft
    obtain ⟨hleft, hretries⟩ := hactive
    rcases attempt_goes_on hattempt with ⟨response, u, hsent, hr, hanswer⟩ |
      ⟨response, u, hquery, hr, hanswer⟩
    · refine ⟨?_, by omega⟩
      rcases hanswer with hack | ⟨-, hsame⟩
      · exact hbytes response _ ⟨u, Or.inl hsent⟩ hack
      · omega
    · refine ⟨?_, hr.1⟩
      rcases hanswer with hack | hzero | hsame
      · exact hbytes response _ ⟨u, Or.inr hquery⟩ hack
      · omega
      · omega

/-- **What is returned**, if every status query that accepts the upload has an id. -/
theorem reportsIds (hexpected : ∀ k s, InRound accessToken v w k s → Active v.fileSize s →
      Expected v.fileSize (w.round k) s) : ReportsIds accessToken v w := by
  rintro videoId t hfinishes
  rcases finishes_iff.mp hfinishes with hstart | ⟨k, s, hs, hbody⟩
  · obtain ⟨e, heq, -⟩ := start_ends hstart
    cases heq
  · obtain ⟨hactive, hattempt⟩ := body_returns.mp hbody
    rcases attempt_returns_iff.mp hattempt with ⟨response, u, hsent, h⟩ | ⟨response, u, hquery, h⟩
    · obtain ⟨haccepted, hid, htruthy, -⟩ := receive_returns.mp h
      exact ⟨htruthy, k, s, response, hs, ⟨u, Or.inl hsent⟩, haccepted, hid⟩
    · obtain ⟨haccepted, hid, -⟩ := recover_returns.mp h
      have htruthy := (hexpected k s hs hactive).hasId response u videoId hquery haccepted hid
      exact ⟨htruthy, k, s, response, hs, ⟨u, Or.inr hquery⟩, haccepted, hid⟩

/-- **The loop is never left without a result**, if every 308 acknowledges less than all bytes. -/
theorem losesNothing (hexpected : ∀ k s, InRound accessToken v w k s → Active v.fileSize s →
      Expected v.fileSize (w.round k) s) : LosesNothing accessToken v w := by
  intro k s hs hactive _ t hfinishes
  have hsize : 0 < v.fileSize := by
    have hleft := hactive.1
    omega
  rcases finishes_iff.mp hfinishes with hstart | ⟨j, u, hu, hbody⟩
  · obtain ⟨e, heq, hraises⟩ := start_ends hstart
    obtain rfl := Except.error.inj (Prod.mk.inj heq).1
    exact other_openUpload _ _ _ hraises rfl
  · rcases body_raises.mp hbody with ⟨-, hraises⟩ | ⟨hnot, -, -⟩
    · exact other_attempt _ _ _ hraises rfl
    · exact hnot (active_of_expected hexpected hsize hu)

/-- **An upload reports what happened** exactly if, in each of its rounds, a status query that accepts
it gives an id, and a 308 acknowledges less than all bytes. -/
theorem reports_iff (accessToken : String) (v : Video) (w : Servers) :
    (ReportsIds accessToken v w ∧ LosesNothing accessToken v w) ↔
      ∀ k s, InRound accessToken v w k s → Active v.fileSize s →
        Expected v.fileSize (w.round k) s := by
  constructor
  · rintro ⟨hids, hlost⟩ k s hs hactive
    refine ⟨fun response t videoId hquery haccepted hid => ?_, fun response n hanswer hack => ?_⟩
    · have hbody := body_of_queried hactive hquery haccepted hid
      exact (hids videoId t (finishes_iff.mpr (Or.inr ⟨k, s, hs, hbody⟩))).1
    · by_contra hall
      obtain ⟨t, hbody, hn⟩ := body_of_acknowledged hactive hanswer hack
      have ht : InRound accessToken v w (k + 1) t := reaches_succ_iff.mpr ⟨s, hs, hbody⟩
      have hnot : ¬ Active v.fileSize t := fun h => by
        have hleft := h.1
        omega
      have hend : body v.fileSize t (w.round (k + 1)) = .inr (.error incomplete, t) :=
        body_raises.mpr (Or.inr ⟨hnot, rfl, rfl⟩)
      refine hlost k s hs hactive ⟨response, hanswer, Or.inr ⟨n, hack, not_lt.mp hall⟩⟩ t ?_
      exact finishes_iff.mpr (Or.inr ⟨k + 1, t, ht, hend⟩)
  · intro hexpected
    exact ⟨reportsIds hexpected, losesNothing hexpected⟩

/-! ### Uploads that do not report what happened -/

/-- `str(post_id)` in `GoogleProvider.publish_content`; `strOf` is `str` of a value that is neither
a string nor `None`. -/
def externalPostId (strOf : Json → String) : Json → String
  | .null => strOptional none
  | .str id => strOptional (some id)
  | j => strOf j

/-- A round in which the connection is lost during the PUT. -/
def interrupted (status : Response) : Round :=
  ⟨fun range => .ok ⟨206, List.replicate (1000 - range.getD 0) 0⟩, fun _ => .error (.request ""),
    fun _ => .ok status⟩

/-- Servers that give no id when they are asked for the status. -/
def unnamed : Servers where
  post _ := .ok opened
  round _ := interrupted { bare 200 fun _ => none with json := .ok (.obj []) }

/-- Servers that acknowledge all bytes when they are asked for the status. -/
def whole : Servers where
  post _ := .ok opened
  round _ := interrupted
    (bare 308 fun name => if name = "Range" then some "bytes=0-999" else none)

/-- `None` is returned, and recorded as a text; and a video that the server has is reported lost. -/
theorem not_reports : (∃ t, Finishes "token" clip unnamed (.ok .null, t)) ∧
    (∀ strOf, externalPostId strOf .null = "None") ∧ ¬ ReportsIds "token" clip unnamed ∧
    ¬ LosesNothing "token" clip whole := by
  have hnull : ∃ t, Finishes "token" clip unnamed (.ok .null, t) := ⟨_, 1, rfl⟩
  refine ⟨hnull, fun _ => rfl, fun hids => ?_, fun hlost => ?_⟩
  · obtain ⟨t, ht⟩ := hnull
    exact absurd (hids .null t ht).1 (by decide)
  · have hquery : ∃ response t, Queried 1000 (whole.round 0) begun response t ∧
        acknowledged response = some 1000 :=
      ⟨_, _, ⟨.request "", _, rfl, rfl, rfl⟩, by decide⟩
    obtain ⟨response, t, hquery, hack⟩ := hquery
    have hall : AllReceived 1000 (whole.round 0) begun :=
      ⟨response, ⟨t, Or.inr hquery⟩, Or.inr ⟨1000, hack, le_rfl⟩⟩
    exact hlost 0 begun rfl (by decide) hall _ ⟨2, rfl⟩

end MarketingSuite.Uploads.Completion
