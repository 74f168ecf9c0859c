import MarketingSuite.Uploads.Twitter
import Mathlib.Data.List.Basic

/-! # Media that Twitter has processed

An id that `upload_media` returns should stand for media that a tweet can have: all chunks were
appended, and the processing succeeded, or there was none. The loop looks for a state that says
`failed`; before the loop, and for a state it does not know, nothing does. -/

namespace MarketingSuite.Uploads.Processing

open MarketingSuite.Lib.Programs MarketingSuite.Lib.Loops
open MarketingSuite.Base.Values MarketingSuite.Base.Payloads MarketingSuite.Base.Http
open MarketingSuite.Uploads.Twitter

/-! ### What should happen -/

/-- The statuses that accept a request. -/
def statusesOf : Request → List ℕ
  | .init _ => [200, 202]
  | .append _ => [200, 204]
  | .finalize _ => [200, 201]
  | .status _ => [200]

/-- The call was accepted. -/
def Succeeds (c : Call) : Prop :=
  ∃ response, c.answer = .ok response ∧ response.status ∈ statusesOf c.request

/-- The `processing_info` that a call reports. -/
def reportedInfo (c : Call) : Option Json :=
  match c.request, c.answer with
  | .finalize _, .ok response => (infoOf .null response).toOption
  | .status _, .ok response => (infoOf (.obj []) response).toOption
  | _, _ => none

/-- The processing state that a call reports. -/
def reportedState (c : Call) : Option Json :=
  (reportedInfo c).bind fun info => (get info "state" .null).toOption

/-- A call reports the state. -/
def Reports (text : String) (c : Call) : Prop :=
  ∃ state, reportedState c = some state ∧ isState text state = true

/-- The APPENDs of the chunks, in order. -/
def segments (mimeType mediaId : String) (chunks : List (List UInt8)) : List Append :=
  chunks.zipIdx.map fun x => segment mimeType mediaId x.2 x.1

/-- The requests up to the `k`-th STATUS. -/
def requests (payload : InitPayload) (mediaId : String) (chunks : List (List UInt8)) (k : ℕ) :
    List Request :=
  .init payload :: (segments payload.mediaType mediaId chunks).map .append ++
    .finalize mediaId :: List.replicate k (.status mediaId)

/-- **The media is usable**: every chunk was appended once, in order, and then FINALIZE; and what was
reported last is that the processing succeeded, or FINALIZE reported no processing. -/
structure Usable (payload : InitPayload) (chunks : List (List UInt8)) (mediaId : String)
    (calls : List Call) : Prop where
  inOrder : ∃ k, calls.map Call.request = requests payload mediaId chunks k
  succeed : ∀ c ∈ calls, Succeeds c
  processed : ∃ c, calls.getLast? = some c ∧
    (Reports "succeeded" c ∨ (c.request = .finalize mediaId ∧ reportedInfo c = some .null))

section Uploads

variable (strOf : Json → String) (w : Server) (payload : InitPayload)
  (chunks : List (List UInt8)) (interrupted : Option Exc)

/-- The upload of the stream comes to the round `k` of the polling. -/
def InRound (k : ℕ) (s : Poll) : Prop :=
  uploadMedia strOf w payload (.stream ⟨chunks, interrupted⟩) k = .inl s

/-- The upload ends so. -/
def Finishes (x : Outcome) : Prop :=
  ∃ k, uploadMedia strOf w payload (.stream ⟨chunks, interrupted⟩) k = .inr x

/-- The calls of an upload. -/
def Calls (c : Call) : Prop :=
  (∃ k s, InRound strOf w payload chunks interrupted k s ∧ c ∈ s.calls) ∨
    ∃ x calls, Finishes strOf w payload chunks interrupted (x, calls) ∧ c ∈ calls

/-- **An id is returned only for usable media**, and an upload raises if the processing failed. -/
def ReturnsUsable : Prop :=
  (∀ mediaId calls, Finishes strOf w payload chunks interrupted (.ok mediaId, calls) →
    Usable payload chunks mediaId calls) ∧
  ∀ c, Calls strOf w payload chunks interrupted c → Reports "failed" c →
    ∃ e calls, Finishes strOf w payload chunks interrupted (.error e, calls)

/-- What FINALIZE reports: no `processing_info`, or one with a state that the code looks for and that
is not a failure. -/
def FinalizeExpected : Prop :=
  ∀ s, InRound strOf w payload chunks interrupted 0 s →
    s.processingInfo = .null ∨ isPolling s.state = true ∨ isState "succeeded" s.state = true

/-- What each STATUS that is asked for reports: a state that the code looks for. -/
def StatusExpected : Prop :=
  ∀ k s, InRound strOf w payload chunks interrupted k s → isPolling s.state = true →
    ∀ info state calls,
      (poll s.mediaId s.processingInfo (w.status k s.mediaId)).Returns s.calls (info, state) calls →
        isPolling state = true ∨ isState "succeeded" state = true ∨ isState "failed" state = true

end Uploads

variable {strOf : Json → String} {w : Server} {payload : InitPayload} {mimeType mediaId : String}
  {chunks : List (List UInt8)} {interrupted : Option Exc} {k : ℕ} {s t : Poll}
  {calls calls' : List Call} {info state : Json}

/-! ### One request -/

theorem returns_send {request : Request} {answer : Except Exc Response} {response : Response} :
    (send request answer).Returns calls response calls' ↔
      answer = .ok response ∧ calls' = calls ++ [⟨request, answer⟩] := by
  simp [send]

theorem initMedia_returns (h : (initMedia strOf w payload).Returns calls mediaId calls') :
    ∃ c, calls' = calls ++ [c] ∧ c.request = .init payload ∧ Succeeds c := by
  simp only [initMedia, Prog.returns_bind, returns_send, Prog.returns_require,
    Prog.returns_ofExcept, Prog.returns_pure] at h
  obtain ⟨response, t1, ⟨hanswer, rfl⟩, _, _, ⟨-, rfl⟩, _, _, ⟨hstatus, rfl⟩, _, _, ⟨-, rfl⟩, _, _,
    ⟨-, rfl⟩, _, _, ⟨-, rfl⟩, _, _, ⟨-, rfl⟩, -, rfl⟩ := h
  exact ⟨_, rfl, rfl, response, hanswer, by simpa [statusesOf] using hstatus⟩

theorem append_returns {data : Append} (h : (append w data).Returns calls () calls') :
    ∃ c, calls' = calls ++ [c] ∧ c.request = .append data ∧ Succeeds c := by
  simp only [append, Prog.returns_bind, returns_send, Prog.returns_require] at h
  obtain ⟨response, t1, ⟨hanswer, rfl⟩, hstatus, rfl⟩ := h
  exact ⟨_, rfl, rfl, response, hanswer, by simpa [statusesOf] using hstatus⟩

/-- **The loop over the chunks**: one APPEND each, in order. -/
theorem appendChunks_returns {i : ℕ}
    (h : (appendChunks w mimeType mediaId i chunks).Returns calls () calls') :
    ∃ l, calls' = calls ++ l ∧ (∀ c ∈ l, Succeeds c) ∧ l.map Call.request =
      (chunks.zipIdx i).map fun x => .append (segment mimeType mediaId x.2 x.1) := by
  induction chunks generalizing i calls with
  | nil =>
    simp only [appendChunks, Prog.returns_pure] at h
    exact ⟨[], by simp [h.2], by simp, rfl⟩
  | cons chunk chunks ih =>
    simp only [appendChunks, Prog.returns_bind] at h
    obtain ⟨_, t, happend, hrest⟩ := h
    obtain ⟨c, rfl, hrequest, hc⟩ := append_returns happend
    obtain ⟨l, rfl, hl, hrequests⟩ := ih hrest
    refine ⟨c :: l, by simp, List.forall_mem_cons.mpr ⟨hc, hl⟩, ?_⟩
    rw [List.map_cons, hrequest, hrequests, List.zipIdx_cons, List.map_cons]

theorem appendAll_returns
    (h : (appendAll w mimeType mediaId (.stream ⟨chunks, interrupted⟩)).Returns calls () calls') :
    ∃ l, calls' = calls ++ l ∧ (∀ c ∈ l, Succeeds c) ∧
      l.map Call.request = (segments mimeType mediaId chunks).map .append := by
  simp only [appendAll, Prog.returns_bind] at h
  obtain ⟨_, t, hchunks, hend⟩ := h
  obtain ⟨l, rfl, hl, hrequests⟩ := appendChunks_returns hchunks
  rcases interrupted with _ | e
  · obtain ⟨-, rfl⟩ := Prog.returns_pure.mp hend
    refine ⟨l, rfl, hl, ?_⟩
    rw [hrequests, segments, List.map_map]
    rfl
  · exact absurd hend (by simp)

theorem finalize_returns (h : (finalize w mediaId).Returns calls info calls') :
    ∃ c, calls' = calls ++ [c] ∧ c.request = .finalize mediaId ∧ Succeeds c ∧
      reportedInfo c = some info := by
  simp only [finalize, Prog.returns_bind, returns_send, Prog.returns_require,
    Prog.returns_ofExcept] at h
  obtain ⟨response, t1, ⟨hanswer, rfl⟩, _, _, ⟨hstatus, rfl⟩, hinfo, rfl⟩ := h
  refine ⟨_, rfl, rfl, ⟨response, hanswer, by simpa [statusesOf] using hstatus⟩, ?_⟩
  simp [reportedInfo, hanswer, hinfo, Except.toOption]

/-- **What a STATUS reports** is what the round goes on with. -/
theorem poll_returns {answer : Except Exc Response} {before : Json}
    (h : (poll mediaId before answer).Returns calls (info, state) calls') :
    ∃ c, calls' = calls ++ [c] ∧ c.request = .status mediaId ∧ Succeeds c ∧
      reportedInfo c = some info ∧ reportedState c = some state := by
  simp only [poll, Prog.returns_bind, returns_send, Prog.returns_require, Prog.returns_ofExcept,
    Prog.returns_pure] at h
  obtain ⟨_, _, ⟨-, rfl⟩, _, _, ⟨-, rfl⟩, response, t1, ⟨hanswer, rfl⟩, _, _, ⟨hstatus, rfl⟩,
    info', _, ⟨hinfo, rfl⟩, state', _, ⟨hstate, rfl⟩, heq, rfl⟩ := h
  obtain ⟨rfl, rfl⟩ := Prod.mk.inj heq
  have hreported : reportedInfo ⟨.status mediaId, answer⟩ = some info := by
    simp [reportedInfo, hanswer, hinfo, Except.toOption]
  refine ⟨_, rfl, rfl, ⟨response, hanswer, by simpa [statusesOf] using hstatus⟩, hreported, ?_⟩
  simp [reportedState, hreported, hstate, Except.toOption]

/-! ### What the loop knows -/

/-- The last call, from which the loop has its variables. -/
structure Last (k : ℕ) (s : Poll) (c : Call) : Prop where
  last : s.calls.getLast? = some c
  info : reportedInfo c = some s.processingInfo
  first : k = 0 → c.request = .finalize s.mediaId ∧
    (isTruthy s.processingInfo = true ∧ reportedState c = some s.state ∨
      isTruthy s.processingInfo = false ∧ s.state = .null)
  later : 0 < k → c.request = .status s.mediaId ∧ reportedState c = some s.state

/-- **The calls of an upload** that comes to the round `k`. -/
structure History (payload : InitPayload) (chunks : List (List UInt8)) (k : ℕ) (s : Poll) :
    Prop where
  inOrder : s.calls.map Call.request = requests payload s.mediaId chunks k
  succeed : ∀ c ∈ s.calls, Succeeds c
  exists_last : ∃ c, Last k s c

/-- What is reported where `if processing_info` is false has no state that means anything. -/
theorem not_reports_of_not_truthy {c : Call} {text : String} (hinfo : reportedInfo c = some info)
    (hfalsy : isTruthy info = false) : ¬ Reports text c := by
  rintro ⟨state, hstate, htext⟩
  unfold reportedState at hstate
  rw [hinfo] at hstate
  cases info with
  | obj l =>
    have hl : l = [] := by simpa [isTruthy] using hfalsy
    subst hl
    obtain rfl : Json.null = state := Option.some.inj hstate
    cases htext
  | null => cases hstate
  | bool b => cases hstate
  | int n => cases hstate
  | str s => cases hstate
  | id i => cases hstate
  | time t => cases hstate
  | arr l => cases hstate

theorem Last.reports_iff_isState {c : Call} {text : String} (h : Last k s c) :
    Reports text c ↔ isState text s.state = true := by
  have hknown : reportedState c = some s.state → (Reports text c ↔ isState text s.state = true) := by
    intro hstate
    constructor
    · rintro ⟨state, hstate', htext⟩
      obtain rfl := Option.some.inj (hstate.symm.trans hstate')
      exact htext
    · exact fun htext => ⟨s.state, hstate, htext⟩
  rcases Nat.eq_zero_or_pos k with hk | hk
  · rcases (h.first hk).2 with ⟨-, hstate⟩ | ⟨hfalsy, hnull⟩
    · exact hknown hstate
    · refine iff_of_false (not_reports_of_not_truthy h.info hfalsy) ?_
      rw [hnull]
      simp [isState]
  · exact hknown (h.later hk).2

/-- **INIT, the segments and FINALIZE** have succeeded in this order, and the state is FINALIZE's. -/
theorem history_prepare
    (h : (prepare strOf w payload (.stream ⟨chunks, interrupted⟩)).Returns []
      (mediaId, info, state) calls) : History payload chunks 0 ⟨mediaId, info, state, calls⟩ := by
  unfold prepare at h
  obtain ⟨id, t1, hinit, h⟩ := Prog.returns_bind.mp h
  obtain ⟨_, t2, happend, h⟩ := Prog.returns_bind.mp h
  obtain ⟨info', t3, hfinalize, h⟩ := Prog.returns_bind.mp h
  obtain ⟨c₁, rfl, hrequest₁, hc₁⟩ := initMedia_returns hinit
  obtain ⟨l, rfl, hl, hrequests⟩ := appendAll_returns happend
  obtain ⟨c, rfl, hrequest, hc, hinfo⟩ := finalize_returns hfinalize
  have hlast : calls = ([] ++ [c₁] ++ l ++ [c]) ∧ mediaId = id ∧ info = info' ∧
      (isTruthy info = true ∧ get info "state" .null = .ok state ∨
        isTruthy info = false ∧ state = .null) := by
    split_ifs at h with htruthy
    · simp only [Prog.returns_bind, Prog.returns_ofExcept, Prog.returns_pure, Prod.mk.injEq] at h
      obtain ⟨_, _, ⟨hstate, rfl⟩, ⟨rfl, rfl, rfl⟩, rfl⟩ := h
      exact ⟨rfl, rfl, rfl, Or.inl ⟨htruthy, hstate⟩⟩
    · simp only [Prog.returns_pure, Prod.mk.injEq] at h
      obtain ⟨⟨rfl, rfl, rfl⟩, rfl⟩ := h
      exact ⟨rfl, rfl, rfl, Or.inr ⟨Bool.eq_false_iff.mpr htruthy, rfl⟩⟩
  obtain ⟨rfl, rfl, rfl, hstate⟩ := hlast
  refine ⟨?_, ?_, c, List.getLast?_concat, hinfo, fun _ => ⟨hrequest, ?_⟩,
    fun hk => absurd hk (lt_irrefl 0)⟩
  · simp [requests, hrequest₁, hrequests, hrequest]
  · intro c' hc'
    simp only [List.nil_append, List.mem_append, List.mem_singleton] at hc'
    rcases hc' with (rfl | hc') | rfl
    · exact hc₁
    · exact hl c' hc'
    · exact hc
  · refine hstate.imp_left ?_
    rintro ⟨htruthy, hget⟩
    exact ⟨htruthy, by simp [reportedState, hinfo, hget, Except.toOption]⟩

theorem history_start (h : InRound strOf w payload chunks interrupted 0 s) :
    History payload chunks 0 s := by
  unfold InRound uploadMedia rounds start at h
  rcases hout : prepare strOf w payload (.stream ⟨chunks, interrupted⟩) [] with
    ⟨e | ⟨mediaId, info, state⟩, calls⟩
  · simp [hout] at h
  rw [hout] at h
  obtain rfl := Sum.inl.inj h
  exact history_prepare hout

/-- **One more STATUS** has succeeded behind them, and the state is the one that it reports. -/
theorem history_poll {answer : Except Exc Response} (h : History payload chunks k s)
    (hpoll : (poll s.mediaId s.processingInfo answer).Returns s.calls (info, state) calls) :
    History payload chunks (k + 1) ⟨s.mediaId, info, state, calls⟩ := by
  obtain ⟨c, rfl, hrequest, hc, hinfo, hstate⟩ := poll_returns hpoll
  refine ⟨?_, ?_, c, ⟨List.getLast?_concat, hinfo, fun hk => absurd hk (Nat.succ_ne_zero k),
    fun _ => ⟨hrequest, hstate⟩⟩⟩
  · rw [List.map_append, h.inOrder]
    simp [requests, hrequest, List.replicate_succ']
  · intro c' hc'
    rcases List.mem_append.mp hc' with hc' | hc'
    · exact h.succeed c' hc'
    · rw [List.mem_singleton.mp hc']
      exact hc

/-! ### A round -/

theorem pollBody_goes_on {answer : String → Except Exc Response} :
    pollBody strOf s answer = .inl t ↔ isPolling s.state = true ∧ ∃ info state calls,
      (poll s.mediaId s.processingInfo (answer s.mediaId)).Returns s.calls (info, state) calls ∧
        isState "failed" state = false ∧ isState "succeeded" state = false ∧
          t = ⟨s.mediaId, info, state, calls⟩ := by
  unfold pollBody Prog.Returns
  by_cases hpolling : isPolling s.state = true
  · rw [if_pos hpolling]
    rcases poll s.mediaId s.processingInfo (answer s.mediaId) s.calls with
      ⟨e | ⟨info, state⟩, calls⟩
    · simp
    · by_cases hfailed : isState "failed" state = true
      · simp [hfailed]
      · by_cases hsucceeded : isState "succeeded" state = true
        · simp [hfailed, hsucceeded]
        · have hfailed := Bool.eq_false_iff.mpr hfailed
          have hsucceeded := Bool.eq_false_iff.mpr hsucceeded
          simpa [hpolling, hfailed, hsucceeded] using eq_comm
  · simp [hpolling]

theorem pollBody_returns {answer : String → Except Exc Response} :
    pollBody strOf s answer = .inr (.ok mediaId, calls) ↔ mediaId = s.mediaId ∧
      ((isPolling s.state = false ∧ calls = s.calls) ∨ (isPolling s.state = true ∧ ∃ info state,
        (poll s.mediaId s.processingInfo (answer s.mediaId)).Returns s.calls (info, state) calls ∧
          isState "succeeded" state = true ∧ isState "failed" state = false)) := by
  unfold pollBody Prog.Returns
  by_cases hpolling : isPolling s.state = true
  · rw [if_pos hpolling]
    rcases poll s.mediaId s.processingInfo (answer s.mediaId) s.calls with
      ⟨e | ⟨info, state⟩, calls'⟩
    · simp [hpolling]
    · by_cases hfailed : isState "failed" state = true
      · simp [hpolling, hfailed]
      · by_cases hsucceeded : isState "succeeded" state = true
        · simp [hpolling, hfailed, hsucceeded]
          exact fun _ => eq_comm
        · simp [hpolling, hfailed, hsucceeded]
  · simp [hpolling]
    exact and_congr eq_comm eq_comm

/-! ### Any sequence of answers -/

/-- **The calls of an upload in any round.** -/
theorem history_of_inRound (h : InRound strOf w payload chunks interrupted k s) :
    History payload chunks k s := by
  refine inv_of_reaches (I := History payload chunks) (fun s hs => history_start hs)
    (fun k s t hs hhistory hbody => ?_) h
  obtain ⟨-, info, state, calls, hpoll, -, -, rfl⟩ := pollBody_goes_on.mp hbody
  exact history_poll hhistory hpoll

/-- An id is that of the media, and there is a last call. -/
theorem usable_iff (h : History payload chunks k s) :
    Usable payload chunks s.mediaId s.calls ↔
      isState "succeeded" s.state = true ∨ (k = 0 ∧ s.processingInfo = .null) := by
  obtain ⟨c, hc⟩ := h.exists_last
  have hrequest : c.request = .finalize s.mediaId → k = 0 := by
    intro hfinalize
    by_contra hk
    rw [(hc.later (Nat.pos_of_ne_zero hk)).1] at hfinalize
    cases hfinalize
  constructor
  · rintro ⟨-, -, c', hlast, hprocessed⟩
    obtain rfl := Option.some.inj (hc.last.symm.trans hlast)
    rcases hprocessed with hsucceeded | ⟨hfinalize, hinfo⟩
    · exact Or.inl (hc.reports_iff_isState.mp hsucceeded)
    · exact Or.inr ⟨hrequest hfinalize, Option.some.inj (hc.info.symm.trans hinfo)⟩
  · intro hprocessed
    refine ⟨⟨k, h.inOrder⟩, h.succeed, c, hc.last, ?_⟩
    rcases hprocessed with hsucceeded | ⟨hk, hnull⟩
    · exact Or.inl (hc.reports_iff_isState.mpr hsucceeded)
    · exact Or.inr ⟨(hc.first hk).1, by rw [hc.info, hnull]⟩

theorem finishes_of_not_polling (h : InRound strOf w payload chunks interrupted k s)
    (hpolling : isPolling s.state = false) :
    Finishes strOf w payload chunks interrupted (.ok s.mediaId, s.calls) :=
  ends_of_round h (pollBody_returns.mpr ⟨rfl, Or.inl ⟨hpolling, rfl⟩⟩)

/-- **The loop goes on only while the media is processed**, if all states are as expected. -/
theorem polling_of_expected (hstatus : StatusExpected strOf w payload chunks interrupted)
    (h : InRound strOf w payload chunks interrupted (k + 1) s) : isPolling s.state = true := by
  obtain ⟨t, ht, hbody⟩ := reaches_succ_iff.mp h
  obtain ⟨hpolling, info, state, calls, hpoll, hfailed, hsucceeded, rfl⟩ := pollBody_goes_on.mp hbody
  rcases hstatus k t ht hpolling info state calls hpoll with hstate | hstate | hstate
  · exact hstate
  · rw [hsucceeded] at hstate
    cases hstate
  · rw [hfailed] at hstate
    cases hstate

theorem isState_unique {a b : String} (ha : isState a state = true) (hb : isState b state = true) :
    a = b := by
  cases state with
  | str s =>
    have ha : s = a := by simpa [isState] using ha
    have hb : s = b := by simpa [isState] using hb
    exact ha.symm.trans hb
  | null => cases ha
  | bool b => cases ha
  | int n => cases ha
  | id i => cases ha
  | time t => cases ha
  | arr l => cases ha
  | obj l => cases ha

theorem not_failed_of_polling (h : isPolling state = true) : isState "failed" state ≠ true := by
  intro hfailed
  rcases Bool.or_eq_true_iff.mp h with h | h
  · exact absurd (isState_unique h hfailed) (by decide)
  · exact absurd (isState_unique h hfailed) (by decide)

theorem not_reports_of_mem {c : Call} {text : String}
    (h : c.request ∈ .init payload :: (segments mimeType mediaId chunks).map Request.append) :
    ¬ Reports text c := by
  rintro ⟨state, hstate, -⟩
  have hnone : reportedInfo c = none := by
    rcases List.mem_cons.mp h with hinit | happend
    · simp [reportedInfo, hinit]
    · obtain ⟨data, -, hdata⟩ := List.mem_map.mp happend
      simp [reportedInfo, ← hdata]
  simp [reportedState, hnone] at hstate

theorem not_failed_start (hfinalize : FinalizeExpected strOf w payload chunks interrupted)
    (h : InRound strOf w payload chunks interrupted 0 s) :
    ∀ c ∈ s.calls, ¬ Reports "failed" c := by
  obtain ⟨hinOrder, -, last, hlast⟩ := history_start h
  obtain ⟨before, hcalls⟩ := List.getLast?_eq_some_iff.mp hlast.last
  have hbefore : before.map Call.request =
      .init payload :: (segments payload.mediaType s.mediaId chunks).map .append := by
    rw [hcalls, List.map_append, requests, List.replicate_zero] at hinOrder
    exact (List.append_inj' hinOrder rfl).1
  intro c hc hfailed
  rw [hcalls] at hc
  rcases List.mem_append.mp hc with hc | hc
  · exact not_reports_of_mem (hbefore ▸ List.mem_map_of_mem hc) hfailed
  · rw [List.mem_singleton.mp hc] at hfailed
    rcases hfinalize s h with hnull | hpolling | hsucceeded
    · exact not_reports_of_not_truthy (hnull ▸ hlast.info) rfl hfailed
    · exact not_failed_of_polling hpolling (hlast.reports_iff_isState.mp hfailed)
    · exact absurd (isState_unique hsucceeded (hlast.reports_iff_isState.mp hfailed)) (by decide)

/-- **What was called for up to some round reports no failure**, if FINALIZE does not. -/
theorem not_failed_of_inRound (hfinalize : FinalizeExpected strOf w payload chunks interrupted)
    (h : InRound strOf w payload chunks interrupted k s) : ∀ c ∈ s.calls, ¬ Reports "failed" c := by
  refine inv_of_reaches (I := fun _ s => ∀ c ∈ s.calls, ¬ Reports "failed" c)
    (fun s hs => not_failed_start hfinalize hs) (fun k s t _ hbefore hbody c hc hreports => ?_) h
  obtain ⟨-, info, state, calls, hpoll, hfailed, -, rfl⟩ := pollBody_goes_on.mp hbody
  obtain ⟨c', rfl, -, -, -, hstate⟩ := poll_returns hpoll
  rcases List.mem_append.mp hc with hc | hc
  · exact hbefore c hc hreports
  · rw [List.mem_singleton.mp hc] at hreports
    obtain ⟨state', hstate', hreports⟩ := hreports
    obtain rfl := Option.some.inj (hstate.symm.trans hstate')
    rw [hfailed] at hreports
    cases hreports

theorem exists_round_of_finishes
    (h : Finishes strOf w payload chunks interrupted (.ok mediaId, calls)) :
    ∃ k s, InRound strOf w payload chunks interrupted k s ∧
      pollBody strOf s (w.status k) = .inr (.ok mediaId, calls) := by
  rcases ends_iff.mp h with hstart | hround
  · unfold start at hstart
    rcases hout : prepare strOf w payload (.stream ⟨chunks, interrupted⟩) [] with
      ⟨e | x, calls'⟩
    · simp [hout] at hstart
    · simp [hout] at hstart
  · exact hround

section Expected

variable (hfinalize : FinalizeExpected strOf w payload chunks interrupted)

include hfinalize

/-- **What is returned is usable**, if all states are as expected. -/
theorem usable_of_finishes (hstatus : StatusExpected strOf w payload chunks interrupted)
    (h : Finishes strOf w payload chunks interrupted (.ok mediaId, calls)) :
    Usable payload chunks mediaId calls := by
  obtain ⟨k, s, hs, hbody⟩ := exists_round_of_finishes h
  have hhistory := history_of_inRound hs
  obtain ⟨rfl, ⟨hpolling, rfl⟩ | ⟨-, info, state, hpoll, hsucceeded, -⟩⟩ := pollBody_returns.mp hbody
  · refine (usable_iff hhistory).mpr ?_
    cases k with
    | zero =>
      rcases hfinalize s hs with hnull | hpolling' | hsucceeded
      · exact Or.inr ⟨rfl, hnull⟩
      · rw [hpolling] at hpolling'
        cases hpolling'
      · exact Or.inl hsucceeded
    | succ k =>
      rw [polling_of_expected hstatus hs] at hpolling
      cases hpolling
  · exact (usable_iff (history_poll hhistory hpoll)).mpr (Or.inl hsucceeded)

/-- **An upload whose processing failed raises.** -/
theorem raises_of_failed {c : Call} (hc : Calls strOf w payload chunks interrupted c)
    (hfailed : Reports "failed" c) :
    ∃ e calls, Finishes strOf w payload chunks interrupted (.error e, calls) := by
  rcases hc with ⟨k, s, hs, hc⟩ | ⟨x, calls, hfinishes, hc⟩
  · exact absurd hfailed (not_failed_of_inRound hfinalize hs c hc)
  rcases x with e | mediaId
  · exact ⟨e, calls, hfinishes⟩
  obtain ⟨k, s, hs, hbody⟩ := exists_round_of_finishes hfinishes
  have hbefore := not_failed_of_inRound hfinalize hs
  obtain ⟨-, ⟨-, rfl⟩ | ⟨-, info, state, hpoll, hsucceeded, -⟩⟩ := pollBody_returns.mp hbody
  · exact absurd hfailed (hbefore c hc)
  · obtain ⟨c', rfl, -, -, -, hstate⟩ := poll_returns hpoll
    rcases List.mem_append.mp hc with hc | hc
    · exact absurd hfailed (hbefore c hc)
    · rw [List.mem_singleton.mp hc] at hfailed
      obtain ⟨state', hstate', hfailed⟩ := hfailed
      obtain rfl := Option.some.inj (hstate.symm.trans hstate')
      exact absurd (isState_unique hsucceeded hfailed) (by decide)

end Expected

/-- **An upload returns an id only for usable media** exactly if FINALIZE reports no `processing_info`
or a state that is looked for and no failure, and each STATUS a state that is looked for. -/
theorem returnsUsable_iff (strOf : Json → String) (w : Server) (payload : InitPayload)
    (chunks : List (List UInt8)) (interrupted : Option Exc) :
    ReturnsUsable strOf w payload chunks interrupted ↔
      FinalizeExpected strOf w payload chunks interrupted ∧
        StatusExpected strOf w payload chunks interrupted := by
  constructor
  · rintro ⟨husable, -⟩
    have hleft : ∀ {k s}, InRound strOf w payload chunks interrupted k s →
        isPolling s.state = false →
          isState "succeeded" s.state = true ∨ (k = 0 ∧ s.processingInfo = .null) :=
      fun hs hpolling => (usable_iff (history_of_inRound hs)).mp
        (husable _ _ (finishes_of_not_polling hs hpolling))
    refine ⟨fun s hs => ?_, fun k s hs hpolling info state calls hpoll => ?_⟩
    · rcases hpolling : isPolling s.state with _ | _
      · rcases hleft hs hpolling with hsucceeded | ⟨-, hnull⟩
        · exact Or.inr (Or.inr hsucceeded)
        · exact Or.inl hnull
      · exact Or.inr (Or.inl rfl)
    · by_contra hunknown
      simp only [not_or, Bool.not_eq_true] at hunknown
      obtain ⟨hpolling', hsucceeded, hfailed⟩ := hunknown
      have hbody : pollBody strOf s (w.status k) = .inl ⟨s.mediaId, info, state, calls⟩ :=
        pollBody_goes_on.mpr ⟨hpolling, info, state, calls, hpoll, hfailed, hsucceeded, rfl⟩
      have ht : InRound strOf w payload chunks interrupted (k + 1) ⟨s.mediaId, info, state, calls⟩ :=
        reaches_succ_iff.mpr ⟨s, hs, hbody⟩
      rcases hleft ht hpolling' with hsucceeded' | ⟨hk, -⟩
      · exact absurd hsucceeded' (by simp [hsucceeded])
      · exact absurd hk (Nat.succ_ne_zero k)
  · rintro ⟨hfinalize, hstatus⟩
    exact ⟨fun mediaId calls h => usable_of_finishes hfinalize hstatus h,
      fun c hc hfailed => raises_of_failed hfinalize hc hfailed⟩

/-! ### An upload that fails -/

/-- A response with a body. -/
def replied (status : ℕ) (body : Json) : Response := ⟨status, fun _ => none, "", .ok body⟩

/-- A server that cannot process the media, and says so in its answer to FINALIZE. -/
def failing : Server where
  init _ := .ok (replied 202 (.obj [("data", .obj [("id", .str "7")])]))
  append _ := .ok (replied 204 .null)
  finalize _ := .ok (replied 201
    (.obj [("data", .obj [("id", .str "7"), ("processing_info", .obj [("state", .str "failed")])])]))
  status _ _ := .ok (replied 404 .null)

/-- The text of an id. -/
def idText : Json → String
  | .str s => s
  | _ => ""

/-- The processing failed, and the id is returned. -/
theorem not_returnsUsable_failing :
    ¬ ReturnsUsable idText failing ⟨"4", "video/mp4", "tweet_video"⟩ [[1, 2], [3, 4]] none := by
  rintro ⟨husable, -⟩
  have hbegun : InRound idText failing ⟨"4", "video/mp4", "tweet_video"⟩ [[1, 2], [3, 4]] none 0
      ⟨"7", .obj [("state", .str "failed")], .str "failed", _⟩ := rfl
  have hleft := finishes_of_not_polling hbegun (by decide)
  rcases (usable_iff (history_of_inRound hbegun)).mp (husable _ _ hleft) with h | ⟨-, h⟩
  · exact absurd h (by decide)
  · cases h

end MarketingSuite.Uploads.Processing
