import MarketingSuite.Uploads.YouTube
import Mathlib.Data.List.Basic

/-! # The bytes that are sent to YouTube

Each PUT of `upload_video` announces which bytes of the asset it sends. It asks the asset server for
the bytes from there on, and sends what it gets, also when that is the whole asset. -/

namespace MarketingSuite.Uploads.ByteExact

open MarketingSuite.Lib.Programs MarketingSuite.Lib.Loops
open MarketingSuite.Base.Values MarketingSuite.Base.Http
open MarketingSuite.Uploads.YouTube

/-- The asset server: a GET from some byte on is answered with the status 206 and the bytes from there
on, or with the status 200 and the whole asset. -/
def Serves (asset : List UInt8) (r : Round) : Prop :=
  ∀ range response, r.asset range = .ok response →
    (response.status = 200 → response.body = asset) ∧
    (response.status = 206 → response.body = asset.drop (range.getD 0))

/-- The bytes of the asset that a range announces. -/
def announced (asset : List UInt8) (c : ContentRange) : List UInt8 :=
  (asset.take (c.last + 1).toNat).drop c.first

/-- A PUT sends what it announces. -/
def Exact (asset : List UInt8) (p : Put) : Prop := p.body = announced asset p.contentRange

/-- The PUT of a round, if it comes to one. -/
def putIn (fileSize : ℤ) (s : Upload) (r : Round) : List Put :=
  match r.asset (rangeFrom s.uploadedBytes) with
  | .ok response =>
    if response.status = 200 ∨ response.status = 206 then
      [putFrom fileSize s.uploadedBytes response.body]
    else []
  | .error _ => []

/-- The asset server sends no more than what it was asked for. -/
def SendsRest (s : Upload) (r : Round) : Prop :=
  0 < s.uploadedBytes → ∀ response, r.asset (some s.uploadedBytes) = .ok response →
    response.status ≠ 200

/-! ### The server that keeps the video -/

/-- Bytes written at some place. -/
def write (first : ℕ) (bytes stored : List UInt8) : List UInt8 :=
  stored.take first ++ bytes ++ stored.drop (first + bytes.length)

/-- A response acknowledges no more than what is stored. -/
def AcksStored (stored : List UInt8) (response : Response) : Prop :=
  ∀ n, acknowledged response = some n → n ≤ stored.length

/-- What the server keeps of a round: of a PUT, some of its first bytes, and all of them if it accepts
the upload. It accepts one on a status query if it has all bytes. -/
structure Keeps (fileSize : ℤ) (s : Upload) (r : Round) (before after : List UInt8) : Prop where
  put : ∀ p ∈ putIn fileSize s r, ∃ n, after = write p.contentRange.first (p.body.take n) before ∧
    ∀ response t, Sent fileSize r s response t → Accepted response → p.body.length ≤ n
  none : putIn fileSize s r = [] → after = before
  acks : ∀ response, Answered fileSize r s response → AcksStored after response
  status : ∀ response t, Queried fileSize r s response t → Accepted response →
    fileSize ≤ after.length

section Uploads

variable (accessToken : String) (v : Video) (w : Servers)

/-- The PUTs of an upload. -/
def Puts (p : Put) : Prop :=
  (∃ k s, InRound accessToken v w k s ∧ p ∈ s.puts) ∨
    ∃ x s, Finishes accessToken v w (x, s) ∧ p ∈ s.puts

/-- What the server has before each round. -/
structure Stores (stored : ℕ → List UInt8) : Prop where
  nothing : stored 0 = []
  keeps : ∀ k s, InRound accessToken v w k s → Active v.fileSize s →
    Keeps v.fileSize s (w.round k) (stored k) (stored (k + 1))

/-- **Every PUT sends what it announces**, and what is put together is the asset when the upload is
accepted. -/
def IsExact (asset : List UInt8) : Prop :=
  (∀ p, Puts accessToken v w p → Exact asset p) ∧
    ∀ stored, Stores accessToken v w stored → ∀ k s videoId t, InRound accessToken v w k s →
      body v.fileSize s (w.round k) = .inr (.ok videoId, t) → stored (k + 1) = asset

end Uploads

variable {fileSize : ℤ} {r : Round} {s t : Upload} {asset : List UInt8} {p : Put}
  {accessToken : String} {v : Video} {w : Servers}

/-! ### The PUT of a round -/

theorem mem_putIn : p ∈ putIn fileSize s r ↔ ∃ response,
    r.asset (rangeFrom s.uploadedBytes) = .ok response ∧
      (response.status = 200 ∨ response.status = 206) ∧
        p = putFrom fileSize s.uploadedBytes response.body := by
  unfold putIn
  rcases r.asset (rangeFrom s.uploadedBytes) with e | response
  · simp
  · by_cases hstatus : response.status = 200 ∨ response.status = 206
    · simp [hstatus]
    · simp [hstatus]

theorem puts_transfer (fileSize : ℤ) (r : Round) (s : Upload) :
    (transfer fileSize r s).2.puts = s.puts ++ putIn fileSize s r := by
  unfold putIn
  rcases hasset : r.asset (rangeFrom s.uploadedBytes) with e | response
  · simp [transfer, answer, bind, Prog.gets, Prog.ofExcept, hasset, Except.mapError]
  · by_cases hstatus : response.status = 200 ∨ response.status = 206
    · simp [transfer, answer, bind, Prog.gets, Prog.ofExcept, hasset, Except.mapError, hstatus,
        Prog.require, Prog.modify, pure]
    · simp [transfer, answer, bind, Prog.gets, Prog.ofExcept, hasset, Except.mapError, hstatus,
        Prog.require, Prog.raise]

theorem puts_attempt (fileSize : ℤ) (r : Round) (s : Upload) :
    (attempt fileSize r s).2.puts = s.puts ++ putIn fileSize s r := by
  have hhandler : ∀ e : UploadError, (if e.isCaught = true then query fileSize r e >>= recover
      else Prog.raise e : Work (Option Json)).Frames Upload.puts := by
    intro e
    refine Prog.frames_ite ?_ (Prog.frames_raise e)
    exact Prog.frames_bind (frames_query fun _ _ => rfl) (frames_recover fun _ _ => rfl)
  unfold attempt
  rw [Prog.snd_handle_of_frames hhandler,
    Prog.snd_bind_of_frames (frames_receive (f := Upload.puts) fun _ _ => rfl)]
  exact puts_transfer fileSize r s

theorem puts_of_goes_on (h : body fileSize s r = .inl t) :
    Active fileSize s ∧ t.puts = s.puts ++ putIn fileSize s r := by
  obtain ⟨hactive, hattempt⟩ := body_goes_on.mp h
  have hputs := puts_attempt fileSize r s
  rw [hattempt] at hputs
  exact ⟨hactive, hputs⟩

theorem puts_of_ends {x : Except UploadError Json} (h : body fileSize s r = .inr (x, t)) :
    t.puts = if Active fileSize s then s.puts ++ putIn fileSize s r else s.puts := by
  have hputs := puts_attempt fileSize r s
  rcases x with e | videoId
  · rcases body_raises.mp h with ⟨hactive, hattempt⟩ | ⟨hnot, -, rfl⟩
    · rw [hattempt] at hputs
      rw [if_pos hactive]
      exact hputs
    · rw [if_neg hnot]
  · obtain ⟨hactive, hattempt⟩ := body_returns.mp h
    rw [hattempt] at hputs
    rw [if_pos hactive]
    exact hputs

theorem exact_putFrom_iff (hsize : fileSize = asset.length) {first : ℕ} {body : List UInt8} :
    Exact asset (putFrom fileSize first body) ↔ body = asset.drop first := by
  have hlast : (fileSize - 1 + 1).toNat = asset.length := by omega
  have hannounced : announced asset (putFrom fileSize first body).contentRange =
      asset.drop first := by
    show (asset.take (fileSize - 1 + 1).toNat).drop first = _
    rw [hlast, List.take_length]
  unfold Exact
  rw [hannounced]
  rfl

theorem getD_rangeFrom (first : ℕ) : (rangeFrom first).getD 0 = first := by
  unfold rangeFrom
  split_ifs with hpos
  · rfl
  · exact (Nat.eq_zero_of_not_pos hpos).symm

/-- **The PUT of a round is exact** exactly if the asset server does not send the whole asset where it
was asked for the rest. -/
theorem exact_iff (hsize : fileSize = asset.length) (hactive : Active fileSize s)
    (hserves : Serves asset r) :
    (∀ p ∈ putIn fileSize s r, Exact asset p) ↔ SendsRest s r := by
  have hlt : s.uploadedBytes < asset.length := by
    have hleft := hactive.1
    omega
  constructor
  · intro hexact hpos response hresponse hstatus
    have hsome : rangeFrom s.uploadedBytes = some s.uploadedBytes := if_pos hpos
    have hbody := (hserves _ response hresponse).1 hstatus
    have hput : putFrom fileSize s.uploadedBytes response.body ∈ putIn fileSize s r :=
      mem_putIn.mpr ⟨response, by rw [hsome, hresponse], Or.inl hstatus, rfl⟩
    have hsame : response.body = asset.drop s.uploadedBytes :=
      (exact_putFrom_iff hsize).mp (hexact _ hput)
    have hlength := congrArg List.length (hbody.symm.trans hsame)
    rw [List.length_drop] at hlength
    omega
  · intro hsends p hp
    obtain ⟨response, hasset, hstatus, rfl⟩ := mem_putIn.mp hp
    rw [exact_putFrom_iff hsize]
    rcases hstatus with h200 | h206
    · by_cases hpos : 0 < s.uploadedBytes
      · rw [rangeFrom, if_pos hpos] at hasset
        exact absurd h200 (hsends hpos response hasset)
      · rw [Nat.eq_zero_of_not_pos hpos, List.drop_zero]
        exact (hserves _ response hasset).1 h200
    · rw [(hserves _ response hasset).2 h206, getD_rangeFrom]

/-! ### The PUTs of an upload -/

/-- What an upload has put by some round was put in a round before. -/
theorem exists_putIn_of_mem (hs : InRound accessToken v w k s) (hp : p ∈ s.puts) :
    ∃ k s, InRound accessToken v w k s ∧ Active v.fileSize s ∧ p ∈ putIn v.fileSize s (w.round k) := by
  refine inv_of_reaches (I := fun _ s => p ∈ s.puts → ∃ k s, InRound accessToken v w k s ∧
    Active v.fileSize s ∧ p ∈ putIn v.fileSize s (w.round k)) (fun s hs hp => ?_)
    (fun k s t hs hbefore hbody hp => ?_) hs hp
  · rw [eq_begun hs] at hp
    cases hp
  · obtain ⟨hactive, hputs⟩ := puts_of_goes_on hbody
    rw [hputs, List.mem_append] at hp
    rcases hp with hp | hp
    · exact hbefore hp
    · exact ⟨k, s, hs, hactive, hp⟩

theorem puts_iff : Puts accessToken v w p ↔ ∃ k s, InRound accessToken v w k s ∧
    Active v.fileSize s ∧ p ∈ putIn v.fileSize s (w.round k) := by
  constructor
  · rintro (⟨k, s, hs, hp⟩ | ⟨x, t, hfinishes, hp⟩)
    · exact exists_putIn_of_mem hs hp
    rcases finishes_iff.mp hfinishes with hstart | ⟨k, s, hs, hbody⟩
    · obtain ⟨e, heq, -⟩ := start_ends hstart
      obtain rfl := (Prod.mk.inj heq).2
      cases hp
    · rw [puts_of_ends hbody] at hp
      split_ifs at hp with hactive
      · rcases List.mem_append.mp hp with hp | hp
        · exact exists_putIn_of_mem hs hp
        · exact ⟨k, s, hs, hactive, hp⟩
      · exact exists_putIn_of_mem hs hp
  · rintro ⟨k, s, hs, hactive, hp⟩
    rcases hbody : body v.fileSize s (w.round k) with t | ⟨x, t⟩
    · refine Or.inl ⟨k + 1, t, reaches_succ_iff.mpr ⟨s, hs, hbody⟩, ?_⟩
      rw [(puts_of_goes_on hbody).2]
      exact List.mem_append_right _ hp
    · refine Or.inr ⟨x, t, finishes_iff.mpr (Or.inr ⟨k, s, hs, hbody⟩), ?_⟩
      rw [puts_of_ends hbody, if_pos hactive]
      exact List.mem_append_right _ hp

/-! ### What is put together -/

/-- Writing bytes of the asset at their place, over a first part of it. -/
theorem write_take {first m n : ℕ} (hfirst : first ≤ m) (hm : m ≤ asset.length) :
    write first ((asset.drop first).take n) (asset.take m) = asset.take (max m (first + n)) := by
  have hhead : (asset.take m).take first = asset.take first := by
    rw [List.take_take, Nat.min_eq_left hfirst]
  have hwritten : asset.take first ++ (asset.drop first).take n = asset.take (first + n) :=
    List.take_add.symm
  have hlength : ((asset.drop first).take n).length = min n (asset.length - first) := by
    rw [List.length_take, List.length_drop]
  unfold write
  rw [hhead, hwritten, hlength]
  by_cases hle : first + n ≤ m
  · -- the bytes were there before
    have hall : min n (asset.length - first) = n := by omega
    have htake : (asset.take m).take (first + n) = asset.take (first + n) := by
      rw [List.take_take, Nat.min_eq_left hle]
    rw [hall, Nat.max_eq_left hle, ← htake, List.take_append_drop]
  · -- they reach beyond what was there
    have hbeyond : (asset.take m).length ≤ first + min n (asset.length - first) := by
      rw [List.length_take]
      omega
    rw [List.drop_eq_nil_of_le hbeyond, List.append_nil, Nat.max_eq_right (by omega)]

/-- The server has a first part of the asset, and the loop goes on inside it. -/
structure Inside (asset stored : List UInt8) (s : Upload) : Prop where
  first : ∃ m, m ≤ asset.length ∧ stored = asset.take m
  uploadedBytes : s.uploadedBytes ≤ stored.length

theorem exists_put {response : Response} (h : Sent fileSize r s response t) :
    ∃ p, p ∈ putIn fileSize s r := by
  unfold Sent transfer answer at h
  simp only [Prog.returns_bind, Prog.returns_gets, Prog.returns_ofExcept, Prog.returns_require] at h
  obtain ⟨_, _, ⟨huploaded, -⟩, asset, _, ⟨hasset, -⟩, _, _, ⟨hstatus, -⟩, -⟩ := h
  rw [huploaded] at hasset
  rcases hout : r.asset (rangeFrom s.uploadedBytes) with e | response'
  · rw [hout] at hasset
    cases hasset
  · rw [hout] at hasset
    obtain rfl := Except.ok.inj hasset
    exact ⟨_, mem_putIn.mpr ⟨response', hout, hstatus, rfl⟩⟩

/-- **A round of exact PUTs** leaves a first part of the asset, with all that was there before. -/
theorem stored_after {before after : List UInt8} (hsize : fileSize = asset.length)
    (hexact : ∀ p ∈ putIn fileSize s r, Exact asset p) (hinside : Inside asset before s)
    (hkeeps : Keeps fileSize s r before after) :
    (∃ m, m ≤ asset.length ∧ after = asset.take m) ∧ before.length ≤ after.length ∧
      ∀ response t, Sent fileSize r s response t → Accepted response → after = asset := by
  obtain ⟨⟨m, hm, hbefore⟩, huploaded⟩ := hinside
  have hlength : before.length = m := by rw [hbefore, List.length_take, Nat.min_eq_left hm]
  rw [hlength] at huploaded
  rcases hput : putIn fileSize s r with _ | ⟨p, l⟩
  · have hsame := hkeeps.none hput
    refine ⟨⟨m, hm, hsame.trans hbefore⟩, by rw [hsame], fun response t hsent _ => ?_⟩
    obtain ⟨p, hp⟩ := exists_put hsent
    rw [hput] at hp
    cases hp
  · have hp : p ∈ putIn fileSize s r := hput ▸ List.mem_cons_self
    obtain ⟨n, hafter, haccepted⟩ := hkeeps.put p hp
    obtain ⟨response, -, -, rfl⟩ := mem_putIn.mp hp
    have hbody : response.body = asset.drop s.uploadedBytes :=
      (exact_putFrom_iff hsize).mp (hexact _ hp)
    have hwritten : after = asset.take (max m (s.uploadedBytes + n)) := by
      rw [hafter, hbefore]
      show write s.uploadedBytes (response.body.take n) (asset.take m) = _
      rw [hbody, write_take huploaded hm]
    refine ⟨⟨min (max m (s.uploadedBytes + n)) asset.length, by omega, ?_⟩, ?_,
      fun response' t hsent hacc => ?_⟩
    · rw [hwritten, List.take_eq_take_min]
    · rw [hwritten, hlength, List.length_take]
      omega
    · have hn : response.body.length ≤ n := haccepted response' t hsent hacc
      rw [hbody, List.length_drop] at hn
      rw [hwritten, List.take_of_length_le (by omega)]

/-- **The bytes stay inside the asset**, through any sequence of rounds. -/
theorem inside (hsize : v.fileSize = asset.length)
    (hexact : ∀ k s, InRound accessToken v w k s → Active v.fileSize s →
      ∀ p ∈ putIn v.fileSize s (w.round k), Exact asset p)
    {stored : ℕ → List UInt8} (hstores : Stores accessToken v w stored) {k : ℕ}
    (hs : InRound accessToken v w k s) : Inside asset (stored k) s := by
  refine inv_of_reaches (I := fun k s => Inside asset (stored k) s) (fun s hs => ?_)
    (fun k s t hs hinside hbody => ?_) hs
  · rw [eq_begun hs, hstores.nothing]
    exact ⟨⟨0, Nat.zero_le _, rfl⟩, le_rfl⟩
  · obtain ⟨hactive, hattempt⟩ := body_goes_on.mp hbody
    have hkeeps := hstores.keeps k s hs hactive
    have hbefore := hinside.uploadedBytes
    obtain ⟨hfirst, hmore, -⟩ := stored_after hsize (hexact k s hs hactive) hinside hkeeps
    refine ⟨hfirst, ?_⟩
    rcases attempt_goes_on hattempt with ⟨response, u, hsent, -, hack | ⟨-, hsame⟩⟩ |
      ⟨response, u, hquery, -, hack | hzero | hsame⟩
    · exact hkeeps.acks response ⟨u, Or.inl hsent⟩ _ hack
    · omega
    · exact hkeeps.acks response ⟨u, Or.inr hquery⟩ _ hack
    · omega
    · omega

theorem stored_eq (hsize : v.fileSize = asset.length)
    (hexact : ∀ k s, InRound accessToken v w k s → Active v.fileSize s →
      ∀ p ∈ putIn v.fileSize s (w.round k), Exact asset p)
    {stored : ℕ → List UInt8} (hstores : Stores accessToken v w stored) {k : ℕ}
    (hs : InRound accessToken v w k s) {videoId : Json}
    (hbody : body v.fileSize s (w.round k) = .inr (.ok videoId, t)) : stored (k + 1) = asset := by
  obtain ⟨hactive, hattempt⟩ := body_returns.mp hbody
  have hkeeps := hstores.keeps k s hs hactive
  obtain ⟨⟨m, hm, hafter⟩, -, haccepted⟩ :=
    stored_after hsize (hexact k s hs hactive) (inside hsize hexact hstores hs) hkeeps
  rcases attempt_returns_iff.mp hattempt with ⟨response, u, hsent, h⟩ | ⟨response, u, hquery, h⟩
  · exact haccepted response u hsent (receive_returns.mp h).1
  · have hall := hkeeps.status response u hquery (recover_returns.mp h).1
    rw [hafter, List.length_take] at hall
    rw [hafter, List.take_of_length_le (by omega)]

/-- **Uploads are byte-exact** exactly if the asset server, in each round that asks it for the rest of
the asset, does not answer with the status 200 and all of it. -/
theorem isExact_iff (hsize : v.fileSize = asset.length)
    (hserves : ∀ k, Serves asset (w.round k)) :
    IsExact accessToken v w asset ↔ ∀ k s, InRound accessToken v w k s → Active v.fileSize s →
      SendsRest s (w.round k) := by
  constructor
  · rintro ⟨hputs, -⟩ k s hs hactive
    refine (exact_iff hsize hactive (hserves k)).mp fun p hp => ?_
    exact hputs p (puts_iff.mpr ⟨k, s, hs, hactive, hp⟩)
  · intro hsends
    have hexact : ∀ k s, InRound accessToken v w k s → Active v.fileSize s →
        ∀ p ∈ putIn v.fileSize s (w.round k), Exact asset p := fun k s hs hactive =>
      (exact_iff hsize hactive (hserves k)).mpr (hsends k s hs hactive)
    refine ⟨fun p hp => ?_, fun stored hstores k s videoId t hs hbody => ?_⟩
    · obtain ⟨k, s, hs, hactive, hp⟩ := puts_iff.mp hp
      exact hexact k s hs hactive p hp
    · exact stored_eq hsize hexact hstores hs hbody

/-! ### A resumed upload -/

/-- A video of four bytes. -/
def small : Video := { clip with fileSize := 4 }

def bytes : List UInt8 := [1, 2, 3, 4]

/-- Two bytes of the first PUT are acknowledged, and the second one is accepted. -/
def resumed (asset : Option ℕ → AssetResponse) : Servers where
  post _ := .ok opened
  round _ := ⟨fun range => .ok (asset range),
    fun p => .ok (if p.contentRange.first = 0 then
      bare 308 fun name => if name = "Range" then some "bytes=0-1" else none
    else { bare 200 fun _ => none with json := .ok (.obj [("id", .str "video")]) }),
    fun _ => .error (.request "")⟩

/-- An asset server that answers with the status 206. -/
def restOf (range : Option ℕ) : AssetResponse := ⟨206, bytes.drop (range.getD 0)⟩

/-- One that ignores the `Range`. -/
def wholeOf (_ : Option ℕ) : AssetResponse := ⟨200, bytes⟩

theorem isExact_iff_resumed : IsExact "token" small (resumed restOf) bytes ↔
    ∀ k s, InRound "token" small (resumed restOf) k s → Active 4 s →
      SendsRest s ((resumed restOf).round k) := by
  refine isExact_iff rfl fun k range response hresponse => ?_
  obtain rfl := Except.ok.inj hresponse
  have hstatus : ¬ 206 = 200 := by decide
  exact ⟨fun h => absurd h hstatus, fun _ => rfl⟩

/-- The second PUT announces the bytes 2 and 3, and sends all four. -/
theorem not_isExact_whole : ¬ IsExact "token" small (resumed wholeOf) bytes := by
  rintro ⟨hputs, -⟩
  have hsent : ∃ x t, Finishes "token" small (resumed wholeOf) (x, t) ∧
      putFrom 4 2 bytes ∈ t.puts := ⟨_, _, ⟨2, rfl⟩, by decide⟩
  exact absurd (hputs _ (Or.inr hsent)) (by unfold Exact; decide)

end MarketingSuite.Uploads.ByteExact
