import MarketingSuite.Uploads.YouTube
import Mathlib.Data.Prod.Lex

/-! # When an upload to YouTube ends

Each round of `upload_video` should end it, use up a retry or get the upload on; then the retries and
the bytes that are left, in this order, go down. The server says how far the upload got, and nothing
checks that this is further than before. -/

namespace MarketingSuite.Uploads.Termination

open MarketingSuite.Lib.Loops
open MarketingSuite.Base.Http
open MarketingSuite.Uploads.YouTube

/-- A round ends the upload, uses up a retry, or gets the upload on. -/
def Progresses (s : Upload) : Upload ⊕ Outcome → Prop
  | .inl t => t.retries < s.retries ∨ s.uploadedBytes < t.uploadedBytes
  | .inr _ => True

/-- **The upload terminates**, and each round does its part. -/
def Terminates (accessToken : String) (v : Video) (w : Servers) : Prop :=
  (∃ x, Finishes accessToken v w x) ∧ ∀ k s, InRound accessToken v w k s →
    Progresses s (body v.fileSize s (w.round k))

/-- The answer to the PUT of a round does not keep the upload where it is: it acknowledges more than
before if its status is 308, and it is not of a status below 400 that is none of 200, 201 and 308. -/
def Moves (fileSize : ℤ) (s : Upload) (r : Round) : Prop :=
  ∀ response t, Sent fileSize r s response t →
    ¬ Passes response ∧ ∀ n, acknowledged response = some n → s.uploadedBytes < n

variable {fileSize : ℤ} {r : Round} {s t : Upload} {accessToken : String} {v : Video} {w : Servers}

/-! ### One round -/

/-- The retries, and the bytes that are left. -/
def measure (fileSize : ℤ) (s : Upload) : ℕ ×ₗ ℕ :=
  toLex (s.retries, (fileSize - s.uploadedBytes).toNat)

/-- **A round that goes on decreases the measure** if the answer to its PUT moves the upload. -/
theorem measure_lt (hmoves : Active fileSize s → Moves fileSize s r)
    (hbody : body fileSize s r = .inl t) : measure fileSize t < measure fileSize s := by
  obtain ⟨hactive, hattempt⟩ := body_goes_on.mp hbody
  have hleft := hactive.1
  unfold measure
  rw [Prod.Lex.toLex_lt_toLex]
  rcases attempt_goes_on hattempt with ⟨response, u, hsent, hretries, hanswer⟩ |
    ⟨response, u, -, hretries, -⟩
  · obtain ⟨hpasses, hmore⟩ := hmoves hactive response u hsent
    rcases hanswer with hack | ⟨hpass, -⟩
    · have hlt := hmore _ hack
      refine Or.inr ⟨hretries, ?_⟩
      show (fileSize - t.uploadedBytes).toNat < (fileSize - s.uploadedBytes).toNat
      omega
    · exact absurd hpass hpasses
  · exact Or.inl hretries.2

theorem progresses_of_moves (hmoves : Active fileSize s → Moves fileSize s r) :
    Progresses s (body fileSize s r) := by
  rcases hbody : body fileSize s r with t | x
  · obtain ⟨hactive, hattempt⟩ := body_goes_on.mp hbody
    rcases attempt_goes_on hattempt with ⟨response, u, hsent, -, hanswer⟩ |
      ⟨response, u, -, hretries, -⟩
    · obtain ⟨hpasses, hmore⟩ := hmoves hactive response u hsent
      rcases hanswer with hack | ⟨hpass, -⟩
      · exact Or.inr (hmore _ hack)
      · exact absurd hpass hpasses
    · exact Or.inl hretries.2
  · exact trivial

theorem not_progresses (hactive : Active fileSize s) {response : Response} {u : Upload}
    (hsent : Sent fileSize r s response u) (hreceive : (receive response).Returns u none t)
    (hretries : t.retries = u.retries) (hle : t.uploadedBytes ≤ s.uploadedBytes) :
    ¬ Progresses s (body fileSize s r) := by
  have hattempt := attempt_returns_iff.mpr (Or.inl ⟨response, u, hsent, hreceive⟩)
  have hsame := hsent.variables.2
  rw [body_goes_on.mpr ⟨hactive, hattempt⟩]
  show ¬ (t.retries < s.retries ∨ s.uploadedBytes < t.uploadedBytes)
  omega

theorem moves_of_progresses (hactive : Active fileSize s)
    (hprogress : Progresses s (body fileSize s r)) : Moves fileSize s r := by
  intro response u hsent
  constructor
  · intro hpass
    have hreceive : (receive response).Returns u none u := receive_goes_on.mpr (Or.inr ⟨hpass, rfl⟩)
    exact not_progresses hactive hsent hreceive rfl hsent.variables.1.le hprogress
  · intro n hack
    by_contra hle
    have hreceive : (receive response).Returns u none { u with uploadedBytes := n } :=
      receive_goes_on.mpr (Or.inl ⟨n, hack, rfl⟩)
    exact not_progresses hactive hsent hreceive rfl (not_lt.mp hle) hprogress

/-! ### Any sequence of answers -/

/-- **An upload terminates**, with progress in each round, exactly if the answer to no PUT keeps it
where it is. -/
theorem terminates_iff (accessToken : String) (v : Video) (w : Servers) :
    Terminates accessToken v w ↔ ∀ k s, InRound accessToken v w k s → Active v.fileSize s →
      Moves v.fileSize s (w.round k) := by
  constructor
  · rintro ⟨-, hprogress⟩ k s hs hactive
    exact moves_of_progresses hactive (hprogress k s hs)
  · intro hmoves
    refine ⟨?_, fun k s hs => progresses_of_moves (hmoves k s hs)⟩
    exact halts_of_measure (measure v.fileSize) fun k s t hs hbody => measure_lt (hmoves k s hs) hbody

/-! ### An upload that does not -/

/-- The first bytes are acknowledged, again and again. -/
def half : Response := bare 308 fun name => if name = "Range" then some "bytes=0-499" else none

/-- Servers that never get beyond the first 500 bytes. -/
def stuck : Servers where
  post _ := .ok opened
  round _ := ⟨fun range => .ok ⟨206, List.replicate (1000 - range.getD 0) 0⟩, fun _ => .ok half,
    fun _ => .ok half⟩

theorem stuck_goes_on (k : ℕ) (hs : s.uploadedBytes ≤ 500 ∧ s.retries = 3) :
    ∃ t, body 1000 s (stuck.round k) = .inl t ∧ t.uploadedBytes ≤ 500 ∧ t.retries = 3 := by
  have hactive : Active 1000 s := ⟨by omega, by omega⟩
  obtain ⟨u, hsent⟩ : ∃ u, Sent 1000 (stuck.round k) s half u := ⟨_, rfl⟩
  have hack : acknowledged half = some 500 := by decide
  have hattempt := attempt_returns_iff.mpr
    (Or.inl ⟨half, u, hsent, receive_goes_on.mpr (Or.inl ⟨500, hack, rfl⟩)⟩)
  exact ⟨_, body_goes_on.mpr ⟨hactive, hattempt⟩, le_rfl, hsent.variables.2.trans hs.2⟩

/-- The server acknowledges the first 500 bytes of 1000 in every round, and the loop never ends. -/
theorem not_terminates_stuck : ¬ Terminates "token" clip stuck := by
  rintro ⟨hfinishes, -⟩
  have hstart : start "token" clip stuck = .inl begun := rfl
  have hnot : ¬ Halts (body clip.fileSize) stuck.round (.inl begun) :=
    not_halts_of_inv (I := fun s => s.uploadedBytes ≤ 500 ∧ s.retries = 3)
      (fun k s hs => stuck_goes_on k hs) ⟨Nat.zero_le 500, rfl⟩
  rw [← hstart] at hnot
  exact hnot hfinishes

end MarketingSuite.Uploads.Termination
