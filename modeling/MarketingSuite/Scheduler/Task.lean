import MarketingSuite.Scheduler.Service

/-! # The background task

`execute_publish`, twice. As a program it is the source's `try` and `except`, in which each awaited
call may raise, before or after it has taken effect. As a machine it stands before one awaited call
at a time, so that requests and other tasks may run between two of them. Run alone, the machine does
what the program does. -/

namespace MarketingSuite.Scheduler.Task

open MarketingSuite.Lib.Programs MarketingSuite.Lib.Tables
open MarketingSuite.Base.Values MarketingSuite.Base.Models MarketingSuite.Base.Schema
open MarketingSuite.Repositories.Base MarketingSuite.Repositories.Records
open MarketingSuite.Scheduler.Service

/-! ### Calls that may fail -/

/-- What happens to a call: nothing, it raises before it does anything, or after it has done it. -/
inductive Fault
  | none
  | before (e : Exc)
  | after (e : Exc)
deriving DecidableEq, Repr

/-- A call with a fault. -/
def attempt {α : Type} (fault : Fault) (p : Svc α) : Svc α :=
  match fault with
  | .none => p
  | .before e => Prog.raise e
  | .after e => do
    let _ ← p
    Prog.raise e

/-- `notification_service.notify_campaign_published`: a stub that writes to the log file. -/
def notifyCampaignPublished : Svc Unit := pure ()

/-- The write of the `try` branch. -/
def markPublished (s : CampaignSchedule) : CampaignSchedule :=
  { s with status := .published, errorMessage := none }

/-- The write of the `except` branch. -/
def markFailed (text : String) (s : CampaignSchedule) : CampaignSchedule :=
  { s with status := .failed, errorMessage := some text }

section Execute

-- `str` is Python's `str(e)`, and `fault k` is what happens to the `k`-th awaited call.
variable (str : Exc → String) (d : Draws) (fault : ℕ → Fault) (j : Job)

/-- The `try` branch of `execute_publish`. -/
def tryPublish : Svc Unit := do
  let schedule ← attempt (fault 0) (getByCampaignId j.campaignId j.workspaceId)
  match schedule with
  | none => pure ()
  | some schedule => do
    let _ ← attempt (fault 1) (update schedule.id markPublished)
    attempt (fault 2)
      (logAudit j.workspaceId j.userId "PUBLISH_SUCCESS" j.campaignId none none (d.now 0))
    attempt (fault 3) notifyCampaignPublished

/-- The `except` branch of `execute_publish`. -/
def exceptPublish (e : Exc) : Svc Unit := do
  let schedule ← attempt (fault 4) (getByCampaignId j.campaignId j.workspaceId)
  match schedule with
  | none => pure ()
  | some schedule => do
    let _ ← attempt (fault 5) (update schedule.id (markFailed (str e)))
    attempt (fault 6) (logAudit j.workspaceId j.userId "PUBLISH_FAILED" j.campaignId none
      (some [("error", .str (str e))]) (d.now 0))
    attempt (fault 7) notifyCampaignPublished

/-- `CampaignSchedulerService.execute_publish`. -/
def executePublish : Svc Unit := (tryPublish d fault j).handle (exceptPublish str d fault j)

end Execute

/-! ### One call at a time -/

/-- The call that a task stands before. -/
inductive Phase
  | get
  | update (schedule : CampaignSchedule)
  | audit
  | notify
  | exceptGet (e : Exc)
  | exceptUpdate (e : Exc) (schedule : CampaignSchedule)
  | exceptAudit (e : Exc)
  | exceptNotify (e : Exc)
  | finished
deriving DecidableEq, Repr

/-- A call, what comes after it, and what comes after its failure. -/
def call {α : Type} (fault : Fault) (p : Svc α) (next : α → Phase) (failed : Exc → Phase) :
    Svc Phase :=
  (do
    let a ← attempt fault p
    pure (next a)).handle fun e => pure (failed e)

/-- The call of a phase, and the phase after it. -/
def next (str : Exc → String) (d : Draws) (fault : Fault) (j : Job) : Phase → Svc Phase
  | .get => call fault (getByCampaignId j.campaignId j.workspaceId)
      (fun schedule => match schedule with
        | none => .finished
        | some schedule => .update schedule) .exceptGet
  | .update schedule =>
    call fault (update schedule.id markPublished) (fun _ => .audit) .exceptGet
  | .audit => call fault
      (logAudit j.workspaceId j.userId "PUBLISH_SUCCESS" j.campaignId none none (d.now 0))
      (fun _ => .notify) .exceptGet
  | .notify => call fault notifyCampaignPublished (fun _ => .finished) .exceptGet
  | .exceptGet e => call fault (getByCampaignId j.campaignId j.workspaceId)
      (fun schedule => match schedule with
        | none => .finished
        | some schedule => .exceptUpdate e schedule) fun _ => .finished
  | .exceptUpdate e schedule => call fault (update schedule.id (markFailed (str e)))
      (fun _ => .exceptAudit e) fun _ => .finished
  | .exceptAudit e => call fault (logAudit j.workspaceId j.userId "PUBLISH_FAILED" j.campaignId none
      (some [("error", .str (str e))]) (d.now 0)) (fun _ => .exceptNotify e) fun _ => .finished
  | .exceptNotify _ => call fault notifyCampaignPublished (fun _ => .finished) fun _ => .finished
  | .finished => pure .finished

/-- The position of a phase in the task. -/
def Phase.index : Phase → ℕ
  | .get => 0
  | .update _ => 1
  | .audit => 2
  | .notify => 3
  | .exceptGet _ => 4
  | .exceptUpdate _ _ => 5
  | .exceptAudit _ => 6
  | .exceptNotify _ => 7
  | .finished => 8

/-- `n` calls of a task in a row, with nothing in between. -/
def calls (str : Exc → String) (d : Draws) (fault : ℕ → Fault) (j : Job) : ℕ → Phase → Svc Phase
  | 0, ph => pure ph
  | n + 1, ph => do
    let ph ← next str d (fault ph.index) j ph
    calls str d fault j n ph

/-! ### The machine and the program -/

variable {str : Exc → String} {d : Draws} {fault : ℕ → Fault} {j : Job} {s : Database}

theorem call_apply {α : Type} (f : Fault) (p : Svc α) (nxt : α → Phase) (failed : Exc → Phase) :
    call f p nxt failed s = match attempt f p s with
      | (.ok a, t) => (.ok (nxt a), t)
      | (.error e, t) => (.ok (failed e), t) := by
  simp only [call, Prog.handle, bind, pure]
  rcases attempt f p s with ⟨e | a, t⟩ <;> rfl

theorem calls_succ (n : ℕ) (ph : Phase) : calls str d fault j (n + 1) ph s =
    match next str d (fault ph.index) j ph s with
      | (.ok ph', t) => calls str d fault j n ph' t
      | (.error e, t) => (.error e, t) := by
  rw [calls]
  simp only [bind]
  rcases next str d (fault ph.index) j ph s with ⟨e | ph', t⟩ <;> rfl

theorem calls_finished : ∀ n, calls str d fault j n .finished s = (.ok .finished, s)
  | 0 => rfl
  | n + 1 => by
    rw [calls_succ]
    exact calls_finished n

theorem calls_exceptGet (e : Exc) (n : ℕ) : calls str d fault j (n + 4) (.exceptGet e) s =
    (.ok .finished, (exceptPublish str d fault j e s).2) := by
  unfold exceptPublish
  simp only [bind]
  rw [calls_succ, next, call_apply, Phase.index]
  rcases attempt (fault 4) (getByCampaignId j.campaignId j.workspaceId) s with ⟨e₁ | o, s₁⟩
  · exact calls_finished (n + 3)
  · rcases o with _ | r
    · exact calls_finished (n + 3)
    · show calls str d fault j (n + 2 + 1) (.exceptUpdate e r) s₁ = _
      rw [calls_succ, next, call_apply, Phase.index]
      dsimp only
      rcases attempt (fault 5) (update r.id (markFailed (str e))) s₁ with ⟨e₂ | b, s₂⟩
      · exact calls_finished (n + 2)
      · show calls str d fault j (n + 1 + 1) (.exceptAudit e) s₂ = _
        rw [calls_succ, next, call_apply, Phase.index]
        dsimp only
        rcases attempt (fault 6) (logAudit j.workspaceId j.userId "PUBLISH_FAILED" j.campaignId none
          (some [("error", .str (str e))]) (d.now 0)) s₂ with ⟨e₃ | b', s₃⟩
        · exact calls_finished (n + 1)
        · show calls str d fault j (n + 1) (.exceptNotify e) s₃ = _
          rw [calls_succ, next, call_apply, Phase.index]
          dsimp only
          rcases attempt (fault 7) notifyCampaignPublished s₃ with ⟨e₄ | b'', s₄⟩
          · exact calls_finished n
          · exact calls_finished n

/-- **The machine refines the program**: a task that runs with nothing in between finishes, and
leaves what `execute_publish` leaves. -/
theorem calls_eq_executePublish : calls str d fault j 8 .get s =
    (.ok .finished, (executePublish str d fault j s).2) := by
  unfold executePublish tryPublish
  simp only [Prog.handle, bind]
  rw [calls_succ, next, call_apply, Phase.index]
  rcases attempt (fault 0) (getByCampaignId j.campaignId j.workspaceId) s with ⟨e₁ | o, s₁⟩
  · exact calls_exceptGet e₁ 3
  · rcases o with _ | r
    · exact calls_finished 7
    · show calls str d fault j 7 (.update r) s₁ = _
      rw [calls_succ, next, call_apply, Phase.index]
      dsimp only
      rcases attempt (fault 1) (update r.id markPublished) s₁ with ⟨e₂ | b, s₂⟩
      · exact calls_exceptGet e₂ 2
      · show calls str d fault j 6 .audit s₂ = _
        rw [calls_succ, next, call_apply, Phase.index]
        dsimp only
        rcases attempt (fault 2) (logAudit j.workspaceId j.userId "PUBLISH_SUCCESS" j.campaignId none
          none (d.now 0)) s₂ with ⟨e₃ | b', s₃⟩
        · exact calls_exceptGet e₃ 1
        · show calls str d fault j 5 .notify s₃ = _
          rw [calls_succ, next, call_apply, Phase.index]
          dsimp only
          rcases attempt (fault 3) notifyCampaignPublished s₃ with ⟨e₄ | b'', s₄⟩
          · exact calls_exceptGet e₄ 0
          · exact calls_finished 4

end MarketingSuite.Scheduler.Task
