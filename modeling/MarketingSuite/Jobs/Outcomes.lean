import MarketingSuite.Jobs.System

/-! # What is final about a job

No write of the job table looks at the status that it overwrites. So an outcome is final in a run
exactly if no delivery, no end of an execution, no refusal of the broker and no cancellation comes
after it with another status; and every delivery calls the task function, cancelled or not. -/

namespace MarketingSuite.Jobs.Outcomes

open MarketingSuite.Lib.Programs MarketingSuite.Lib.Tables MarketingSuite.Lib.Sessions
open MarketingSuite.Lib.Runs
open MarketingSuite.Base.Values MarketingSuite.Base.Models MarketingSuite.Base.Schema
open MarketingSuite.Base.Payloads MarketingSuite.Repositories.Base
open MarketingSuite.Jobs.Worker MarketingSuite.Jobs.Queue MarketingSuite.Jobs.System

/-! ### Outcomes -/

/-- COMPLETED, FAILED or CANCELLED. -/
def isFinal (st : JobStatus) : Bool := st = .completed || st = .failed || st = .cancelled

/-- The status of the row of a job. -/
def statusOf (i : Uuid) (w : World) : Option JobStatus := (rowOf i w.db).map JobExecution.status

/-- The job has its outcome. -/
def Decided (i : Uuid) (w : World) : Prop := (statusOf i w).any isFinal = true

/-- The attempt that ends now is the last one that the row allows. -/
def lastAttempt (j : JobExecution) : Bool := j.maxAttempts ≤ j.attempts + 1

/-- The step does not touch the row `j`, which has its outcome, with another one: it is no delivery
of the job, its execution ends as `j` says, and it cancels nothing that did not fail. -/
def Respects (w : World) (j : JobExecution) : Event → Prop
  | .handOver k _ (.error _) => ∀ m, w.waiting[k]? = some (j.id, m) →
    j.status = .failed ∧ lastAttempt j = true
  | .deliver k _ => ∀ m, w.messages[k]? = some m → jobOf m ≠ .ok (some j.id)
  | .finish k _ outcome => ∀ job, w.executions[k]?.bind Execution.job = some job →
    job.id = j.id → match outcome with
      | .ok _ => j.status = .completed
      | .error _ => j.status = .failed ∧ lastAttempt job = true
  | .cancelFound k => ∀ job, w.cancels[k]? = some job → job.id = j.id →
    cancellable job = true → j.status = .failed
  | _ => True

/-- The step respects the outcome of the job `i`, if it has one. -/
def RespectsOutcome (i : Uuid) (w : World) (e : Event) : Prop :=
  ∀ j, rowOf i w.db = some j → isFinal j.status = true → Respects w j e

variable {textOf : Exc → String} {w : World} {i : Uuid} {j job : JobExecution} {e : Event}

/-- A failed attempt ends in FAILED if it was the last one, else in RETRYING. -/
theorem status_failRow (d : Draws) (text : String) (j : JobExecution) :
    (failRow d text j).status = if lastAttempt j = true then .failed else .retrying := by
  simp [failRow, lastAttempt]

theorem status_failRow_eq (d : Draws) (text : String) (hfinal : isFinal j.status = true) :
    (failRow d text job).status = j.status ↔ j.status = .failed ∧ lastAttempt job = true := by
  rw [status_failRow]
  split_ifs with h
  · simp [h, eq_comm]
  · refine iff_of_false (fun heq => ?_) fun hand => h hand.2
    rw [← heq] at hfinal
    exact absurd hfinal (by decide)

theorem status_endRow_eq (d : Draws) (outcome : Except Exc Json) (hfinal : isFinal j.status = true) :
    (endRow textOf d job outcome j).status = j.status ↔ match outcome with
      | .ok _ => j.status = .completed
      | .error _ => j.status = .failed ∧ lastAttempt job = true := by
  rcases outcome with e | r
  · exact status_failRow_eq d (textOf e) hfinal
  · exact eq_comm

/-- **A step leaves an outcome as it is exactly if it respects it.** -/
theorem status_change_eq (textOf : Exc → String) (hid : j.id = i) (hfinal : isFinal j.status = true) :
    (change textOf w i e j).status = j.status ↔ Respects w j e := by
  subst hid
  cases e with
  | enqueue d q => simp [change, write, Respects]
  | findJob jobId => simp [change, write, Respects]
  | handOver k d answer =>
    rcases answer with text | _
    · rcases hk : w.waiting[k]? with _ | ⟨jobId, m⟩
      · simp [change_of_none, write, Respects, hk]
      · have hw : write textOf w (.handOver k d (.error text)) =
            some (jobId, failRow d ("Broker failure: " ++ text)) := by simp [write, hk]
        rw [change_of_write hw]
        by_cases hj : j.id = jobId
        · subst hj
          simpa [Respects, hk] using status_failRow_eq d _ hfinal
        · simp [Respects, hk, hj, Ne.symm hj]
    · simp [change, write, Respects]
  | deliver k d =>
    rcases hk : w.messages[k]? with _ | m
    · simp [change_of_none, write, Respects, hk]
    · rcases hread : jobOf m with e | _ | jobId
      · simp [change_of_none, write, Respects, hk, hread]
      · simp [change_of_none, write, Respects, hk, hread]
      · have hw : write textOf w (.deliver k d) = some (jobId, startRow d) := by
          simp [write, hk, hread]
        rw [change_of_write hw]
        by_cases hj : j.id = jobId
        · have hrun : j.status ≠ .running := by
            intro h
            rw [h] at hfinal
            exact absurd hfinal (by decide)
          simp [Respects, hk, hread, hj, startRow, hrun.symm]
        · simp [Respects, hk, hread, hj, Ne.symm hj]
  | finish k d outcome =>
    rcases hk : w.executions[k]?.bind Execution.job with _ | job
    · simp [change_of_none, write, Respects, hk]
    · have hw : write textOf w (.finish k d outcome) =
          some (job.id, endRow textOf d job outcome) := by simp only [write, hk, Option.map_some]
      rw [change_of_write hw]
      by_cases hj : j.id = job.id
      · simpa [Respects, hk, hj] using status_endRow_eq d outcome hfinal
      · simp [Respects, hk, hj, Ne.symm hj]
  | cancelFound k =>
    rcases hk : w.cancels[k]? with _ | job
    · simp [change_of_none, write, Respects, hk]
    · by_cases hc : cancellable job = true
      · have hw : write textOf w (.cancelFound k) = some (job.id, cancelRow) := by
          simp [write, hk, Option.filter, hc]
        rw [change_of_write hw]
        by_cases hj : j.id = job.id
        · simp only [Respects, hk, hj, hc, cancelRow, Option.some.injEq, forall_eq', if_true,
            true_imp_iff]
          exact eq_comm
        · simp [Respects, hk, hj, Ne.symm hj]
      · simp [change_of_none, write, Respects, hk, hc, Option.filter]

/-- **Outcomes are final** in a run exactly if every step of it respects them. -/
theorem outcome_final_iff (textOf : Exc → String) (w : World) (l : List Event) (i : Uuid) :
    Stays (step textOf) (Decided i) (statusOf i) w l ↔
      Along (step textOf) (RespectsOutcome i) w l := by
  rw [stays_iff_along fun w e hdec hsame => by rw [Decided, hsame]; exact hdec]
  refine along_congr (I := fun _ => True) (fun _ _ _ => trivial) (fun w e _ => ?_) trivial
  rcases hrow : rowOf i w.db with _ | j
  · simp [Decided, statusOf, RespectsOutcome, hrow]
  · have hid : j.id = i := (rowOf_eq_some.mp hrow).2
    have hdec : Decided i w ↔ isFinal j.status = true := by simp [Decided, statusOf, hrow]
    have hres : RespectsOutcome i w e ↔ (isFinal j.status = true → Respects w j e) := by
      simp [RespectsOutcome, hrow]
    rw [hdec, hres]
    refine forall_congr' fun hfinal => ?_
    rw [← status_change_eq textOf hid hfinal]
    simp [statusOf, rowOf_step hrow, hrow]

/-- The job 50 is enqueued with one attempt, its message goes out, and it is delivered. -/
def delivered : List Event :=
  [.enqueue (drawsFrom 50 0 "") ⟨"integration.sync", [], "default", .default, 0, 1⟩,
    .handOver 0 (drawsFrom 0 0 "") (.ok ()), .deliver 0 (drawsFrom 0 1 "")]

/-- **An automatic retry after the last attempt**: the row is FAILED, and RUNNING again. -/
theorem failed_then_running : ¬ Stays (step fun _ => "error") (Decided 50) (statusOf 50)
    (idle Database.empty)
    (delivered ++ [.finish 0 (drawsFrom 0 2 "") (.error .typeError),
      .deliver 0 (drawsFrom 0 3 "")]) := by
  intro h
  have hstays := h (delivered ++ [.finish 0 (drawsFrom 0 2 "") (.error .typeError)])
    [.deliver 0 (drawsFrom 0 3 "")] (List.prefix_refl _) (by unfold Decided; decide)
  exact absurd hstays (by decide)

/-! ### Cancelled jobs -/

/-- The message is one of the job `i`. -/
def isFor (i : Uuid) (m : Message) : Bool :=
  match jobOf m with
  | .ok (some jobId) => jobId = i
  | _ => false

/-- How often the task function of the job `i` was called. -/
def callsOf (i : Uuid) (w : World) : ℕ := (w.calls.filter (isFor i)).length

/-- `cancel_job` found the job pending or queued, and has returned. -/
def Cancelled (i : Uuid) (w : World) : Prop := i ∈ w.cancelled

/-- The message that a step delivers. -/
def deliveredBy (w : World) : Event → Option Message
  | .deliver k _ => w.messages[k]?
  | _ => none

/-- The step delivers no message of the job `i` if it is cancelled. -/
def NotDelivered (i : Uuid) (w : World) (e : Event) : Prop :=
  Cancelled i w → ∀ m, deliveredBy w e = some m → isFor i m = false

/-- **Every delivery calls the task function**, whatever the row says. -/
theorem callsOf_step (w : World) (e : Event) : callsOf i (step textOf w e) =
    callsOf i w + if (deliveredBy w e).any (isFor i) = true then 1 else 0 := by
  have hsame : ∀ w' : World, w'.calls = w.calls → deliveredBy w e = none →
      callsOf i w' = callsOf i w + if (deliveredBy w e).any (isFor i) = true then 1 else 0 := by
    intro w' hcalls hnone
    simp [callsOf, hcalls, hnone]
  cases e with
  | deliver k d =>
    rcases hk : w.messages[k]? with _ | m
    · simp [step, deliveredBy, hk]
    · rcases hread : jobOf m with e | _ | jobId
      · simp [step, deliveredBy, hk, hread, isFor]
      · simp [step, deliveredBy, hk, hread, isFor, callsOf]
      · obtain ⟨s', hret, -⟩ := mark_spec (f := startRow d) jobId (fun _ => rfl) w.db
        unfold Prog.Returns at hret
        simp only [step, deliveredBy, hk, hread, hret, callsOf, Option.any_some, List.filter_append,
          List.length_append]
        by_cases hi : jobId = i
        · simp [isFor, hread, hi]
        · simp [isFor, hread, hi]
  | _ => refine hsame _ ?_ rfl; simp only [step]; (repeat' split) <;> rfl

theorem cancelled_step (h : Cancelled i w) : Cancelled i (step textOf w e) := by
  unfold Cancelled at h ⊢
  cases e with
  | cancelFound k =>
    simp only [step]
    split
    · exact h
    · split
      · dsimp only
        split_ifs
        · exact List.mem_append_left _ h
        · exact h
      · exact h
  | _ => simp only [step]; (repeat' split) <;> exact h

/-- **A cancelled job is executed no more** in a run exactly if the broker delivers no message of it
after its cancellation. -/
theorem cancelled_not_executed_iff (textOf : Exc → String) (w : World) (l : List Event) (i : Uuid) :
    Stays (step textOf) (Cancelled i) (callsOf i) w l ↔ Along (step textOf) (NotDelivered i) w l := by
  rw [stays_iff_along fun w e hcan _ => cancelled_step hcan]
  refine along_congr (I := fun _ => True) (fun _ _ _ => trivial) (fun w e _ => ?_) trivial
  refine forall_congr' fun hcan => ?_
  rw [callsOf_step]
  rcases deliveredBy w e with _ | m
  · simp
  · simp

/-- **The message stays in the broker**: a job is cancelled while it is queued, and executed. -/
theorem cancelled_then_executed : ¬ Stays (step fun _ => "error") (Cancelled 50) (callsOf 50)
    (idle Database.empty)
    [.enqueue (drawsFrom 50 0 "") ⟨"integration.sync", [], "default", .default, 0, 3⟩,
      .handOver 0 (drawsFrom 0 0 "") (.ok ()), .findJob 50, .cancelFound 0,
      .deliver 0 (drawsFrom 0 1 "")] := by
  intro h
  have hstays := h
    [.enqueue (drawsFrom 50 0 "") ⟨"integration.sync", [], "default", .default, 0, 3⟩,
      .handOver 0 (drawsFrom 0 0 "") (.ok ()), .findJob 50, .cancelFound 0]
    [.deliver 0 (drawsFrom 0 1 "")] (List.prefix_refl _) (by unfold Cancelled; decide)
  exact absurd hstays (by decide)

end MarketingSuite.Jobs.Outcomes
