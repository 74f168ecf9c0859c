import MarketingSuite.Base.Payloads
import MarketingSuite.Lib.Sessions
import MarketingSuite.Repositories.Base

/-! # The job worker

`app/jobs/repositories.py` and `app/jobs/worker.py`. The worker has a session of its own, in which
it moves the row of the job and which it commits after every move; the task function that it calls
in between opens its sessions itself. -/

namespace MarketingSuite.Jobs.Worker

open MarketingSuite.Lib.Programs MarketingSuite.Lib.Tables MarketingSuite.Lib.Sessions
open MarketingSuite.Base.Values MarketingSuite.Base.Models MarketingSuite.Base.Schema
open MarketingSuite.Base.Payloads MarketingSuite.Repositories.Base

/-- The values that `mark_started` sets. -/
def startRow (d : Draws) (j : JobExecution) : JobExecution :=
  { j with status := .running, startedAt := some (d.now 0) }

/-- The values that `mark_completed` sets. -/
def completeRow (d : Draws) (result : Option Json) (j : JobExecution) : JobExecution :=
  { j with status := .completed, completedAt := some (d.now 1), result := result }

/-- The values that `mark_failed` sets; the attempt counts. -/
def failRow (d : Draws) (errorMessage : String) (j : JobExecution) : JobExecution :=
  let newAttempts := j.attempts + 1
  let newStatus : JobStatus := if newAttempts ≥ j.maxAttempts then .failed else .retrying
  { j with
    status := newStatus
    failedAt := if newStatus = .failed then some (d.now 1) else none
    errorMessage := some errorMessage
    attempts := newAttempts }

/-- `JobExecutionRepository.mark_started`. -/
def markStarted (d : Draws) (jobId : Uuid) : Svc (Option JobExecution) :=
  updateWhere jobId (fun _ => true) (startRow d)

/-- `JobExecutionRepository.mark_completed`. -/
def markCompleted (d : Draws) (jobId : Uuid) (result : Option Json) : Svc (Option JobExecution) :=
  updateWhere jobId (fun _ => true) (completeRow d result)

/-- `JobExecutionRepository.mark_failed`. -/
def markFailed (d : Draws) (jobId : Uuid) (errorMessage : String) : Svc (Option JobExecution) :=
  updateWhere jobId (fun _ => true) (failRow d errorMessage)

/-- What `execute_job` stores as the result. -/
def resultOf (data : Json) : Json := .obj [("result", .str "success"), ("data", data)]

/-- The `try` of `execute_job`. -/
def attempt (d : Draws) (jobId : Uuid) (task : Svc Json) : Prog (Session Database) Exc Json := do
  let result ← Session.outside task
  let _ ← Session.exec (markCompleted d jobId (some (resultOf result)))
  Session.commit
  pure result

/-- The `except` of `execute_job`; `textOf` is Python's `str` on exceptions. -/
def giveUp (d : Draws) (jobId : Uuid) (textOf : Exc → String) (e : Exc) :
    Prog (Session Database) Exc Json := do
  let _ ← Session.exec (markFailed d jobId (textOf e))
  Session.commit
  Prog.raise (.jobExecution ("Task failed: " ++ textOf e))

/-- The part of `execute_job` under its own session. -/
def track (d : Draws) (jobId : Uuid) (textOf : Exc → String) (task : Svc Json) :
    Prog (Session Database) Exc Json := do
  let job ← Session.exec (markStarted d jobId)
  match job with
  | none => Session.outside task
  | some _ => do
    Session.commit
    (attempt d jobId task).handle (giveUp d jobId textOf)

/-- `WorkerBase.execute_job`: a job that has no row, or whose id is no UUID, runs untracked. -/
def executeJob (d : Draws) (textOf : Exc → String) (executionId : Json) (task : Svc Json) :
    Svc Json :=
  if isTruthy executionId = false then task
  else match uuidOf executionId with
    | .ok jobId => Session.serve (track d jobId textOf task)
    | .error (.valueError _) => task
    | .error e => Prog.raise e

/-! ### What the worker leaves -/

variable {d : Draws} {jobId : Uuid} {textOf : Exc → String} {task : Svc Json} {s : Database}

/-- The row of the job is there. -/
def HasJob (jobId : Uuid) (s : Database) : Prop := ∃ j ∈ s.jobExecutions.rows, j.id = jobId

/-- The row of the job says that it was completed. -/
def Completed (jobId : Uuid) (s : Database) : Prop :=
  ∃ j ∈ s.jobExecutions.rows, j.id = jobId ∧ j.status = .completed

/-- The state in which the task function of a tracked job runs. -/
def started (d : Draws) (jobId : Uuid) (s : Database) : Database := ((markStarted d jobId).run s).2

/-- Each of the three moves changes the row of the job, if there is one. -/
theorem mark_returns {f : JobExecution → JobExecution} (hid : ∀ j, (f j).id = j.id)
    (h : HasJob jobId s) : ∃ j T, s.jobExecutions.modify jobId f = some T ∧
      (updateWhere jobId (fun _ => true) f).Returns s (some j) { s with jobExecutions := T } := by
  obtain ⟨j, hj, hk⟩ := h
  obtain ⟨T, hT⟩ := Table.exists_modify (T := s.jobExecutions) (k := jobId) (f := f) hid
    fun _ _ => rfl
  exact ⟨f j, T, hT, updateWhere_returns hj hk rfl rfl rfl hT⟩

theorem markStarted_none (h : ¬ HasJob jobId s) : (markStarted d jobId).Returns s none s := by
  refine Prog.returns_bind.mpr ⟨none, s, returns_selectOne_none fun j hj hp => h ⟨j, hj, ?_⟩,
    Prog.returns_pure.mpr ⟨rfl, rfl⟩⟩
  simp only [Bool.and_eq_true, decide_eq_true_eq] at hp
  exact hp.1

theorem hasJob_of_modify {f : JobExecution → JobExecution} {T : Table JobExecution}
    (hid : ∀ j, (f j).id = j.id) (hT : s.jobExecutions.modify jobId f = some T)
    (h : HasJob jobId s) : HasJob jobId { s with jobExecutions := T } := by
  obtain ⟨j, hj, hk⟩ := h
  exact ⟨f j, Table.mem_modify_self hT hj hk, (hid j).trans hk⟩

theorem completed_of_modify {f : JobExecution → JobExecution} {T : Table JobExecution} {c : Prop}
    (hid : ∀ j, (f j).id = j.id) (hT : s.jobExecutions.modify jobId f = some T)
    (h : HasJob jobId s) (hc : ∀ j, (f j).status = .completed ↔ c) :
    Completed jobId { s with jobExecutions := T } ↔ c := by
  constructor
  · rintro ⟨j, hj, hk, hst⟩
    rcases (Table.mem_modify hT).mp hj with ⟨-, hne⟩ | ⟨q, -, -, rfl⟩
    · exact absurd hk hne
    · exact (hc q).mp hst
  · intro hyes
    obtain ⟨j, hj, hk⟩ := h
    exact ⟨f j, Table.mem_modify_self hT hj hk, (hid j).trans hk,
      (hc j).mpr hyes⟩

theorem hasJob_started (h : HasJob jobId s) : HasJob jobId (started d jobId s) := by
  obtain ⟨j, T, hT, hstart⟩ := mark_returns (f := startRow d) (fun _ => rfl) h
  have hstart : markStarted d jobId s = (.ok (some j), { s with jobExecutions := T }) := hstart
  simp only [started, Prog.run, hstart]
  exact hasJob_of_modify (f := startRow d) (fun _ => rfl) hT h

/-- The start of a job that has a row is committed before its task function runs. -/
theorem track_of_hasJob (h : HasJob jobId s) : track d jobId textOf task (.fresh s) =
    (attempt d jobId task).handle (giveUp d jobId textOf) (.fresh (started d jobId s)) := by
  obtain ⟨j, T, -, hstart⟩ := mark_returns (f := startRow d) (fun _ => rfl) h
  have hstart : markStarted d jobId s = (.ok (some j), { s with jobExecutions := T }) := hstart
  simp [track, bind, Session.exec, Session.commit, started, Prog.run, hstart, Session.fresh]

theorem serve_track_of_not_hasJob (h : ¬ HasJob jobId s) :
    (Session.serve (track d jobId textOf task) s).2 = (task s).2 := by
  have hstart : markStarted d jobId s = (.ok none, s) := markStarted_none h
  simp [Session.serve, track, bind, Session.exec, Session.outside, hstart, Session.fresh]

theorem completed_of_returns {r : Json} (hjob : HasJob jobId s) (h : task.Returns s r s) :
    Completed jobId
      ((attempt d jobId task).handle (giveUp d jobId textOf) (.fresh s)).2.committed := by
  obtain ⟨j, T, hT, hdone⟩ :=
    mark_returns (f := completeRow d (some (resultOf r))) (fun _ => rfl) hjob
  have hdone : markCompleted d jobId (some (resultOf r)) s =
    (.ok (some j), { s with jobExecutions := T }) := hdone
  unfold Prog.Returns at h
  simp only [Prog.handle, attempt, bind, Session.outside, Session.exec, Session.fresh, Session.view,
    Session.commit, Option.getD, pure, h, hdone]
  exact (completed_of_modify (f := completeRow d (some (resultOf r))) (c := True) (fun _ => rfl) hT
    hjob fun j => by simp [completeRow]).mpr trivial

/-- A task function that raised does not: its job is retried, or has failed. -/
theorem not_completed_of_raises {e : Exc} (hjob : HasJob jobId s) (h : task.Raises s e s) :
    ¬ Completed jobId
      ((attempt d jobId task).handle (giveUp d jobId textOf) (.fresh s)).2.committed := by
  obtain ⟨j, T, hT, hfail⟩ := mark_returns (f := failRow d (textOf e)) (fun _ => rfl) hjob
  have hfail : markFailed d jobId (textOf e) s =
    (.ok (some j), { s with jobExecutions := T }) := hfail
  unfold Prog.Raises at h
  simp only [Prog.handle, attempt, giveUp, bind, Session.outside, Session.exec, Session.fresh,
    Session.view, Session.commit, Prog.raise, Option.getD, h, hfail]
  refine (completed_of_modify (f := failRow d (textOf e)) (c := False) (fun _ => rfl) hT hjob
    fun j => ?_).mp
  simp only [failRow, iff_false]
  split_ifs <;> simp

/-- **The row of a job is completed exactly if it was there and its task function returned**, for a
task function that commits nothing. -/
theorem completed_iff (htask : task.Frames id) :
    Completed jobId (Session.serve (track d jobId textOf task) s).2 ↔
      HasJob jobId s ∧ task.succeeds (started d jobId s) = true := by
  by_cases hjob : HasJob jobId s
  · have hserve : (Session.serve (track d jobId textOf task) s).2 =
        ((attempt d jobId task).handle (giveUp d jobId textOf)
          (.fresh (started d jobId s))).2.committed :=
      congrArg (fun x => x.2.committed) (track_of_hasJob hjob)
    have hsame : (task (started d jobId s)).2 = started d jobId s := htask _
    simp only [hserve, hjob, true_and]
    rcases hrun : task (started d jobId s) with ⟨e | r, t⟩
    · rw [hrun] at hsame
      obtain rfl : t = started d jobId s := hsame
      have hraised : task.succeeds (started d jobId s) = false := by
        unfold Prog.succeeds; rw [hrun]
      simp only [hraised, Bool.false_eq_true, iff_false]
      exact not_completed_of_raises (hasJob_started hjob) hrun
    · rw [hrun] at hsame
      obtain rfl : t = started d jobId s := hsame
      exact iff_of_true (completed_of_returns (hasJob_started hjob) hrun)
        (Prog.succeeds_of_returns hrun)
  · have hsame : (task s).2 = s := htask _
    rw [serve_track_of_not_hasJob hjob, hsame]
    refine iff_of_false ?_ fun h => hjob h.1
    rintro ⟨j, hj, hk, -⟩
    exact hjob ⟨j, hj, hk⟩

end MarketingSuite.Jobs.Worker
