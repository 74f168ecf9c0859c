import MarketingSuite.Jobs.Worker

/-! # The job queue

`app/jobs/queue.py`, `create_job` of `app/jobs/services.py`, and `cancel_job` of
`app/operations/admin/service.py`. Whoever enqueues a job commits its row in a session of its own
and hands the message to the broker afterwards; a broker that raises is answered with the
bookkeeping of a failed attempt. A payload is a dictionary of JSON values already, as
`JobSerializer` leaves it. -/

namespace MarketingSuite.Jobs.Queue

open MarketingSuite.Lib.Programs MarketingSuite.Lib.Tables MarketingSuite.Lib.Sessions
open MarketingSuite.Base.Values MarketingSuite.Base.Models MarketingSuite.Base.Schema
open MarketingSuite.Base.Payloads MarketingSuite.Repositories.Base MarketingSuite.Jobs.Worker

/-- The arguments of `enqueue`. -/
structure Request where
  jobName : String
  payload : Dict
  queue : String
  priority : JobPriority
  countdown : ℕ
  maxAttempts : ℕ

/-- What `CeleryAdapter.enqueue` sends. -/
structure Message where
  jobName : String
  kwargs : Dict
  queue : String
  countdown : ℕ

/-- The row that `create_job` adds. -/
def jobRow (d : Draws) (q : Request) : JobExecution where
  id := d.uuid 0
  jobName := q.jobName
  queue := q.queue
  status := .queued
  priority := q.priority
  attempts := 0
  maxAttempts := q.maxAttempts
  payload := .obj q.payload
  result := none
  errorMessage := none
  startedAt := none
  completedAt := none
  failedAt := none

/-- `JobExecutionService.create_job`. -/
def createJob (d : Draws) (q : Request) : Svc JobExecution := create (jobRow d q)

/-- The message for a job: its payload, with its id. -/
def messageFor (q : Request) (jobId : Uuid) : Message where
  jobName := q.jobName
  kwargs := setItem "job_execution_id" (.id jobId) q.payload
  queue := q.queue
  countdown := q.countdown

/-- `QueueService.enqueue` up to its commit. -/
def persist (d : Draws) (q : Request) : Svc (Uuid × Message) :=
  Session.transact do
    let job ← createJob d q
    pure (job.id, messageFor q job.id)

/-- What `QueueService.enqueue` does if the broker raises. -/
def compensate (d : Draws) (jobId : Uuid) (text : String) : Svc (Option JobExecution) :=
  Session.transact (markFailed d jobId ("Broker failure: " ++ text))

/-- The database, and the messages that the broker took. -/
structure Stores where
  db : Database
  messages : List Message

/-- A session on the database. -/
def Stores.onDatabase {α : Type} (p : Svc α) : Prog Stores Exc α :=
  Prog.focus Stores.db (fun t db => { t with db := db }) p

/-- `QueueService.enqueue`; `answer` is what the broker does, with the text of what it raises. -/
def enqueue (d : Draws) (answer : Except String Unit) (q : Request) : Prog Stores Exc Uuid := do
  let (jobId, m) ← Stores.onDatabase (persist d q)
  match answer with
  | .ok _ => Prog.modify fun t => { t with messages := t.messages ++ [m] }
  | .error text => do
    let _ ← Stores.onDatabase (compensate d jobId text)
    pure ()
  pure jobId

/-- The row that `cancel_job` asks for. -/
def findJob (executionId : Uuid) : Svc JobExecution := do
  let found ← getById JobExecution executionId
  orRaise found (.valueError "Job not found")

/-- A job that `cancel_job` cancels. -/
def cancellable (j : JobExecution) : Bool := j.status = .pending || j.status = .queued

/-- The status of a cancelled job. -/
def cancelRow (j : JobExecution) : JobExecution := { j with status := .failed }

/-- `cancel_job`, with the row that it has found. -/
def cancelFound (job : JobExecution) : Svc JobExecution :=
  if cancellable job = true then update job.id cancelRow else pure job

/-- `AdminOperationsService.cancel_job`. -/
def cancelJob (executionId : Uuid) : Svc JobExecution :=
  Session.transact (findJob executionId >>= cancelFound)

end MarketingSuite.Jobs.Queue
