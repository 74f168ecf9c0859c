import MarketingSuite.Jobs.System

/-! # Retrying jobs

`retry_job` of `app/operations/admin/service.py`. It hands the job to `QueueService.enqueue` again,
with keyword arguments that it reads off the row: the columns of the row, the attributes that are
read and the parameters of `enqueue` are three lists. -/

namespace MarketingSuite.Jobs.Retrying

open MarketingSuite.Lib.Programs
open MarketingSuite.Base.Values MarketingSuite.Base.Models MarketingSuite.Base.Schema
open MarketingSuite.Base.Payloads MarketingSuite.Jobs.Queue MarketingSuite.Jobs.System

/-- `JobStatus.value`. -/
def valueOf : JobStatus → String
  | .pending => "PENDING"
  | .queued => "QUEUED"
  | .running => "RUNNING"
  | .retrying => "RETRYING"
  | .completed => "COMPLETED"
  | .failed => "FAILED"
  | .cancelled => "CANCELLED"

/-- What an attribute of a row holds. -/
inductive Value
  | id (i : Uuid)
  | text (s : Option String)
  | status (s : JobStatus)
  | priority (p : JobPriority)
  | number (n : ℕ)
  | json (j : Option Json)
  | time (t : Option Time)

/-- The columns of `TimestampMixin`, which no move of a job reads. -/
structure Timestamps where
  createdAt : Time
  updatedAt : Time

/-- The timestamps of the rows, by their ids. -/
abbrev Stamps : Type := Uuid → Timestamps

/-- An attribute of a row of `JobExecution`. Reading one that the class does not map raises. -/
def getAttribute (stamps : Stamps) (j : JobExecution) (name : String) : Except Exc Value :=
  if name = "id" then .ok (.id j.id)
  else if name = "job_name" then .ok (.text (some j.jobName))
  else if name = "queue" then .ok (.text (some j.queue))
  else if name = "status" then .ok (.status j.status)
  else if name = "priority" then .ok (.priority j.priority)
  else if name = "attempts" then .ok (.number j.attempts)
  else if name = "max_attempts" then .ok (.number j.maxAttempts)
  else if name = "payload" then .ok (.json (some j.payload))
  else if name = "result" then .ok (.json j.result)
  else if name = "error_message" then .ok (.text j.errorMessage)
  else if name = "started_at" then .ok (.time j.startedAt)
  else if name = "completed_at" then .ok (.time j.completedAt)
  else if name = "failed_at" then .ok (.time j.failedAt)
  else if name = "created_at" then .ok (.time (some (stamps j.id).createdAt))
  else if name = "updated_at" then .ok (.time (some (stamps j.id).updatedAt))
  else .error .attributeError

/-- Keyword arguments, each with the attribute that it is read from; Python reads them in order. -/
abbrev Keywords : Type := List (String × String)

/-- The arguments that `retry_job` passes to `enqueue`. -/
def retryArguments : Keywords :=
  [("job_name", "job_name"), ("payload", "payload"), ("priority", "priority"),
    ("workspace_id", "workspace_id"), ("user_id", "user_id"), ("queue_name", "queue_name")]

/-- The values of keyword arguments. -/
def evaluate (stamps : Stamps) (j : JobExecution) : Keywords → Except Exc (List (String × Value))
  | [] => .ok []
  | (keyword, column) :: l => do
    let v ← getAttribute stamps j column
    let rest ← evaluate stamps j l
    pure ((keyword, v) :: rest)

/-- The parameters of `QueueService.enqueue`. -/
def parameters : List String :=
  ["job_name", "payload", "queue", "priority", "countdown", "max_attempts"]

/-- The call of `enqueue` with keyword arguments, of which it takes no undeclared one; the payload
is one that was stored, which `JobSerializer` leaves as it is. -/
def bindArguments (arguments : List (String × Value)) : Except Exc Request :=
  if (arguments.all fun a => a.1 ∈ parameters) = false then .error .typeError
  else match arguments.lookup "job_name", arguments.lookup "payload",
      (arguments.lookup "queue").getD (.text (some "default")),
      (arguments.lookup "priority").getD (.priority .default),
      (arguments.lookup "countdown").getD (.number 0),
      (arguments.lookup "max_attempts").getD (.number 3) with
    | some (.text (some jobName)), some (.json (some (.obj payload))), .text (some queue),
        .priority priority, .number countdown, .number maxAttempts =>
      .ok ⟨jobName, payload, queue, priority, countdown, maxAttempts⟩
    | _, _, _, _, _, _ => .error .typeError

/-- A job that `retry_job` takes. -/
def retryable (j : JobExecution) : Bool := j.status = .failed || j.status = .completed

/-- `retry_job`, by the arguments that it passes on. -/
def retryWith (keywords : Keywords) (stamps : Stamps) (d : Draws) (answer : Except String Unit)
    (executionId : Uuid) : Prog Stores Exc JobExecution := do
  let job ← Stores.onDatabase (findJob executionId)
  Prog.require (retryable job = true)
    (.valueError ("Job is currently " ++ valueOf job.status ++ ", cannot retry."))
  let arguments ← Prog.ofExcept (evaluate stamps job keywords)
  let request ← Prog.ofExcept (bindArguments arguments)
  let _ ← enqueue d answer request
  pure job

/-- `AdminOperationsService.retry_job`. -/
def retryJob (stamps : Stamps) (d : Draws) (answer : Except String Unit) (executionId : Uuid) :
    Prog Stores Exc JobExecution :=
  retryWith retryArguments stamps d answer executionId

/-! ### Copies -/

/-- Between `t` and `t'` a copy of the job was made and committed under the id `i`, and its message
was handed to the broker. -/
structure Copied (i : Uuid) (j : JobExecution) (t t' : Stores) : Prop where
  row : ∃ j', (∀ k, rowOf k t'.db = if k = i then some j' else rowOf k t.db) ∧
    j'.jobName = j.jobName ∧ j'.queue = j.queue ∧ j'.priority = j.priority ∧ j'.payload = j.payload
  message : ∃ m payload, t'.messages = t.messages ++ [m] ∧ m.jobName = j.jobName ∧
    m.queue = j.queue ∧ j.payload = .obj payload ∧
    m.kwargs = setItem "job_execution_id" (.id i) payload ∧
    m.kwargs.lookup "job_execution_id" = some (.id i)

/-- What `retry` does with the job: it copies it if it has failed or is completed, and refuses it
otherwise, for every id that is not taken and a broker that takes the message. -/
def Copies (retry : Draws → Except String Unit → Uuid → Prog Stores Exc JobExecution) (t : Stores)
    (j : JobExecution) : Prop :=
  if retryable j = true then
    ∀ d : Draws, rowOf (d.uuid 0) t.db = none → ∃ t',
      (retry d (.ok ()) j.id).Returns t j t' ∧ Copied (d.uuid 0) j t t'
  else ∀ (d : Draws) (answer : Except String Unit), ∃ text,
    (retry d answer j.id).Raises t (.valueError text) t

/-- The job is one that `enqueue` makes: its payload is a dictionary. -/
def IsQueued (j : JobExecution) : Prop := ∃ payload, j.payload = .obj payload

variable {t : Stores} {j : JobExecution} {keywords : Keywords} {stamps : Stamps} {d : Draws}
  {answer : Except String Unit}

theorem found (hj : j ∈ t.db.jobExecutions.rows) :
    (Stores.onDatabase (findJob j.id)).Returns t j t :=
  Prog.returns_focus.mpr ⟨t.db, findJob_returns (rowOf_eq_some.mpr ⟨hj, rfl⟩), rfl⟩

/-- **A job that is not done is refused**, whatever is passed on. -/
theorem retry_refused (hj : j ∈ t.db.jobExecutions.rows) (h : retryable j = false) :
    (retryWith keywords stamps d answer j.id).Raises t
      (.valueError ("Job is currently " ++ valueOf j.status ++ ", cannot retry.")) t :=
  (Prog.raises_bind_of_returns (found hj)).mpr
    (Prog.raises_bind.mpr (Or.inl (Prog.raises_require.mpr ⟨by simp [h], rfl, rfl⟩)))

theorem retry_raises (hj : j ∈ t.db.jobExecutions.rows) (h : retryable j = true) {e : Exc}
    (he : evaluate stamps j keywords = .error e) :
    (retryWith keywords stamps d answer j.id).Raises t e t := by
  refine (Prog.raises_bind_of_returns (found hj)).mpr ((Prog.raises_bind_of_pass h).mpr ?_)
  rw [he]
  exact Prog.raises_bind.mpr (Or.inl rfl)

/-- **The arguments of `retry_job` cannot be read off any row.** -/
theorem evaluate_retryArguments (stamps : Stamps) (j : JobExecution) :
    evaluate stamps j retryArguments = .error .attributeError := by
  simp [evaluate, retryArguments, getAttribute, bind, Except.bind]

theorem enqueue_returns (q : Request) (hfresh : rowOf (d.uuid 0) t.db = none) :
    ∃ t', (enqueue d (.ok ()) q).Returns t (d.uuid 0) t' ∧
      (∀ k, rowOf k t'.db = if k = d.uuid 0 then some (jobRow d q) else rowOf k t.db) ∧
      t'.messages = t.messages ++ [messageFor q (d.uuid 0)] := by
  rcases persist_cases d q t.db with ⟨-, s', hret, hrows⟩ | ⟨htaken, -⟩
  · refine ⟨⟨s', t.messages ++ [messageFor q (d.uuid 0)]⟩, ?_, hrows, rfl⟩
    refine Prog.returns_bind.mpr ⟨_, { t with db := s' }, Prog.returns_focus.mpr ⟨s', hret, rfl⟩, ?_⟩
    exact Prog.returns_bind_pure.mpr ⟨(), Prog.returns_modify.mpr rfl, rfl⟩
  · exact absurd hfresh htaken

/-- The arguments that name the columns of the row by the parameters of `enqueue`. -/
def columnArguments : Keywords :=
  [("job_name", "job_name"), ("payload", "payload"), ("queue", "queue"), ("priority", "priority")]

theorem bind_columnArguments (stamps : Stamps) {payload : Dict} (hj : j.payload = .obj payload) :
    ∃ arguments, evaluate stamps j columnArguments = .ok arguments ∧
      bindArguments arguments = .ok ⟨j.jobName, payload, j.queue, j.priority, 0, 3⟩ := by
  refine ⟨_, rfl, ?_⟩
  simp [bindArguments, parameters, List.lookup_cons, hj]

/-- **With these arguments `retry_job` would copy every job that it takes.** -/
theorem columnArguments_copy (hj : j ∈ t.db.jobExecutions.rows) (hq : IsQueued j) :
    Copies (retryWith columnArguments stamps) t j := by
  unfold Copies
  split_ifs with hretry
  · intro d hfresh
    obtain ⟨payload, hpayload⟩ := hq
    obtain ⟨arguments, heval, hbind⟩ := bind_columnArguments stamps hpayload
    obtain ⟨t', henqueue, hrows, hmessages⟩ := enqueue_returns
      (t := t) (d := d) ⟨j.jobName, payload, j.queue, j.priority, 0, 3⟩ hfresh
    refine ⟨t', ?_, ⟨_, hrows, rfl, rfl, rfl, hpayload.symm⟩,
      ⟨_, payload, hmessages, rfl, rfl, hpayload, rfl, ?_⟩⟩
    · refine Prog.returns_bind.mpr ⟨j, t, found hj, Prog.returns_bind.mpr ⟨(), t, ?_, ?_⟩⟩
      · exact Prog.returns_require.mpr ⟨hretry, rfl⟩
      · rw [heval, Prog.ofExcept_ok_bind, hbind, Prog.ofExcept_ok_bind]
        exact Prog.returns_bind_pure.mpr ⟨d.uuid 0, henqueue, rfl⟩
    · simp [messageFor, lookup_setItem]
  · exact fun d answer => ⟨_, retry_refused hj (by simpa using hretry)⟩

theorem exists_freeId (s : Database) : ∃ i, rowOf i s = none := by
  obtain ⟨n, hn⟩ := s.jobExecutions.exists_bound
  exact ⟨n, rowOf_eq_none.mpr fun j hj => Nat.ne_of_lt (hn j hj)⟩

/-- **A retried job is a faithful copy** exactly if there is nothing to retry: no job that has
failed or is completed is copied, and the others are refused as they should. -/
theorem copies_faithfully_iff (stamps : Stamps) (t : Stores) (j : JobExecution)
    (hj : j ∈ t.db.jobExecutions.rows) :
    Copies (retryJob stamps) t j ↔ j.status ≠ .failed ∧ j.status ≠ .completed := by
  have hstatus : retryable j = false ↔ j.status ≠ .failed ∧ j.status ≠ .completed := by
    simp [retryable]
  rw [← hstatus]
  constructor
  · intro h
    by_contra hretry
    rw [Bool.not_eq_false] at hretry
    unfold Copies at h
    rw [if_pos hretry] at h
    obtain ⟨i, hi⟩ := exists_freeId t.db
    obtain ⟨t', hret, -⟩ := h (drawsFrom i 0 "") hi
    exact Prog.not_raises_of_returns hret
      (retry_raises hj hretry (evaluate_retryArguments stamps j))
  · intro hretry
    unfold Copies
    rw [if_neg (by simp [hretry])]
    exact fun d answer => ⟨_, retry_refused hj hretry⟩

/-- A job as `enqueue` makes it, with a status. -/
def jobWith (status : JobStatus) : JobExecution :=
  { jobRow (drawsFrom 50 0 "") ⟨"integration.sync", [], "default", .default, 0, 3⟩ with
    status := status }

/-- A queue with one job. -/
def queueOf (status : JobStatus) : Stores :=
  ⟨{ Database.empty with jobExecutions := ⟨[jobWith status], List.pairwise_singleton _ _⟩ }, []⟩

/-- The rows are as old as the clock. -/
def stamped : Stamps := fun _ => ⟨0, 0⟩

theorem queued_job_refused : Copies (retryJob stamped) (queueOf .queued) (jobWith .queued) :=
  (copies_faithfully_iff stamped (queueOf .queued) (jobWith .queued) List.mem_cons_self).mpr
    (by decide)

/-- **A failed job cannot be retried.** -/
theorem failed_job_not_copied :
    ¬ Copies (retryJob stamped) (queueOf .failed) (jobWith .failed) := by
  intro h
  obtain ⟨t', hret, -⟩ := h (drawsFrom 60 0 "") (by decide)
  exact Prog.not_raises_of_returns hret
    (retry_raises (j := jobWith .failed) List.mem_cons_self rfl (evaluate_retryArguments stamped _))

end MarketingSuite.Jobs.Retrying
