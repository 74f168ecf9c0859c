import MarketingSuite.Jobs.Queue
import MarketingSuite.Lib.Runs

/-! # Jobs, their messages and their workers

The system around a row of the job table: calls of `enqueue`, which hand over their message after
their commit; the broker, which delivers a message that it took any number of times (at first, again
because it is acknowledged late, and after each automatic retry); workers, which move the row before
and after they call the task function; and calls of `cancel_job`, which read the row before they
write it. Every step is one transaction or one message, and the steps of different calls come in any
order. -/

namespace MarketingSuite.Jobs.System

open MarketingSuite.Lib.Programs MarketingSuite.Lib.Tables MarketingSuite.Lib.Sessions
open MarketingSuite.Lib.Runs
open MarketingSuite.Base.Values MarketingSuite.Base.Models MarketingSuite.Base.Schema
open MarketingSuite.Base.Payloads MarketingSuite.Repositories.Base
open MarketingSuite.Jobs.Worker MarketingSuite.Jobs.Queue

/-- An execution whose task function has been called; `job` is the row that `mark_started` loaded,
if there was one. -/
structure Execution where
  message : Message
  job : Option JobExecution

/-- The database, the calls that are under way, and the messages that the broker took. The last
three fields are a record of what happened: the messages whose task function was called, the jobs
whose message the broker refused, and the jobs that `cancel_job` found pending or queued before it
returned. -/
structure World where
  db : Database
  waiting : List (Uuid × Message)
  messages : List Message
  executions : List Execution
  cancels : List JobExecution
  calls : List Message
  refused : List Uuid
  cancelled : List Uuid

/-- A world in which nothing is under way. -/
def idle (db : Database) : World := ⟨db, [], [], [], [], [], [], []⟩

/-- One step. `k` counts among the calls or messages that could take it; `answer` is what the broker
does with a message, and `outcome` what the task function does. -/
inductive Event
  | enqueue (d : Draws) (q : Request)
  | handOver (k : ℕ) (d : Draws) (answer : Except String Unit)
  | deliver (k : ℕ) (d : Draws)
  | finish (k : ℕ) (d : Draws) (outcome : Except Exc Json)
  | findJob (executionId : Uuid)
  | cancelFound (k : ℕ)

/-- How `execute_job` reads the id in a message: the job to track, if any. -/
def jobOf (m : Message) : Except Exc (Option Uuid) :=
  let executionId := (m.kwargs.lookup "job_execution_id").getD .null
  if isTruthy executionId = false then .ok none
  else match uuidOf executionId with
    | .ok jobId => .ok (some jobId)
    | .error (.valueError _) => .ok none
    | .error e => .error e

/-- What `mark_failed` sets if the session has loaded the row before: it counts from the attempts of
the row that was loaded. -/
def failLoaded (d : Draws) (errorMessage : String) (job j : JobExecution) : JobExecution :=
  let failed := failRow d errorMessage job
  { j with
    status := failed.status
    failedAt := failed.failedAt
    errorMessage := failed.errorMessage
    attempts := failed.attempts }

/-- The move of the worker after its task function. -/
def endRow (textOf : Exc → String) (d : Draws) (job : JobExecution) :
    Except Exc Json → JobExecution → JobExecution
  | .ok result => completeRow d (some (resultOf result))
  | .error e => failLoaded d (textOf e) job

/-- A write to the row of a job, in a transaction of its own. -/
def mark (jobId : Uuid) (f : JobExecution → JobExecution) : Svc (Option JobExecution) :=
  Session.transact (updateWhere jobId (fun _ => true) f)

/-- The world after a step. -/
def step (textOf : Exc → String) (w : World) : Event → World
  | .enqueue d q =>
    match persist d q w.db with
    | (.ok p, db) => { w with db := db, waiting := w.waiting ++ [p] }
    | (.error _, db) => { w with db := db }
  | .handOver k d answer =>
    match w.waiting[k]? with
    | none => w
    | some (jobId, m) =>
      match answer with
      | .ok _ => { w with waiting := w.waiting.eraseIdx k, messages := w.messages ++ [m] }
      | .error text =>
        { w with
          db := (compensate d jobId text w.db).2
          waiting := w.waiting.eraseIdx k
          refused := w.refused ++ [jobId] }
  | .deliver k d =>
    match w.messages[k]? with
    | none => w
    | some m =>
      match jobOf m with
      | .ok (some jobId) =>
        match mark jobId (startRow d) w.db with
        | (.ok job, db) =>
          { w with
            db := db
            executions := w.executions ++ [⟨m, job⟩]
            calls := w.calls ++ [m] }
        | (.error _, db) => { w with db := db }
      | .ok none =>
        { w with executions := w.executions ++ [⟨m, none⟩], calls := w.calls ++ [m] }
      | .error _ => w
  | .finish k d outcome =>
    match w.executions[k]? with
    | none => w
    | some ⟨_, none⟩ => { w with executions := w.executions.eraseIdx k }
    | some ⟨_, some job⟩ =>
      { w with
        db := (mark job.id (endRow textOf d job outcome) w.db).2
        executions := w.executions.eraseIdx k }
  | .findJob executionId =>
    match findJob executionId w.db with
    | (.ok job, _) => { w with cancels := w.cancels ++ [job] }
    | (.error _, _) => w
  | .cancelFound k =>
    match w.cancels[k]? with
    | none => w
    | some job =>
      match Session.transact (cancelFound job) w.db with
      | (.ok _, db) =>
        { w with
          db := db
          cancels := w.cancels.eraseIdx k
          cancelled := if cancellable job = true then w.cancelled ++ [job.id] else w.cancelled }
      | (.error _, db) => { w with db := db, cancels := w.cancels.eraseIdx k }

/-! ### The row of a job -/

/-- The row of a job. -/
def rowOf (jobId : Uuid) (s : Database) : Option JobExecution :=
  s.jobExecutions.rows.find? fun j => j.id = jobId

variable {textOf : Exc → String} {d : Draws} {q : Request} {s s' : Database} {w : World}
  {jobId i : Uuid} {j job : JobExecution} {f : JobExecution → JobExecution} {m : Message} {e : Event}
  {k : ℕ}

theorem rowOf_eq_some : rowOf jobId s = some j ↔ j ∈ s.jobExecutions.rows ∧ j.id = jobId := by
  constructor
  · intro h
    exact ⟨List.mem_of_find?_eq_some h, by simpa using List.find?_some h⟩
  · rintro ⟨hj, hk⟩
    rcases hfound : rowOf jobId s with _ | r
    · exact absurd hk (by simpa using List.find?_eq_none.mp hfound j hj)
    · have hr : r.id = jobId := by simpa using List.find?_some hfound
      rw [s.jobExecutions.eq_of_key_eq (List.mem_of_find?_eq_some hfound) hj (hr.trans hk.symm)]

theorem rowOf_eq_none : rowOf jobId s = none ↔ ∀ j ∈ s.jobExecutions.rows, j.id ≠ jobId := by
  simp [rowOf]

theorem rowOf_modify {T : Table JobExecution} (hid : ∀ j, (f j).id = j.id)
    (hT : s.jobExecutions.modify jobId f = some T) :
    rowOf i { s with jobExecutions := T } = if i = jobId then (rowOf i s).map f else rowOf i s := by
  have hrows : T.rows = s.jobExecutions.rows.map fun j => if j.id = jobId then f j else j :=
    Table.modify_eq_some.mp hT
  have hkey : (fun j : JobExecution => decide (j.id = i)) ∘ (fun j : JobExecution =>
      if j.id = jobId then f j else j) = fun j => decide (j.id = i) := by
    funext j
    simp only [Function.comp_apply]
    split_ifs
    · rw [hid]
    · rfl
  have hmap : rowOf i { s with jobExecutions := T } =
      (rowOf i s).map fun j => if j.id = jobId then f j else j := by
    simp only [rowOf, hrows]
    exact (List.find?_map ..).trans (by rw [hkey])
  rw [hmap]
  rcases hrow : rowOf i s with _ | j
  · simp
  · have hj : j.id = i := (rowOf_eq_some.mp hrow).2
    split_ifs with hi
    · simp [hj, hi]
    · simp [hj, hi]

/-- **A write returns the changed row, if there is one**, and changes no other. -/
theorem mark_spec (jobId : Uuid) (hid : ∀ j, (f j).id = j.id) (s : Database) :
    ∃ s', (mark jobId f).Returns s ((rowOf jobId s).map f) s' ∧
      ∀ i, rowOf i s' = if i = jobId then (rowOf i s).map f else rowOf i s := by
  rcases hrow : rowOf jobId s with _ | j
  · refine ⟨s, Session.returns_transact.mpr ?_, fun i => ?_⟩
    · have hget := getById_returns_none (ρ := JobExecution) (s := s) (rowOf_eq_none.mp hrow)
      exact Prog.returns_bind.mpr ⟨none, s, hget, Prog.returns_pure.mpr ⟨rfl, rfl⟩⟩
    · split_ifs with hi
      · subst hi
        simp [hrow]
      · rfl
  · obtain ⟨hj, hk⟩ := rowOf_eq_some.mp hrow
    obtain ⟨T, hT⟩ := Table.exists_modify (T := s.jobExecutions) (k := jobId) (f := f) hid
      fun _ _ => rfl
    have hret := updateWhere_returns (c := fun _ => true) hj hk rfl rfl rfl hT
    exact ⟨{ s with jobExecutions := T }, Session.returns_transact.mpr hret,
      fun i => rowOf_modify hid hT⟩

theorem rowOf_mark (hid : ∀ j, (f j).id = j.id) :
    rowOf i (mark jobId f s).2 = if i = jobId then (rowOf i s).map f else rowOf i s := by
  obtain ⟨s', hret, hrows⟩ := mark_spec jobId hid s
  unfold Prog.Returns at hret
  rw [hret]
  exact hrows i

theorem compensate_eq (text : String) :
    compensate d jobId text = mark jobId (failRow d ("Broker failure: " ++ text)) := rfl

theorem findJob_returns (hrow : rowOf i s = some j) : (findJob i).Returns s j s := by
  obtain ⟨hj, hk⟩ := rowOf_eq_some.mp hrow
  exact Prog.returns_bind.mpr ⟨some j, s, getById_returns hj hk rfl, returns_orRaise.mpr ⟨rfl, rfl⟩⟩

theorem findJob_raises (hrow : rowOf i s = none) :
    (findJob i).Raises s (.valueError "Job not found") s := by
  have hget := getById_returns_none (ρ := JobExecution) (s := s) (rowOf_eq_none.mp hrow)
  exact (Prog.raises_bind_of_returns hget).mpr (raises_orRaise.mpr ⟨rfl, rfl, rfl⟩)

theorem rowOf_cancelFound (job : JobExecution) (i : Uuid) (s : Database) :
    rowOf i (Session.transact (cancelFound job) s).2 =
      if i = job.id ∧ cancellable job = true then (rowOf i s).map cancelRow else rowOf i s := by
  rw [Session.transact_snd, cancelFound]
  by_cases hc : cancellable job = true
  · rw [if_pos hc]
    rcases hjob : rowOf job.id s with _ | r
    · have hsame : (update job.id cancelRow).settle s = s := by
        rcases (update job.id cancelRow).settle_cases s with ⟨r, hret⟩ | ⟨hsame, -⟩
        · obtain ⟨r, hr, hk, -⟩ := returns_update.mp hret
          exact absurd hk (rowOf_eq_none.mp hjob r hr)
        · exact hsame
      rw [hsame]
      by_cases hi : i = job.id
      · subst hi
        simp [hjob]
      · simp [hi]
    · obtain ⟨hr, hk⟩ := rowOf_eq_some.mp hjob
      obtain ⟨T, hT⟩ := Table.exists_modify (T := s.jobExecutions) (k := job.id) (f := cancelRow)
        (fun _ => rfl) fun _ _ => rfl
      have hret : (update job.id cancelRow).Returns s (cancelRow r)
          { s with jobExecutions := T } := returns_update.mpr ⟨r, hr, hk, rfl, rfl, T, hT, rfl⟩
      rw [Prog.settle_of_returns hret]
      simpa [hc] using rowOf_modify (f := cancelRow) (fun _ => rfl) hT
  · simp [hc, Prog.settle, pure]

theorem persist_cases (d : Draws) (q : Request) (s : Database) :
    (rowOf (d.uuid 0) s = none ∧
      ∃ s', (persist d q).Returns s (d.uuid 0, messageFor q (d.uuid 0)) s' ∧
        ∀ i, rowOf i s' = if i = d.uuid 0 then some (jobRow d q) else rowOf i s) ∨
    (rowOf (d.uuid 0) s ≠ none ∧ ∃ e, (persist d q).Raises s e s) := by
  by_cases hfresh : rowOf (d.uuid 0) s = none
  · obtain ⟨T, hT⟩ := Table.exists_insert (T := s.jobExecutions) (r := jobRow d q)
      fun j hj => ⟨rowOf_eq_none.mp hfresh j hj, rfl⟩
    refine Or.inl ⟨hfresh, { s with jobExecutions := T }, Session.returns_transact.mpr ?_,
      fun i => ?_⟩
    · exact Prog.returns_bind_pure.mpr ⟨jobRow d q, returns_create.mpr ⟨rfl, rfl, T, hT, rfl⟩, rfl⟩
    · have hrows : T.rows = s.jobExecutions.rows ++ [jobRow d q] := Table.insert_eq_some.mp hT
      have happ : rowOf i { s with jobExecutions := T } =
          (rowOf i s).or ([jobRow d q].find? fun j => j.id = i) := by
        simp only [rowOf, hrows, List.find?_append]
      rw [happ]
      split_ifs with hi
      · subst hi
        simp [hfresh, jobRow]
      · have hne : (jobRow d q).id ≠ i := fun h => hi h.symm
        simp [hne]
  · refine Or.inr ⟨hfresh, ?_⟩
    rcases (createJob d q >>= fun job =>
      (pure (job.id, messageFor q job.id) : Svc (Uuid × Message))).returns_or_raises s with
      ⟨p, s', hret⟩ | ⟨e, s', hraise⟩
    · obtain ⟨r, hcreate, -⟩ := Prog.returns_bind_pure.mp hret
      obtain ⟨-, -, T, hT, -⟩ := returns_create.mp hcreate
      refine absurd (rowOf_eq_none.mpr fun j hj => ?_) hfresh
      exact (Table.apart_of_insert hT hj).1
    · exact ⟨e, Session.raises_transact hraise⟩

/-! ### What a step does to a row -/

/-- The row that a step writes to, and what it does to it. -/
def write (textOf : Exc → String) (w : World) :
    Event → Option (Uuid × (JobExecution → JobExecution))
  | .handOver k d (.error text) =>
    w.waiting[k]?.map fun p => (p.1, failRow d ("Broker failure: " ++ text))
  | .deliver k d =>
    match w.messages[k]?.map jobOf with
    | some (.ok (some jobId)) => some (jobId, startRow d)
    | _ => none
  | .finish k d outcome =>
    (w.executions[k]?.bind Execution.job).map fun job => (job.id, endRow textOf d job outcome)
  | .cancelFound k =>
    (w.cancels[k]?.filter cancellable).map fun job => (job.id, cancelRow)
  | _ => none

/-- What a step does to the row of the job `i`. -/
def change (textOf : Exc → String) (w : World) (i : Uuid) (e : Event) :
    JobExecution → JobExecution :=
  match write textOf w e with
  | some (jobId, f) => if i = jobId then f else id
  | none => id

theorem change_of_write (h : write textOf w e = some (jobId, f)) :
    change textOf w i e j = if i = jobId then f j else j := by
  unfold change
  rw [h]
  dsimp only
  split_ifs
  · rfl
  · rfl

theorem change_of_none (h : write textOf w e = none) : change textOf w i e j = j := by
  unfold change
  rw [h]
  rfl

/-- `j'` is the job `j` as it was enqueued: only its course has changed. -/
structure SameJob (j j' : JobExecution) : Prop where
  id : j'.id = j.id
  jobName : j'.jobName = j.jobName
  queue : j'.queue = j.queue
  maxAttempts : j'.maxAttempts = j.maxAttempts
  payload : j'.payload = j.payload

theorem sameJob_endRow (outcome : Except Exc Json) (job j : JobExecution) :
    SameJob j (endRow textOf d job outcome j) := by
  cases outcome with
  | ok result => exact ⟨rfl, rfl, rfl, rfl, rfl⟩
  | error e => exact ⟨rfl, rfl, rfl, rfl, rfl⟩

theorem sameJob_write (h : write textOf w e = some (jobId, f)) (j : JobExecution) :
    SameJob j (f j) := by
  cases e with
  | handOver k d answer =>
    cases answer with
    | ok _ => exact absurd h (by simp [write])
    | error text =>
      simp only [write, Option.map_eq_some_iff, Prod.mk.injEq] at h
      obtain ⟨p, -, -, rfl⟩ := h
      exact ⟨rfl, rfl, rfl, rfl, rfl⟩
  | deliver k d =>
    simp only [write] at h
    split at h
    · obtain ⟨-, rfl⟩ := Prod.mk.inj (Option.some.inj h)
      exact ⟨rfl, rfl, rfl, rfl, rfl⟩
    · exact absurd h (by simp)
  | finish k d outcome =>
    simp only [write, Option.map_eq_some_iff, Prod.mk.injEq] at h
    obtain ⟨job, -, -, rfl⟩ := h
    exact sameJob_endRow outcome job j
  | cancelFound k =>
    simp only [write, Option.map_eq_some_iff, Prod.mk.injEq] at h
    obtain ⟨job, -, -, rfl⟩ := h
    exact ⟨rfl, rfl, rfl, rfl, rfl⟩
  | enqueue d q => exact absurd h (by simp [write])
  | findJob jobId => exact absurd h (by simp [write])

theorem sameJob_change (w : World) (i : Uuid) (e : Event) (j : JobExecution) :
    SameJob j (change textOf w i e j) := by
  rcases h : write textOf w e with _ | ⟨jobId, f⟩
  · rw [change_of_none h]
    exact ⟨rfl, rfl, rfl, rfl, rfl⟩
  · rw [change_of_write h]
    split_ifs
    · exact sameJob_write h j
    · exact ⟨rfl, rfl, rfl, rfl, rfl⟩

theorem rowOf_write (he : ∀ d q, e ≠ .enqueue d q) :
    rowOf i (step textOf w e).db =
      match write textOf w e with
      | some (jobId, f) => if i = jobId then (rowOf i w.db).map f else rowOf i w.db
      | none => rowOf i w.db := by
  cases e with
  | enqueue d q => exact absurd rfl (he d q)
  | handOver k d answer =>
    rcases hk : w.waiting[k]? with _ | ⟨jobId, m⟩
    · cases answer <;> simp [step, write, hk]
    · rcases answer with text | _
      · simp only [step, write, hk, Option.map_some, compensate_eq]
        exact rowOf_mark (f := failRow d ("Broker failure: " ++ text)) fun _ => rfl
      · simp [step, write, hk]
  | deliver k d =>
    rcases hk : w.messages[k]? with _ | m
    · simp [step, write, hk]
    · rcases hread : jobOf m with e | _ | jobId
      · simp [step, write, hk, hread]
      · simp [step, write, hk, hread]
      · obtain ⟨s', hret, hrows⟩ := mark_spec (f := startRow d) jobId (fun _ => rfl) w.db
        unfold Prog.Returns at hret
        simp only [step, write, hk, hread, Option.map_some, hret]
        exact hrows i
  | finish k d outcome =>
    rcases hk : w.executions[k]? with _ | ⟨m, _ | job⟩
    · simp [step, write, hk]
    · simp [step, write, hk]
    · simp only [step, write, hk, Option.bind_some, Option.map_some]
      exact rowOf_mark fun j => (sameJob_endRow outcome job j).id
  | findJob jobId =>
    rcases hrow : rowOf jobId w.db with _ | j
    · have h := findJob_raises hrow
      unfold Prog.Raises at h
      simp [step, write, h]
    · have h := findJob_returns hrow
      unfold Prog.Returns at h
      simp [step, write, h]
  | cancelFound k =>
    rcases hk : w.cancels[k]? with _ | job
    · simp [step, write, hk]
    · have hdb : (step textOf w (.cancelFound k)).db = (Session.transact (cancelFound job) w.db).2 := by
        simp only [step, hk]
        rcases Session.transact (cancelFound job) w.db with ⟨e | r, db⟩ <;> rfl
      rw [hdb, rowOf_cancelFound]
      by_cases hc : cancellable job = true
      · simp [write, hk, hc, Option.filter]
      · simp [write, hk, hc, Option.filter]

/-- **The step lemma for rows**: a row stays, and a step changes it as said. -/
theorem rowOf_step (hrow : rowOf i w.db = some j) :
    rowOf i (step textOf w e).db = some (change textOf w i e j) := by
  by_cases he : ∃ d q, e = .enqueue d q
  · obtain ⟨d, q, rfl⟩ := he
    rcases persist_cases d q w.db with ⟨hfresh, s', hret, hrows⟩ | ⟨-, e, hraise⟩
    · have hne : i ≠ d.uuid 0 := by
        rintro rfl
        rw [hrow] at hfresh
        exact Option.some_ne_none _ hfresh
      unfold Prog.Returns at hret
      simp [step, hret, hrows, hne, hrow, change, write]
    · unfold Prog.Raises at hraise
      simp [step, hraise, hrow, change, write]
  · rw [rowOf_write fun d q h => he ⟨d, q, h⟩, hrow]
    rcases h : write textOf w e with _ | ⟨jobId, f⟩
    · rw [change_of_none h]
    · rw [change_of_write h]
      dsimp only
      split_ifs
      · rfl
      · rfl

/-! ### Steps and calls

Without a step of another call in between, the steps are the calls of the source. -/

theorem mark_congr {g : JobExecution → JobExecution} (hid : ∀ j, (f j).id = j.id)
    (hg : ∀ j, rowOf jobId s = some j → g j = f j) :
    updateWhere jobId (fun _ => true) g s = updateWhere jobId (fun _ => true) f s := by
  rcases hrow : rowOf jobId s with _ | j
  · have hget := getById_returns_none (ρ := JobExecution) (s := s) (rowOf_eq_none.mp hrow)
    unfold Prog.Returns at hget
    simp [updateWhere, bind, hget]
  · obtain ⟨hj, hk⟩ := rowOf_eq_some.mp hrow
    have hfg : g j = f j := hg j hrow
    obtain ⟨T, hT⟩ := Table.exists_modify (T := s.jobExecutions) (k := jobId) (f := f) hid
      fun _ _ => rfl
    have hT' : s.jobExecutions.modify jobId g = some T := by
      refine Table.modify_eq_some.mpr ((Table.modify_eq_some.mp hT).trans ?_)
      refine List.map_congr_left fun r hr => ?_
      split_ifs with hkr
      · rw [s.jobExecutions.eq_of_key_eq hr hj (hkr.trans hk.symm), hfg]
      · rfl
    have hf := updateWhere_returns (c := fun _ => true) hj hk rfl rfl rfl hT
    have hg' := updateWhere_returns (c := fun _ => true) hj hk rfl rfl rfl hT'
    unfold Prog.Returns at hf hg'
    rw [hf, hg', hfg]

theorem executeJob_eq (task : Svc Json) :
    executeJob d textOf ((m.kwargs.lookup "job_execution_id").getD .null) task =
      match jobOf m with
      | .ok (some jobId) => Session.serve (track d jobId textOf task)
      | .ok none => task
      | .error e => Prog.raise e := by
  unfold executeJob jobOf
  dsimp only
  split_ifs
  · rfl
  · rcases uuidOf _ with e | jobId
    · cases e with
      | valueError text => rfl
      | _ => rfl
    · rfl

/-- The session of the worker, from the row that it loads to its last commit. -/
theorem track_eq (outcome : Except Exc Json) (hrow : rowOf jobId s = some j) :
    (Session.serve (track d jobId textOf (Prog.ofExcept outcome)) s).2 =
      (mark jobId (endRow textOf d (startRow d j) outcome) (mark jobId (startRow d) s).2).2 := by
  obtain ⟨s₁, hstart, hrows⟩ := mark_spec (f := startRow d) jobId (fun _ => rfl) s
  have hrow₁ : rowOf jobId s₁ = some (startRow d j) := by simpa [hrow] using hrows jobId
  have hjob : HasJob jobId s := ⟨j, rowOf_eq_some.mp hrow⟩
  have hstarted : started d jobId s = s₁ := by
    have hret : markStarted d jobId s = _ := Session.returns_transact.mp hstart
    simp [started, Prog.run, hret]
  obtain ⟨s₂, hend, -⟩ := mark_spec (f := endRow textOf d (startRow d j) outcome) jobId
    (by rcases outcome with e | r <;> exact fun _ => rfl) s₁
  have hmark : updateWhere jobId (fun _ => true) (endRow textOf d (startRow d j) outcome) s₁ = _ :=
    Session.returns_transact.mp hend
  unfold Prog.Returns at hstart hend
  rw [hstart, hend]
  show (track d jobId textOf (Prog.ofExcept outcome) (.fresh s)).2.committed = s₂
  rw [track_of_hasJob hjob, hstarted]
  rcases outcome with e | r
  · have hfail : markFailed d jobId (textOf e) s₁ = _ := (mark_congr
      (f := endRow textOf d (startRow d j) (.error e)) (fun _ => rfl) fun r hr => by
        obtain rfl := Option.some.inj (hrow₁.symm.trans hr)
        rfl).trans hmark
    simp [Prog.handle, attempt, giveUp, bind, Session.outside, Session.exec, Session.commit,
      Session.fresh, Session.view, Prog.raise, Prog.ofExcept, hfail]
  · have hdone : markCompleted d jobId (some (resultOf r)) s₁ = _ := hmark
    simp [Prog.handle, attempt, bind, Session.outside, Session.exec, Session.commit, Session.fresh,
      Session.view, Prog.ofExcept, pure, hdone]

/-- **`execute_job` is a delivery and the end of its execution.** -/
theorem execute_eq (outcome : Except Exc Json) (hm : w.messages[k]? = some m) :
    (executeJob d textOf ((m.kwargs.lookup "job_execution_id").getD .null)
      (Prog.ofExcept outcome) w.db).2 =
    (run (step textOf) w [.deliver k d, .finish w.executions.length d outcome]).db := by
  rw [executeJob_eq]
  rcases hread : jobOf m with e | _ | jobId
  · simp [step, hm, hread, Prog.raise]
  · simp [step, hm, hread, Prog.ofExcept]
  · obtain ⟨s₁, hstart, -⟩ := mark_spec (f := startRow d) jobId (fun _ => rfl) w.db
    have hret : mark jobId (startRow d) w.db = _ := hstart
    rcases hrow : rowOf jobId w.db with _ | j
    · have hno : ¬ HasJob jobId w.db := by
        rintro ⟨j, hj, hk⟩
        exact rowOf_eq_none.mp hrow j hj hk
      have hsame : mark jobId (startRow d) w.db = (.ok none, w.db) :=
        Session.returns_transact.mpr (markStarted_none hno)
      simp [step, hm, hread, hsame, serve_track_of_not_hasJob hno, Prog.ofExcept]
    · have hid : (startRow d j).id = jobId := (rowOf_eq_some.mp hrow).2
      rw [hrow] at hret
      simp only [track_eq outcome hrow, run_cons, run_nil, step, hm, hread, hret]
      simp [hid]

/-- `execute_job` raises whatever its task function raised, in an exception of its own. -/
theorem execute_succeeds (outcome : Except Exc Json) {o : Option Uuid} (hread : jobOf m = .ok o) :
    (executeJob d textOf ((m.kwargs.lookup "job_execution_id").getD .null)
      (Prog.ofExcept outcome)).succeeds s = true ↔ ∃ r, outcome = .ok r := by
  have htask : (Prog.ofExcept outcome : Svc Json).succeeds s = true ↔ ∃ r, outcome = .ok r := by
    rcases outcome with e | r
    · simp [Prog.succeeds, Prog.ofExcept]
    · simp [Prog.succeeds, Prog.ofExcept]
  rw [executeJob_eq, hread]
  rcases o with _ | jobId
  · exact htask
  · have hserve : ∀ p : Prog (Session Database) Exc Json,
        (Session.serve p).succeeds s = p.succeeds (.fresh s) := fun _ => rfl
    dsimp only
    rw [hserve]
    unfold Prog.succeeds
    by_cases hjob : HasJob jobId s
    · rw [track_of_hasJob hjob]
      rcases outcome with e | r
      · obtain ⟨s', hret, -⟩ := mark_spec (f := failRow d (textOf e)) jobId (fun _ => rfl)
          (started d jobId s)
        have hfail : markFailed d jobId (textOf e) (started d jobId s) = _ :=
          Session.returns_transact.mp hret
        simp [Prog.handle, attempt, giveUp, bind, Session.outside, Session.exec, Session.commit,
          Session.fresh, Session.view, Prog.raise, Prog.ofExcept, hfail]
      · obtain ⟨s', hret, -⟩ := mark_spec (f := completeRow d (some (resultOf r))) jobId
          (fun _ => rfl) (started d jobId s)
        have hdone : markCompleted d jobId (some (resultOf r)) (started d jobId s) = _ :=
          Session.returns_transact.mp hret
        simp [Prog.handle, attempt, bind, Session.outside, Session.exec, Session.commit,
          Session.fresh, Session.view, Prog.ofExcept, pure, hdone]
    · have hstart : markStarted d jobId s = (.ok none, s) := markStarted_none hjob
      rcases outcome with e | r
      · simp [track, bind, Session.exec, Session.outside, Session.fresh, Prog.ofExcept, hstart]
      · simp [track, bind, Session.exec, Session.outside, Session.fresh, Prog.ofExcept, hstart]

/-- **`enqueue` is a commit and a message handed over.** -/
theorem enqueue_eq (answer : Except String Unit) :
    let w' := run (step textOf) w [.enqueue d q, .handOver w.waiting.length d answer]
    (enqueue d answer q ⟨w.db, w.messages⟩).2 = ⟨w'.db, w'.messages⟩ := by
  intro w'
  rcases persist_cases d q w.db with ⟨-, s', hret, -⟩ | ⟨-, e, hraise⟩
  · unfold Prog.Returns at hret
    rcases answer with text | _
    · simp only [w', run_cons, run_nil, step, enqueue, bind, Stores.onDatabase, Prog.focus, hret,
        pure, List.getElem?_concat_length]
      rcases (compensate d (d.uuid 0) text s').1 with e | o
      · rfl
      · rfl
    · simp [w', step, enqueue, bind, Stores.onDatabase, Prog.focus, hret, pure, Prog.modify]
  · unfold Prog.Raises at hraise
    simp [w', step, enqueue, bind, Stores.onDatabase, Prog.focus, hraise]

/-- **`cancel_job` reads the row and writes it.** -/
theorem cancelJob_eq : (cancelJob i w.db).2 =
    (run (step textOf) w [.findJob i, .cancelFound w.cancels.length]).db := by
  rcases hrow : rowOf i w.db with _ | j
  · have hraise := findJob_raises hrow
    have hall := Session.raises_transact
      (Prog.raises_bind.mpr (Or.inl hraise) : (findJob i >>= cancelFound).Raises _ _ _)
    unfold Prog.Raises at hraise hall
    simp [cancelJob, step, hraise, hall]
  · have hfind := findJob_returns hrow
    have hsettle : (findJob i >>= cancelFound).settle w.db = (cancelFound j).settle w.db := by
      unfold Prog.Returns at hfind
      simp only [Prog.settle, bind, hfind]
    have hall : (cancelJob i w.db).2 = (Session.transact (cancelFound j) w.db).2 := by
      rw [cancelJob, Session.transact_snd, Session.transact_snd, hsettle]
    unfold Prog.Returns at hfind
    simp only [hall, run_cons, run_nil, step, hfind, List.getElem?_concat_length]
    rcases Session.transact (cancelFound j) w.db with ⟨e | r, db⟩
    · rfl
    · rfl

end MarketingSuite.Jobs.System
