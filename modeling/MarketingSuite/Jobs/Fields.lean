import MarketingSuite.Jobs.System

/-! # The fields of a job and its status

Each move of a job writes its own columns and leaves the others as they were. So the times, the
result and the error message of a row say what its status says exactly in the runs in which no move
finds a row with columns that it does not write and that do not fit the status it writes. -/

namespace MarketingSuite.Jobs.Fields

open MarketingSuite.Lib.Runs
open MarketingSuite.Base.Values MarketingSuite.Base.Models MarketingSuite.Base.Schema
open MarketingSuite.Jobs.Worker MarketingSuite.Jobs.Queue MarketingSuite.Jobs.System

/-- The columns of a row fit its status. -/
structure FieldsMatch (j : JobExecution) : Prop where
  completedAt : j.completedAt ≠ none → j.status = .completed
  result : j.result ≠ none → j.status = .completed
  failedAt : j.failedAt ≠ none → j.status = .failed
  errorMessage : j.status = .completed → j.errorMessage = none

/-- The columns of every row fit its status. -/
def AllMatch (w : World) : Prop := ∀ j ∈ w.db.jobExecutions.rows, FieldsMatch j

/-- The job that a delivery of the message moves, if it moves one. -/
def trackedBy (m : Message) : Option Uuid := (jobOf m).toOption.join

/-- The move that a step makes finds a row that it leaves in order. A delivery finds a row that is
not COMPLETED and has no `failed_at`; the end of an execution that has returned, one without
`failed_at` and `error_message`; a failed attempt, a refusal of the broker or a cancellation, one that
is not COMPLETED. -/
def FindsFit (w : World) : Event → Prop
  | .handOver k _ (.error _) => ∀ p ∈ w.waiting[k]?, ∀ j ∈ rowOf p.1 w.db, j.status ≠ .completed
  | .deliver k _ => ∀ jobId ∈ w.messages[k]?.bind trackedBy, ∀ j ∈ rowOf jobId w.db,
    j.status ≠ .completed ∧ j.failedAt = none
  | .finish k _ (.ok _) => ∀ job ∈ w.executions[k]?.bind Execution.job,
    ∀ j ∈ rowOf job.id w.db, j.failedAt = none ∧ j.errorMessage = none
  | .finish k _ (.error _) => ∀ job ∈ w.executions[k]?.bind Execution.job,
    ∀ j ∈ rowOf job.id w.db, j.status ≠ .completed
  | .cancelFound k => ∀ job ∈ w.cancels[k]?.filter cancellable, ∀ j ∈ rowOf job.id w.db,
    j.status ≠ .completed
  | _ => True

instance (w : World) : ∀ e, Decidable (FindsFit w e)
  | .handOver _ _ (.error _) => inferInstanceAs (Decidable (∀ _ ∈ _, ∀ _ ∈ _, _))
  | .handOver _ _ (.ok _) => isTrue trivial
  | .deliver _ _ => inferInstanceAs (Decidable (∀ _ ∈ _, ∀ _ ∈ _, _ ∧ _))
  | .finish _ _ (.ok _) => inferInstanceAs (Decidable (∀ _ ∈ _, ∀ _ ∈ _, _ ∧ _))
  | .finish _ _ (.error _) => inferInstanceAs (Decidable (∀ _ ∈ _, ∀ _ ∈ _, _))
  | .cancelFound _ => inferInstanceAs (Decidable (∀ _ ∈ _, ∀ _ ∈ _, _))
  | .enqueue _ _ => isTrue trivial
  | .findJob _ => isTrue trivial

/-- A COMPLETED row says when. -/
def Dated (w : World) : Prop :=
  ∀ j ∈ w.db.jobExecutions.rows, j.status = .completed → j.completedAt ≠ none

variable {textOf : Exc → String} {w : World} {e : Event} {i jobId : Uuid} {j job : JobExecution}
  {f : JobExecution → JobExecution} {P : JobExecution → Prop}

/-! ### The moves -/

theorem fieldsMatch_start (d : Draws) (h : FieldsMatch j)
    (hdated : j.status = .completed → j.completedAt ≠ none) :
    FieldsMatch (startRow d j) ↔ j.status ≠ .completed ∧ j.failedAt = none := by
  constructor
  · intro hstart
    refine ⟨fun hst => ?_, ?_⟩
    · have hrunning := hstart.completedAt (hdated hst)
      simp [startRow] at hrunning
    · by_contra hfailed
      have hrunning := hstart.failedAt hfailed
      simp [startRow] at hrunning
  · rintro ⟨hst, hfailed⟩
    refine ⟨fun hc => absurd (h.completedAt hc) hst, fun hr => absurd (h.result hr) hst,
      fun hf => absurd hfailed hf, fun hrunning => ?_⟩
    simp [startRow] at hrunning

theorem fieldsMatch_complete (d : Draws) (result : Option Json) :
    FieldsMatch (completeRow d result j) ↔ j.failedAt = none ∧ j.errorMessage = none := by
  constructor
  · intro h
    refine ⟨?_, h.errorMessage rfl⟩
    by_contra hfailed
    have hcompleted := h.failedAt hfailed
    simp [completeRow] at hcompleted
  · rintro ⟨hfailed, herror⟩
    exact ⟨fun _ => rfl, fun _ => rfl, fun hf => absurd hfailed hf, fun _ => herror⟩

/-- What a move to FAILED or RETRYING asks for, if it clears or sets `failed_at` as it should. -/
theorem fieldsMatch_of_unfinished {j' : JobExecution} (h : FieldsMatch j)
    (hdated : j.status = .completed → j.completedAt ≠ none)
    (hst : j'.status ≠ .completed) (hfailed : j'.failedAt ≠ none → j'.status = .failed)
    (hcompleted : j'.completedAt = j.completedAt) (hresult : j'.result = j.result) :
    FieldsMatch j' ↔ j.status ≠ .completed := by
  constructor
  · intro h' hc
    exact hst (h'.completedAt (by rw [hcompleted]; exact hdated hc))
  · intro hc
    refine ⟨fun hne => ?_, fun hne => ?_, hfailed, fun heq => absurd heq hst⟩
    · rw [hcompleted] at hne
      exact absurd (h.completedAt hne) hc
    · rw [hresult] at hne
      exact absurd (h.result hne) hc

theorem status_failRow_ne (d : Draws) (text : String) (j : JobExecution) :
    (failRow d text j).status ≠ .completed := by
  unfold failRow
  dsimp only
  split_ifs <;> simp

theorem failedAt_failRow (d : Draws) (text : String) (j : JobExecution)
    (h : (failRow d text j).failedAt ≠ none) : (failRow d text j).status = .failed := by
  by_cases hlast : j.maxAttempts ≤ j.attempts + 1
  · simp [failRow, hlast]
  · simp [failRow, hlast] at h

/-! ### One step -/

theorem allMatch_iff {s : Database} :
    (∀ j ∈ s.jobExecutions.rows, P j) ↔ ∀ i j, rowOf i s = some j → P j := by
  constructor
  · intro h i j hrow
    exact h j (rowOf_eq_some.mp hrow).1
  · intro h j hj
    exact h j.id j (rowOf_eq_some.mpr ⟨hj, rfl⟩)

/-- **What a step does to the table**: it makes a new row, or its write changes one. -/
theorem rows_step (hnew : ∀ d q, P (jobRow d q)) (h : ∀ j ∈ w.db.jobExecutions.rows, P j) :
    (∀ j ∈ (step textOf w e).db.jobExecutions.rows, P j) ↔
      ∀ jobId f j, write textOf w e = some (jobId, f) → rowOf jobId w.db = some j → P (f j) := by
  rw [allMatch_iff] at h ⊢
  by_cases he : ∃ d q, e = .enqueue d q
  · obtain ⟨d, q, rfl⟩ := he
    refine iff_of_true (fun i j hrow => ?_) (fun jobId f j hw => by simp [write] at hw)
    rcases persist_cases d q w.db with ⟨-, s', hret, hrows⟩ | ⟨-, e, hraise⟩
    · unfold Lib.Programs.Prog.Returns at hret
      have hstep : rowOf i s' = some j := by simpa [step, hret] using hrow
      rw [hrows] at hstep
      split_ifs at hstep with hi
      · rw [← Option.some.inj hstep]
        exact hnew d q
      · exact h i j hstep
    · unfold Lib.Programs.Prog.Raises at hraise
      exact h i j (by simpa [step, hraise] using hrow)
  · have hother : ∀ d q, e ≠ .enqueue d q := fun d q heq => he ⟨d, q, heq⟩
    rcases hw : write textOf w e with _ | ⟨jobId, f⟩
    · refine iff_of_true (fun i j hrow => ?_) (by simp)
      rw [rowOf_write hother, hw] at hrow
      exact h i j hrow
    · constructor
      · intro hall jobId' f' j heq hrow
        obtain ⟨rfl, rfl⟩ := Prod.mk.inj (Option.some.inj heq)
        refine hall jobId (f j) ?_
        rw [rowOf_write hother, hw]
        simp [hrow]
      · intro hwrite i j hrow
        rw [rowOf_write hother, hw] at hrow
        dsimp only at hrow
        split_ifs at hrow with hi
        · subst hi
          obtain ⟨j₀, hj₀, rfl⟩ := Option.map_eq_some_iff.mp hrow
          exact hwrite i f j₀ rfl hj₀
        · exact h i j hrow

theorem dated_step (w : World) (e : Event) (h : Dated w) : Dated (step textOf w e) := by
  refine (rows_step (P := fun j => j.status = .completed → j.completedAt ≠ none)
    (fun d q hst => by simp [jobRow] at hst) h).mpr fun jobId f j hw hrow => ?_
  cases e with
  | handOver k d answer =>
    rcases answer with text | _
    · simp only [write, Option.map_eq_some_iff, Prod.mk.injEq] at hw
      obtain ⟨p, -, -, rfl⟩ := hw
      exact fun hst => absurd hst (status_failRow_ne _ _ _)
    · simp [write] at hw
  | deliver k d =>
    simp only [write] at hw
    split at hw
    · obtain ⟨-, rfl⟩ := Prod.mk.inj (Option.some.inj hw)
      exact fun hst => by simp [startRow] at hst
    · simp at hw
  | finish k d outcome =>
    simp only [write, Option.map_eq_some_iff, Prod.mk.injEq] at hw
    obtain ⟨job, -, -, rfl⟩ := hw
    rcases outcome with ex | r
    · exact fun hst => absurd hst (status_failRow_ne d (textOf ex) job)
    · exact fun _ => Option.some_ne_none _
  | cancelFound k =>
    simp only [write, Option.map_eq_some_iff, Prod.mk.injEq] at hw
    obtain ⟨job, -, -, rfl⟩ := hw
    exact fun hst => by simp [cancelRow] at hst
  | enqueue d q => simp [write] at hw
  | findJob jobId => simp [write] at hw

theorem write_deliver (k : ℕ) (d : Draws) : write textOf w (.deliver k d) =
    (w.messages[k]?.bind trackedBy).map fun jobId => (jobId, startRow d) := by
  simp only [write]
  rcases w.messages[k]? with _ | m
  · rfl
  · simp only [Option.map_some, Option.bind_some, trackedBy]
    rcases jobOf m with ex | _ | jobId
    · rfl
    · rfl
    · rfl

/-- What a step leaves in order that writes to the row of `key a` if there is an `a`. -/
theorem forall_write {α : Type} {o : Option α} (key : α → Uuid)
    (g : α → JobExecution → JobExecution) {Q : JobExecution → Prop}
    (h : write textOf w e = o.map fun a => (key a, g a))
    (hg : ∀ a ∈ o, ∀ j ∈ rowOf (key a) w.db, (P (g a j) ↔ Q j)) :
    (∀ jobId f j, write textOf w e = some (jobId, f) → rowOf jobId w.db = some j → P (f j)) ↔
      ∀ a ∈ o, ∀ j ∈ rowOf (key a) w.db, Q j := by
  rw [h]
  constructor
  · intro hall a ha j hj
    refine (hg a ha j hj).mp (hall (key a) (g a) j ?_ hj)
    rw [Option.mem_def.mp ha]
    rfl
  · intro hall jobId f j hw hj
    obtain ⟨a, ha, heq⟩ := Option.map_eq_some_iff.mp hw
    obtain ⟨rfl, rfl⟩ := Prod.mk.inj heq
    exact (hg a ha j hj).mpr (hall a ha j hj)

theorem findsFit_iff (h : AllMatch w) (hdated : Dated w) :
    (∀ jobId f j, write textOf w e = some (jobId, f) → rowOf jobId w.db = some j →
      FieldsMatch (f j)) ↔ FindsFit w e := by
  have hrow : ∀ {jobId j}, rowOf jobId w.db = some j →
      FieldsMatch j ∧ (j.status = .completed → j.completedAt ≠ none) :=
    fun hj => ⟨h _ (rowOf_eq_some.mp hj).1, hdated _ (rowOf_eq_some.mp hj).1⟩
  cases e with
  | handOver k d answer =>
    rcases answer with text | _
    · exact forall_write Prod.fst (fun _ => failRow d ("Broker failure: " ++ text)) rfl
        fun p _ j hj => fieldsMatch_of_unfinished (hrow hj).1 (hrow hj).2
          (status_failRow_ne _ _ _) (failedAt_failRow _ _ _) rfl rfl
    · simp [write, FindsFit]
  | deliver k d =>
    exact forall_write id (fun _ => startRow d) (write_deliver k d) fun _ _ j hj =>
      fieldsMatch_start d (hrow hj).1 (hrow hj).2
  | finish k d outcome =>
    rcases outcome with ex | r
    · exact forall_write JobExecution.id (endRow textOf d · (.error ex)) rfl fun job _ j hj =>
        fieldsMatch_of_unfinished (hrow hj).1 (hrow hj).2 (status_failRow_ne d (textOf ex) job)
          (failedAt_failRow d (textOf ex) job) rfl rfl
    · exact forall_write JobExecution.id (endRow textOf d · (.ok r)) rfl fun _ _ _ _ =>
        fieldsMatch_complete d _
  | cancelFound k =>
    exact forall_write JobExecution.id (fun _ => cancelRow) rfl fun job _ j hj =>
      fieldsMatch_of_unfinished (hrow hj).1 (hrow hj).2 (by simp [cancelRow]) (fun _ => rfl) rfl rfl
  | enqueue d q => simp [write, FindsFit]
  | findJob jobId => simp [write, FindsFit]

theorem fieldsMatch_jobRow (d : Draws) (q : Request) : FieldsMatch (jobRow d q) :=
  ⟨fun h => absurd rfl h, fun h => absurd rfl h, fun h => absurd rfl h, fun _ => rfl⟩

/-- **The fields of every job match its status** in every state of a run, from an empty table on,
exactly if every move of the run finds a row that it leaves in order. -/
theorem fieldsMatch_iff (textOf : Exc → String) {db : Database} (hdb : db.jobExecutions.rows = [])
    (l : List Event) :
    Always (step textOf) AllMatch (idle db) l ↔ Along (step textOf) FindsFit (idle db) l := by
  refine always_iff_along_of_inv dated_step (fun w e hdated hw => ?_) (fun j hj => ?_)
    (fun j hj => ?_)
  · rw [← findsFit_iff hw hdated]
    exact rows_step fieldsMatch_jobRow hw
  · simp [idle, hdb] at hj
  · simp [idle, hdb] at hj

/-- The steps of a job that is done at the first attempt. -/
def firstAttempt : List Event :=
  [.enqueue (drawsFrom 50 0 "") ⟨"integration.sync", [], "default", .default, 0, 3⟩,
    .handOver 0 (drawsFrom 0 0 "") (.ok ()), .deliver 0 (drawsFrom 0 1 ""),
    .finish 0 (drawsFrom 0 2 "") (.ok .null)]

theorem firstAttempt_matches :
    Always (step fun _ => "error") AllMatch (idle Database.empty) firstAttempt :=
  (fieldsMatch_iff _ rfl firstAttempt).mpr (by decide)

/-- **A message that is delivered again**: the row of the completed job is RUNNING, with the time and
the result of its completion. -/
theorem redelivered_keeps_result : ¬ Always (step fun _ => "error") AllMatch (idle Database.empty)
    (firstAttempt ++ [.deliver 0 (drawsFrom 0 3 "")]) := by
  intro h
  have hall := h.2.2.2.2.2
  have hmem : ∃ j ∈ (run (step fun _ => "error") (idle Database.empty)
      (firstAttempt ++ [.deliver 0 (drawsFrom 0 3 "")])).db.jobExecutions.rows,
      j.status = .running ∧ j.completedAt.isSome = true := by decide
  obtain ⟨j, hj, hst, hc⟩ := hmem
  have hcompleted := (hall j hj).completedAt (by rw [← Option.isSome_iff_ne_none]; exact hc)
  simp [hst] at hcompleted

end MarketingSuite.Jobs.Fields
