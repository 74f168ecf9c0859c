import MarketingSuite.Jobs.Outcomes

/-! # The attempts of a job

`app/infrastructure/celery/base_task.py`. Celery retries a message three times after a failure, and
the row counts its attempts, and neither asks the other. So the row bounds the work exactly if it
allows the four executions of Celery, or if one of the executions that it allows succeeds. -/

namespace MarketingSuite.Jobs.Attempts

open MarketingSuite.Lib.Programs MarketingSuite.Lib.Tables MarketingSuite.Lib.Sessions
open MarketingSuite.Lib.Runs
open MarketingSuite.Base.Values MarketingSuite.Base.Models MarketingSuite.Base.Schema
open MarketingSuite.Base.Payloads MarketingSuite.Repositories.Base
open MarketingSuite.Jobs.Worker MarketingSuite.Jobs.Queue MarketingSuite.Jobs.System
open MarketingSuite.Jobs.Outcomes

/-- `BaseTask.retry_kwargs["max_retries"]`. -/
def maxRetries : ℕ := 3

/-- One execution of the message `k`, from its delivery to its end. -/
def execution (textOf : Exc → String) (k : ℕ) (d : Draws) (outcome : Except Exc Json) (w : World) :
    World :=
  run (step textOf) w [.deliver k d, .finish w.executions.length d outcome]

/-- The worlds after the executions of the message `k`, the next of which is the `n`-th, with
`retries` left: `autoretry_for = (Exception,)` retries whatever the task raised. -/
def autoretry (textOf : Exc → String) (k : ℕ) (d : ℕ → Draws) (outcome : ℕ → Except Exc Json) :
    ℕ → ℕ → World → List World
  | 0, n, w => [execution textOf k (d n) (outcome n) w]
  | retries + 1, n, w =>
    let w' := execution textOf k (d n) (outcome n) w
    match outcome n with
    | .ok _ => [w']
    | .error _ => w' :: autoretry textOf k d outcome retries (n + 1) w'

/-- `m` bounds the work for the job `i` in these worlds after its executions: its task function has
been called `m` times at most and its attempts are at most `m`, and where its row says RETRYING
another execution is to come. `calls` is how often it had been called before. -/
structure Bounded (m calls : ℕ) (i : Uuid) (l : List World) : Prop where
  calls : ∀ w ∈ l, callsOf i w ≤ calls + m
  attempts : ∀ w ∈ l, ∀ j, rowOf i w.db = some j → j.attempts ≤ m
  retrying : ∀ n w, l[n]? = some w → statusOf i w = some .retrying → n + 1 < l.length

/-- The message `k` is one of the job `i`, which has been called `calls` times and whose row allows
`m` attempts and has counted `n`. -/
structure Ready (i : Uuid) (k m calls n : ℕ) (w : World) : Prop where
  message : ∃ msg, w.messages[k]? = some msg ∧ jobOf msg = .ok (some i)
  row : ∃ j, rowOf i w.db = some j ∧ j.attempts = n ∧ j.maxAttempts = m
  calls : callsOf i w = calls + n

variable {textOf : Exc → String} {w : World} {i : Uuid} {k m calls n : ℕ} {d : Draws}
  {outcome : Except Exc Json}

/-- What an execution does: a call, and the move of the row after its start. -/
theorem execution_spec (textOf : Exc → String) (d : Draws) (outcome : Except Exc Json)
    (h : Ready i k m calls n w) :
    (∃ msg, (execution textOf k d outcome w).messages[k]? = some msg ∧ jobOf msg = .ok (some i)) ∧
    callsOf i (execution textOf k d outcome w) = calls + n + 1 ∧
    ∃ j, j.attempts = n ∧ j.maxAttempts = m ∧
      rowOf i (execution textOf k d outcome w).db = some (endRow textOf d j outcome j) := by
  obtain ⟨msg, hk, hread⟩ := h.message
  obtain ⟨j, hrow, hatt, hmax⟩ := h.row
  obtain ⟨s', hret, hrows⟩ := mark_spec (f := startRow d) i (fun _ => rfl) w.db
  have hid : j.id = i := (rowOf_eq_some.mp hrow).2
  have hrow' : rowOf i s' = some (startRow d j) := by simpa [hrow] using hrows i
  unfold Prog.Returns at hret
  rw [hrow] at hret
  have hstart : step textOf w (.deliver k d) =
      { w with
        db := s'
        executions := w.executions ++ [⟨msg, some (startRow d j)⟩]
        calls := w.calls ++ [msg] } := by
    simp [step, hk, hread, hret]
  have hend : execution textOf k d outcome w =
      { w with
        db := (mark j.id (endRow textOf d (startRow d j) outcome) s').2
        calls := w.calls ++ [msg] } := by
    rw [execution, run_cons, hstart]
    simp [step, startRow, List.eraseIdx_append_of_length_le]
  rw [hend]
  refine ⟨⟨msg, hk, hread⟩, ?_, startRow d j, hatt, hmax, ?_⟩
  · have hcalls := h.calls
    simp only [callsOf] at hcalls ⊢
    simp [hcalls, isFor, hread]
  · dsimp only
    rw [rowOf_mark fun j' => (sameJob_endRow outcome (startRow d j) j').id, if_pos hid.symm, hrow']
    rfl

theorem ready_execution {e : Exc} (h : Ready i k m calls n w) :
    Ready i k m calls (n + 1) (execution textOf k d (.error e) w) := by
  obtain ⟨hmsg, hcalls, j, rfl, hmax, hrow⟩ := execution_spec textOf d (.error e) h
  exact ⟨hmsg, ⟨_, hrow, rfl, hmax⟩, by rw [hcalls, Nat.add_assoc]⟩

/-- What an execution that raised leaves is within the bounds, if its attempt was allowed. -/
theorem failed_execution (textOf : Exc → String) (d : Draws) (e : Exc) (h : Ready i k m calls n w) :
    (callsOf i (execution textOf k d (.error e) w) ≤ calls + m ↔ n + 1 ≤ m) ∧
    ((∀ j, rowOf i (execution textOf k d (.error e) w).db = some j → j.attempts ≤ m) ↔
      n + 1 ≤ m) ∧
    (statusOf i (execution textOf k d (.error e) w) = some .retrying ↔ n + 1 < m) := by
  obtain ⟨-, hcalls, j, rfl, rfl, hrow⟩ := execution_spec textOf d (.error e) h
  refine ⟨by rw [hcalls]; omega, ?_, ?_⟩
  · rw [hrow]
    simp only [Option.some.injEq, forall_eq']
    exact Iff.rfl
  · have hst : statusOf i (execution textOf k d (.error e) w) =
        some (failRow d (textOf e) j).status := by simp [statusOf, hrow, endRow, failLoaded]
    rw [hst, status_failRow]
    by_cases hl : lastAttempt j = true
    · have hle : j.maxAttempts ≤ j.attempts + 1 := by simpa [lastAttempt] using hl
      simp [hl, hle]
    · have hlt : j.attempts + 1 < j.maxAttempts := by simpa [lastAttempt] using hl
      simp [hl, hlt]

theorem bounded_of_ok {r : Json} (h : Ready i k m calls n w) :
    Bounded m calls i [execution textOf k d (.ok r) w] ↔ n + 1 ≤ m := by
  obtain ⟨-, hcalls, j, rfl, rfl, hrow⟩ := execution_spec textOf d (.ok r) h
  constructor
  · intro hb
    have hle := hb.calls _ (List.mem_singleton.mpr rfl)
    omega
  · intro hle
    refine ⟨fun w' hw => ?_, fun w' hw j' hj => ?_, fun n' w' hn hst => ?_⟩
    · rw [List.mem_singleton.mp hw]
      omega
    · rw [List.mem_singleton.mp hw, hrow] at hj
      obtain rfl := Option.some.inj hj
      show j.attempts ≤ j.maxAttempts
      omega
    · obtain rfl : w' = execution textOf k d (.ok r) w :=
        List.mem_singleton.mp (List.mem_of_getElem? hn)
      simp [statusOf, hrow, endRow, completeRow] at hst

theorem bounded_singleton {w' : World} : Bounded m calls i [w'] ↔ callsOf i w' ≤ calls + m ∧
    (∀ j, rowOf i w'.db = some j → j.attempts ≤ m) ∧ statusOf i w' ≠ some .retrying := by
  constructor
  · intro h
    exact ⟨h.calls w' (by simp), h.attempts w' (by simp), fun hst =>
      absurd (h.retrying 0 w' rfl hst) (by simp)⟩
  · rintro ⟨hcalls, hatt, hst⟩
    refine ⟨fun v hv => ?_, fun v hv => ?_, fun n v hn hv => ?_⟩
    · rw [List.mem_singleton.mp hv]
      exact hcalls
    · rw [List.mem_singleton.mp hv]
      exact hatt
    · rw [List.mem_singleton.mp (List.mem_of_getElem? hn)] at hv
      exact absurd hv hst

theorem bounded_cons {w' : World} {l : List World} (hl : l ≠ []) : Bounded m calls i (w' :: l) ↔
    callsOf i w' ≤ calls + m ∧ (∀ j, rowOf i w'.db = some j → j.attempts ≤ m) ∧
      Bounded m calls i l := by
  constructor
  · intro h
    refine ⟨h.calls w' (by simp), h.attempts w' (by simp), fun v hv => h.calls v (by simp [hv]),
      fun v hv => h.attempts v (by simp [hv]), fun n v hn hst => ?_⟩
    have hlt := h.retrying (n + 1) v hn hst
    simpa using hlt
  · rintro ⟨hcalls, hatt, h⟩
    refine ⟨fun v hv => ?_, fun v hv => ?_, fun n v hn hst => ?_⟩
    · rcases List.mem_cons.mp hv with rfl | hv
      · exact hcalls
      · exact h.calls v hv
    · rcases List.mem_cons.mp hv with rfl | hv
      · exact hatt
      · exact h.attempts v hv
    · cases n with
      | zero => simpa using List.length_pos_iff.mpr hl
      | succ n => simpa using h.retrying n v hn hst

theorem autoretry_ne_nil (d : ℕ → Draws) (outcome : ℕ → Except Exc Json) (retries n : ℕ)
    (w : World) : autoretry textOf k d outcome retries n w ≠ [] := by
  cases retries with
  | zero => simp [autoretry]
  | succ retries =>
    simp only [autoretry]
    split
    · simp
    · simp

/-- **What bounds the work of the executions that are left.** -/
theorem bounded_iff (textOf : Exc → String) (d : ℕ → Draws) (outcome : ℕ → Except Exc Json)
    (retries : ℕ) (h : Ready i k m calls n w) :
    Bounded m calls i (autoretry textOf k d outcome retries n w) ↔
      (∃ t ≤ retries, (∃ r, outcome (n + t) = .ok r) ∧ n + t + 1 ≤ m) ∨ n + retries + 1 = m := by
  induction retries generalizing n w with
  | zero =>
    simp only [autoretry]
    rcases hn : outcome n with e | r
    · obtain ⟨hcalls, hatt, hst⟩ := failed_execution textOf (d n) e h
      rw [bounded_singleton, hcalls, hatt, ne_eq, hst]
      constructor
      · rintro ⟨hle, -, hnot⟩
        exact Or.inr (by omega)
      · rintro (⟨t, ht, ⟨r, hr⟩, -⟩ | heq)
        · obtain rfl : t = 0 := by omega
          rw [Nat.add_zero, hn] at hr
          exact absurd hr (by simp)
        · omega
    · rw [bounded_of_ok h]
      constructor
      · exact fun hle => Or.inl ⟨0, le_rfl, ⟨r, hn⟩, hle⟩
      · rintro (⟨t, -, -, hle⟩ | heq) <;> omega
  | succ retries ih =>
    simp only [autoretry]
    rcases hn : outcome n with e | r
    · obtain ⟨hcalls, hatt, -⟩ := failed_execution textOf (d n) e h
      rw [bounded_cons (autoretry_ne_nil d outcome retries (n + 1) _), hcalls, hatt, ih (ready_execution h)]
      constructor
      · rintro ⟨-, -, ⟨t, ht, hok, hle⟩ | heq⟩
        · refine Or.inl ⟨t + 1, by omega, ?_, by omega⟩
          rwa [← Nat.add_assoc, Nat.add_right_comm]
        · exact Or.inr (by omega)
      · rintro (⟨t, ht, ⟨r, hr⟩, hle⟩ | heq)
        · obtain ⟨t, rfl⟩ : ∃ t', t = t' + 1 := by
            rcases t with _ | t
            · rw [Nat.add_zero, hn] at hr
              exact absurd hr (by simp)
            · exact ⟨t, rfl⟩
          refine ⟨by omega, by omega, Or.inl ⟨t, by omega, ⟨r, ?_⟩, by omega⟩⟩
          rw [← hr, Nat.add_right_comm, Nat.add_assoc]
        · exact ⟨by omega, by omega, Or.inr (by omega)⟩
    · dsimp only
      rw [bounded_of_ok h]
      constructor
      · exact fun hle => Or.inl ⟨0, Nat.zero_le _, ⟨r, hn⟩, hle⟩
      · rintro (⟨t, -, -, hle⟩ | heq) <;> omega

/-- The world in which a job has been enqueued and its message taken by the broker. -/
def enqueued (textOf : Exc → String) (d : Draws) (q : Request) (w : World) : World :=
  run (step textOf) w [.enqueue d q, .handOver w.waiting.length d (.ok ())]

theorem ready_enqueued (textOf : Exc → String) (d : Draws) (q : Request)
    (hfresh : rowOf (d.uuid 0) w.db = none) :
    Ready (d.uuid 0) w.messages.length q.maxAttempts (callsOf (d.uuid 0) w) 0
      (enqueued textOf d q w) := by
  rcases persist_cases d q w.db with ⟨-, s', hret, hrows⟩ | ⟨htaken, -⟩
  · unfold Prog.Returns at hret
    have hw : enqueued textOf d q w =
        { w with db := s', messages := w.messages ++ [messageFor q (d.uuid 0)] } := by
      simp [enqueued, step, hret, List.eraseIdx_append_of_length_le]
    rw [hw]
    refine ⟨⟨messageFor q (d.uuid 0), by simp, ?_⟩, ⟨jobRow d q, ?_, rfl, rfl⟩, rfl⟩
    · simp [jobOf, messageFor, lookup_setItem, isTruthy, uuidOf]
    · simp [hrows]
  · exact absurd hfresh htaken

/-- **`max_attempts` bounds the work** of a job exactly if it is the four executions of Celery, or
if one of the first four executions that it allows succeeds. -/
theorem work_bounded_iff (textOf : Exc → String) (d₀ : Draws) (q : Request) (d : ℕ → Draws)
    (outcome : ℕ → Except Exc Json) (w : World) (hfresh : rowOf (d₀.uuid 0) w.db = none) :
    Bounded q.maxAttempts (callsOf (d₀.uuid 0) w) (d₀.uuid 0)
        (autoretry textOf w.messages.length d outcome maxRetries 0 (enqueued textOf d₀ q w)) ↔
      q.maxAttempts = 4 ∨ ∃ t < min q.maxAttempts 4, ∃ r, outcome t = .ok r := by
  rw [bounded_iff textOf d outcome maxRetries (ready_enqueued textOf d₀ q hfresh)]
  simp only [Nat.zero_add, maxRetries]
  constructor
  · rintro (⟨t, ht, hok, hle⟩ | heq)
    · exact Or.inr ⟨t, by omega, hok⟩
    · exact Or.inl heq.symm
  · rintro (heq | ⟨t, ht, hok⟩)
    · exact Or.inr heq.symm
    · exact Or.inl ⟨t, by omega, hok, by omega⟩

/-- A request of `n` attempts. -/
def request (n : ℕ) : Request := ⟨"integration.sync", [], "default", .default, 0, n⟩

theorem work_bounded_four : Bounded 4 0 50 (autoretry (fun _ => "error") 0 (fun _ => drawsFrom 0 1 "")
    (fun _ => .error .typeError) maxRetries 0
    (enqueued (fun _ => "error") (drawsFrom 50 0 "") (request 4) (idle Database.empty))) :=
  (work_bounded_iff _ (drawsFrom 50 0 "") (request 4) _ _ (idle Database.empty) rfl).mpr (Or.inl rfl)

/-- **A fourth execution of a job that is allowed three**: the default of `enqueue`. -/
theorem fourth_execution : ¬ Bounded 3 0 50 (autoretry (fun _ => "error") 0
    (fun _ => drawsFrom 0 1 "") (fun _ => .error .typeError) maxRetries 0
    (enqueued (fun _ => "error") (drawsFrom 50 0 "") (request 3) (idle Database.empty))) := by
  intro h
  have hready := ready_enqueued (w := idle Database.empty) (fun _ => "error") (drawsFrom 50 0 "")
    (request 3) rfl
  rcases (bounded_iff _ _ _ _ hready).mp h with ⟨t, -, ⟨r, hr⟩, -⟩ | heq
  · exact absurd hr (by simp)
  · exact absurd heq (by decide)

end MarketingSuite.Jobs.Attempts
