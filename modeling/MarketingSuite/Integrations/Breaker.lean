import MarketingSuite.Integrations.Connectors
import MarketingSuite.Lib.Runs

/-! # The circuit breaker under concurrent calls

`CircuitBreaker` with any threshold and any timeout, and any number of calls of it that overlap: a
call reads the state when it starts and writes it when it finishes, and other calls start and finish
while it waits for the function it wraps. The clock never goes back. -/

namespace MarketingSuite.Integrations.Breaker

open MarketingSuite.Lib.Runs
open MarketingSuite.Base.Values
open MarketingSuite.Integrations.Connectors (CircuitState CircuitBreaker Failure)

/-- The arguments of the constructor. -/
structure Config where
  failureThreshold : ℕ := 5
  recoveryTimeout : ℤ := 60

variable (c : Config)

/-- The recovery timeout has not passed since the last recorded failure. -/
def Running (now : Time) (b : CircuitBreaker) : Prop :=
  now - b.lastFailureTime < seconds c.recoveryTimeout

instance (now : Time) (b : CircuitBreaker) : Decidable (Running c now b) :=
  inferInstanceAs (Decidable (_ < _))

/-- The property `state`. -/
def current (now : Time) (b : CircuitBreaker) : CircuitBreaker :=
  if b.state = .opened ∧ seconds c.recoveryTimeout ≤ now - b.lastFailureTime then
    { b with state := .halfOpen }
  else b

/-- `record_failure`. -/
def recordFailure (now : Time) (b : CircuitBreaker) : CircuitBreaker where
  state := if b.state = .halfOpen ∨ c.failureThreshold ≤ b.failureCount + 1 then .opened else b.state
  failureCount := b.failureCount + 1
  lastFailureTime := now

theorem current_default : current {} = CircuitBreaker.current := rfl

theorem recordFailure_default : recordFailure {} = CircuitBreaker.recordFailure := rfl

@[simp] theorem current_lastFailureTime (now : Time) (b : CircuitBreaker) :
    (current c now b).lastFailureTime = b.lastFailureTime := by
  unfold current
  split_ifs <;> rfl

/-- **A call that starts is refused** exactly if the breaker is open and the timeout has not
passed. -/
theorem current_opened_iff (now : Time) (b : CircuitBreaker) :
    (current c now b).state = .opened ↔ b.state = .opened ∧ Running c now b := by
  unfold current Running
  split_ifs with h
  · simp [h.2]
  · have h' : b.state = .opened → now - b.lastFailureTime < seconds c.recoveryTimeout :=
      fun ho => lt_of_not_ge fun hle => h ⟨ho, hle⟩
    exact ⟨fun ho => ⟨ho, h' ho⟩, And.left⟩

theorem recordFailure_opened {now : Time} {b : CircuitBreaker} (h : b.state = .opened) :
    (recordFailure c now b).state = .opened := by
  simp [recordFailure, h]

/-! ### Calls that overlap -/

/-- What happens next, and how long after the last event: a call starts, or one that waits for its
function gets the result, or one of the expected exceptions. -/
inductive Event
  | start (wait : ℕ)
  | finish (wait : ℕ) (success : Bool)
deriving DecidableEq, Repr

/-- The breaker, the clock, and how many calls wait for their function. -/
structure World where
  breaker : CircuitBreaker
  clock : Time
  inFlight : ℕ
deriving DecidableEq, Repr

/-- The two halves of `call`. Nothing finishes where no call waits. -/
def step (w : World) : Event → World
  | .start wait =>
    let now := w.clock + wait
    let b := current c now w.breaker
    ⟨b, now, if b.state = .opened then w.inFlight else w.inFlight + 1⟩
  | .finish wait success =>
    if w.inFlight = 0 then w
    else
      let now := w.clock + wait
      ⟨if success then w.breaker.recordSuccess else recordFailure c now w.breaker, now,
        w.inFlight - 1⟩

/-- A new breaker. -/
def created (now : Time) : World := ⟨{}, now, 0⟩

/-- A call that nothing overlaps is the `call` of the breakers that `get_circuit_breaker` makes. -/
theorem run_alone {α : Type} (b : CircuitBreaker) (now : Time) (start finish : ℕ)
    (outcome : Except Exc α) :
    (CircuitBreaker.call (now + start) (now + start + finish) outcome b).2 =
      (run (step {}) ⟨b, now, 0⟩ [.start start, .finish finish outcome.toBool]).breaker := by
  by_cases h : (CircuitBreaker.current (now + start) b).state = .opened
  · simp [CircuitBreaker.call, step, current_default, h]
  · rcases outcome with e | a <;>
      simp [CircuitBreaker.call, step, current_default, recordFailure_default, h, Except.toBool]

/-! ### The period in which it is shut

What is remembered of a run is whether the breaker became open and the timeout has not passed since
the last recorded failure. That does not depend on what the breaker says now. -/

/-- The period begins when the breaker becomes open, and is over when the timeout has passed. -/
def shut (w : World) (e : Event) (h : Bool) : Bool :=
  let w' := step c w e
  decide (w'.breaker.state = .opened) || (h && decide (Running c w'.clock w.breaker))

/-- The run, and whether a period has begun. -/
abbrev History : Type := Recorded World Bool

/-- The steps with their history. -/
abbrev recorded : History → Event → History := record (step c) (shut c)

/-- A new breaker has no period behind it. -/
def beginning (now : Time) : History := ⟨created now, false⟩

/-- **No call is admitted in the period**, whenever the next one starts. -/
def StaysShut (h : History) : Prop :=
  h.history = true → ∀ wait : ℕ, Running c (h.state.clock + wait) h.state.breaker →
    (step c h.state (.start wait)).inFlight = h.state.inFlight

/-- A call that starts in the period is refused. -/
def Refused (h : History) (e : Event) : Prop :=
  ∀ wait, e = .start wait → h.history = true →
    Running c (h.state.clock + wait) h.state.breaker →
      (step c h.state e).inFlight = h.state.inFlight

/-- No success is recorded while the breaker is open and the timeout has not passed. -/
def NoLateSuccess (w : World) (e : Event) : Prop :=
  ∀ wait, e = .finish wait true → w.inFlight ≠ 0 → w.breaker.state = .opened →
    ¬ Running c (w.clock + wait) w.breaker

/-- The breaker is open while the period lasts. -/
def OpenInPeriod (h : History) : Prop :=
  h.history = true → Running c h.state.clock h.state.breaker → h.state.breaker.state = .opened

theorem Running.earlier {now : Time} {wait : ℕ} {b : CircuitBreaker}
    (h : Running c (now + wait) b) : Running c now b := by
  have hle : now - b.lastFailureTime ≤ now + wait - b.lastFailureTime :=
    Int.sub_le_sub_right (Int.le_add_of_nonneg_right (Int.natCast_nonneg wait)) _
  exact lt_of_le_of_lt hle h

/-- A call is admitted exactly if the breaker does not say that it is open. -/
theorem start_refused_iff (w : World) (wait : ℕ) :
    (step c w (.start wait)).inFlight = w.inFlight ↔
      w.breaker.state = .opened ∧ Running c (w.clock + wait) w.breaker := by
  rw [← current_opened_iff]
  by_cases h : (current c (w.clock + wait) w.breaker).state = .opened <;> simp [step, h]

/-- That nothing is admitted in the period is that the breaker is open in it. -/
theorem staysShut_iff (h : History) : StaysShut c h ↔ OpenInPeriod c h := by
  unfold StaysShut OpenInPeriod
  constructor
  · intro hs hh hr
    have hnow : Running c (h.state.clock + (0 : ℕ)) h.state.breaker := by simpa using hr
    exact ((start_refused_iff c h.state 0).mp (hs hh 0 hnow)).1
  · intro ho hh wait hr
    exact (start_refused_iff c h.state wait).mpr ⟨ho hh hr.earlier, hr⟩

theorem recorded_history (h : History) (e : Event) :
    (recorded c h e).history = true ↔ (step c h.state e).breaker.state = .opened ∨
      h.history = true ∧ Running c (step c h.state e).clock h.state.breaker := by
  simp [record, shut]

/-- An open breaker has a period behind it. -/
def Behind (h : History) : Prop := h.state.breaker.state = .opened → h.history = true

theorem behind_step (h : History) (e : Event) : Behind (recorded c h e) :=
  fun ho => (recorded_history c h e).mpr (Or.inl ho)

theorem openInPeriod_start {h : History} (hi : OpenInPeriod c h) (wait : ℕ) :
    OpenInPeriod c (recorded c h (.start wait)) := by
  intro hh _
  rcases (recorded_history c h _).mp hh with ho | ⟨hh, hr⟩
  · exact ho
  · have hr : Running c (h.state.clock + wait) h.state.breaker := hr
    exact (current_opened_iff c _ _).mpr ⟨hi hh hr.earlier, hr⟩

theorem openInPeriod_failure {h : History} (hi : OpenInPeriod c h) (wait : ℕ) :
    OpenInPeriod c (recorded c h (.finish wait false)) := by
  intro hh _
  rcases (recorded_history c h _).mp hh with ho | ⟨hh, hr⟩
  · exact ho
  · by_cases hn : h.state.inFlight = 0
    · have hr : Running c h.state.clock h.state.breaker := by simpa [step, hn] using hr
      simpa [record, step, hn] using hi hh hr
    · have hr : Running c (h.state.clock + wait) h.state.breaker := by simpa [step, hn] using hr
      have ho : (recordFailure c (h.state.clock + wait) h.state.breaker).state = .opened :=
        recordFailure_opened c (hi hh hr.earlier)
      simpa [record, step, hn] using ho

/-- A success closes the breaker. The period is over, or it was not open in it. -/
theorem openInPeriod_success {h : History} (hj : Behind h) (hi : OpenInPeriod c h) (wait : ℕ) :
    OpenInPeriod c (recorded c h (.finish wait true)) ↔
      (h.state.inFlight ≠ 0 → h.state.breaker.state = .opened →
        ¬ Running c (h.state.clock + wait) h.state.breaker) := by
  by_cases hn : h.state.inFlight = 0
  · refine iff_of_true (fun hh hr => ?_) fun hn' => absurd hn hn'
    have hstep : step c h.state (.finish wait true) = h.state := by simp [step, hn]
    rw [recorded_history, hstep] at hh
    have hr : Running c h.state.clock h.state.breaker := by simpa [record, hstep] using hr
    have ho : h.state.breaker.state = .opened := by
      rcases hh with ho | ⟨hh, -⟩
      · exact ho
      · exact hi hh hr
    simpa [record, hstep] using ho
  · have hstep : step c h.state (.finish wait true) =
        ⟨h.state.breaker.recordSuccess, h.state.clock + wait, h.state.inFlight - 1⟩ := by
      simp [step, hn]
    have hclosed : (recorded c h (.finish wait true)).state.breaker.state ≠ .opened := by
      simp [record, hstep, CircuitBreaker.recordSuccess]
    constructor
    · intro hp _ ho hr
      refine hclosed (hp ((recorded_history c h _).mpr (Or.inr ⟨hj ho, ?_⟩)) ?_)
      · simpa [hstep] using hr
      · simpa [record, hstep, Running, CircuitBreaker.recordSuccess] using hr
    · intro hq hh _
      rcases (recorded_history c h _).mp hh with ho | ⟨hh, hr⟩
      · exact ho
      · have hr : Running c (h.state.clock + wait) h.state.breaker := by simpa [hstep] using hr
        exact absurd hr (hq hn (hi hh hr.earlier))

/-- A step keeps the breaker open in the period exactly if it records no late success. -/
theorem openInPeriod_step (h : History) (e : Event) (hj : Behind h) (hi : OpenInPeriod c h) :
    OpenInPeriod c (recorded c h e) ↔ NoLateSuccess c h.state e := by
  rcases e with wait | ⟨wait, success⟩
  · exact iff_of_true (openInPeriod_start c hi wait) fun _ he => by simp at he
  · cases success with
    | false => exact iff_of_true (openInPeriod_failure c hi wait) fun _ he => by simp at he
    | true => simpa [NoLateSuccess] using openInPeriod_success c hj hi wait

/-- **An open circuit stays shut for its whole timeout**, so that every call that starts in it is
refused, exactly in the runs in which no call that was admitted before succeeds in it. -/
theorem always_staysShut_iff (now : Time) (l : List Event) :
    (Always (recorded c) (StaysShut c) (beginning now) l ↔
      Along (step c) (NoLateSuccess c) (created now) l) ∧
    (Along (step c) (NoLateSuccess c) (created now) l →
      Along (recorded c) (Refused c) (beginning now) l) := by
  have hj : Behind (beginning now) := fun ho => by simp [beginning, created] at ho
  have hi : OpenInPeriod c (beginning now) := fun hh => by simp [beginning] at hh
  have hiff : Always (recorded c) (StaysShut c) (beginning now) l ↔
      Along (step c) (NoLateSuccess c) (created now) l := by
    have hcongr : StaysShut c = OpenInPeriod c := funext fun h => propext (staysShut_iff c h)
    rw [hcongr, always_iff_along_of_inv (J := Behind) (fun h e _ => behind_step c h e)
      (openInPeriod_step c) hj hi]
    exact along_record (h := beginning now)
  refine ⟨hiff, fun h => along_of_always ?_ (hiff.mpr h)⟩
  rintro s e hs wait rfl hh hr
  exact hs hh wait hr

/-- With a threshold of one and the timeout of a minute, two calls start, one fails and the other
succeeds: a third one is admitted although the breaker was opened at that moment. -/
theorem late_success_admits_call :
    ¬ Along (recorded ⟨1, 60⟩) (Refused ⟨1, 60⟩) (beginning 0)
      [.start 0, .start 0, .finish 1 false, .finish 0 true, .start 0] := by
  intro h
  have hlast := h.2.2.2.2.1 0 rfl (by decide) (by decide)
  exact absurd hlast (by decide)

end MarketingSuite.Integrations.Breaker
