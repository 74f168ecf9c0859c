import MarketingSuite.Integrations.Breaker

/-! # What the circuit breaker counts

The breaker has a state, a counter and a time, which two recorders write and the property `state`,
which every reader calls, writes as well. Beside a run stands the list of what was recorded in it,
and the three fields are what that list says. -/

namespace MarketingSuite.Integrations.Counting

open MarketingSuite.Lib.Runs
open MarketingSuite.Base.Values
open MarketingSuite.Integrations.Connectors (CircuitState CircuitBreaker)
open MarketingSuite.Integrations.Breaker (Config current recordFailure World created)

/-! ### Any order of events -/

/-- What can happen: the clock goes on, somebody reads the property `state`, a call starts, or one
that waits for its function gets the result, one of the expected exceptions, or another one. -/
inductive Happening
  | advance (wait : ℕ)
  | read
  | start
  | finish (success : Bool)
  | leave
deriving DecidableEq, Repr

variable (c : Config)

/-- Starts and completions are the two halves of `call`. An exception that is not expected passes it
by. -/
def step (w : World) : Happening → World
  | .advance wait => { w with clock := w.clock + wait }
  | .read => { w with breaker := current c w.clock w.breaker }
  | .start => Breaker.step c w (.start 0)
  | .finish success => Breaker.step c w (.finish 0 success)
  | .leave => { w with inFlight := w.inFlight - 1 }

/-- A recorded completion. -/
structure Outcome where
  success : Bool
  time : Time
deriving DecidableEq, Repr

/-- The failures since the last success, in a list that begins with the latest outcome. -/
def failuresSince (l : List Outcome) : List Outcome := l.takeWhile fun o => !o.success

/-- When the last failure was recorded. -/
def lastFailure (l : List Outcome) : Option Time := (l.find? fun o => !o.success).map Outcome.time

/-- What is recorded: the completions of calls that were admitted. -/
def note (w : World) (e : Happening) (l : List Outcome) : List Outcome :=
  match e with
  | .finish success => if w.inFlight = 0 then l else ⟨success, w.clock⟩ :: l
  | _ => l

/-- The run, and what was recorded in it. -/
abbrev History : Type := Recorded World (List Outcome)

/-- The steps with their history. -/
abbrev recorded : History → Happening → History := record (step c) note

/-- A new breaker has recorded nothing. -/
def beginning (now : Time) : History := ⟨created now, []⟩

/-! ### The invariant -/

/-- **The counter is right**: it counts the failures since the last success, and the stored state is
CLOSED exactly if they are fewer than the threshold. -/
structure Counts (h : History) : Prop where
  failureCount : h.state.breaker.failureCount = (failuresSince h.history).length
  closed : h.state.breaker.state = .closed ↔ h.state.breaker.failureCount < c.failureThreshold

/-- A step that makes the stored state HALF_OPEN is taken when the timeout has passed since the last
failure. -/
def EntersLate (h : History) (e : Happening) : Prop :=
  h.state.breaker.state ≠ .halfOpen → (recorded c h e).state.breaker.state = .halfOpen →
    ∃ t, lastFailure h.history = some t ∧ seconds c.recoveryTimeout ≤ h.state.clock - t

/-- What carries the induction: the time that is stored is that of the last failure, too. -/
structure Inv (h : History) : Prop extends Counts c h where
  lastFailureTime : ∀ t, lastFailure h.history = some t → h.state.breaker.lastFailureTime = t

variable {c} {h : History}

@[simp] theorem current_failureCount (now : Time) (b : CircuitBreaker) :
    (current c now b).failureCount = b.failureCount := by
  unfold current
  split_ifs <;> rfl

/-- Reading the state does not make it CLOSED, or anything else of a CLOSED one. -/
theorem current_closed_iff (now : Time) (b : CircuitBreaker) :
    (current c now b).state = .closed ↔ b.state = .closed := by
  unfold current
  split_ifs with hopen
  · simp [hopen.1]
  · exact Iff.rfl

/-- **Reading the state makes it HALF_OPEN** only if it was OPEN and the timeout has passed. -/
theorem current_halfOpen {now : Time} {b : CircuitBreaker} (hb : b.state ≠ .halfOpen)
    (hcur : (current c now b).state = .halfOpen) :
    b.state = .opened ∧ seconds c.recoveryTimeout ≤ now - b.lastFailureTime := by
  unfold current at hcur
  split_ifs at hcur with hopen
  · exact hopen
  · exact absurd hcur hb

theorem exists_lastFailure {l : List Outcome} (hl : 0 < (failuresSince l).length) :
    ∃ t, lastFailure l = some t := by
  rcases l with _ | ⟨o, l⟩
  · exact absurd hl (Nat.lt_irrefl 0)
  · rcases hs : o.success with _ | _
    · exact ⟨o.time, by simp [lastFailure, hs]⟩
    · simp [failuresSince, hs] at hl

/-- A breaker that is not CLOSED has a last failure, whose time it stores. -/
theorem Inv.lastFailure_of_not_closed (hi : Inv c h) (hthreshold : 1 ≤ c.failureThreshold)
    (hb : h.state.breaker.state ≠ .closed) :
    lastFailure h.history = some h.state.breaker.lastFailureTime := by
  have hle : c.failureThreshold ≤ h.state.breaker.failureCount :=
    not_lt.mp fun hlt => hb (hi.closed.mpr hlt)
  have hpos : 0 < (failuresSince h.history).length := by
    rw [← hi.failureCount]
    exact lt_of_lt_of_le hthreshold hle
  obtain ⟨t, ht⟩ := exists_lastFailure hpos
  rw [hi.lastFailureTime t ht]
  exact ht

/-! ### One step -/

theorem inv_beginning (hthreshold : 1 ≤ c.failureThreshold) (now : Time) :
    Inv c (beginning now) where
  failureCount := rfl
  closed := iff_of_true rfl hthreshold
  lastFailureTime t ht := by cases ht

theorem inv_current (hi : Inv c h) (w : World)
    (hw : w.breaker = current c h.state.clock h.state.breaker) : Inv c ⟨w, h.history⟩ where
  failureCount := by simpa [hw] using hi.failureCount
  closed := by
    show w.breaker.state = .closed ↔ _
    rw [hw, current_closed_iff, current_failureCount]
    exact hi.closed
  lastFailureTime t ht := by simpa [hw] using hi.lastFailureTime t ht

theorem inv_same (hi : Inv c h) (w : World) (hw : w.breaker = h.state.breaker) :
    Inv c ⟨w, h.history⟩ where
  failureCount := by simpa [hw] using hi.failureCount
  closed := by simpa [hw] using hi.closed
  lastFailureTime t ht := by simpa [hw] using hi.lastFailureTime t ht

theorem inv_success (hi : Inv c h) (hthreshold : 1 ≤ c.failureThreshold) (w : World)
    (hw : w.breaker = h.state.breaker.recordSuccess) (now : Time) :
    Inv c ⟨w, ⟨true, now⟩ :: h.history⟩ where
  failureCount := by simp [hw, failuresSince, CircuitBreaker.recordSuccess]
  closed := by
    show w.breaker.state = .closed ↔ _
    rw [hw]
    exact iff_of_true rfl hthreshold
  lastFailureTime t ht := by
    have ht : lastFailure h.history = some t := by simpa [lastFailure] using ht
    simpa [hw, CircuitBreaker.recordSuccess] using hi.lastFailureTime t ht

theorem inv_failure (hi : Inv c h) (w : World) (now : Time)
    (hw : w.breaker = recordFailure c now h.state.breaker) :
    Inv c ⟨w, ⟨false, now⟩ :: h.history⟩ where
  failureCount := by
    have hcount := hi.failureCount
    simpa [hw, failuresSince, recordFailure] using hcount
  closed := by
    have hclosed := hi.closed
    show w.breaker.state = .closed ↔ _
    rw [hw]
    by_cases hle : c.failureThreshold ≤ h.state.breaker.failureCount + 1
    · -- the threshold is reached, or was before
      simp [recordFailure, hle]
    · -- it is not: then the breaker was CLOSED, and stays so
      have hlt : h.state.breaker.failureCount < c.failureThreshold := by omega
      have hstate := hclosed.mpr hlt
      simp [recordFailure, hle, hstate, lt_of_not_ge hle]
  lastFailureTime t ht := by
    have ht : now = t := by simpa [lastFailure] using ht
    rw [← ht]
    show w.breaker.lastFailureTime = now
    rw [hw]
    rfl

/-- **Every step keeps the invariant**, whatever the state is in which a completion arrives. -/
theorem inv_step (hthreshold : 1 ≤ c.failureThreshold) (h : History) (e : Happening)
    (hi : Inv c h) : Inv c (recorded c h e) := by
  cases e with
  | advance wait => exact inv_same hi _ rfl
  | read => exact inv_current hi _ rfl
  | start => exact inv_current hi _ (by simp [step, Breaker.step])
  | leave => exact inv_same hi _ rfl
  | finish success =>
    by_cases hn : h.state.inFlight = 0
    · simpa [record, note, step, Breaker.step, hn] using hi
    · cases success with
      | true =>
        have hsuccess := inv_success hi hthreshold
          ⟨h.state.breaker.recordSuccess, h.state.clock, h.state.inFlight - 1⟩ rfl h.state.clock
        simpa [record, note, step, Breaker.step, hn] using hsuccess
      | false =>
        have hfailure := inv_failure hi
          ⟨recordFailure c h.state.clock h.state.breaker, h.state.clock, h.state.inFlight - 1⟩
          h.state.clock rfl
        simpa [record, note, step, Breaker.step, hn] using hfailure

/-- HALF_OPEN comes of a reading of an OPEN state, whose timeout has passed. -/
theorem entersLate_of_current (hthreshold : 1 ≤ c.failureThreshold) (hi : Inv c h)
    (hb : h.state.breaker.state ≠ .halfOpen)
    (hcur : (current c h.state.clock h.state.breaker).state = .halfOpen) :
    ∃ t, lastFailure h.history = some t ∧ seconds c.recoveryTimeout ≤ h.state.clock - t := by
  obtain ⟨hopen, hpassed⟩ := current_halfOpen hb hcur
  have hnot : h.state.breaker.state ≠ .closed := by simp [hopen]
  exact ⟨_, hi.lastFailure_of_not_closed hthreshold hnot, hpassed⟩

theorem entersLate (hthreshold : 1 ≤ c.failureThreshold) (h : History) (e : Happening)
    (hi : Inv c h) : EntersLate c h e := by
  intro hb hafter
  cases e with
  | advance wait => exact absurd hafter hb
  | read => exact entersLate_of_current hthreshold hi hb hafter
  | start =>
    refine entersLate_of_current hthreshold hi hb ?_
    simpa [record, step, Breaker.step] using hafter
  | leave => exact absurd hafter hb
  | finish success =>
    by_cases hn : h.state.inFlight = 0
    · exact absurd (by simpa [record, step, Breaker.step, hn] using hafter) hb
    · cases success with
      | true => simp [record, step, Breaker.step, hn, CircuitBreaker.recordSuccess] at hafter
      | false =>
        have hstate : (recordFailure c (h.state.clock + (0 : ℕ)) h.state.breaker).state =
            .halfOpen := by simpa [record, step, Breaker.step, hn] using hafter
        unfold recordFailure at hstate
        split_ifs at hstate
        exact absurd hstate hb

/-! ### Runs -/

/-- **The breaker counts correctly** in every reachable state, and becomes HALF_OPEN only when the
timeout has passed since the last failure. -/
theorem counts_correctly (hthreshold : 1 ≤ c.failureThreshold) (now : Time) (l : List Happening) :
    Always (recorded c) (Counts c) (beginning now) l ∧
      Along (recorded c) (EntersLate c) (beginning now) l := by
  have hinv : ∀ pre, Inv c (run (recorded c) (beginning now) pre) := fun pre =>
    inv_run (I := Inv c) (inv_step hthreshold) pre (inv_beginning hthreshold now)
  refine ⟨always_iff.mpr fun pre _ => (hinv pre).toCounts, along_iff.mpr fun pre e _ => ?_⟩
  exact entersLate hthreshold _ e (hinv pre)

/-- A breaker that opens at the second failure, with two calls that overlap. -/
theorem counts_correctly_two : Always (recorded ⟨2, 1⟩) (Counts ⟨2, 1⟩) (beginning 0)
      [.start, .start, .finish false, .finish false, .advance 1000000, .read, .start,
        .finish true] ∧
    Along (recorded ⟨2, 1⟩) (EntersLate ⟨2, 1⟩) (beginning 0)
      [.start, .start, .finish false, .finish false, .advance 1000000, .read, .start,
        .finish true] :=
  counts_correctly (c := ⟨2, 1⟩) (by decide) 0 _

end MarketingSuite.Integrations.Counting
