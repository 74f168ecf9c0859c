import MarketingSuite.Scheduler.History

/-! # Pausing and cancelling against a publish in flight

The requests look at the status; a task looks for the row and writes. So a task that was queued
before an accepted pause or cancel overrides it. The tasks respect every hold exactly if none writes
to a schedule whose last accepted request or write was a pause or a cancel. -/

namespace MarketingSuite.Scheduler.PauseWins

open MarketingSuite.Lib.Programs MarketingSuite.Lib.Tables MarketingSuite.Lib.Runs
open MarketingSuite.Base.Values MarketingSuite.Base.Models MarketingSuite.Base.Schema
open MarketingSuite.Scheduler.Service MarketingSuite.Scheduler.Task MarketingSuite.Scheduler.System
open MarketingSuite.Scheduler.History

/-- PAUSED or CANCELLED. -/
def onHold (st : ScheduleStatus) : Bool := st = .paused || st = .cancelled

/-- No task changes the status of a schedule that is PAUSED or CANCELLED when it writes. -/
def RespectsHold (str : Exc → String) (s : State) : Event → Prop
  | .advance k d fault => ∀ r ∈ s.db.campaignSchedules.rows, onHold r.status = true →
    ∃ r' ∈ (step str s (.advance k d fault)).db.campaignSchedules.rows,
      r'.id = r.id ∧ r'.status = r.status
  | _ => True

/-- No task writes to a schedule whose last write was that of a pause or a cancel. -/
def NotHeld (str : Exc → String) (h : Recorded State Writes) : Event → Prop
  | .advance k _ fault => ∀ i st, taskWrite str h.state k fault = some (i, st) →
    ∀ last, h.history i = some last → onHold last = false
  | _ => True

instance (str : Exc → String) (s : State) : ∀ e, Decidable (RespectsHold str s e)
  | .advance _ _ _ => inferInstanceAs (Decidable (∀ r ∈ _, _ → _))
  | .request .. | .changeStatus .. | .deleteCampaign .. => isTrue trivial

variable {str : Exc → String} {h : Recorded State Writes} {s : State}

theorem onHold_of_taskWrite {k : ℕ} {fault : Fault} {i : Uuid} {st : ScheduleStatus}
    (hw : taskWrite str s k fault = some (i, st)) : onHold st = false := by
  obtain ⟨t, -, hw⟩ := Option.bind_eq_some_iff.mp hw
  rcases status_of_writes hw with rfl | rfl <;> rfl

theorem respectsHold_of_taskWrite {k : ℕ} {d : Draws} {fault : Fault}
    (hw : ∀ i st, taskWrite str s k fault = some (i, st) → ∀ r ∈ s.db.campaignSchedules.rows,
      r.id = i → onHold r.status = false) : RespectsHold str s (.advance k d fault) := by
  intro r hr hon
  have hstep := step_schedules str s (.advance k d fault)
  rcases hwr : taskWrite str s k fault with _ | ⟨i, st⟩
  · simp only [written, hwr] at hstep
    exact ⟨r, by rw [hstep]; exact hr, rfl, rfl⟩
  · simp only [written, hwr] at hstep
    obtain ⟨r', -, -, hmem⟩ := hstep
    refine ⟨r, (hmem r).mpr (Or.inl ⟨hr, fun hri => ?_⟩), rfl, rfl⟩
    rw [hw i st hwr r hr hri] at hon
    exact Bool.noConfusion hon

theorem respectsHold_iff_notHeld (hag : Agree h) (e : Event) :
    RespectsHold str h.state e ↔ NotHeld str h e := by
  cases e with
  | advance k d fault =>
    constructor
    · intro hres i st hw last hlast
      obtain ⟨⟨r, hr, rfl⟩, r', hr'i, hr's, hmem⟩ := step_of_taskWrite (d := d) hw
      by_contra hheld
      rw [hag r hr] at hlast
      obtain rfl := Option.some.inj hlast
      obtain ⟨q, hq, hqi, hqs⟩ := hres r hr (by simpa using hheld)
      rcases (hmem q).mp hq with ⟨-, hne⟩ | rfl
      · exact hne hqi
      · rw [← hqs, hr's, onHold_of_taskWrite hw] at hheld
        exact hheld rfl
    · intro hnot
      refine respectsHold_of_taskWrite fun i st hw r hr hri => ?_
      subst hri
      exact hnot r.id st hw r.status (hag r hr)
  | _ => exact Iff.rfl

/-- **Pause and cancel win** in a run exactly if no task writes to a schedule after an accepted
pause or cancel and before the next accepted request or write on it. -/
theorem respectsHold_iff (s : State) (l : List Event) :
    Along (step str) (RespectsHold str) s l ↔
      Along (record (step str) (note str)) (NotHeld str) ⟨s, start s⟩ l :=
  along_iff_along_record (fun _ e hag => respectsHold_iff_notHeld hag e) s l

/-- **A pause that loses**: the task that was queued before it publishes all the same. -/
theorem pause_loses : ¬ Along (step fun _ => "error") (RespectsHold fun _ => "error") launching
    [publishLaunch, .request (drawsFrom 50 1 "") 30 10 1 .pause, onward 0, onward 0] := by
  decide

end MarketingSuite.Scheduler.PauseWins
