import MarketingSuite.Scheduler.History

/-! # A published schedule stays published

No request is admitted by a PUBLISHED schedule. A task writes without looking: its `try` branch only
PUBLISHED again, but its `except` branch also runs for a failure that came after the publish, its
own or an earlier task's. Every PUBLISHED schedule stays so exactly if no `except` branch writes to
a schedule whose last accepted request or write was that of a `try` branch. -/

namespace MarketingSuite.Scheduler.PublishedFinal

open MarketingSuite.Lib.Programs MarketingSuite.Lib.Tables MarketingSuite.Lib.Runs
open MarketingSuite.Base.Values MarketingSuite.Base.Models MarketingSuite.Base.Schema
open MarketingSuite.Scheduler.Service MarketingSuite.Scheduler.Task MarketingSuite.Scheduler.System
open MarketingSuite.Scheduler.History

/-- Every PUBLISHED schedule is PUBLISHED after the step. -/
def KeepsPublished (str : Exc → String) (s : State) (e : Event) : Prop :=
  ∀ r ∈ s.db.campaignSchedules.rows, r.status = .published →
    ∃ r' ∈ (step str s e).db.campaignSchedules.rows, r'.id = r.id ∧ r'.status = .published

/-- No `except` branch writes to a schedule whose last write was that of a `try` branch. -/
def NoLateFailure (str : Exc → String) (h : Recorded State Writes) : Event → Prop
  | .advance k _ fault => ∀ i, taskWrite str h.state k fault = some (i, .failed) →
    h.history i ≠ some .published
  | _ => True

instance (str : Exc → String) (s : State) (e : Event) : Decidable (KeepsPublished str s e) :=
  inferInstanceAs (Decidable (∀ r ∈ _, _ → _))

variable {str : Exc → String} {h : Recorded State Writes} {s : State}

theorem not_admits_published (q : Request) : q.admits .published = false := by
  cases q <;> rfl

/-- A step keeps the published schedules if it does not write another status to one. -/
theorem keepsPublished_of_written {e : Event}
    (hw : ∀ i st, written str s e = some (i, st) → ∀ r ∈ s.db.campaignSchedules.rows, r.id = i →
      r.status = .published → st = .published) : KeepsPublished str s e := by
  intro r hr hpub
  have hstep := step_schedules str s e
  rcases hwr : written str s e with _ | ⟨i, st⟩
  · rw [hwr] at hstep
    exact ⟨r, by rw [hstep]; exact hr, rfl, hpub⟩
  · rw [hwr] at hstep
    obtain ⟨r', hi, hst, hmem⟩ := hstep
    by_cases hri : r.id = i
    · exact ⟨r', (hmem r').mpr (Or.inr rfl), by rw [hi, hri], by rw [hst, hw i st hwr r hr hri hpub]⟩
    · exact ⟨r, (hmem r).mpr (Or.inl ⟨hr, hri⟩), rfl, hpub⟩

theorem keepsPublished_request (d : Draws) (c w v : Uuid) (q : Request) :
    KeepsPublished str s (.request d c w v q) := by
  refine keepsPublished_of_written fun i st hw r hr hri hpub => ?_
  have hadm := (admits_of_written hw hr hri).1
  rw [hpub, not_admits_published] at hadm
  exact Bool.noConfusion hadm

theorem keepsPublished_iff_noLateFailure (hag : Agree h) (e : Event) :
    KeepsPublished str h.state e ↔ NoLateFailure str h e := by
  cases e with
  | request d c w v q =>
    exact iff_of_true (keepsPublished_request d c w v q) trivial
  | changeStatus w c new =>
    exact iff_of_true (keepsPublished_of_written fun i st hw => nomatch hw) trivial
  | deleteCampaign d w c =>
    exact iff_of_true (keepsPublished_of_written fun i st hw => nomatch hw) trivial
  | advance k d fault =>
    constructor
    · intro hkeep i hw hlast
      obtain ⟨⟨r, hr, rfl⟩, r', hr'i, hr's, hmem⟩ := step_of_taskWrite (d := d) hw
      have hpub : r.status = .published := by
        rw [hag r hr] at hlast
        exact Option.some.inj hlast
      obtain ⟨q, hq, hqi, hqs⟩ := hkeep r hr hpub
      rcases (hmem q).mp hq with ⟨-, hne⟩ | rfl
      · exact hne hqi
      · rw [hr's] at hqs
        exact ScheduleStatus.noConfusion hqs
    · intro hnot
      refine keepsPublished_of_written fun i st hw r hr hri hpub => ?_
      have htask : taskWrite str h.state k fault = some (i, st) := hw
      obtain ⟨t, -, hwt⟩ := Option.bind_eq_some_iff.mp htask
      rcases status_of_writes hwt with rfl | rfl
      · rfl
      · have hlast := hag r hr
        rw [hri, hpub] at hlast
        exact absurd hlast (hnot i htask)

/-- **PUBLISHED is final** in a run exactly if no `except` branch writes to a schedule after a `try`
branch has and before the next accepted request or write on it. -/
theorem keepsPublished_iff (s : State) (l : List Event) :
    Along (step str) (KeepsPublished str) s l ↔
      Along (record (step str) (note str)) (NoLateFailure str) ⟨s, start s⟩ l :=
  along_iff_along_record (fun _ e hag => keepsPublished_iff_noLateFailure hag e) s l

/-- **A publish that fails afterwards**: the audit log raises, and the `except` branch writes FAILED
over PUBLISHED. -/
theorem published_then_failed : ¬ Along (step fun _ => "error") (KeepsPublished fun _ => "error")
    launching [publishLaunch, onward 0, onward 0,
      .advance 0 (drawsFrom 0 2 "") (.before (.raised "audit log")), onward 0, onward 0] := by
  decide

end MarketingSuite.Scheduler.PublishedFinal
