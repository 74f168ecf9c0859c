import MarketingSuite.Scheduler.System
import Mathlib.Logic.Function.Basic

/-! # The last write of every schedule

A step writes the status of at most one schedule: an accepted request writes its target, a call of a
task PUBLISHED or FAILED. The history of a run keeps the last such write of every schedule, which is
the status that the row shows. What is said of the order of the requests and the writes can so be
said of the rows, and the other way round. -/

namespace MarketingSuite.Scheduler.History

open MarketingSuite.Lib.Programs MarketingSuite.Lib.Tables MarketingSuite.Lib.Runs
open MarketingSuite.Base.Values MarketingSuite.Base.Models MarketingSuite.Base.Schema
open MarketingSuite.Scheduler.Service MarketingSuite.Scheduler.Task MarketingSuite.Scheduler.System

/-- The schedule that a task's call writes, and the status it gives it. -/
def taskWrite (str : Exc → String) (s : State) (k : ℕ) (fault : Fault) :
    Option (Uuid × ScheduleStatus) :=
  s.tasks[k]?.bind fun t => writes str fault s.db t.phase

/-- The schedule that a step writes, and the status it gives it. -/
def written (str : Exc → String) (s : State) : Event → Option (Uuid × ScheduleStatus)
  | .request d c w v q =>
    match (perform d c w v q).run s.db with
    | (.ok a, _) => some (a.1.id, q.target)
    | (.error _, _) => none
  | .advance k _ fault => taskWrite str s k fault
  | _ => none

/-- The last write of every schedule. -/
abbrev Writes := Uuid → Option ScheduleStatus

/-- What a step adds to the history. -/
def note (str : Exc → String) (s : State) (e : Event) (last : Writes) : Writes :=
  match written str s e with
  | some (i, st) => Function.update last i (some st)
  | none => last

/-- The history of a state from which nothing has happened yet. -/
def start (s : State) : Writes := fun i =>
  (s.db.campaignSchedules.rows.find? fun r => r.id = i).map CampaignSchedule.status

/-- **The invariant**: the rows show the last writes. -/
def Agree (h : Recorded State Writes) : Prop :=
  ∀ r ∈ h.state.db.campaignSchedules.rows, h.history r.id = some r.status

/-- `T'` is `T` but for one schedule, which has the status `st`. -/
def Put (i : Uuid) (st : ScheduleStatus) (T T' : Table CampaignSchedule) : Prop :=
  ∃ r', r'.id = i ∧ r'.status = st ∧ ∀ q, q ∈ T'.rows ↔ (q ∈ T.rows ∧ q.id ≠ i) ∨ q = r'

variable {str : Exc → String} {s : State} {h : Recorded State Writes} {i : Uuid}
  {st : ScheduleStatus}

/-! ### What a step writes -/

/-- The row that an accepted request gives back is in the target status, and the other rows are as
they were. -/
theorem row_of_served {d : Draws} {c w v : Uuid} {q : Request} {a : CampaignSchedule × List Job}
    {db db' : Database} (h : Served db d c w v q a db') :
    a.1.status = q.target ∧ a.1.campaignId = c ∧ ∀ p, p ∈ db'.campaignSchedules.rows ↔
      (p ∈ db.campaignSchedules.rows ∧ p.id ≠ a.1.id) ∨ p = a.1 := by
  rcases h.row with ⟨r, hr, -, ha, hrew⟩ | ⟨hcr, -, ⟨t, z, ha⟩, hadd⟩
  · obtain ⟨hst, hid, hc, -⟩ := sets_change v q r
    rw [ha, hid]
    exact ⟨hst, hc.trans hr.2.1, fun p => mem_of_rewritten hr.1 hrew⟩
  · refine ⟨?_, by rw [ha]; rfl, fun p => ?_⟩
    · rw [ha]
      cases q with
      | schedule data => rfl
      | publish => rfl
      | _ => exact absurd hcr (by simp [Request.creates])
    · rw [mem_of_added hadd]
      constructor
      · rintro (hp | rfl)
        · exact Or.inl ⟨hp, id_ne_of_added hadd hp⟩
        · exact Or.inr rfl
      · rintro (⟨hp, -⟩ | rfl)
        · exact Or.inl hp
        · exact Or.inr rfl

theorem put_of_served {d : Draws} {c w v : Uuid} {q : Request} {a : CampaignSchedule × List Job}
    {db db' : Database} (h : Served db d c w v q a db') :
    Put a.1.id q.target db.campaignSchedules db'.campaignSchedules :=
  ⟨a.1, rfl, (row_of_served h).1, (row_of_served h).2.2⟩

theorem step_of_taskWrite {k : ℕ} {d : Draws} {fault : Fault}
    (hw : taskWrite str s k fault = some (i, st)) :
    (∃ r ∈ s.db.campaignSchedules.rows, r.id = i) ∧
      Put i st s.db.campaignSchedules (step str s (.advance k d fault)).db.campaignSchedules := by
  obtain ⟨t, ht, hw⟩ := Option.bind_eq_some_iff.mp hw
  obtain ⟨ph, db, hm, heq⟩ := advance_eq str ht d fault
  rw [step, heq]
  cases hm with
  | quiet hw' => rw [hw] at hw'; exact absurd hw' (by simp)
  | logged hw' => rw [hw] at hw'; exact absurd hw' (by simp)
  | @wrote r st' f T hw' _ hex hf hT =>
    rw [hw] at hw'
    obtain ⟨rfl, rfl⟩ := Prod.mk.inj (Option.some.inj hw')
    refine ⟨hex, ?_⟩
    obtain ⟨q, hq, hqr⟩ := hex
    refine ⟨f q, by rw [(hf q).2.1, hqr], (hf q).1, fun p => ?_⟩
    rw [← hqr] at hT ⊢
    exact mem_of_modified hq hT

/-- **One step**: the schedules are as they were, but for the one that the step wrote. -/
theorem step_schedules (str : Exc → String) (s : State) (e : Event) :
    match written str s e with
    | some (i, st) => Put i st s.db.campaignSchedules (step str s e).db.campaignSchedules
    | none => (step str s e).db.campaignSchedules = s.db.campaignSchedules := by
  have hother : (∀ d c w v q, e ≠ .request d c w v q) → (∀ k d f, e ≠ .advance k d f) →
      (step str s e).db.campaignSchedules = s.db.campaignSchedules := by
    intro hreq hadv
    have he := effect_step str s e
    generalize step str s e = s' at he
    cases he with
    | refused => rfl
    | served _ => exact absurd rfl (hreq _ _ _ _ _)
    | campaign _ _ _ => rfl
    | moved _ _ => exact absurd rfl (hadv _ _ _)
  cases e with
  | request d c w v q =>
    rcases hrun : (perform d c w v q).run s.db with ⟨e | a, db⟩
    · simp only [written, step, serve, hrun]
    · simp only [written, step, serve, hrun]
      exact put_of_served (perform_spec hrun)
  | changeStatus w c new => exact hother (by simp) (by simp)
  | deleteCampaign d w c => exact hother (by simp) (by simp)
  | advance k d fault =>
    rcases hw : taskWrite str s k fault with _ | ⟨i, st⟩
    · simp only [written, hw]
      rcases ht : s.tasks[k]? with _ | t
      · rw [step, advance_none ht]
      · obtain ⟨ph, db, hm, heq⟩ := advance_eq str ht d fault
        rw [step, heq]
        have hnone : writes str fault s.db t.phase = none := by
          simpa only [taskWrite, ht, Option.bind_some] using hw
        cases hm with
        | quiet => rfl
        | wrote hw' => rw [hnone] at hw'; exact absurd hw' (by simp)
        | logged => rfl
    · simp only [written, hw]
      exact (step_of_taskWrite hw).2

/-- A request that is accepted finds the schedule in a status that admits it, if it finds one. -/
theorem admits_of_written {d : Draws} {c w v : Uuid} {q : Request} {r : CampaignSchedule}
    (hw : written str s (.request d c w v q) = some (i, st))
    (hr : r ∈ s.db.campaignSchedules.rows) (hri : r.id = i) :
    q.admits r.status = true ∧ st = q.target := by
  simp only [written] at hw
  rcases hrun : (perform d c w v q).run s.db with ⟨e | a, db⟩
  · rw [hrun] at hw
    exact absurd hw (by simp)
  · rw [hrun] at hw
    obtain ⟨rfl, rfl⟩ := Prod.mk.inj (Option.some.inj hw)
    refine ⟨?_, rfl⟩
    rcases (perform_spec hrun).row with ⟨r', hr', hadm, ha, -⟩ | ⟨-, -, -, hadd⟩
    · rw [ha, (sets_change v q r').2.1] at hri
      rw [s.db.campaignSchedules.eq_of_key_eq hr hr'.1 hri]
      exact hadm
    · exact absurd hri (id_ne_of_added hadd hr)

/-! ### The history -/

theorem agree_start (s : State) : Agree ⟨s, start s⟩ := by
  intro r hr
  have hfind : (s.db.campaignSchedules.rows.find? fun q => q.id = r.id).isSome = true :=
    List.find?_isSome.mpr ⟨r, hr, by simp⟩
  obtain ⟨q, hf⟩ := Option.isSome_iff_exists.mp hfind
  have hq : q.id = r.id := by simpa using List.find?_some hf
  refine Option.map_eq_some_iff.mpr ⟨q, hf, ?_⟩
  rw [s.db.campaignSchedules.eq_of_key_eq (List.mem_of_find?_eq_some hf) hr hq]

theorem agree_step (hag : Agree h) (e : Event) : Agree (record (step str) (note str) h e) := by
  intro r hr
  show note str h.state e h.history r.id = some r.status
  have hstep := step_schedules str h.state e
  unfold note
  rcases hw : written str h.state e with _ | ⟨i, st⟩
  · rw [hw] at hstep
    exact hag r (by rw [← hstep]; exact hr)
  · rw [hw] at hstep
    obtain ⟨r', rfl, rfl, hmem⟩ := hstep
    show Function.update h.history r'.id (some r'.status) r.id = some r.status
    rcases (hmem r).mp hr with ⟨hold, hne⟩ | rfl
    · rw [Function.update_of_ne hne]
      exact hag r hold
    · exact Function.update_self _ _ _

/-- **Histories**: what is the same of the rows and of the history at every step, as long as they
agree, is the same along every run. -/
theorem along_iff_along_record {P : State → Event → Prop} {Q : Recorded State Writes → Event → Prop}
    (hpq : ∀ h e, Agree h → (P h.state e ↔ Q h e)) (s : State) (l : List Event) :
    Along (step str) P s l ↔ Along (record (step str) (note str)) Q ⟨s, start s⟩ l := by
  have hrec : Along (record (step str) (note str)) (fun h e => P h.state e) ⟨s, start s⟩ l ↔
      Along (step str) P s l := along_record
  rw [← hrec]
  exact along_congr (fun _ e hag => agree_step hag e) hpq (agree_start s)

end MarketingSuite.Scheduler.History
