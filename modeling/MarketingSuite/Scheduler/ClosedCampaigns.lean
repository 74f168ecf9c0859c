import MarketingSuite.Scheduler.Acceptance
import MarketingSuite.Scheduler.History

/-! # Schedules of closed campaigns

A campaign is closed when it is COMPLETED, ARCHIVED or deleted. Only `schedule_campaign` looks at
the campaign, and not at its deletion; the other requests and the tasks look at the schedule alone.
So the schedule of a closed campaign moves to SCHEDULED or PUBLISHED, and it does exactly in the
steps named here. -/

namespace MarketingSuite.Scheduler.ClosedCampaigns

open MarketingSuite.Lib.Programs MarketingSuite.Lib.Tables MarketingSuite.Lib.Runs
open MarketingSuite.Base.Values MarketingSuite.Base.Models MarketingSuite.Base.Schema
open MarketingSuite.Scheduler.Service MarketingSuite.Scheduler.Acceptance
open MarketingSuite.Scheduler.Task MarketingSuite.Scheduler.System MarketingSuite.Scheduler.History

/-- The campaign `c` is COMPLETED, ARCHIVED or deleted. -/
def Closed (db : Database) (c : Uuid) : Prop :=
  ∃ k ∈ db.campaigns.rows, k.id = c ∧
    (k.status = .completed ∨ k.status = .archived ∨ k.deletedAt ≠ none)

/-- SCHEDULED or PUBLISHED. -/
def live (st : ScheduleStatus) : Bool := st = .scheduled || st = .published

/-- The step moves no schedule of a closed campaign to SCHEDULED or PUBLISHED. -/
def SparesClosed (str : Exc → String) (s : State) (e : Event) : Prop :=
  ∀ r' ∈ (step str s e).db.campaignSchedules.rows, live r'.status = true →
    Closed s.db r'.campaignId →
    ∃ r ∈ s.db.campaignSchedules.rows, r.id = r'.id ∧ r.status = r'.status

/-- A request that leaves SCHEDULED is not accepted for a closed campaign, unless its schedule is
SCHEDULED already; and no task makes its PUBLISHED update to the schedule of a closed campaign,
unless it is PUBLISHED already. -/
def NoReopening (str : Exc → String) (s : State) : Event → Prop
  | .request d c w v q => q.target = .scheduled → Closed s.db c → Accepts s.db d c w v q →
    ∃ r, IsSchedule s.db c w r ∧ r.status = .scheduled
  | .advance k _ fault => ∀ i, taskWrite str s k fault = some (i, .published) →
    ∀ r ∈ s.db.campaignSchedules.rows, r.id = i → Closed s.db r.campaignId → r.status = .published
  | _ => True

instance (db : Database) (c : Uuid) : Decidable (Closed db c) :=
  inferInstanceAs (Decidable (∃ k ∈ _, _))

instance (str : Exc → String) (s : State) (e : Event) : Decidable (SparesClosed str s e) :=
  inferInstanceAs (Decidable (∀ r ∈ _, _ → _ → ∃ r ∈ _, _))

variable {str : Exc → String} {s : State}

theorem target_of_live {q : Request} (h : live q.target = true) : q.target = .scheduled := by
  cases q with
  | pause => exact absurd h (by decide)
  | cancel => exact absurd h (by decide)
  | _ => rfl

theorem sparesClosed_of_same {e : Event}
    (h : (step str s e).db.campaignSchedules = s.db.campaignSchedules) : SparesClosed str s e := by
  intro r' hr' _ _
  rw [h] at hr'
  exact ⟨r', hr', rfl, rfl⟩

/-! ### One step -/

theorem sparesClosed_iff_of_served {d : Draws} {c w v : Uuid} {q : Request}
    {a : CampaignSchedule × List Job} {db : Database}
    (hrun : (perform d c w v q).run s.db = (.ok a, db)) :
    SparesClosed str s (.request d c w v q) ↔ NoReopening str s (.request d c w v q) := by
  have hret : (perform d c w v q).Returns s.db a db := hrun
  have hserved := perform_spec hret
  obtain ⟨hst, hcamp, hmem⟩ := row_of_served hserved
  have hstep : (step str s (.request d c w v q)).db = db := by
    simp only [step, serve, hrun]
  constructor
  · intro hspares htarget hclosed _
    have hlive : live a.1.status = true := by
      rw [hst, htarget]
      rfl
    obtain ⟨r, hr, hid, hrst⟩ := hspares a.1 (by rw [hstep]; exact (hmem a.1).mpr (Or.inr rfl)) hlive
      (by rw [hcamp]; exact hclosed)
    rcases hserved.row with ⟨r₀, hr₀, -, ha, -⟩ | ⟨-, -, -, hadd⟩
    · rw [ha, (sets_change v q r₀).2.1] at hid
      obtain rfl := s.db.campaignSchedules.eq_of_key_eq hr hr₀.1 hid
      exact ⟨r, hr₀, by rw [hrst, hst, htarget]⟩
    · exact absurd hid (id_ne_of_added hadd hr)
  · intro hno r' hr' hlive hclosed
    rw [hstep] at hr'
    rcases (hmem r').mp hr' with ⟨hold, -⟩ | rfl
    · exact ⟨r', hold, rfl, rfl⟩
    · rw [hst] at hlive
      rw [hcamp] at hclosed
      have htarget := target_of_live hlive
      have haccepts := succeeds_iff_accepts.mp (Prog.succeeds_of_returns hret)
      obtain ⟨r, hr, hrst⟩ := hno htarget hclosed haccepts
      rcases hserved.row with ⟨r₀, hr₀, -, ha, -⟩ | ⟨-, hnone, -⟩
      · obtain rfl := isSchedule_unique hr hr₀
        exact ⟨r, hr.1, by rw [ha, (sets_change v q r).2.1], by rw [hrst, hst, htarget]⟩
      · exact absurd hr (hnone r)

theorem sparesClosed_iff_of_taskWrite {k : ℕ} {d : Draws} {fault : Fault} {i : Uuid}
    {st : ScheduleStatus} (hw : taskWrite str s k fault = some (i, st)) :
    SparesClosed str s (.advance k d fault) ↔ NoReopening str s (.advance k d fault) := by
  obtain ⟨⟨r, hr, hri⟩, r', hr'i, hr's, hmem⟩ := step_of_taskWrite (d := d) hw
  have hcamp : r'.campaignId = r.campaignId := by
    obtain ⟨p, hp, hpi, hpc, -⟩ :=
      schedulesKept_of_effect (effect_step str s (.advance k d fault)) r hr
    rcases (hmem p).mp hp with ⟨-, hne⟩ | rfl
    · exact absurd (hpi.trans hri) hne
    · exact hpc
  constructor
  · intro hspares i' hw' q hq hqi hclosed
    obtain ⟨rfl, rfl⟩ := Prod.mk.inj (Option.some.inj (hw.symm.trans hw'))
    obtain rfl := s.db.campaignSchedules.eq_of_key_eq hq hr (hqi.trans hri.symm)
    obtain ⟨p, hp, hpi, hps⟩ := hspares r' ((hmem r').mpr (Or.inr rfl)) (by rw [hr's]; rfl)
      (by rw [hcamp]; exact hclosed)
    obtain rfl := s.db.campaignSchedules.eq_of_key_eq hp hq (hpi.trans (hr'i.trans hri.symm))
    rw [hps, hr's]
  · intro hno p hp hlive hclosed
    rcases (hmem p).mp hp with ⟨hold, -⟩ | rfl
    · exact ⟨p, hold, rfl, rfl⟩
    · obtain ⟨t, -, hwt⟩ := Option.bind_eq_some_iff.mp hw
      rw [hr's] at hlive
      rcases status_of_writes hwt with rfl | rfl
      · rw [hcamp] at hclosed
        exact ⟨r, hr, hri.trans hr'i.symm, by rw [hno i hw r hr hri hclosed, hr's]⟩
      · exact absurd hlive (by decide)

theorem sparesClosed_iff_noReopening (s : State) (e : Event) :
    SparesClosed str s e ↔ NoReopening str s e := by
  have hstep := step_schedules str s e
  cases e with
  | request d c w v q =>
    rcases hrun : (perform d c w v q).run s.db with ⟨x | a, db⟩
    · simp only [written, hrun] at hstep
      refine iff_of_true (sparesClosed_of_same hstep) fun _ _ haccepts => ?_
      obtain ⟨a, s', hret⟩ := Prog.succeeds_iff.mp (succeeds_iff_accepts.mpr haccepts)
      rw [show (perform d c w v q).run s.db = _ from hret] at hrun
      exact absurd (Prod.mk.inj hrun).1 (by simp)
    · exact sparesClosed_iff_of_served hrun
  | changeStatus w c new => exact iff_of_true (sparesClosed_of_same hstep) trivial
  | deleteCampaign d w c => exact iff_of_true (sparesClosed_of_same hstep) trivial
  | advance k d fault =>
    rcases hw : taskWrite str s k fault with _ | ⟨i, st⟩
    · simp only [written, hw] at hstep
      refine iff_of_true (sparesClosed_of_same hstep) fun i hw' => ?_
      rw [hw] at hw'
      exact absurd hw' (by simp)
    · exact sparesClosed_iff_of_taskWrite hw

/-! ### Runs -/

/-- **Closed campaigns are never published** in a run exactly if no request that leaves SCHEDULED is
accepted for one, and no task makes its PUBLISHED update to the schedule of one. -/
theorem sparesClosed_iff (s : State) (l : List Event) :
    Along (step str) (SparesClosed str) s l ↔ Along (step str) (NoReopening str) s l :=
  along_congr (I := fun _ => True) (fun _ _ _ => trivial)
    (fun s e _ => sparesClosed_iff_noReopening s e) trivial

/-- **Archived and published**: the campaign is archived while its publish is queued. -/
theorem archived_then_published : ¬ Along (step fun _ => "error") (SparesClosed fun _ => "error")
    launching [publishLaunch, .changeStatus 10 30 .archived, onward 0, onward 0] := by
  decide

end MarketingSuite.Scheduler.ClosedCampaigns
