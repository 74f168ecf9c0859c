import MarketingSuite.Scheduler.AtMostOnce
import MarketingSuite.Scheduler.ClosedCampaigns
import MarketingSuite.Scheduler.PauseWins
import MarketingSuite.Scheduler.PublishedFinal
import MarketingSuite.Scheduler.Tenancy

/-! # Requests in turn

What a condition on the requests alone is worth. If no pause, cancel, publish or retry is accepted
for a campaign while a task of it is queued or under way, a campaign has one such task at a time,
and the task finds the schedule as its request left it: no hold is overridden, and unless a call
fails behind a PUBLISHED update, a published schedule stays so and a campaign is published once. If
no campaign is closed while a task of it is under way, and a closed one is not scheduled again, no
closed campaign is published. -/

namespace MarketingSuite.Scheduler.InTurn

open MarketingSuite.Lib.Programs MarketingSuite.Lib.Tables MarketingSuite.Lib.Runs
open MarketingSuite.Base.Values MarketingSuite.Base.Models MarketingSuite.Base.Schema
open MarketingSuite.Campaigns.Service
open MarketingSuite.Repositories.Base (atomic_update Updated)
open MarketingSuite.Scheduler.Service MarketingSuite.Scheduler.Acceptance
open MarketingSuite.Scheduler.Task MarketingSuite.Scheduler.System MarketingSuite.Scheduler.History
open MarketingSuite.Scheduler.Tenancy (HoldsOwn holdsOwn_of_effect)
open MarketingSuite.Scheduler.PauseWins (onHold RespectsHold respectsHold_of_taskWrite)
open MarketingSuite.Scheduler.PublishedFinal (KeepsPublished keepsPublished_of_written
  keepsPublished_request)
open MarketingSuite.Scheduler.AtMostOnce (successes carriedOut PublishedOnce FirstToPublish
  carriedOut_step carriedOut_step_cases)
open MarketingSuite.Scheduler.ClosedCampaigns (Closed SparesClosed NoReopening
  sparesClosed_iff_noReopening)

/-! ### Conditions on the requests -/

/-- A task of the campaign `c` is queued or under way. -/
def Busy (s : State) (c : Uuid) : Prop :=
  ∃ t ∈ s.tasks, t.phase ≠ .finished ∧ t.job.campaignId = c

/-- No task is queued or under way. -/
def Idle (s : State) : Prop := ∀ t ∈ s.tasks, t.phase = .finished

/-- The requests that queue a task, or that one could override. -/
def interferes : Request → Bool
  | .pause | .cancel | .publish | .retry => true
  | .schedule _ | .resume => false

/-- **In turn**: no pause, cancel, publish or retry is accepted for a campaign while a task of it is
queued or under way. -/
def TakesTurns (s : State) : Event → Prop
  | .request d c w v q => interferes q = true → Accepts s.db d c w v q → ¬ Busy s c
  | _ => True

/-- The fault strikes no call behind a PUBLISHED update that took effect. -/
def Spares (fault : Fault) : Phase → Prop
  | .update _ => ∀ e, fault ≠ .after e
  | .audit | .notify => fault = .none
  | _ => True

/-- No call of a task fails behind its PUBLISHED update. -/
def FailsEarly (s : State) : Event → Prop
  | .advance k _ fault => ∀ t ∈ s.tasks[k]?, Spares fault t.phase
  | _ => True

/-- No campaign is closed while a task of it is queued or under way, and no request that leaves
SCHEDULED is accepted for a closed one. -/
def StaysOpen (s : State) : Event → Prop
  | .request d c w v q => q.target = .scheduled → Accepts s.db d c w v q → ¬ Closed s.db c
  | .changeStatus w c new => new = .completed ∨ new = .archived →
    (changeStatus w c new).succeeds s.db = true → ¬ Busy s c
  | .deleteCampaign d w c => (deleteCampaign d w c).succeeds s.db = true → ¬ Busy s c
  | .advance _ _ _ => True

instance (s : State) (c : Uuid) : Decidable (Busy s c) :=
  inferInstanceAs (Decidable (∃ t ∈ s.tasks, _))

variable {str : Exc → String} {s : State} {e : Event} {d : Draws} {c w v : Uuid} {q : Request}
  {k i : ℕ} {t t' : Running} {fault : Fault} {r : CampaignSchedule}

/-! ### The tasks after a step -/

theorem advance_of_finished (ht : s.tasks[k]? = some t) (h : t.phase = .finished) (d : Draws)
    (fault : Fault) : advance str s k d fault = s := by
  obtain ⟨j, ph⟩ := t
  obtain rfl : ph = .finished := h
  obtain ⟨hk, heq⟩ := List.getElem?_eq_some_iff.mp ht
  have hadvance : advance str s k d fault = ⟨s.db, s.tasks.set k ⟨j, .finished⟩⟩ := by
    simp only [advance, ht]
    rfl
  rw [hadvance, ← heq, List.set_getElem_self]

/-- The task under way at the position `i` was there and was not asked to move, or it has moved. -/
def Went (str : Exc → String) (s : State) (e : Event) (i : ℕ) (t t' : Running) : Prop :=
  ((∀ d fault, e ≠ .advance i d fault) ∧ t' = t) ∨ ∃ d fault, e = .advance i d fault ∧
    t'.job = t.job ∧ (next str d fault t.job t.phase).Returns s.db t'.phase (step str s e).db

/-- An accepted publish or retry has queued the task. -/
def Queued (s : State) (e : Event) (t : Running) : Prop :=
  ∃ d v q, (q = .publish ∨ q = .retry) ∧
    e = .request d t.job.campaignId t.job.workspaceId v q ∧
    Accepts s.db d t.job.campaignId t.job.workspaceId v q ∧ t.phase = .get

theorem Went.job_eq (h : Went str s e i t t') : t'.job = t.job := by
  rcases h with ⟨-, rfl⟩ | ⟨-, -, -, hjob, -⟩
  · rfl
  · exact hjob

theorem accepts_of_run {a : CampaignSchedule × List Job} {db : Database}
    (hrun : (perform d c w v q).run s.db = (.ok a, db)) : Accepts s.db d c w v q :=
  succeeds_iff_accepts.mp (Prog.succeeds_of_returns (show (perform d c w v q).Returns s.db a db from
    hrun))

theorem queued_of_served (haccepts : Accepts s.db d c w v q)
    (ht : ((q.queues ⟨c, w, v⟩).map fun j => (⟨j, .get⟩ : Running))[i]? = some t) :
    i = 0 ∧ Queued s (.request d c w v q) t := by
  have hone : ([(⟨⟨c, w, v⟩, .get⟩ : Running)][i]? = some t) →
      q = .publish ∨ q = .retry → i = 0 ∧ Queued s (.request d c w v q) t := by
    intro h hq
    rcases i with _ | i
    · obtain rfl := Option.some.inj h
      exact ⟨rfl, d, v, q, hq, rfl, haccepts, rfl⟩
    · exact absurd h (by simp)
  cases q with
  | publish => exact hone ht (Or.inl rfl)
  | retry => exact hone ht (Or.inr rfl)
  | _ => exact absurd ht (by simp [Request.queues])

/-- **A task under way after a step** was under way before it, or it is the last one and an accepted
request has queued it. -/
theorem underWay_step (ht' : (step str s e).tasks[i]? = some t') (h : t'.phase ≠ .finished) :
    (∃ t, s.tasks[i]? = some t ∧ t.phase ≠ .finished ∧ Went str s e i t t') ∨
      i = s.tasks.length ∧ Queued s e t' := by
  cases e with
  | request d c w v q =>
    have hsame : s.tasks[i]? = some t' → (∃ t, s.tasks[i]? = some t ∧ t.phase ≠ .finished ∧
        Went str s (.request d c w v q) i t t') := fun ht =>
      ⟨t', ht, h, Or.inl ⟨fun _ _ => Event.noConfusion, rfl⟩⟩
    rcases hrun : (perform d c w v q).run s.db with ⟨x | a, db⟩
    · simp only [step, serve, hrun] at ht'
      exact Or.inl (hsame ht')
    · simp only [step, serve, hrun] at ht'
      have hserved : Served s.db d c w v q a db := perform_spec hrun
      rw [hserved.queued] at ht'
      by_cases hi : i < s.tasks.length
      · rw [List.getElem?_append_left hi] at ht'
        exact Or.inl (hsame ht')
      · rw [List.getElem?_append_right (Nat.le_of_not_lt hi)] at ht'
        obtain ⟨hzero, hqueued⟩ := queued_of_served (accepts_of_run hrun) ht'
        exact Or.inr ⟨by omega, hqueued⟩
  | changeStatus w c new =>
    exact Or.inl ⟨t', ht', h, Or.inl ⟨fun _ _ => Event.noConfusion, rfl⟩⟩
  | deleteCampaign d w c =>
    exact Or.inl ⟨t', ht', h, Or.inl ⟨fun _ _ => Event.noConfusion, rfl⟩⟩
  | advance k d fault =>
    refine Or.inl ?_
    have hsame : i ≠ k → s.tasks[i]? = some t' → ∃ t, s.tasks[i]? = some t ∧
        t.phase ≠ .finished ∧ Went str s (.advance k d fault) i t t' := fun hne ht =>
      ⟨t', ht, h, Or.inl ⟨fun d' fault' heq => hne (by injection heq with hk; exact hk.symm), rfl⟩⟩
    rcases ht : s.tasks[k]? with _ | t
    · rw [step, advance_none ht] at ht'
      refine hsame ?_ ht'
      rintro rfl
      exact absurd (ht.symm.trans ht') (by simp)
    by_cases hdone : t.phase = .finished
    · rw [step, advance_of_finished ht hdone] at ht'
      refine hsame ?_ ht'
      rintro rfl
      exact h ((congrArg Running.phase (Option.some.inj (ht.symm.trans ht'))).symm.trans hdone)
    obtain ⟨ph, db, hret⟩ := next_returns str d fault t.job t.phase s.db
    have hstep : step str s (.advance k d fault) = ⟨db, s.tasks.set k ⟨t.job, ph⟩⟩ := by
      have hrun : (next str d fault t.job t.phase).run s.db = (.ok ph, db) := hret
      simp only [step, advance, ht, hrun]
    by_cases hik : i = k
    · subst hik
      rw [hstep, List.getElem?_set_self (List.getElem?_eq_some_iff.mp ht).1] at ht'
      obtain rfl := Option.some.inj ht'
      exact ⟨t, ht, hdone, Or.inr ⟨d, fault, rfl, rfl, by rw [hstep]; exact hret⟩⟩
    · rw [hstep, List.getElem?_set_ne (Ne.symm hik)] at ht'
      exact hsame hik ht'

/-- A campaign with a task under way had one before, or its request was accepted. -/
theorem busy_step (h : Busy (step str s e) c) : Busy s c ∨
    ∃ d w v q, (q = .publish ∨ q = .retry) ∧ e = .request d c w v q ∧ Accepts s.db d c w v q := by
  obtain ⟨t', hmem, hphase, rfl⟩ := h
  obtain ⟨i, ht'⟩ := List.getElem?_of_mem hmem
  rcases underWay_step ht' hphase with ⟨t, ht, ht0, hwent⟩ | ⟨-, d, v, q, hq, rfl, hacc, -⟩
  · exact Or.inl ⟨t, List.mem_of_getElem? ht, ht0, by rw [hwent.job_eq]⟩
  · exact Or.inr ⟨d, _, v, q, hq, rfl, hacc⟩

/-! ### The schedules after a step -/

theorem rows_of_quiet (h : written str s e = none) :
    (step str s e).db.campaignSchedules.rows = s.db.campaignSchedules.rows := by
  have hstep := step_schedules str s e
  rw [h] at hstep
  exact congrArg Table.rows hstep

/-- A request that is accepted leaves its target in the schedule of its campaign, and changes no
other one. -/
theorem row_of_request
    (hr : r ∈ (step str s (.request d c w v q)).db.campaignSchedules.rows) :
    (Accepts s.db d c w v q ∧ r.campaignId = c ∧ r.status = q.target) ∨
      r ∈ s.db.campaignSchedules.rows ∧ (r.campaignId = c → ¬ Accepts s.db d c w v q) := by
  rcases hrun : (perform d c w v q).run s.db with ⟨x | a, db⟩
  · simp only [step, serve, hrun] at hr
    refine Or.inr ⟨hr, fun _ hacc => ?_⟩
    obtain ⟨a, s', hret⟩ := Prog.succeeds_iff.mp (succeeds_iff_accepts.mpr hacc)
    exact Prog.not_raises_of_returns hret hrun
  · have hdb : (step str s (.request d c w v q)).db = db := by
      simp only [step, serve, hrun]
    rw [hdb] at hr
    obtain ⟨hst, hcamp, hmem⟩ := row_of_served (perform_spec hrun)
    rcases (hmem r).mp hr with ⟨hold, hne⟩ | rfl
    · refine Or.inr ⟨hold, fun hrc => absurd ?_ hne⟩
      have hsame : r = a.1 := db.campaignSchedules.eq_of_not_compatible hr
        ((hmem a.1).mpr (Or.inr rfl)) (by simp [Keyed.compatible, hrc, hcamp])
      rw [hsame]
    · exact Or.inl ⟨accepts_of_run hrun, hcamp, hst⟩

theorem row_of_advance (hheld : HoldsOwn s)
    (hr : r ∈ (step str s (.advance k d fault)).db.campaignSchedules.rows) :
    r ∈ s.db.campaignSchedules.rows ∨ ∃ t n, s.tasks[k]? = some t ∧
      writes str fault s.db t.phase = some (n, r.status) ∧ r.campaignId = t.job.campaignId := by
  rcases ht : s.tasks[k]? with _ | t
  · rw [step, advance_none ht] at hr
    exact Or.inl hr
  obtain ⟨ph, db, hm, heq⟩ := advance_eq str ht d fault
  rw [step, heq] at hr
  cases hm with
  | quiet => exact Or.inl hr
  | logged => exact Or.inl hr
  | @wrote p st f T hw hph hex hf hT =>
    obtain ⟨q, hq, hqi, hqc, -⟩ := hheld t (List.mem_of_getElem? ht) p hph
    rw [← hqi] at hT
    rcases (mem_of_modified hq hT).mp hr with ⟨hold, -⟩ | rfl
    · exact Or.inl hold
    · obtain ⟨hst, -, hcamp, -⟩ := hf q
      exact Or.inr ⟨t, p.id, rfl, by rw [hst]; exact hw, hcamp.trans hqc⟩

theorem held_of_writes {ph : Phase} {n : Uuid} {st : ScheduleStatus}
    (h : writes str fault s.db ph = some (n, st)) : ∃ r, held ph = some r ∧ r.id = n := by
  cases ph with
  | update r =>
    simp only [writes] at h
    split_ifs at h
    exact ⟨r, rfl, (Prod.mk.inj (Option.some.inj h)).1⟩
  | exceptUpdate x r =>
    simp only [writes] at h
    split_ifs at h
    exact ⟨r, rfl, (Prod.mk.inj (Option.some.inj h)).1⟩
  | _ => exact absurd h (by simp [writes])

/-- The phases from which a task may still write a status, if no PUBLISHED update of it has taken
effect. -/
def early : Phase → Bool
  | .get | .update _ | .exceptGet _ | .exceptUpdate _ _ => true
  | _ => false

theorem not_finished_of_early {ph : Phase} (h : early ph = true) : ph ≠ .finished := by
  rintro rfl
  exact absurd h (by decide)

theorem early_of_writes {ph : Phase} {n : Uuid} {st : ScheduleStatus}
    (h : writes str fault s.db ph = some (n, st)) : early ph = true := by
  obtain ⟨p, hp, -⟩ := held_of_writes h
  cases ph with
  | update _ | exceptUpdate _ _ => rfl
  | _ => exact absurd hp (by simp [held])

theorem campaign_of_taskWrite (hheld : HoldsOwn s) {n : Uuid} {st : ScheduleStatus}
    (hw : taskWrite str s k fault = some (n, st)) (hr : r ∈ s.db.campaignSchedules.rows)
    (hn : r.id = n) : ∃ t, s.tasks[k]? = some t ∧ t.phase ≠ .finished ∧
      writes str fault s.db t.phase = some (n, st) ∧ r.campaignId = t.job.campaignId := by
  obtain ⟨t, ht, hwt⟩ := Option.bind_eq_some_iff.mp hw
  obtain ⟨p, hp, hpn⟩ := held_of_writes hwt
  obtain ⟨q, hq, hqi, hqc, -⟩ := hheld t (List.mem_of_getElem? ht) p hp
  obtain rfl := s.db.campaignSchedules.eq_of_key_eq hr hq (hn.trans (hpn.symm.trans hqi.symm))
  exact ⟨t, ht, not_finished_of_early (early_of_writes hwt), hwt, hqc⟩

theorem campaignId_of_step {r' : CampaignSchedule} (hr : r ∈ s.db.campaignSchedules.rows)
    (hr' : r' ∈ (step str s e).db.campaignSchedules.rows) (hid : r'.id = r.id) :
    r'.campaignId = r.campaignId := by
  obtain ⟨p, hp, hpi, hpc, -⟩ := schedulesKept_of_effect (effect_step str s e) r hr
  obtain rfl := (step str s e).db.campaignSchedules.eq_of_key_eq hr' hp (hid.trans hpi.symm)
  exact hpc

/-! ### Holds -/

/-- **The invariant of the holds**: a campaign with a task under way has no schedule on hold. -/
def Unheld (s : State) : Prop :=
  ∀ r ∈ s.db.campaignSchedules.rows, Busy s r.campaignId → onHold r.status = false

theorem unheld_step (hheld : HoldsOwn s) (hs : Unheld s) (hturn : TakesTurns s e) :
    Unheld (step str s e) := by
  intro r hr hbusy
  cases e with
  | request d c w v q =>
    rcases row_of_request hr with ⟨hacc, hrc, hst⟩ | ⟨hold, hno⟩
    · rw [hst]
      by_contra hon
      have hq : q = .pause ∨ q = .cancel := by
        cases q <;> simp [Request.target, onHold] at hon ⊢
      rw [hrc] at hbusy
      rcases busy_step hbusy with hbusy | ⟨d', w', v', q', hq', heq, -⟩
      · refine hturn ?_ hacc hbusy
        rcases hq with rfl | rfl <;> rfl
      · obtain ⟨-, -, -, -, rfl⟩ := Event.request.inj heq
        rcases hq with rfl | rfl <;> simp at hq'
    · refine hs r hold ?_
      rcases busy_step hbusy with hbusy | ⟨d', w', v', q', -, heq, hacc⟩
      · exact hbusy
      · obtain ⟨rfl, hrc, rfl, rfl, rfl⟩ := Event.request.inj heq
        exact absurd (hrc ▸ hacc) (hno hrc.symm)
  | changeStatus w c new =>
    rw [rows_of_quiet rfl] at hr
    exact hs r hr hbusy
  | deleteCampaign d w c =>
    rw [rows_of_quiet rfl] at hr
    exact hs r hr hbusy
  | advance k d fault =>
    rcases row_of_advance hheld hr with hold | ⟨t, n, ht, hw, -⟩
    · refine hs r hold ?_
      rcases busy_step hbusy with hbusy | ⟨d', w', v', q', -, heq, -⟩
      · exact hbusy
      · exact absurd heq Event.noConfusion
    · rcases status_of_writes hw with hst | hst
      · rw [hst]
        rfl
      · rw [hst]
        rfl

theorem respectsHold_of_unheld (hheld : HoldsOwn s) (hs : Unheld s) : RespectsHold str s e := by
  cases e with
  | advance k d fault =>
    refine respectsHold_of_taskWrite fun n st hw r hr hn => hs r hr ?_
    obtain ⟨t, ht, hphase, -, hcamp⟩ := campaign_of_taskWrite hheld hw hr hn
    exact ⟨t, List.mem_of_getElem? ht, hphase, hcamp.symm⟩
  | _ => exact trivial

theorem holdsOwn_of_idle (hs : Idle s) : HoldsOwn s := by
  intro t ht r hr
  rw [hs t ht] at hr
  exact absurd hr (by simp [held])

theorem not_busy_of_idle (hs : Idle s) (c : Uuid) : ¬ Busy s c := by
  rintro ⟨t, ht, hphase, -⟩
  exact hphase (hs t ht)

/-- **In turn, pause and cancel win.** -/
theorem respectsHold_of_takesTurns (hs : Idle s) (l : List Event)
    (hl : Along (step str) TakesTurns s l) : Along (step str) (RespectsHold str) s l :=
  along_of_along (I := fun s : State => HoldsOwn s ∧ Unheld s)
    (fun s e hI hturn => ⟨holdsOwn_of_effect (effect_step str s e) hI.1,
      unheld_step hI.1 hI.2 hturn⟩)
    (fun _ _ hI _ => respectsHold_of_unheld hI.1 hI.2)
    ⟨holdsOwn_of_idle hs, fun r _ hbusy => absurd hbusy (not_busy_of_idle hs r.campaignId)⟩ hl

/-! ### Published schedules -/

/-- A campaign has one task under way at a time. -/
def Alone (s : State) : Prop := ∀ (i j : ℕ) (t t' : Running), s.tasks[i]? = some t →
  s.tasks[j]? = some t' → t.phase ≠ .finished → t'.phase ≠ .finished →
    t.job.campaignId = t'.job.campaignId → i = j

/-- Before its PUBLISHED update a task has a schedule that is not PUBLISHED. -/
def Unpublished (s : State) : Prop := ∀ t ∈ s.tasks, early t.phase = true →
  ∀ r ∈ s.db.campaignSchedules.rows, r.campaignId = t.job.campaignId → r.status ≠ .published

/-- **The invariant of the published schedules.** -/
structure Fresh (s : State) : Prop where
  holdsOwn : HoldsOwn s
  alone : Alone s
  unpublished : Unpublished s

theorem alone_step (hs : Alone s) (hturn : TakesTurns s e) : Alone (step str s e) := by
  have hnew : ∀ {i j : ℕ} {t t' : Running}, s.tasks[i]? = some t → t.phase ≠ .finished →
      Queued s e t' → t.job.campaignId = t'.job.campaignId → i = j := by
    rintro i j t t' ht hphase ⟨d, v, q, hq, rfl, hacc, -⟩ hcamp
    refine absurd ⟨t, List.mem_of_getElem? ht, hphase, hcamp⟩ (hturn ?_ hacc)
    rcases hq with rfl | rfl <;> rfl
  intro i j t t' ht ht' hphase hphase' hcamp
  rcases underWay_step ht hphase with ⟨t₀, ht₀, hphase₀, hwent⟩ | ⟨hi, hqueued⟩
  · rcases underWay_step ht' hphase' with ⟨t₁, ht₁, hphase₁, hwent'⟩ | ⟨hj, hqueued⟩
    · exact hs i j t₀ t₁ ht₀ ht₁ hphase₀ hphase₁ (by rw [← hwent.job_eq, hcamp, hwent'.job_eq])
    · exact hnew ht₀ hphase₀ hqueued (by rw [← hwent.job_eq, hcamp])
  · rcases underWay_step ht' hphase' with ⟨t₁, ht₁, hphase₁, hwent'⟩ | ⟨hj, -⟩
    · exact (hnew ht₁ hphase₁ hqueued (by rw [← hwent'.job_eq, hcamp])).symm
    · rw [hi, hj]

/-- **A task that stays early** was early, and has not made its PUBLISHED update. -/
theorem early_of_next {j : Job} {ph ph' : Phase} {db db' : Database} (hspares : Spares fault ph)
    (h : (next str d fault j ph).Returns db ph' db') (hearly : early ph' = true) :
    early ph = true ∧ ∀ n, writes str fault db ph ≠ some (n, .published) := by
  cases ph with
  | get => exact ⟨rfl, fun n => by simp [writes]⟩
  | update r =>
    refine ⟨rfl, fun n hw => ?_⟩
    unfold next at h
    rcases call_spec atomic_update h with ⟨-, a, -, ⟨-, rfl⟩ | ⟨x, hafter, -⟩⟩ | ⟨hgo, -, -⟩
    · exact absurd hearly (by decide)
    · exact hspares x hafter
    · simp only [writes, hgo] at hw
      exact absurd hw (by simp)
  | audit =>
    obtain rfl : fault = .none := hspares
    obtain rfl : Phase.notify = ph' := Except.ok.inj (Prod.mk.inj h).1
    exact absurd hearly (by decide)
  | notify =>
    obtain rfl : fault = .none := hspares
    obtain rfl : Phase.finished = ph' := Except.ok.inj (Prod.mk.inj h).1
    exact absurd hearly (by decide)
  | exceptGet x => exact ⟨rfl, fun n => by simp [writes]⟩
  | exceptUpdate x r =>
    refine ⟨rfl, fun n hw => ?_⟩
    simp only [writes] at hw
    split_ifs at hw
    exact absurd (Prod.mk.inj (Option.some.inj hw)).2 (by decide)
  | exceptAudit x =>
    unfold next at h
    rcases call_spec (Prog.atomic_modify _) h with
      ⟨-, a, -, ⟨-, rfl⟩ | ⟨y, -, rfl⟩⟩ | ⟨-, -, y, rfl⟩ <;> exact absurd hearly (by simp [early])
  | exceptNotify x =>
    unfold next at h
    rcases call_spec (Prog.atomic_pure ()) h with
      ⟨-, a, -, ⟨-, rfl⟩ | ⟨y, -, rfl⟩⟩ | ⟨-, -, y, rfl⟩ <;> exact absurd hearly (by simp [early])
  | finished =>
    obtain rfl : Phase.finished = ph' := Except.ok.inj (Prod.mk.inj h).1
    exact absurd hearly (by decide)

theorem unpublished_step (hs : Fresh s) (hfail : FailsEarly s e) :
    Unpublished (step str s e) := by
  intro t' hmem hearly r hr hcamp
  obtain ⟨i, ht'⟩ := List.getElem?_of_mem hmem
  rcases underWay_step ht' (not_finished_of_early hearly) with
    ⟨t, ht, -, hwent⟩ | ⟨-, d, v, q, hq, rfl, hacc, -⟩
  swap
  · rcases row_of_request hr with ⟨-, -, hst⟩ | ⟨-, hno⟩
    · rw [hst]
      rcases hq with rfl | rfl <;> exact ScheduleStatus.noConfusion
    · exact absurd hacc (hno hcamp)
  -- the task was early before the step, and has not written PUBLISHED in it
  have hbefore : early t.phase = true ∧ ∀ d fault, e = .advance i d fault →
      ∀ n, writes str fault s.db t.phase ≠ some (n, .published) := by
    rcases hwent with ⟨hnot, rfl⟩ | ⟨d, fault, rfl, -, hret⟩
    · exact ⟨hearly, fun d fault heq => absurd heq (hnot d fault)⟩
    · obtain ⟨hearly₀, hno⟩ := early_of_next (hfail t ht) hret hearly
      refine ⟨hearly₀, fun d' fault' heq => ?_⟩
      obtain ⟨-, -, rfl⟩ := Event.advance.inj heq
      exact hno
  have hold : r ∈ s.db.campaignSchedules.rows → r.status ≠ .published := fun hmem =>
    hs.unpublished t (List.mem_of_getElem? ht) hbefore.1 r hmem
      (hcamp.trans (congrArg Job.campaignId hwent.job_eq))
  cases e with
  | request d c w v q =>
    rcases row_of_request hr with ⟨-, -, hst⟩ | ⟨hmem, -⟩
    · rw [hst]
      cases q <;> exact ScheduleStatus.noConfusion
    · exact hold hmem
  | changeStatus w c new =>
    rw [rows_of_quiet rfl] at hr
    exact hold hr
  | deleteCampaign d w c =>
    rw [rows_of_quiet rfl] at hr
    exact hold hr
  | advance k d fault =>
    rcases row_of_advance hs.holdsOwn hr with hmem | ⟨t₁, n, ht₁, hw, hrc⟩
    · exact hold hmem
    · intro hpub
      rw [hpub] at hw
      have hphase : t₁.phase ≠ .finished := not_finished_of_early (early_of_writes hw)
      obtain rfl : k = i := hs.alone k i t₁ t ht₁ ht hphase (not_finished_of_early hbefore.1)
        (by rw [← hrc, hcamp, hwent.job_eq])
      obtain rfl := Option.some.inj (ht.symm.trans ht₁)
      exact hbefore.2 d fault rfl n hw

theorem fresh_step (hs : Fresh s) (hturn : TakesTurns s e) (hfail : FailsEarly s e) :
    Fresh (step str s e) :=
  ⟨holdsOwn_of_effect (effect_step str s e) hs.holdsOwn, alone_step hs.alone hturn,
    unpublished_step hs hfail⟩

theorem fresh_of_idle (hs : Idle s) : Fresh s := by
  refine ⟨holdsOwn_of_idle hs, fun i j t t' ht _ hphase => ?_, fun t ht hearly => ?_⟩
  · exact absurd (hs t (List.mem_of_getElem? ht)) hphase
  · exact absurd (hs t ht) (not_finished_of_early hearly)

theorem keepsPublished_of_fresh (hs : Fresh s) : KeepsPublished str s e := by
  cases e with
  | request d c w v q => exact keepsPublished_request d c w v q
  | changeStatus w c new => exact keepsPublished_of_written fun n st hw => nomatch hw
  | deleteCampaign d w c => exact keepsPublished_of_written fun n st hw => nomatch hw
  | advance k d fault =>
    refine keepsPublished_of_written fun n st hw r hr hn hpub => ?_
    obtain ⟨t, ht, -, hwt, hcamp⟩ := campaign_of_taskWrite hs.holdsOwn hw hr hn
    have hunpublished : r.status ≠ .published :=
      hs.unpublished t (List.mem_of_getElem? ht) (early_of_writes hwt) r hr hcamp
    exact absurd hpub hunpublished

/-- **In turn, PUBLISHED is final**, unless a call fails behind the update. -/
theorem keepsPublished_of_takesTurns (hs : Idle s) (l : List Event)
    (hl : Along (step str) (fun s e => TakesTurns s e ∧ FailsEarly s e) s l) :
    Along (step str) (KeepsPublished str) s l :=
  along_of_along (fun _ _ hI hq => fresh_step hI hq.1 hq.2)
    (fun _ _ hI _ => keepsPublished_of_fresh hI) (fresh_of_idle hs) hl

/-! ### One publish -/

/-- The campaigns whose publish was carried out have a PUBLISHED schedule, and it was so once. -/
def Reflected (s : State) : Prop := ∀ c, carriedOut c s ≤ 1 ∧
  (carriedOut c s = 0 ∨ ∃ r ∈ s.db.campaignSchedules.rows, r.campaignId = c ∧ r.status = .published)

theorem firstToPublish_of_fresh (hs : Fresh s) (hreflected : Reflected s) :
    FirstToPublish str s e := by
  cases e with
  | advance k d fault =>
    rintro - t ht ⟨n, st⟩ hw rfl
    rcases (hreflected t.job.campaignId).2 with hzero | ⟨r, hr, hcamp, hpub⟩
    · exact hzero
    · have hunpublished : r.status ≠ .published :=
        hs.unpublished t (List.mem_of_getElem? ht) (early_of_writes hw) r hr hcamp
      exact absurd hpub hunpublished
  | _ => exact trivial

theorem published_step (hkeep : KeepsPublished str s e) (hr : r ∈ s.db.campaignSchedules.rows)
    (hpub : r.status = .published) : ∃ r' ∈ (step str s e).db.campaignSchedules.rows,
      r'.campaignId = r.campaignId ∧ r'.status = .published := by
  obtain ⟨r', hr', hid, hpub'⟩ := hkeep r hr hpub
  exact ⟨r', hr', campaignId_of_step hr hr' hid, hpub'⟩

theorem reflected_step (hs : Fresh s) (hreflected : Reflected s) : Reflected (step str s e) := by
  have hfirst : FirstToPublish str s e := firstToPublish_of_fresh hs hreflected
  have hkeep : KeepsPublished str s e := keepsPublished_of_fresh hs
  intro c
  refine ⟨carriedOut_step e hfirst (fun c => (hreflected c).1) c, ?_⟩
  rcases carriedOut_step_cases str s c e with hle | ⟨k, d, t, n, rfl, ht, hw, rfl, -⟩
  · rcases (hreflected c).2 with hzero | ⟨r, hr, hcamp, hpub⟩
    · exact Or.inl (by omega)
    · obtain ⟨r', hr', hcamp', hpub'⟩ := published_step hkeep hr hpub
      exact Or.inr ⟨r', hr', hcamp'.trans hcamp, hpub'⟩
  · have htask : taskWrite str s k .none = some (n, .published) :=
      Option.bind_eq_some_iff.mpr ⟨t, ht, hw⟩
    obtain ⟨⟨r, hr, hrn⟩, r', hr'n, hst, hmem⟩ := step_of_taskWrite (d := d) htask
    obtain ⟨t', ht', -, -, hcamp⟩ := campaign_of_taskWrite hs.holdsOwn htask hr hrn
    obtain rfl := Option.some.inj (ht.symm.trans ht')
    have hr' := (hmem r').mpr (Or.inr rfl)
    have hkept : r'.campaignId = r.campaignId :=
      campaignId_of_step hr hr' (hr'n.trans hrn.symm)
    exact Or.inr ⟨r', hr', hkept.trans hcamp, hst⟩

/-- **In turn, a campaign is published once**, unless a call fails behind the update. -/
theorem publishedOnce_of_takesTurns (hs : Idle s) (hreflected : Reflected s) (l : List Event)
    (hl : Along (step str) (fun s e => TakesTurns s e ∧ FailsEarly s e) s l) :
    Always (step str) PublishedOnce s l := by
  have hinv : Always (step str) (fun s => Fresh s ∧ Reflected s) s l :=
    always_of_along (fun _ _ hI hq => ⟨fresh_step hI.1 hq.1 hq.2, reflected_step hI.1 hI.2⟩)
      ⟨fresh_of_idle hs, hreflected⟩ hl
  rw [always_iff] at hinv ⊢
  exact fun pre hpre c => (Nat.le_add_right _ _).trans ((hinv pre hpre).2 c).1

/-! ### Closed campaigns -/

/-- **The invariant of the closed campaigns**: none has a task under way. -/
def Deserted (s : State) : Prop := ∀ c, Busy s c → ¬ Closed s.db c

/-- A campaign that is closed after an update was closed before, or it is the one that changed. -/
theorem closed_of_updated {db db' : Database} {n : Uuid} {f : Campaign → Campaign}
    (h : Updated n f db db') (hf : ∀ x, (f x).id = x.id) (hclosed : Closed db' c) :
    Closed db c ∨ c = n ∧ ∃ x ∈ db.campaigns.rows, x.id = n ∧
      ((f x).status = .completed ∨ (f x).status = .archived ∨ (f x).deletedAt ≠ none) := by
  obtain ⟨C, hC, rfl⟩ := h
  obtain ⟨x, hx, rfl, hst⟩ := hclosed
  rcases (Table.mem_modify hC).mp hx with ⟨hold, -⟩ | ⟨y, hy, rfl, rfl⟩
  · exact Or.inl ⟨x, hold, rfl, hst⟩
  · exact Or.inr ⟨hf y, y, hy, rfl, hst⟩

theorem campaigns_step (he : ∀ w c new, e ≠ .changeStatus w c new)
    (he' : ∀ d w c, e ≠ .deleteCampaign d w c) :
    (step str s e).db.campaigns = s.db.campaigns := by
  cases e with
  | request d c w v q =>
    rcases hrun : (perform d c w v q).run s.db with ⟨x | a, db⟩
    · simp only [step, serve, hrun]
    · simp only [step, serve, hrun]
      rcases (perform_spec hrun).row with
        ⟨-, -, -, -, -, T, -, log, -, rfl⟩ | ⟨-, -, -, -, T, -, log, -, rfl⟩
      · rfl
      · rfl
  | changeStatus w c new => exact absurd rfl (he w c new)
  | deleteCampaign d w c => exact absurd rfl (he' d w c)
  | advance k d fault =>
    rcases ht : s.tasks[k]? with _ | t
    · rw [step, advance_none ht]
    · obtain ⟨ph, db, hm, heq⟩ := advance_eq str ht d fault
      rw [step, heq]
      cases hm <;> rfl

theorem closed_of_step (he : ∀ w c new, e ≠ .changeStatus w c new)
    (he' : ∀ d w c, e ≠ .deleteCampaign d w c) (h : Closed (step str s e).db c) : Closed s.db c := by
  unfold Closed at h ⊢
  rwa [campaigns_step he he'] at h

theorem deserted_step (hs : Deserted s) (hopen : StaysOpen s e) : Deserted (step str s e) := by
  intro c hbusy hclosed
  cases e with
  | request d c' w v q =>
    have hbefore : Closed s.db c :=
      closed_of_step (fun _ _ _ => Event.noConfusion) (fun _ _ _ => Event.noConfusion) hclosed
    rcases busy_step hbusy with hbusy | ⟨d', w', v', q', hq, heq, hacc⟩
    · exact hs c hbusy hbefore
    · obtain ⟨rfl, rfl, rfl, rfl, rfl⟩ := Event.request.inj heq
      refine hopen ?_ hacc hbefore
      rcases hq with rfl | rfl <;> rfl
  | changeStatus w n new =>
    have hbusy₀ : Busy s c := hbusy
    rcases (changeStatus w n new).settle_cases s.db with ⟨a, hret⟩ | ⟨hsame, -⟩
    · obtain ⟨k, -, ⟨-, -, hkept⟩ | ⟨-, -, -, -, hup⟩⟩ := returns_changeStatus.mp hret
      · exact hs c hbusy₀ (hkept ▸ hclosed)
      · rcases closed_of_updated hup (fun _ => rfl) hclosed with hbefore | ⟨rfl, x, hx, hxn, hst⟩
        · exact hs c hbusy₀ hbefore
        · rcases hst with hst | hst | hst
          · exact hopen (Or.inl hst) (Prog.succeeds_of_returns hret) hbusy₀
          · exact hopen (Or.inr hst) (Prog.succeeds_of_returns hret) hbusy₀
          · exact hs c hbusy₀ ⟨x, hx, hxn, Or.inr (Or.inr hst)⟩
    · exact hs c hbusy₀ (hsame ▸ hclosed)
  | deleteCampaign d w n =>
    have hbusy₀ : Busy s c := hbusy
    rcases (deleteCampaign d w n).settle_cases s.db with ⟨a, hret⟩ | ⟨hsame, -⟩
    · obtain ⟨k, -, -, hkept | hup⟩ := deleteCampaign_spec hret
      · exact hs c hbusy₀ (hkept ▸ hclosed)
      · rcases closed_of_updated hup (fun _ => rfl) hclosed with hbefore | ⟨rfl, -⟩
        · exact hs c hbusy₀ hbefore
        · exact hopen (Prog.succeeds_of_returns hret) hbusy₀
    · exact hs c hbusy₀ (hsame ▸ hclosed)
  | advance k d fault =>
    have hbefore : Closed s.db c :=
      closed_of_step (fun _ _ _ => Event.noConfusion) (fun _ _ _ => Event.noConfusion) hclosed
    rcases busy_step hbusy with hbusy | ⟨d', w', v', q', -, heq, -⟩
    · exact hs c hbusy hbefore
    · exact absurd heq Event.noConfusion

theorem noReopening_of_deserted (hheld : HoldsOwn s) (hs : Deserted s) (hopen : StaysOpen s e) :
    NoReopening str s e := by
  cases e with
  | request d c w v q =>
    exact fun htarget hclosed hacc => absurd hclosed (hopen htarget hacc)
  | advance k d fault =>
    intro n hw r hr hn hclosed
    obtain ⟨t, ht, hphase, -, hcamp⟩ := campaign_of_taskWrite hheld hw hr hn
    exact absurd hclosed (hs _ ⟨t, List.mem_of_getElem? ht, hphase, hcamp.symm⟩)
  | _ => exact trivial

/-- **Where campaigns stay open while a task is under way**, no closed one is published. -/
theorem sparesClosed_of_staysOpen (hs : Idle s) (l : List Event)
    (hl : Along (step str) StaysOpen s l) : Along (step str) (SparesClosed str) s l :=
  along_of_along (I := fun s : State => HoldsOwn s ∧ Deserted s)
    (fun s e hI hopen => ⟨holdsOwn_of_effect (effect_step str s e) hI.1,
      deserted_step hI.2 hopen⟩)
    (fun s e hI hopen =>
      (sparesClosed_iff_noReopening s e).mpr (noReopening_of_deserted hI.1 hI.2 hopen))
    ⟨holdsOwn_of_idle hs, fun c hbusy => absurd hbusy (not_busy_of_idle hs c)⟩ hl

/-- A publish whose task ends, and a second one after it, are in turn. -/
example : Along (step fun _ => "error") TakesTurns launching
    [publishLaunch, onward 0, onward 0, onward 0, onward 0,
      .request (drawsFrom 50 3 "") 30 10 1 .publish] :=
  ⟨fun _ _ => by decide, trivial, trivial, trivial, trivial, fun _ _ => by decide, trivial⟩

end MarketingSuite.Scheduler.InTurn
