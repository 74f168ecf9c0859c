import MarketingSuite.Scheduler.Acceptance
import MarketingSuite.Scheduler.System

/-! # Schedules inside their tenant

`schedule_campaign` looks the campaign up under the workspace. `publish_immediately` only looks for
a schedule of it there, and if there is none it makes one, for whatever campaign it was given:
nothing but the foreign key is checked. Every schedule is in the workspace of its campaign exactly
in the runs in which no such call names the campaign of another workspace. -/

namespace MarketingSuite.Scheduler.Tenancy

open MarketingSuite.Lib.Programs MarketingSuite.Lib.Tables MarketingSuite.Lib.Runs
open MarketingSuite.Base.Values MarketingSuite.Base.Models MarketingSuite.Base.Schema
open MarketingSuite.Repositories.Base MarketingSuite.Campaigns.Service
open MarketingSuite.Scheduler.Service MarketingSuite.Scheduler.Acceptance
open MarketingSuite.Scheduler.Task MarketingSuite.Scheduler.System

/-- The campaign `c` is of the workspace `w`. -/
def IsOf (db : Database) (c w : Uuid) : Prop :=
  ∃ k ∈ db.campaigns.rows, k.id = c ∧ k.workspaceId = w

/-- Every schedule is in the workspace of its campaign. -/
def InTenant (s : State) : Prop :=
  ∀ r ∈ s.db.campaignSchedules.rows, IsOf s.db r.campaignId r.workspaceId

/-- The workspace that a step acts for. -/
def actsFor (s : State) : Event → Option Uuid
  | .request _ _ w _ _ => some w
  | .changeStatus w _ _ => some w
  | .deleteCampaign _ w _ => some w
  | .advance k _ _ => s.tasks[k]?.map fun t => t.job.workspaceId

/-- Every schedule that a step makes or changes is that of a campaign of its workspace. -/
def OwnSchedules (str : Exc → String) (s : State) (e : Event) : Prop :=
  ∀ r ∈ (step str s e).db.campaignSchedules.rows, r ∉ s.db.campaignSchedules.rows →
    ∃ w, actsFor s e = some w ∧ IsOf s.db r.campaignId w

/-- The campaign `c` is of another workspace than `w` and has no schedule, and no other constraint
keeps `w` from making one. -/
def Intrudes (db : Database) (d : Draws) (c w v : Uuid) : Prop :=
  (∃ k ∈ db.campaigns.rows, k.id = c ∧ k.workspaceId ≠ w) ∧ Makes db d c w v .publish

/-- No `publish_immediately` call names the campaign of another workspace that has no schedule. -/
def NoIntrusion (s : State) : Event → Prop
  | .request d c w v .publish => ¬ Intrudes s.db d c w v
  | _ => True

instance (db : Database) (c w : Uuid) : Decidable (IsOf db c w) :=
  inferInstanceAs (Decidable (∃ k ∈ _, _))

instance : DecidablePred InTenant := fun _ => inferInstanceAs (Decidable (∀ r ∈ _, _))

instance (db : Database) (d : Draws) (c w v : Uuid) : Decidable (Intrudes db d c w v) :=
  inferInstanceAs (Decidable ((∃ k ∈ _, _) ∧ _ ∧ (∀ r ∈ _, _) ∧ _ ∧ _ ∧ _))

instance (s : State) : ∀ e, Decidable (NoIntrusion s e)
  | .request d c w v .publish => inferInstanceAs (Decidable (¬ Intrudes s.db d c w v))
  | .request _ _ _ _ (.schedule _) | .request _ _ _ _ .pause | .request _ _ _ _ .resume
  | .request _ _ _ _ .cancel | .request _ _ _ _ .retry => isTrue trivial
  | .advance .. | .changeStatus .. | .deleteCampaign .. => isTrue trivial

/-- The row that a task holds is the schedule of its campaign in its workspace. -/
def HoldsOwn (s : State) : Prop := ∀ t ∈ s.tasks, ∀ r, held t.phase = some r →
  ∃ q ∈ s.db.campaignSchedules.rows,
    q.id = r.id ∧ q.campaignId = t.job.campaignId ∧ q.workspaceId = t.job.workspaceId

/-- **The invariant.** -/
def Inv (s : State) : Prop := InTenant s ∧ HoldsOwn s

variable {str : Exc → String} {s s' : State} {e : Event} {db db' : Database} {d : Draws}
  {c w v : Uuid}

/-! ### An intrusion succeeds -/

theorem isOf_unique {w' : Uuid} (h : IsOf db c w) (h' : IsOf db c w') : w = w' := by
  obtain ⟨k, hk, hkc, rfl⟩ := h
  obtain ⟨k', hk', hkc', rfl⟩ := h'
  rw [db.campaigns.eq_of_key_eq hk hk' (hkc.trans hkc'.symm)]

theorem isOf_kept (h : CampaignsKept db db') (hc : IsOf db c w) : IsOf db' c w := by
  obtain ⟨k, hk, rfl, rfl⟩ := hc
  exact h k hk

theorem publish_of_intrudes (h : Intrudes db d c w v) :
    ∃ a db', (perform d c w v .publish).Returns db a db' ∧ db'.campaigns = db.campaigns ∧
      ∃ r ∈ db'.campaignSchedules.rows, r.campaignId = c ∧ r.workspaceId = w := by
  have haccepts : Accepts db d c w v .publish := ⟨trivial, Or.inr h.2⟩
  obtain ⟨a, db', hret⟩ := Prog.succeeds_iff.mp (succeeds_iff_accepts.mpr haccepts)
  refine ⟨a, db', hret, ?_⟩
  rcases (perform_spec hret).row with ⟨r, hr, -⟩ | ⟨-, -, ⟨t, z, ha⟩, hadd⟩
  · exact absurd hr (not_isSchedule_of_makes h.2 r)
  · have hmem := (mem_of_added hadd).mpr (Or.inr rfl)
    obtain ⟨-, T, -, log, -, rfl⟩ := hadd
    exact ⟨rfl, a.1, hmem, by rw [ha]; rfl, by rw [ha]; rfl⟩

/-! ### One step -/

/-- A schedule that a request adds is that of a campaign of its workspace, if it does not intrude.
-/
theorem isOf_of_added {q : Request} {t : DateTime} {z : String} (hguard : q.guard db d c w)
    (hcr : q.creates = true) (hadd : Added db (scheduleOf d c w v t z) db')
    (hno : q = .publish → ¬ Intrudes db d c w v) : IsOf db c w := by
  cases q with
  | schedule data =>
    obtain ⟨-, k, hk, hkc, hkw, -⟩ := hguard
    exact ⟨k, hk, hkc, hkw⟩
  | publish =>
    have hmk : Makes db d c w v .publish := makes_of_added rfl hadd
    obtain ⟨k, hk, hkc⟩ := Table.has_iff.mp hmk.2.2.2.1
    by_contra hout
    exact hno rfl ⟨⟨k, hk, hkc, fun hkw => hout ⟨k, hk, hkc, hkw⟩⟩, hmk⟩
  | _ => exact absurd hcr (by simp [Request.creates])

/-- **What a step that does not intrude does to the schedules**: it leaves a row as it is, it
changes one of the workspace it acts for, or it makes one for a campaign of that workspace. -/
theorem row_of_effect (he : Effect str s e s') (hno : NoIntrusion s e) (hheld : HoldsOwn s)
    {r : CampaignSchedule} (hr : r ∈ s'.db.campaignSchedules.rows) :
    r ∈ s.db.campaignSchedules.rows ∨ ∃ w, actsFor s e = some w ∧ r.workspaceId = w ∧
      ((∃ q ∈ s.db.campaignSchedules.rows, q.campaignId = r.campaignId ∧ q.workspaceId = w) ∨
        IsOf s.db r.campaignId w) := by
  cases he with
  | refused => exact Or.inl hr
  | @served d c w v q a db h =>
    rcases h.row with ⟨p, hp, -, ha, hrew⟩ | ⟨hcr, -, ⟨t, z, ha⟩, hadd⟩
    · rcases (mem_of_rewritten hp.1 hrew).mp hr with ⟨hold, -⟩ | rfl
      · exact Or.inl hold
      · obtain ⟨-, -, hfc, hfw⟩ := sets_change v q p
        refine Or.inr ⟨w, rfl, by rw [hfw, hp.2.2], Or.inl ⟨p, hp.1, hfc.symm, hp.2.2⟩⟩
    · rcases (mem_of_added hadd).mp hr with hold | rfl
      · exact Or.inl hold
      · rw [ha] at hadd ⊢
        refine Or.inr ⟨w, rfl, rfl, Or.inr (isOf_of_added h.guard hcr hadd ?_)⟩
        rintro rfl
        exact hno
  | campaign _ _ _ => exact Or.inl hr
  | @moved k d fault t ph db ht hm =>
    cases hm with
    | quiet => exact Or.inl hr
    | logged => exact Or.inl hr
    | @wrote p st f T hw hph hex hf hT _ _ =>
      obtain ⟨q, hq, hqi, hqc, hqw⟩ := hheld t (List.mem_of_getElem? ht) p hph
      rw [← hqi] at hT
      rcases (mem_of_modified hq hT).mp hr with ⟨hold, -⟩ | rfl
      · exact Or.inl hold
      · obtain ⟨-, -, hfc, hfw⟩ := hf q
        refine Or.inr ⟨t.job.workspaceId, by simp [actsFor, ht], by rw [hfw, hqw], ?_⟩
        exact Or.inl ⟨q, hq, hfc.symm, hqw⟩

theorem holdsOwn_of_kept {l : List Running} (hk : SchedulesKept db db') (h : HoldsOwn ⟨db, l⟩) :
    HoldsOwn ⟨db', l⟩ := by
  intro t ht r hr
  obtain ⟨q, hq, hqi, hqc, hqw⟩ := h t ht r hr
  obtain ⟨q', hq', hi, hc, hw⟩ := hk q hq
  exact ⟨q', hq', hi.trans hqi, hc.trans hqc, hw.trans hqw⟩

theorem holdsOwn_of_effect (he : Effect str s e s') (h : HoldsOwn s) : HoldsOwn s' := by
  have hkept := schedulesKept_of_effect he
  cases he with
  | refused => exact h
  | @served d c w v q a db hserved =>
    intro t ht r hr
    rcases List.mem_append.mp ht with ht | ht
    · exact holdsOwn_of_kept hkept h t ht r hr
    · obtain ⟨j, -, rfl⟩ := List.mem_map.mp ht
      exact absurd hr (by simp [held])
  | campaign _ _ _ => exact holdsOwn_of_kept hkept h
  | @moved k d fault t ph db ht hm =>
    intro t' ht' r hr
    rcases List.mem_or_eq_of_mem_set ht' with hold | rfl
    · exact holdsOwn_of_kept hkept h t' hold r hr
    · cases hm with
      | quiet _ _ hrow =>
        obtain ⟨hmem, hc, hw⟩ := hrow r hr
        exact ⟨r, hmem, rfl, hc, hw⟩
      | wrote _ _ _ _ _ _ hrow => rw [hrow] at hr; exact absurd hr (by simp)
      | logged _ _ _ _ hrow => rw [hrow] at hr; exact absurd hr (by simp)

theorem campaignsKept_of_effect (he : Effect str s e s') : CampaignsKept s.db s'.db := by
  have hrefl : ∀ k ∈ s.db.campaigns.rows, ∃ k' ∈ s.db.campaigns.rows,
      k'.id = k.id ∧ k'.workspaceId = k.workspaceId := fun k hk => ⟨k, hk, rfl, rfl⟩
  cases he with
  | refused => exact hrefl
  | served h =>
    rcases h.row with ⟨-, -, -, -, -, T, -, log, -, rfl⟩ | ⟨-, -, -, -, T, -, log, -, rfl⟩
    · exact hrefl
    · exact hrefl
  | campaign _ _ hC => exact hC
  | moved ht hm => cases hm <;> exact hrefl

/-- A step that does not intrude keeps the invariant, and touches the schedules of its own
workspace. -/
theorem inv_step (hs : Inv s) (hno : NoIntrusion s e) :
    Inv (step str s e) ∧ OwnSchedules str s e := by
  have he := effect_step str s e
  have hrow : ∀ r ∈ (step str s e).db.campaignSchedules.rows, r ∈ s.db.campaignSchedules.rows ∨
      ∃ w, actsFor s e = some w ∧ r.workspaceId = w ∧ IsOf s.db r.campaignId w := by
    intro r hr
    rcases row_of_effect he hno hs.2 hr with hold | ⟨w, hw, hrw, ⟨q, hq, hqc, hqw⟩ | hof⟩
    · exact Or.inl hold
    · refine Or.inr ⟨w, hw, hrw, ?_⟩
      rw [← hqc, ← hqw]
      exact hs.1 q hq
    · exact Or.inr ⟨w, hw, hrw, hof⟩
  refine ⟨⟨fun r hr => isOf_kept (campaignsKept_of_effect he) ?_, holdsOwn_of_effect he hs.2⟩,
    fun r hr hnew => ?_⟩
  · rcases hrow r hr with hold | ⟨w, -, rfl, hof⟩
    · exact hs.1 r hold
    · exact hof
  · rcases hrow r hr with hold | ⟨w, hw, -, hof⟩
    · exact absurd hold hnew
    · exact ⟨w, hw, hof⟩

theorem noIntrusion_of_inTenant (h : InTenant (step str s e)) : NoIntrusion s e := by
  cases e with
  | request d c w v q =>
    cases q with
    | publish =>
      intro hint
      obtain ⟨a, db', hret, hcamp, r, hr, rfl, rfl⟩ := publish_of_intrudes hint
      have hrun : (perform d r.campaignId r.workspaceId v .publish).run s.db = (.ok a, db') := hret
      simp only [step, serve, hrun] at h
      obtain ⟨⟨k, hk, hkc, hkw⟩, -⟩ := hint
      obtain ⟨k', hk', hkc', hkw'⟩ := h r hr
      have hmem : k' ∈ s.db.campaigns.rows := by
        rw [← hcamp]
        exact hk'
      exact hkw (isOf_unique ⟨k, hk, hkc, rfl⟩ ⟨k', hmem, hkc', hkw'⟩)
    | _ => exact trivial
  | _ => exact trivial

/-! ### Runs -/

/-- **Schedules stay inside their tenant**, and every step touches those of its own workspace only,
in a run exactly if no `publish_immediately` call names the campaign of another workspace. -/
theorem inTenant_iff (str : Exc → String) (s : State) (l : List Event) (hs : InTenant s)
    (htasks : s.tasks = []) :
    (Always (step str) InTenant s l ∧ Along (step str) (OwnSchedules str) s l) ↔
      Along (step str) NoIntrusion s l := by
  have hheld : HoldsOwn s := by
    intro t ht
    rw [htasks] at ht
    exact absurd ht List.not_mem_nil
  constructor
  · rintro ⟨hin, -⟩
    rw [along_iff]
    intro pre e hpre
    have hnext := always_iff.mp hin _ hpre
    rw [run_append, run_cons, run_nil] at hnext
    exact noIntrusion_of_inTenant hnext
  · intro hl
    have hinv : Always (step str) Inv s l :=
      always_of_along (fun _ _ hs hno => (inv_step hs hno).1) ⟨hs, hheld⟩ hl
    refine ⟨always_iff.mpr fun pre hpre => (always_iff.mp hinv pre hpre).1, ?_⟩
    exact along_of_along (fun _ _ hs hno => (inv_step hs hno).1)
      (fun _ _ hs hno => (inv_step hs hno).2) ⟨hs, hheld⟩ hl

/-- The owner publishes, and the task ends. -/
theorem inTenant_iff_launching :
    Always (step fun _ => "error") InTenant launching [publishLaunch, onward 0, onward 0] ∧
      Along (step fun _ => "error") (OwnSchedules fun _ => "error") launching
        [publishLaunch, onward 0, onward 0] :=
  (inTenant_iff _ launching _ (by decide) rfl).mpr (by decide)

/-- **A campaign of somebody else**: a user of the workspace 20 publishes the campaign of the
workspace 10. -/
theorem rival_publishes_launch : ¬ Always (step fun _ => "error") InTenant launching
    [.request (drawsFrom 40 1 "") 30 20 2 .publish] := by
  decide

end MarketingSuite.Scheduler.Tenancy
