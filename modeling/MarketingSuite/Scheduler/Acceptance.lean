import MarketingSuite.Scheduler.Service

/-! # Which requests are accepted

`perform_spec` says what a request that returns did. Here is when it returns: it finds a schedule in
an admitted status, or there is none and it makes one, and no constraint of the database forbids
it. -/

namespace MarketingSuite.Scheduler.Acceptance

open MarketingSuite.Lib.Programs MarketingSuite.Lib.Tables
open MarketingSuite.Base.Values MarketingSuite.Base.Models MarketingSuite.Base.Schema
open MarketingSuite.Repositories.Base MarketingSuite.Scheduler.Service

/-- The schedule of the campaign is there, in a status that admits the request, and the change keeps
its foreign keys. -/
def Finds (db : Database) (c w v : Uuid) (q : Request) : Prop :=
  ∃ r, IsSchedule db c w r ∧ q.admits r.status = true ∧ Model.references db (q.change v r) = true

/-- The request makes the schedule, and the campaign has none, in no workspace. -/
def Makes (db : Database) (d : Draws) (c w v : Uuid) (q : Request) : Prop :=
  q.creates = true ∧ (∀ r ∈ db.campaignSchedules.rows, r.campaignId ≠ c ∧ r.id ≠ d.uuid 0) ∧
    db.workspaces.has w = true ∧ db.campaigns.has c = true ∧ db.users.has v = true

/-- The requests that are accepted. -/
def Accepts (db : Database) (d : Draws) (c w v : Uuid) (q : Request) : Prop :=
  q.guard db d c w ∧ (Finds db c w v q ∨ Makes db d c w v q)

variable {s s' : Database} {d : Draws} {c w v : Uuid} {q : Request} {r : CampaignSchedule}
  {f : CampaignSchedule → CampaignSchedule} {st : ScheduleStatus}

theorem isSchedule_unique {r' : CampaignSchedule} (h : IsSchedule s c w r)
    (h' : IsSchedule s c w r') : r = r' := by
  refine s.campaignSchedules.eq_of_not_compatible h.1 h'.1 ?_
  simp [Keyed.compatible, h.2.1, h'.2.1]

/-! ### The calls return -/

theorem getByCampaignId_some (hr : IsSchedule s c w r) :
    (getByCampaignId c w).Returns s (some r) s := by
  refine returns_selectOne_some hr.1 (by simp [hr.2.1, hr.2.2]) fun q hq hcw => ?_
  simp only [Bool.and_eq_true, decide_eq_true_eq] at hcw
  exact isSchedule_unique ⟨hq, hcw⟩ hr

theorem getByCampaignId_none (h : ∀ r, ¬ IsSchedule s c w r) :
    (getByCampaignId c w).Returns s none s := by
  refine returns_selectOne_none fun r hr hcw => ?_
  simp only [Bool.and_eq_true, decide_eq_true_eq] at hcw
  exact h r ⟨hr, hcw⟩

theorem campaignStatus_some {k : Campaign} (hk : k ∈ s.campaigns.rows) (hkc : k.id = c)
    (hkw : k.workspaceId = w) : (campaignStatus c w).Returns s (some k.status) s := by
  refine Prog.returns_bind_pure.mpr ⟨some k, ?_, rfl⟩
  refine returns_selectOne_some hk (by simp [hkc, hkw]) fun q hq hp => ?_
  simp only [Bool.and_eq_true, decide_eq_true_eq] at hp
  exact s.campaigns.eq_of_key_eq hq hk (hp.1.trans hkc.symm)

theorem update_returns (hr : IsSchedule s c w r) (hf : Sets st f)
    (href : Model.references s (f r) = true) :
    ∃ T, (update r.id f).Returns s (f r) { s with campaignSchedules := T } := by
  obtain ⟨T, hT⟩ : ∃ T, s.campaignSchedules.modify r.id f = some T := by
    refine Table.exists_modify (fun q => (hf q).2.1) fun q q' => ?_
    simp only [Keyed.compatible, (hf q).2.2.1]
  exact ⟨T, returns_update.mpr ⟨r, hr.1, rfl, rfl, href, T, hT, rfl⟩⟩

theorem create_returns (h : Makes s d c w v q) (t : DateTime) (z : String) :
    ∃ T, (create (scheduleOf d c w v t z)).Returns s (scheduleOf d c w v t z)
        { s with campaignSchedules := T } ∧ scheduleOf d c w v t z ∈ T.rows ∧
      Model.references s (scheduleOf d c w v t z) = true := by
  obtain ⟨-, hfree, hw, hc, hv⟩ := h
  have href : Model.references s (scheduleOf d c w v t z) = true := by
    simp [Model.references, scheduleOf, optionalRef, hw, hc, hv]
  obtain ⟨T, hT⟩ : ∃ T, s.campaignSchedules.insert (scheduleOf d c w v t z) = some T :=
    Table.exists_insert fun r hr => ⟨(hfree r hr).2, decide_eq_true (hfree r hr).1⟩
  exact ⟨T, returns_create.mpr ⟨rfl, href, T, hT, rfl⟩, Table.mem_insert_self hT, href⟩

theorem not_isSchedule_of_makes (h : Makes s d c w v q) : ∀ r, ¬ IsSchedule s c w r :=
  fun r hr => (h.2.1 r hr.1).1 hr.2.1

theorem succeeds_logAudit {α : Type} (action : String) (old new : Option (List (String × Json)))
    (t : Time) (a : α) :
    (logAudit w v action c old new t >>= fun _ => (pure a : Svc α)).succeeds s = true := rfl

/-! ### The requests return -/

theorem scheduleCampaign_succeeds {data : CampaignScheduleCreate}
    (h : Accepts s d c w v (.schedule data)) :
    (scheduleCampaign d c data w v).succeeds s = true := by
  obtain ⟨⟨hlt, k, hk, hkc, hkw, hopen⟩, hrow⟩ := h
  unfold scheduleCampaign
  rw [Prog.succeeds_bind (returns_orRaise.mpr ⟨hlt, rfl⟩),
    Prog.succeeds_require rfl,
    Prog.succeeds_bind (campaignStatus_some hk hkc hkw),
    Prog.succeeds_bind (returns_orRaise.mpr ⟨rfl, rfl⟩),
    Prog.succeeds_require hopen]
  rcases hrow with ⟨r, hr, hadm, href⟩ | hmk
  · have hne : r.status ≠ .published := by simpa [Request.admits] using hadm
    obtain ⟨T, hupd⟩ :=
      update_returns (f := reschedule data v) hr (sets_change v (.schedule data)) href
    rw [Prog.succeeds_bind (getByCampaignId_some hr)]
    dsimp only
    rw [Prog.succeeds_require hne, Prog.succeeds_bind hupd, succeeds_logAudit]
  · obtain ⟨T, hcr, -⟩ := create_returns hmk data.publishDate.stored (data.timezone.getD "UTC")
    rw [Prog.succeeds_bind (getByCampaignId_none (not_isSchedule_of_makes hmk))]
    dsimp only
    rw [Prog.succeeds_bind hcr, succeeds_logAudit]

theorem publishImmediately_succeeds (h : Accepts s d c w v .publish) :
    (publishImmediately d c w v).succeeds s = true := by
  have hsched : ∃ r T T', (scheduleToPublish d c w v).Returns s r { s with campaignSchedules := T } ∧
      ∃ b, (update r.id fun s : CampaignSchedule => { s with status := .scheduled }).Returns
        { s with campaignSchedules := T } b { s with campaignSchedules := T' } := by
    rcases h.2 with ⟨r, hr, hadm, href⟩ | hmk
    · have hne : r.status ≠ .published := by simpa [Request.admits] using hadm
      obtain ⟨T', hupd⟩ := update_returns hr (sets_change v .publish) href
      refine ⟨r, s.campaignSchedules, T', ?_, _, hupd⟩
      exact Prog.returns_bind.mpr ⟨_, _, getByCampaignId_some hr, Prog.returns_bind.mpr
        ⟨(), _, Prog.returns_require.mpr ⟨hne, rfl⟩, Prog.returns_pure.mpr ⟨rfl, rfl⟩⟩⟩
    · obtain ⟨T, hcr, hmem, href⟩ := create_returns hmk ⟨d.now 0, true⟩ "UTC"
      -- the update that follows sets the status that the new row has
      have hfix : T.modify (d.uuid 0) (fun s => { s with status := .scheduled }) = some T := by
        refine Table.modify_of_fixed fun r hr hk => ?_
        rw [T.eq_of_key_eq hr hmem hk]
        rfl
      refine ⟨_, T, T, ?_, _, returns_update.mpr ⟨_, hmem, rfl, rfl, href, T, hfix, rfl⟩⟩
      exact Prog.returns_bind.mpr ⟨_, _, getByCampaignId_none (not_isSchedule_of_makes hmk), hcr⟩
  obtain ⟨r, T, T', hr, b, hupd⟩ := hsched
  unfold publishImmediately
  rw [Prog.succeeds_bind hr, Prog.succeeds_bind hupd, succeeds_logAudit]

theorem changeSchedule_succeeds {admits : ScheduleStatus → Bool} {refused action : String}
    {old new : CampaignSchedule → Option (List (String × Json))} {queued : List Job}
    (hr : IsSchedule s c w r) (hadm : admits r.status = true) (hf : Sets st f)
    (href : Model.references s (f r) = true) :
    (changeSchedule d c w v admits refused f action old new queued).succeeds s = true := by
  obtain ⟨T, hupd⟩ := update_returns hr hf href
  have hget : (getAndValidateSchedule c w).Returns s r s :=
    Prog.returns_bind.mpr ⟨_, _, getByCampaignId_some hr, returns_orRaise.mpr ⟨rfl, rfl⟩⟩
  unfold changeSchedule
  rw [Prog.succeeds_bind hget, Prog.succeeds_require hadm, Prog.succeeds_bind hupd,
    succeeds_logAudit]

theorem finds_of_accepts (h : Accepts s d c w v q) (hq : q.creates = false) : Finds s c w v q := by
  rcases h.2 with hfind | hmk
  · exact hfind
  · exact absurd (hq.symm.trans hmk.1) Bool.noConfusion

theorem makes_of_added {t : DateTime} {z : String} (hcr : q.creates = true)
    (h : Added s (scheduleOf d c w v t z) s') : Makes s d c w v q := by
  obtain ⟨href, T, hT, -⟩ := h
  simp only [Model.references, scheduleOf, optionalRef, Bool.and_eq_true] at href
  refine ⟨hcr, fun r hr => ?_, href.1.1.1, href.1.1.2, href.1.2⟩
  obtain ⟨hne, hcomp⟩ := Table.apart_of_insert hT hr
  exact ⟨of_decide_eq_true hcomp, hne⟩

/-- **Acceptance**: a request returns exactly if it is one of those. -/
theorem succeeds_iff_accepts :
    (perform d c w v q).succeeds s = true ↔ Accepts s d c w v q := by
  constructor
  · intro h
    obtain ⟨a, s', h⟩ := Prog.succeeds_iff.mp h
    have hserved := perform_spec h
    refine ⟨hserved.guard, ?_⟩
    rcases hserved.row with ⟨r, hr, hadm, -, href, -⟩ | ⟨hcr, -, ⟨t, z, ha⟩, hadd⟩
    · exact Or.inl ⟨r, hr, hadm, href⟩
    · rw [ha] at hadd
      exact Or.inr (makes_of_added hcr hadd)
  · intro h
    cases q with
    | schedule data => exact scheduleCampaign_succeeds h
    | publish => exact publishImmediately_succeeds h
    | pause =>
      obtain ⟨r, hr, hadm, href⟩ := finds_of_accepts h rfl
      exact changeSchedule_succeeds hr hadm (sets_change v .pause) href
    | resume =>
      obtain ⟨r, hr, hadm, href⟩ := finds_of_accepts h rfl
      exact changeSchedule_succeeds hr hadm (sets_change v .resume) href
    | cancel =>
      obtain ⟨r, hr, hadm, href⟩ := finds_of_accepts h rfl
      exact changeSchedule_succeeds hr hadm (sets_change v .cancel) href
    | retry =>
      obtain ⟨r, hr, hadm, href⟩ := finds_of_accepts h rfl
      exact changeSchedule_succeeds hr hadm (sets_change v .retry) href

end MarketingSuite.Scheduler.Acceptance
