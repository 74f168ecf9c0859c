import MarketingSuite.Campaigns.Dates
import MarketingSuite.Repositories.Answers
import MarketingSuite.Scheduler.Acceptance

/-! # Naive and aware datetimes

`create_campaign` and `update_campaign` of `app/services/campaign.py` compare two dates, and
`schedule_campaign` of `app/services/campaign_scheduler.py` compares one with the aware current
time. The schemas admit datetimes without a time zone, and Python does not compare such a one with
one that has a time zone. -/

namespace MarketingSuite.Campaigns.Awareness

open MarketingSuite.Lib.Programs MarketingSuite.Lib.Tables
open MarketingSuite.Base.Values MarketingSuite.Base.Models MarketingSuite.Base.Schema
open MarketingSuite.Repositories.Base MarketingSuite.Repositories.Answers
open MarketingSuite.Campaigns.Service MarketingSuite.Campaigns.Dates
open MarketingSuite.Scheduler.Service MarketingSuite.Scheduler.Acceptance

/-- The three calls that compare datetimes. -/
inductive Call
  | create (d : Draws) (workspaceId ownerId : Uuid) (data : CampaignCreate)
  | update (workspaceId campaignId : Uuid) (data : CampaignUpdate)
  | schedule (d : Draws) (campaignId : Uuid) (data : CampaignScheduleCreate)
      (workspaceId userId : Uuid)

/-- The service behind a call. -/
def serve : Call → Svc Unit
  | .create d w o data => do
    let _ ← createCampaign d w o data
    pure ()
  | .update w i data => do
    let _ ← updateCampaign w i data
    pure ()
  | .schedule d c data w v => do
    let _ ← scheduleCampaign d c data w v
    pure ()

/-- The call returns or raises an `HTTPException`, and no comparison fails. -/
structure Safe (s : Database) (call : Call) : Prop where
  answered : Answered (serve call) s
  comparable : ∀ s', ¬ (serve call).Raises s .typeError s'

/-- The dates that the call compares are both with or both without a time zone. -/
def SameKind (s : Database) : Call → Prop
  | .create _ _ _ data => ¬ Mixed data.startDate data.endDate
  | .update w i data => ∀ c, IsCampaign s w i c →
    ¬ Mixed (given data.startDate c.startDate) (given data.endDate c.endDate)
  | .schedule _ _ data _ _ => data.publishDate.aware = true

/-- The row is new, and its foreign keys hold. -/
def Fits {ρ : Type} [Keyed ρ Uuid] [Model ρ] (s : Database) (r : ρ) : Prop :=
  Model.references s r = true ∧ ∃ T, (table s : Table ρ).insert r = some T

/-- What the call would write, if it gets that far, breaks no constraint of the database. -/
def Storable (s : Database) : Call → Prop
  | .create d w o data => DatesFit data.startDate data.endDate → KitFits s w data.brandKitId →
    Fits s (campaignOf d w o data)
  | .update w i data => ∀ c, IsCampaign s w i c →
    DatesFit (given data.startDate c.startDate) (given data.endDate c.endDate) →
    KitFits s w (if data.brandKitId.join = c.brandKitId then none else data.brandKitId.join) →
    data.campaignName ≠ some none ∧ Model.references s (patch data c) = true ∧
      ∃ T, s.campaigns.modify c.id (patch data) = some T
  | .schedule d c data w v => (Request.schedule data).guard s d c w →
    (∀ r, IsSchedule s c w r → r.status ≠ .published →
      Model.references s (reschedule data v r) = true) ∧
    ((∀ r, ¬ IsSchedule s c w r) → Fits s
      (scheduleOf d c w v data.publishDate.stored (data.timezone.getD "UTC")))

variable {s : Database} {d : Draws} {w i o c v : Uuid}

theorem safe_iff_answered {call : Call} : Safe s call ↔ Answered (serve call) s :=
  ⟨Safe.answered, fun h => ⟨h, fun s' h' => Bool.noConfusion (h _ s' h')⟩⟩

/-! ### The parts -/

theorem checkBrandKit_cases (s : Database) (w : Uuid) (b : Option Uuid) :
    (KitFits s w b ∧ (checkBrandKit w b).Returns s () s) ∨
      ¬ KitFits s w b ∧ ∀ {β : Type} {f : Unit → Svc β}, Answered (checkBrandKit w b >>= f) s := by
  by_cases hfit : KitFits s w b
  · exact Or.inl ⟨hfit, returns_checkBrandKit.mpr ⟨hfit, rfl⟩⟩
  rcases b with _ | b
  · exact absurd trivial hfit
  refine Or.inr ⟨hfit, fun {β f} => ?_⟩
  have hnone : (selectOne fun k : BrandKit => k.id = b && k.workspaceId = w).Returns s none s := by
    refine returns_selectOne_none fun k hk hp => hfit ⟨k, hk, ?_⟩
    simpa only [Bool.and_eq_true, decide_eq_true_eq] using hp
  have hraises : (checkBrandKit w (some b)).Raises s
      (.http 404 "Brand kit not found in this workspace") s :=
    (Prog.raises_bind_of_returns hnone).mpr
      (Prog.raises_require.mpr ⟨Bool.false_ne_true, rfl, rfl⟩)
  exact (answered_bind_of_raises hraises).mpr rfl

theorem answered_checkDates {α : Type} {t t' : Option DateTime} {f : Unit → Svc α} :
    Answered (checkDates t t' >>= f) s ↔
      ¬ Mixed t t' ∧ (DatesFit t t' → Answered (f ()) s) := by
  rcases checkDates_cases s t t' with ⟨hfit, hret⟩ | ⟨hrev, hraises⟩ | ⟨hmix, hraises⟩
  · have hnot : ¬ Mixed t t' := by
      rintro ⟨a, b, rfl, rfl, hne⟩
      have hlt : a.lt b = some true := hfit
      rw [DateTime.lt, if_neg hne] at hlt
      exact absurd hlt (by simp)
    rw [answered_bind_of_returns hret]
    exact ⟨fun h => ⟨hnot, fun _ => h⟩, fun h => h.2 hfit⟩
  · have hnot : ¬ Mixed t t' := by
      obtain ⟨a, b, rfl, rfl, hlt⟩ := hrev
      rintro ⟨a', b', ha, hb, hne⟩
      obtain rfl := Option.some.inj ha
      obtain rfl := Option.some.inj hb
      rw [DateTime.lt, if_neg hne] at hlt
      exact absurd hlt (by simp)
    refine iff_of_true ((answered_bind_of_raises hraises).mpr rfl) ⟨hnot, fun hfit => ?_⟩
    exact absurd hrev (not_reversed_of_fit hfit)
  · refine iff_of_false (fun h => ?_) fun h => h.1 hmix
    exact Bool.noConfusion ((answered_bind_of_raises hraises).mp h)

theorem answered_checkBrandKit {α : Type} {b : Option Uuid} {f : Unit → Svc α} :
    Answered (checkBrandKit w b >>= f) s ↔ (KitFits s w b → Answered (f ()) s) := by
  rcases checkBrandKit_cases s w b with ⟨hfit, hret⟩ | ⟨hfit, hanswered⟩
  · rw [answered_bind_of_returns hret]
    exact ⟨fun h _ => h, fun h => h hfit⟩
  · exact iff_of_true hanswered fun h => absurd h hfit

/-! ### Creating and updating -/

theorem answered_createCampaign {data : CampaignCreate} :
    Answered (createCampaign d w o data) s ↔
      ¬ Mixed data.startDate data.endDate ∧ (DatesFit data.startDate data.endDate →
        KitFits s w data.brandKitId → Fits s (campaignOf d w o data)) := by
  unfold createCampaign
  rw [answered_checkDates, answered_checkBrandKit, answered_create]
  rfl

theorem answered_getCampaign {α : Type} {f : Campaign → Svc α} :
    Answered (getCampaign w i >>= f) s ↔ ∀ c, IsCampaign s w i c → Answered (f c) s := by
  by_cases hex : ∃ c, IsCampaign s w i c
  · obtain ⟨c, hc⟩ := hex
    rw [answered_bind_of_returns (getCampaign_returns hc)]
    constructor
    · intro h c' hc'
      rw [isCampaign_unique hc' hc]
      exact h
    · exact fun h => h c hc
  · have hraises : (getCampaign w i).Raises s (.http 404 "Campaign not found") s := by
      obtain ⟨found, hget⟩ := exists_getById (ρ := Campaign) s i
      have hf := (getById_spec hget).2
      unfold getCampaign
      rw [Prog.raises_bind_of_returns hget]
      rcases found with _ | c
      · exact (Prog.raises_bind_of_raises (raises_orRaise.mpr ⟨rfl, rfl, rfl⟩)).mpr ⟨rfl, rfl⟩
      · obtain ⟨hm, hk, hd⟩ := (hf c).mp rfl
        have hw : c.workspaceId ≠ w := fun hw => hex ⟨c, hm, hk, hd, hw⟩
        rw [Prog.raises_bind_of_returns (returns_orRaise.mpr ⟨rfl, rfl⟩)]
        exact (Prog.raises_bind_of_raises (Prog.raises_require.mpr ⟨hw, rfl, rfl⟩)).mpr ⟨rfl, rfl⟩
    exact iff_of_true ((answered_bind_of_raises hraises).mpr rfl) fun c hc => absurd ⟨c, hc⟩ hex

theorem answered_updateCampaign {data : CampaignUpdate} :
    Answered (updateCampaign w i data) s ↔
      SameKind s (.update w i data) ∧ Storable s (.update w i data) := by
  unfold updateCampaign
  rw [answered_getCampaign]
  have hone : ∀ c, IsCampaign s w i c →
      ((Answered (do
          checkDates (given data.startDate c.startDate) (given data.endDate c.endDate)
          checkBrandKit w
            (if data.brandKitId.join = c.brandKitId then none else data.brandKitId.join)
          Prog.require (data.campaignName ≠ some none) .integrity
          update c.id (patch data)) s) ↔
        ¬ Mixed (given data.startDate c.startDate) (given data.endDate c.endDate) ∧
        (DatesFit (given data.startDate c.startDate) (given data.endDate c.endDate) →
          KitFits s w
            (if data.brandKitId.join = c.brandKitId then none else data.brandKitId.join) →
          data.campaignName ≠ some none ∧ Model.references s (patch data c) = true ∧
            ∃ T, s.campaigns.modify c.id (patch data) = some T)) := by
    intro c hc
    rw [answered_checkDates, answered_checkBrandKit]
    refine and_congr_right fun _ => imp_congr_right fun _ => imp_congr_right fun _ => ?_
    by_cases hname : data.campaignName ≠ some none
    · rw [answered_pass hname, answered_update (i := c.id) hc.1 rfl]
      exact (and_iff_right hname).symm
    · refine iff_of_false (fun h => ?_) fun h => hname h.1
      exact Bool.noConfusion ((answered_fail hname).mp h)
  constructor
  · exact fun h => ⟨fun c hc => ((hone c hc).mp (h c hc)).1, fun c hc => ((hone c hc).mp (h c hc)).2⟩
  · exact fun h c hc => (hone c hc).mpr ⟨h.1 c hc, h.2 c hc⟩

/-! ### Scheduling -/

theorem answered_logAudit {α : Type} {action : String} {old new : Option (List (String × Json))}
    {t : Time} {a : α} {s' : Database} :
    Answered (logAudit w v action c old new t >>= fun _ => (pure a : Svc α)) s' :=
  answered_of_returns (Prog.returns_bind_pure.mpr ⟨(), Prog.returns_modify.mpr rfl, rfl⟩)

theorem answered_schedule_some {data : CampaignScheduleCreate} {r : CampaignSchedule}
    (hguard : (Request.schedule data).guard s d c w) (hr : IsSchedule s c w r) :
    Answered (scheduleCampaign d c data w v) s ↔
      (r.status ≠ .published → Model.references s (reschedule data v r) = true) := by
  obtain ⟨hlt, k, hk, hkc, hkw, hopen⟩ := hguard
  unfold scheduleCampaign
  rw [answered_bind_of_returns (returns_orRaise.mpr ⟨hlt, rfl⟩), answered_pass rfl,
    answered_bind_of_returns (campaignStatus_some hk hkc hkw),
    answered_bind_of_returns (returns_orRaise.mpr ⟨rfl, rfl⟩), answered_pass hopen,
    answered_bind_of_returns (getByCampaignId_some hr)]
  dsimp only
  by_cases hne : r.status ≠ .published
  · rw [answered_pass hne, answered_bind_of_answered fun _ _ => answered_logAudit,
      answered_update (i := r.id) hr.1 rfl]
    constructor
    · exact fun h _ => h.1
    · intro h
      obtain ⟨T, hupd⟩ := update_returns hr (sets_change v (.schedule data)) (h hne)
      obtain ⟨-, -, -, -, -, T', hT', -⟩ := returns_update.mp hupd
      exact ⟨h hne, T', hT'⟩
  · exact iff_of_true ((answered_fail hne).mpr rfl) fun h => absurd h hne

theorem answered_schedule_none {data : CampaignScheduleCreate}
    (hguard : (Request.schedule data).guard s d c w) (hno : ∀ r, ¬ IsSchedule s c w r) :
    Answered (scheduleCampaign d c data w v) s ↔ Fits s
      (scheduleOf d c w v data.publishDate.stored (data.timezone.getD "UTC")) := by
  obtain ⟨hlt, k, hk, hkc, hkw, hopen⟩ := hguard
  unfold scheduleCampaign
  rw [answered_bind_of_returns (returns_orRaise.mpr ⟨hlt, rfl⟩), answered_pass rfl,
    answered_bind_of_returns (campaignStatus_some hk hkc hkw),
    answered_bind_of_returns (returns_orRaise.mpr ⟨rfl, rfl⟩), answered_pass hopen,
    answered_bind_of_returns (getByCampaignId_none hno)]
  dsimp only
  rw [answered_bind_of_answered fun _ _ => answered_logAudit, answered_create]
  rfl

theorem answered_schedule_of_not_guard {data : CampaignScheduleCreate}
    (haware : data.publishDate.aware = true)
    (hguard : ¬ (Request.schedule data).guard s d c w) :
    Answered (scheduleCampaign d c data w v) s := by
  have hlt : data.publishDate.lt ⟨d.now 0, true⟩ =
      some (decide (data.publishDate.instant < d.now 0)) := if_pos haware
  unfold scheduleCampaign
  rw [answered_bind_of_returns (returns_orRaise.mpr ⟨hlt, rfl⟩)]
  by_cases hpast : decide (data.publishDate.instant < d.now 0) = false
  · rw [answered_pass hpast]
    by_cases hcamp : ∃ k ∈ s.campaigns.rows, k.id = c ∧ k.workspaceId = w
    · obtain ⟨k, hk, hkc, hkw⟩ := hcamp
      rw [answered_bind_of_returns (campaignStatus_some hk hkc hkw),
        answered_bind_of_returns (returns_orRaise.mpr ⟨rfl, rfl⟩)]
      refine (answered_fail fun hopen => hguard ⟨?_, k, hk, hkc, hkw, hopen⟩).mpr rfl
      rw [hlt, hpast]
    · have hnone : (campaignStatus c w).Returns s none s := by
        refine Prog.returns_bind_pure.mpr ⟨none, returns_selectOne_none fun k hk hp => ?_, rfl⟩
        simp only [Bool.and_eq_true, decide_eq_true_eq] at hp
        exact hcamp ⟨k, hk, hp⟩
      rw [answered_bind_of_returns hnone]
      exact (answered_bind_of_raises (raises_orRaise.mpr ⟨rfl, rfl, rfl⟩)).mpr rfl
  · exact (answered_fail hpast).mpr rfl

theorem not_answered_schedule_of_naive {data : CampaignScheduleCreate}
    (haware : data.publishDate.aware ≠ true) :
    ¬ Answered (scheduleCampaign d c data w v) s := by
  have hlt : data.publishDate.lt ⟨d.now 0, true⟩ = none := if_neg haware
  intro h
  have hraises : (orRaise (data.publishDate.lt ⟨d.now 0, true⟩) .typeError : Svc Bool).Raises s
      .typeError s := raises_orRaise.mpr ⟨hlt, rfl, rfl⟩
  exact Bool.noConfusion ((answered_bind_of_raises hraises).mp h)

theorem answered_scheduleCampaign {data : CampaignScheduleCreate} :
    Answered (scheduleCampaign d c data w v) s ↔
      SameKind s (.schedule d c data w v) ∧ Storable s (.schedule d c data w v) := by
  by_cases haware : data.publishDate.aware = true
  · by_cases hguard : (Request.schedule data).guard s d c w
    · by_cases hex : ∃ r, IsSchedule s c w r
      · obtain ⟨r, hr⟩ := hex
        rw [answered_schedule_some hguard hr]
        constructor
        · refine fun h => ⟨haware, fun _ => ⟨fun r' hr' => ?_, fun hno => absurd hr (hno r)⟩⟩
          rw [isSchedule_unique hr' hr]
          exact h
        · exact fun h => (h.2 hguard).1 r hr
      · have hno : ∀ r, ¬ IsSchedule s c w r := fun r hr => hex ⟨r, hr⟩
        rw [answered_schedule_none hguard hno]
        constructor
        · exact fun h => ⟨haware, fun _ => ⟨fun r hr => absurd hr (hno r), fun _ => h⟩⟩
        · exact fun h => (h.2 hguard).2 hno
    · exact iff_of_true (answered_schedule_of_not_guard haware hguard)
        ⟨haware, fun h => absurd h hguard⟩
  · exact iff_of_false (not_answered_schedule_of_naive haware) fun h => haware h.1

/-! ### All three calls -/

/-- **A call is safe** exactly if the dates that it compares are of one kind, and the row that it
would write breaks no constraint of the database. -/
theorem safe_iff (s : Database) (call : Call) : Safe s call ↔ SameKind s call ∧ Storable s call := by
  rw [safe_iff_answered]
  cases call with
  | create d w o data =>
    rw [serve, answered_bind_pure]
    exact answered_createCampaign
  | update w i data =>
    rw [serve, answered_bind_pure]
    exact answered_updateCampaign
  | schedule d c data w v =>
    rw [serve, answered_bind_pure]
    exact answered_scheduleCampaign

/-- A campaign that starts at a time without a time zone and ends at one with a time zone. -/
def mixedDates : Call := .create (drawsFrom 30 0 "") 10 1
  { campaignName := "Launch", startDate := some ⟨seconds 10, false⟩,
    endDate := some ⟨seconds 20, true⟩ }

/-- **The comparison fails**: the owner gets a server error, and no answer about the dates. -/
theorem mixed_dates_crash : ¬ Safe twoStudios mixedDates := by
  intro h
  have hraises : (serve mixedDates).Raises twoStudios .typeError twoStudios := rfl
  exact h.comparable twoStudios hraises

end MarketingSuite.Campaigns.Awareness
