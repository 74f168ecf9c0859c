import MarketingSuite.Campaigns.Service
import MarketingSuite.Lib.Runs

/-! # The dates of a campaign

`create_campaign` and `update_campaign` of `app/services/campaign.py` ask for an end after the
start. The update tests the given dates merged with the stored ones under `is not None`, and writes
the fields that are set, null ones too. So a stored date that the body sets to null is tested and
not stored: such a body is refused where the other date moves past the one that goes. -/

namespace MarketingSuite.Campaigns.Dates

open MarketingSuite.Lib.Programs MarketingSuite.Lib.Tables MarketingSuite.Lib.Runs
open MarketingSuite.Base.Values MarketingSuite.Base.Models MarketingSuite.Base.Schema
open MarketingSuite.Repositories.Base MarketingSuite.Campaigns.Service

/-! ### Three outcomes of the check -/

/-- "End date must be after start date". -/
def dateError : Exc := .http 400 "End date must be after start date"

/-- The end is not after the start, and both or neither have a time zone. -/
def Reversed (start end_ : Option DateTime) : Prop :=
  ∃ a b, start = some a ∧ end_ = some b ∧ a.lt b = some false

/-- One date has a time zone and the other has none. -/
def Mixed (start end_ : Option DateTime) : Prop :=
  ∃ a b, start = some a ∧ end_ = some b ∧ a.aware ≠ b.aware

variable {s s' : Database} {w i o : Uuid} {c a : Campaign} {data : CampaignUpdate} {d : Draws}
  {t t' : Option DateTime} {e : Exc}

/-- **The check** passes, refuses, or fails on the comparison. -/
theorem checkDates_cases (s : Database) (t t' : Option DateTime) :
    (DatesFit t t' ∧ (checkDates t t').Returns s () s) ∨
      (Reversed t t' ∧ (checkDates t t').Raises s dateError s) ∨
      (Mixed t t' ∧ (checkDates t t').Raises s .typeError s) := by
  rcases t with _ | a
  · exact Or.inl ⟨trivial, rfl⟩
  rcases t' with _ | b
  · exact Or.inl ⟨trivial, rfl⟩
  by_cases haware : a.aware = b.aware
  · have hlt : a.lt b = some (decide (a.instant < b.instant)) := if_pos haware
    by_cases h : a.instant < b.instant
    · have hfit : DatesFit (some a) (some b) := hlt.trans (by rw [decide_eq_true h])
      exact Or.inl ⟨hfit, returns_checkDates.mpr ⟨hfit, rfl⟩⟩
    · have hrev : a.lt b = some false := hlt.trans (by rw [decide_eq_false h])
      refine Or.inr (Or.inl ⟨⟨a, b, rfl, rfl, hrev⟩, ?_⟩)
      refine (Prog.raises_bind_of_returns (returns_orRaise.mpr ⟨hrev, rfl⟩)).mpr ?_
      exact Prog.raises_require.mpr ⟨Bool.false_ne_true, rfl, rfl⟩
  · have hlt : a.lt b = none := if_neg haware
    refine Or.inr (Or.inr ⟨⟨a, b, rfl, rfl, haware⟩, ?_⟩)
    exact (Prog.raises_bind_of_raises (raises_orRaise.mpr ⟨hlt, rfl, rfl⟩)).mpr ⟨rfl, rfl⟩

theorem not_reversed_of_fit (h : DatesFit t t') : ¬ Reversed t t' := by
  rintro ⟨a, b, rfl, rfl, hlt⟩
  have hfit : a.lt b = some true := h
  rw [hfit] at hlt
  exact absurd hlt (by decide)

theorem checkDates_refuses_iff :
    (checkDates t t').Raises s dateError s' ↔ Reversed t t' ∧ s' = s := by
  rcases checkDates_cases s t t' with ⟨hfit, hret⟩ | ⟨hrev, hraises⟩ | ⟨⟨a, b, rfl, rfl, hne⟩, hmix⟩
  · exact iff_of_false (Prog.not_raises_of_returns hret) fun h => not_reversed_of_fit hfit h.1
  · constructor
    · exact fun h => ⟨hrev, (Prod.mk.inj (h.symm.trans hraises)).2⟩
    · rintro ⟨-, rfl⟩
      exact hraises
  · refine iff_of_false (fun h => ?_) ?_
    · obtain ⟨heq, -⟩ := Prod.mk.inj (h.symm.trans hmix)
      exact absurd (Except.error.inj heq) (by decide)
    · rintro ⟨⟨a', b', ha, hb, hlt⟩, -⟩
      obtain rfl := Option.some.inj ha
      obtain rfl := Option.some.inj hb
      rw [DateTime.lt, if_neg hne] at hlt
      exact absurd hlt (by simp)

/-! ### The update refuses -/

/-- The rest of the update does not raise the error of the dates. -/
theorem raisesOnly_checkBrandKit (w : Uuid) (b : Option Uuid) :
    Prog.RaisesOnly (fun e => e ≠ dateError) (checkBrandKit w b) := by
  rcases b with _ | b
  · exact Prog.raisesOnly_pure ()
  · refine Prog.raisesOnly_bind (raisesOnly_selectOne nofun) fun found => ?_
    exact Prog.raisesOnly_require _ (by decide)

/-- **The update refuses the dates** of a campaign exactly if the merged ones are reversed. -/
theorem updateCampaign_refuses_iff (hc : IsCampaign s w i c) :
    (∃ s', (updateCampaign w i data).Raises s dateError s') ↔
      Reversed (given data.startDate c.startDate) (given data.endDate c.endDate) := by
  unfold updateCampaign
  simp only [Prog.raises_bind_of_returns (getCampaign_returns hc)]
  constructor
  · rintro ⟨s', h⟩
    rcases Prog.raises_bind.mp h with h | ⟨_, t, -, h⟩
    · exact (checkDates_refuses_iff.mp h).1
    rcases Prog.raises_bind.mp h with h | ⟨_, t₁, -, h⟩
    · exact absurd rfl (raisesOnly_checkBrandKit w _ t _ s' h)
    rcases Prog.raises_bind.mp h with h | ⟨_, t₂, -, h⟩
    · exact absurd (Prog.raises_require.mp h).2.1 (by decide)
    · have hrest : Prog.RaisesOnly (fun e => e ≠ dateError) (update c.id (patch data)) :=
        raisesOnly_update (by decide) (by decide)
      exact absurd rfl (hrest t₂ _ s' h)
  · intro h
    exact ⟨s, Prog.raises_bind.mpr (Or.inl (checkDates_refuses_iff.mpr ⟨h, rfl⟩))⟩

/-! ### The dates that are stored -/

/-- The row has both dates, and the end is not after the start. -/
def OutOfOrder (c : Campaign) : Prop :=
  ∃ a b, c.startDate = some a ∧ c.endDate = some b ∧ b.instant ≤ a.instant

/-- A row as the database gives it back: its dates are aware, and the end is after the start. -/
structure Dated (c : Campaign) : Prop where
  start : ∀ t, c.startDate = some t → t.aware = true
  finish : ∀ t, c.endDate = some t → t.aware = true
  order : ¬ OutOfOrder c

/-- The dates that a body gives are aware. -/
def AwareBody (data : CampaignUpdate) : Prop :=
  (∀ t, data.startDate = some (some t) → t.aware = true) ∧
    ∀ t, data.endDate = some (some t) → t.aware = true

/-- The body sets a date that the campaign has to null, and moves the other one to it or past it. -/
def Crosses (data : CampaignUpdate) (c : Campaign) : Prop :=
  (data.startDate = some none ∧ ∃ a b, c.startDate = some a ∧ data.endDate = some (some b) ∧
    b.instant ≤ a.instant) ∨
  (data.endDate = some none ∧ ∃ a b, data.startDate = some (some a) ∧ c.endDate = some b ∧
    b.instant ≤ a.instant)

/-- The update refuses the dates exactly of the bodies that would leave the row out of order. -/
def Exact (s : Database) (w i : Uuid) (data : CampaignUpdate) (c : Campaign) : Prop :=
  (∃ s', (updateCampaign w i data).Raises s dateError s') ↔ OutOfOrder (patch data c)

theorem reversed_iff_of_aware (ht : ∀ a, t = some a → a.aware = true)
    (ht' : ∀ b, t' = some b → b.aware = true) :
    Reversed t t' ↔ ∃ a b, t = some a ∧ t' = some b ∧ b.instant ≤ a.instant := by
  unfold Reversed
  refine exists_congr fun a => exists_congr fun b => ?_
  refine and_congr_right fun ha => and_congr_right fun hb => ?_
  have haware : a.aware = b.aware := (ht a ha).trans (ht' b hb).symm
  simp [DateTime.lt, haware]

theorem given_eq_some {p : PatchField DateTime} {old : Option DateTime} {x : DateTime} :
    given p old = some x ↔ p = some (some x) ∨ (p = none ∨ p = some none) ∧ old = some x := by
  rcases p with _ | _ | y
  · simp [given]
  · simp [given]
  · simp [given]

theorem patched_eq_some {p : PatchField DateTime} {old : Option DateTime} {x : DateTime} :
    (p.map fun t => t.map DateTime.stored).getD old = some x ↔
      (∃ y, p = some (some y) ∧ x = y.stored) ∨ p = none ∧ old = some x := by
  rcases p with _ | _ | y
  · simp
  · simp
  · simp [eq_comm]

theorem outOfOrder_patch_iff : OutOfOrder (patch data c) ↔ ∃ a b,
    (data.startDate = some (some a) ∨ data.startDate = none ∧ c.startDate = some a) ∧
    (data.endDate = some (some b) ∨ data.endDate = none ∧ c.endDate = some b) ∧
    b.instant ≤ a.instant := by
  constructor
  · rintro ⟨x, y, hx, hy, hle⟩
    obtain ⟨a, ha, hax⟩ : ∃ a, (data.startDate = some (some a) ∨
        data.startDate = none ∧ c.startDate = some a) ∧ a.instant = x.instant := by
      rcases patched_eq_some.mp hx with ⟨a, ha, rfl⟩ | hold
      · exact ⟨a, Or.inl ha, rfl⟩
      · exact ⟨x, Or.inr hold, rfl⟩
    obtain ⟨b, hb, hby⟩ : ∃ b, (data.endDate = some (some b) ∨
        data.endDate = none ∧ c.endDate = some b) ∧ b.instant = y.instant := by
      rcases patched_eq_some.mp hy with ⟨b, hb, rfl⟩ | hold
      · exact ⟨b, Or.inl hb, rfl⟩
      · exact ⟨y, Or.inr hold, rfl⟩
    exact ⟨a, b, ha, hb, by rw [hax, hby]; exact hle⟩
  · rintro ⟨a, b, ha, hb, hle⟩
    obtain ⟨x, hx, hax⟩ : ∃ x, (patch data c).startDate = some x ∧ x.instant = a.instant := by
      rcases ha with ha | hold
      · exact ⟨a.stored, patched_eq_some.mpr (Or.inl ⟨a, ha, rfl⟩), rfl⟩
      · exact ⟨a, patched_eq_some.mpr (Or.inr hold), rfl⟩
    obtain ⟨y, hy, hby⟩ : ∃ y, (patch data c).endDate = some y ∧ y.instant = b.instant := by
      rcases hb with hb | hold
      · exact ⟨b.stored, patched_eq_some.mpr (Or.inl ⟨b, hb, rfl⟩), rfl⟩
      · exact ⟨b, patched_eq_some.mpr (Or.inr hold), rfl⟩
    exact ⟨x, y, hx, hy, by rw [hax, hby]; exact hle⟩

/-- The merged dates are reversed if the row would be out of order, or if the body crosses a date
that it sets to null. -/
theorem reversed_iff (hv : Dated c) (hb : AwareBody data) :
    Reversed (given data.startDate c.startDate) (given data.endDate c.endDate) ↔
      OutOfOrder (patch data c) ∨ Crosses data c := by
  have hstart : ∀ a, given data.startDate c.startDate = some a → a.aware = true := by
    intro a ha
    rcases given_eq_some.mp ha with ha | ⟨-, ha⟩
    · exact hb.1 a ha
    · exact hv.start a ha
  have hend : ∀ b, given data.endDate c.endDate = some b → b.aware = true := by
    intro b hb'
    rcases given_eq_some.mp hb' with hb' | ⟨-, hb'⟩
    · exact hb.2 b hb'
    · exact hv.finish b hb'
  rw [reversed_iff_of_aware hstart hend, outOfOrder_patch_iff]
  constructor
  · rintro ⟨a, b, ha, hb', hle⟩
    -- one case for each way to give each of the two dates
    rcases given_eq_some.mp ha with ha | ⟨ha | ha, hca⟩ <;>
      rcases given_eq_some.mp hb' with hb' | ⟨hb' | hb', hcb⟩
    · exact Or.inl ⟨a, b, Or.inl ha, Or.inl hb', hle⟩
    · exact Or.inl ⟨a, b, Or.inl ha, Or.inr ⟨hb', hcb⟩, hle⟩
    · exact Or.inr (Or.inr ⟨hb', a, b, ha, hcb, hle⟩)
    · exact Or.inl ⟨a, b, Or.inr ⟨ha, hca⟩, Or.inl hb', hle⟩
    · exact absurd ⟨a, b, hca, hcb, hle⟩ hv.order
    · exact absurd ⟨a, b, hca, hcb, hle⟩ hv.order
    · exact Or.inr (Or.inl ⟨ha, a, b, hca, hb', hle⟩)
    · exact absurd ⟨a, b, hca, hcb, hle⟩ hv.order
    · exact absurd ⟨a, b, hca, hcb, hle⟩ hv.order
  · rintro (⟨a, b, ha, hb', hle⟩ | ⟨hnull, a, b, ha, hb', hle⟩ | ⟨hnull, a, b, ha, hb', hle⟩)
    · refine ⟨a, b, given_eq_some.mpr ?_, given_eq_some.mpr ?_, hle⟩
      · exact ha.imp id fun h => ⟨Or.inl h.1, h.2⟩
      · exact hb'.imp id fun h => ⟨Or.inl h.1, h.2⟩
    · exact ⟨a, b, given_eq_some.mpr (Or.inr ⟨Or.inr hnull, ha⟩),
        given_eq_some.mpr (Or.inl hb'), hle⟩
    · exact ⟨a, b, given_eq_some.mpr (Or.inl ha),
        given_eq_some.mpr (Or.inr ⟨Or.inr hnull, hb'⟩), hle⟩

/-- A body that sets a date to null leaves the row in order. -/
theorem not_outOfOrder_of_crosses (h : Crosses data c) : ¬ OutOfOrder (patch data c) := by
  rw [outOfOrder_patch_iff]
  rintro ⟨a, b, ha, hb, -⟩
  rcases h with ⟨hnull, -⟩ | ⟨hnull, -⟩
  · rcases ha with ha | ⟨ha, -⟩ <;> simp [hnull] at ha
  · rcases hb with hb | ⟨hb, -⟩ <;> simp [hnull] at hb

/-- **One update**: the check is exact unless the body crosses a date that it sets to null. -/
theorem exact_iff_not_crosses (hc : IsCampaign s w i c) (hv : Dated c) (hb : AwareBody data) :
    Exact s w i data c ↔ ¬ Crosses data c := by
  unfold Exact
  rw [updateCampaign_refuses_iff hc, reversed_iff hv hb]
  constructor
  · exact fun h hcross => not_outOfOrder_of_crosses hcross (h.mp (Or.inr hcross))
  · exact fun h => ⟨fun h' => h'.resolve_right h, Or.inl⟩

/-! ### Runs -/

/-- A call of `create_campaign` or `update_campaign`, in a transaction of its own. -/
inductive Event
  | create (d : Draws) (workspaceId ownerId : Uuid) (data : CampaignCreate)
  | update (workspaceId campaignId : Uuid) (data : CampaignUpdate)

/-- One call. -/
def step (s : Database) : Event → Database
  | .create d w o data => (createCampaign d w o data).settle s
  | .update w i data => (updateCampaign w i data).settle s

/-- All campaigns are as the database gives them back, with the end after the start. -/
def AllDated (s : Database) : Prop := ∀ c ∈ s.campaigns.rows, Dated c

/-- An update with an aware body treats the campaign as it should. -/
def ExactStep (s : Database) : Event → Prop
  | .create _ _ _ _ => True
  | .update w i data => AwareBody data → ∀ c, IsCampaign s w i c → Exact s w i data c

/-- The body of an update does not set a date that the campaign has to null and move the other one
to it or past it. -/
def NoCrossing (s : Database) : Event → Prop
  | .create _ _ _ _ => True
  | .update w i data => AwareBody data → ∀ c, IsCampaign s w i c → ¬ Crosses data c

theorem lt_of_fit {a b : DateTime} (h : DatesFit (some a) (some b)) : a.instant < b.instant := by
  have hlt : a.lt b = some true := h
  unfold DateTime.lt at hlt
  split_ifs at hlt
  simpa using hlt

theorem dated_campaignOf {data : CampaignCreate} (h : DatesFit data.startDate data.endDate) :
    Dated (campaignOf d w o data) := by
  refine ⟨fun t ht => ?_, fun t ht => ?_, ?_⟩
  · obtain ⟨t', -, rfl⟩ := Option.map_eq_some_iff.mp ht
    rfl
  · obtain ⟨t', -, rfl⟩ := Option.map_eq_some_iff.mp ht
    rfl
  · rintro ⟨x, y, hx, hy, hle⟩
    obtain ⟨a, ha, rfl⟩ := Option.map_eq_some_iff.mp hx
    obtain ⟨b, hb, rfl⟩ := Option.map_eq_some_iff.mp hy
    rw [ha, hb] at h
    exact absurd (lt_of_fit h) (not_lt.mpr hle)

theorem aware_of_patched {p : PatchField DateTime} {old : Option DateTime} {x : DateTime}
    (hold : ∀ t, old = some t → t.aware = true)
    (h : (p.map fun t => t.map DateTime.stored).getD old = some x) : x.aware = true := by
  rcases patched_eq_some.mp h with ⟨y, -, rfl⟩ | ⟨-, h⟩
  · rfl
  · exact hold x h

theorem dated_patch (hv : Dated c)
    (h : DatesFit (given data.startDate c.startDate) (given data.endDate c.endDate)) :
    Dated (patch data c) := by
  refine ⟨fun t ht => aware_of_patched hv.start ht, fun t ht => aware_of_patched hv.finish ht, ?_⟩
  rw [outOfOrder_patch_iff]
  rintro ⟨a, b, ha, hb, hle⟩
  have hstart : given data.startDate c.startDate = some a :=
    given_eq_some.mpr (ha.imp id fun h => ⟨Or.inl h.1, h.2⟩)
  have hend : given data.endDate c.endDate = some b :=
    given_eq_some.mpr (hb.imp id fun h => ⟨Or.inl h.1, h.2⟩)
  rw [hstart, hend] at h
  exact absurd (lt_of_fit h) (not_lt.mpr hle)

/-- **The step lemma**: every call leaves all campaigns dated. -/
theorem allDated_step (s : Database) (ev : Event) (h : AllDated s) : AllDated (step s ev) := by
  cases ev with
  | create d w o data =>
    refine Prog.settle_inv h fun a s' hret => ?_
    simp only [createCampaign, Prog.returns_bind] at hret
    obtain ⟨_, s₁, hdates, _, s₂, hkit, hcreate⟩ := hret
    obtain ⟨hfit, rfl⟩ := returns_checkDates.mp hdates
    obtain ⟨-, rfl⟩ := returns_checkBrandKit.mp hkit
    obtain ⟨-, -, T, hT, rfl⟩ := returns_create.mp hcreate
    exact Table.forall_insert hT h (dated_campaignOf hfit)
  | update w i data =>
    refine Prog.settle_inv h fun a s' hret => ?_
    obtain ⟨c, hc, hacc, -, T, hT, rfl⟩ := returns_updateCampaign.mp hret
    refine Table.forall_modify hT h fun q hq hk => ?_
    obtain rfl : q = c := s.campaigns.eq_of_key_eq hq hc.1 (Eq.trans hk hc.2.1.symm)
    exact dated_patch (h q hq) hacc.dates

theorem exactStep_iff (h : AllDated s) (ev : Event) : ExactStep s ev ↔ NoCrossing s ev := by
  cases ev with
  | create d w o data => exact Iff.rfl
  | update w i data =>
    refine forall_congr' fun hb => forall_congr' fun c => forall_congr' fun hc => ?_
    exact exact_iff_not_crosses hc (h c hc.1) hb

/-- **The check of the dates** is exact at every call of a run exactly if no update crosses a date
that it sets to null; and whatever the calls are, every campaign that has both dates has them in
order. -/
theorem exact_dated_iff (l : List Event) (h : AllDated s) :
    (Along step ExactStep s l ∧ Always step AllDated s l) ↔ Along step NoCrossing s l := by
  have halong : Along step ExactStep s l ↔ Along step NoCrossing s l :=
    along_congr (I := AllDated) allDated_step (fun _ ev hs => exactStep_iff hs ev) h
  have halways : Always step AllDated s l :=
    always_iff.mpr fun pre _ => inv_run allDated_step pre h
  exact ⟨fun h => halong.mp h.1, fun h => ⟨halong.mpr h, halways⟩⟩

/-! ### A campaign of the first workspace -/

/-- The first workspace plans a campaign for the seconds 10 to 20. -/
def planned : Event := .create (drawsFrom 30 0 "") 10 1
  { campaignName := "Launch", startDate := some ⟨seconds 10, true⟩,
    endDate := some ⟨seconds 20, true⟩ }

/-- It drops the start, and moves the end before it. -/
def dropStart : CampaignUpdate :=
  { startDate := some none, endDate := some (some ⟨seconds 5, true⟩) }

theorem exact_dated_iff_planned :
    (Along step ExactStep twoStudios [planned] ∧ Always step AllDated twoStudios [planned]) ↔
      Along step NoCrossing twoStudios [planned] := by
  refine exact_dated_iff [planned] ?_
  intro c hc
  exact absurd hc List.not_mem_nil

/-- **A body is refused that would leave the campaign without a start.** -/
theorem dropped_start_refused :
    ¬ (Along step ExactStep twoStudios [planned, .update 10 30 dropStart] ∧
      Always step AllDated twoStudios [planned, .update 10 30 dropStart]) := by
  rintro ⟨⟨-, h, -⟩, -⟩
  have haware : AwareBody dropStart := by
    refine ⟨fun t ht => ?_, fun t ht => ?_⟩
    · simp [dropStart] at ht
    · obtain rfl := Option.some.inj (Option.some.inj ht)
      rfl
  have hc : IsCampaign (step twoStudios planned) 10 30 (campaignOf (drawsFrom 30 0 "") 10 1
      { campaignName := "Launch", startDate := some ⟨seconds 10, true⟩,
        endDate := some ⟨seconds 20, true⟩ }) := ⟨by decide, rfl, rfl, rfl⟩
  have hcross : Reversed (given dropStart.startDate (some ⟨seconds 10, true⟩))
      (given dropStart.endDate (some ⟨seconds 20, true⟩)) := ⟨_, _, rfl, rfl, by decide⟩
  obtain ⟨x, y, hx, -⟩ := (h haware _ hc).mp ((updateCampaign_refuses_iff hc).mpr hcross)
  exact absurd hx (by simp [patch, dropStart])

end MarketingSuite.Campaigns.Dates
