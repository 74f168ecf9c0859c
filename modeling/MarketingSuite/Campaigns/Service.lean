import MarketingSuite.Repositories.Base

/-! # The campaign service

`app/services/campaign.py`. The column behind `Campaign.status` is a string, so a campaign that was
read has a plain `str` there: it compares and hashes like the enumeration, but has no `.value`. -/

namespace MarketingSuite.Campaigns.Service

open MarketingSuite.Lib.Programs MarketingSuite.Lib.Tables
open MarketingSuite.Base.Values MarketingSuite.Base.Models MarketingSuite.Base.Schema
open MarketingSuite.Repositories.Base

/-- `CampaignCreate`. -/
structure CampaignCreate where
  campaignName : String
  description : Option String := none
  objective : Option String := none
  campaignType : Option String := none
  targetChannels : Option String := none
  budget : Option ℤ := none
  currency : Option String := some "USD"
  startDate : Option DateTime := none
  endDate : Option DateTime := none
  brandKitId : Option Uuid := none

/-- `CampaignUpdate`. -/
structure CampaignUpdate where
  campaignName : PatchField String := none
  description : PatchField String := none
  objective : PatchField String := none
  campaignType : PatchField String := none
  targetChannels : PatchField String := none
  budget : PatchField ℤ := none
  currency : PatchField String := none
  startDate : PatchField DateTime := none
  endDate : PatchField DateTime := none
  brandKitId : PatchField Uuid := none

/-- "End date must be after start date", where both are given. -/
def checkDates (start end_ : Option DateTime) : Svc Unit :=
  match start, end_ with
  | some start, some end_ => do
    let later ← orRaise (start.lt end_) .typeError
    Prog.require (later = true) (.http 400 "End date must be after start date")
  | _, _ => pure ()

/-- "Brand kit not found in this workspace", where one is named. -/
def checkBrandKit (workspaceId : Uuid) : Option Uuid → Svc Unit
  | none => pure ()
  | some brandKitId => do
    let found ← selectOne fun b : BrandKit => b.id = brandKitId && b.workspaceId = workspaceId
    Prog.require (found.isSome = true) (.http 404 "Brand kit not found in this workspace")

/-- The row made of a request to create a campaign. -/
def campaignOf (d : Draws) (workspaceId ownerId : Uuid) (data : CampaignCreate) : Campaign where
  id := d.uuid 0
  workspaceId := workspaceId
  ownerId := ownerId
  brandKitId := data.brandKitId
  campaignName := data.campaignName
  description := data.description
  objective := data.objective
  campaignType := data.campaignType
  targetChannels := data.targetChannels
  status := .draft
  budget := data.budget
  currency := data.currency
  startDate := data.startDate.map DateTime.stored
  endDate := data.endDate.map DateTime.stored
  createdAt := d.now 0
  deletedAt := none

/-- `CampaignService.create_campaign`. -/
def createCampaign (d : Draws) (workspaceId ownerId : Uuid) (data : CampaignCreate) :
    Svc Campaign := do
  checkDates data.startDate data.endDate
  checkBrandKit workspaceId data.brandKitId
  create (campaignOf d workspaceId ownerId data)

/-- `CampaignService.get_campaign`. -/
def getCampaign (workspaceId campaignId : Uuid) : Svc Campaign := do
  let found ← getById Campaign campaignId
  let campaign ← orRaise found (.http 404 "Campaign not found")
  Prog.require (campaign.workspaceId = workspaceId) (.http 404 "Campaign not found")
  pure campaign

/-- `CampaignRepository.get_by_workspace_id`. -/
def getByWorkspaceId (workspaceId : Uuid) (skip limit : ℤ) : Svc (List Campaign) :=
  newestPage (fun c => c.workspaceId = workspaceId && c.deletedAt.isNone) Campaign.createdAt skip limit

/-- `CampaignRepository.get_by_status`. -/
def getByStatus (workspaceId : Uuid) (status : CampaignStatus) (skip limit : ℤ) :
    Svc (List Campaign) :=
  newestPage (fun c => c.workspaceId = workspaceId && c.status = status && c.deletedAt.isNone)
    Campaign.createdAt skip limit

/-- `CampaignRepository.search_campaigns`; a null field matches nothing. The database refuses a text
with the character 0. -/
def searchCampaigns (ilike : String → String → Bool) (workspaceId : Uuid) (query : String)
    (skip limit : ℤ) : Svc (List Campaign) := do
  Prog.require (Char.ofNat 0 ∉ query.toList) .dataError
  let pattern := "%" ++ query ++ "%"
  newestPage (fun c => c.workspaceId = workspaceId && c.deletedAt.isNone &&
      (ilike c.campaignName pattern || c.description.any (ilike · pattern) ||
        c.objective.any (ilike · pattern)))
    Campaign.createdAt skip limit

/-- `CampaignService.get_campaigns`; `ilike` is the database's operator. -/
def getCampaigns (ilike : String → String → Bool) (workspaceId : Uuid) (skip limit : ℤ)
    (status : Option CampaignStatus) (search : Option String) : Svc (List Campaign) :=
  if truthy search = true then searchCampaigns ilike workspaceId (search.getD "") skip limit
  else
    match status with
    | some status => getByStatus workspaceId status skip limit
    | none => getByWorkspaceId workspaceId skip limit

/-- `new if new is not None else old`. -/
def given {α : Type} (new : PatchField α) (old : Option α) : Option α :=
  match new.join with
  | some a => some a
  | none => old

/-- The fields of a campaign that `model_dump(exclude_unset=True)` sets. -/
def patch (data : CampaignUpdate) (c : Campaign) : Campaign :=
  { c with
    campaignName := (data.campaignName.getD (some c.campaignName)).getD c.campaignName
    description := data.description.getD c.description
    objective := data.objective.getD c.objective
    campaignType := data.campaignType.getD c.campaignType
    targetChannels := data.targetChannels.getD c.targetChannels
    budget := data.budget.getD c.budget
    currency := data.currency.getD c.currency
    startDate := (data.startDate.map fun t => t.map DateTime.stored).getD c.startDate
    endDate := (data.endDate.map fun t => t.map DateTime.stored).getD c.endDate
    brandKitId := data.brandKitId.getD c.brandKitId }

/-- `CampaignService.update_campaign`. -/
def updateCampaign (workspaceId campaignId : Uuid) (data : CampaignUpdate) : Svc Campaign := do
  let campaign ← getCampaign workspaceId campaignId
  checkDates (given data.startDate campaign.startDate) (given data.endDate campaign.endDate)
  checkBrandKit workspaceId
    (if data.brandKitId.join = campaign.brandKitId then none else data.brandKitId.join)
  -- a null name breaks the column's NOT NULL
  Prog.require (data.campaignName ≠ some none) .integrity
  update campaign.id (patch data)

/-- `CampaignService.delete_campaign`; the row object it returns is the one that was marked. -/
def deleteCampaign (d : Draws) (workspaceId campaignId : Uuid) : Svc Campaign := do
  let campaign ← getCampaign workspaceId campaignId
  let deleted ← softDelete campaign.id fun c : Campaign => { c with deletedAt := some (d.now 0) }
  Prog.require (deleted = true) (.http 404 "Campaign not found")
  pure { campaign with deletedAt := some (d.now 0) }

/-- The transitions that `change_status` allows. -/
def validTransitions : CampaignStatus → List CampaignStatus
  | .draft => [.active, .archived]
  | .active => [.paused, .completed, .archived]
  | .paused => [.active, .completed, .archived]
  | .completed => [.archived]
  | .archived => []

/-- `CampaignService.change_status`. -/
def changeStatus (workspaceId campaignId : Uuid) (newStatus : CampaignStatus) : Svc Campaign := do
  let campaign ← getCampaign workspaceId campaignId
  if campaign.status = newStatus then pure campaign else do
    -- the text of the error reads `current_status.value`, which a `str` does not have
    Prog.require (newStatus ∈ validTransitions campaign.status) .attributeError
    update campaign.id fun c : Campaign => { c with status := newStatus }

/-! ### What is accepted -/

variable {s s' : Database} {d : Draws} {w i o : Uuid} {c a : Campaign} {data : CampaignUpdate}
  {new : CampaignStatus} {u : Unit}

/-- The campaign with id `i` is there, not deleted, and of the workspace `w`. -/
def IsCampaign (s : Database) (w i : Uuid) (c : Campaign) : Prop :=
  c ∈ s.campaigns.rows ∧ c.id = i ∧ c.deletedAt = none ∧ c.workspaceId = w

theorem isCampaign_unique (h : IsCampaign s w i c) (h' : IsCampaign s w i a) : c = a :=
  s.campaigns.eq_of_key_eq h.1 h'.1 (h.2.1.trans h'.2.1.symm)

/-- The end is after the start, where both are given. -/
def DatesFit : Option DateTime → Option DateTime → Prop
  | some start, some end_ => start.lt end_ = some true
  | _, _ => True

/-- The brand kit is one of the workspace, where one is named. -/
def KitFits (s : Database) (w : Uuid) : Option Uuid → Prop
  | none => True
  | some i => ∃ b ∈ s.brandKits.rows, b.id = i ∧ b.workspaceId = w

/-- The updates of the campaign `c` that are accepted. -/
structure AcceptsUpdate (s : Database) (w : Uuid) (c : Campaign)
    (data : CampaignUpdate) : Prop where
  dates : DatesFit (given data.startDate c.startDate) (given data.endDate c.endDate)
  kit : KitFits s w (if data.brandKitId.join = c.brandKitId then none else data.brandKitId.join)
  name : data.campaignName ≠ some none
  references : Model.references s (patch data c) = true
  unique : ∃ T, s.campaigns.modify c.id (patch data) = some T

/-- The changes of the status of the campaign `c` that are accepted. -/
def AcceptsStatus (s : Database) (c : Campaign) (new : CampaignStatus) : Prop :=
  c.status = new ∨
    new ∈ validTransitions c.status ∧ Model.references s { c with status := new } = true

/-! ### What a call that returns did -/

theorem returns_checkDates {t t' : Option DateTime} :
    (checkDates t t').Returns s u s' ↔ DatesFit t t' ∧ s' = s := by
  rcases t with _ | t <;> rcases t' with _ | t' <;> simp [checkDates, DatesFit]

theorem returns_checkBrandKit {b : Option Uuid} :
    (checkBrandKit w b).Returns s u s' ↔ KitFits s w b ∧ s' = s := by
  rcases b with _ | b
  · simp [checkBrandKit, KitFits]
  · unfold checkBrandKit
    rw [Prog.returns_bind]
    constructor
    · rintro ⟨found, t, hsel, h⟩
      obtain ⟨rfl, hf⟩ := selectOne_spec hsel
      obtain ⟨hsome, rfl⟩ := Prog.returns_require.mp h
      obtain ⟨k, rfl⟩ := Option.isSome_iff_exists.mp hsome
      obtain ⟨hk, hp⟩ := (hf k).mp rfl
      simp only [Bool.and_eq_true, decide_eq_true_eq] at hp
      exact ⟨⟨k, hk, hp⟩, rfl⟩
    · rintro ⟨⟨k, hk, hid, hw⟩, rfl⟩
      refine ⟨some k, s', returns_selectOne_some hk (by simp [hid, hw]) fun q hq hp => ?_, ?_⟩
      · simp only [Bool.and_eq_true, decide_eq_true_eq] at hp
        exact s'.brandKits.eq_of_key_eq hq hk (hp.1.trans hid.symm)
      · exact Prog.returns_require.mpr ⟨rfl, rfl⟩

theorem getCampaign_spec (h : (getCampaign w i).Returns s c s') :
    s' = s ∧ IsCampaign s w i c := by
  unfold getCampaign at h
  rw [Prog.returns_bind] at h
  obtain ⟨found, s₁, hget, h⟩ := h
  obtain ⟨rfl, hf⟩ := getById_spec hget
  rw [Prog.returns_bind] at h
  obtain ⟨c', s₂, hc, h⟩ := h
  obtain ⟨rfl, rfl⟩ := returns_orRaise.mp hc
  rw [Prog.returns_bind] at h
  obtain ⟨_, s₃, hreq, h⟩ := h
  obtain ⟨hw, rfl⟩ := Prog.returns_require.mp hreq
  obtain ⟨rfl, rfl⟩ := Prog.returns_pure.mp h
  obtain ⟨hm, hk, hd⟩ := (hf c).mp rfl
  exact ⟨rfl, hm, hk, hd, hw⟩

theorem getCampaign_returns (h : IsCampaign s w i c) : (getCampaign w i).Returns s c s := by
  obtain ⟨hm, hk, hd, hw⟩ := h
  have hget : (getById Campaign i).Returns s (some c) s := getById_returns hm hk hd
  refine Prog.returns_bind.mpr ⟨_, _, hget, ?_⟩
  refine Prog.returns_bind.mpr ⟨c, s, returns_orRaise.mpr ⟨rfl, rfl⟩, ?_⟩
  refine Prog.returns_bind.mpr ⟨(), s, Prog.returns_require.mpr ⟨hw, rfl⟩, ?_⟩
  exact Prog.returns_pure.mpr ⟨rfl, rfl⟩

theorem returns_update_of_isCampaign {f : Campaign → Campaign} (hc : IsCampaign s w i c) :
    (update c.id f).Returns s a s' ↔
      a = f c ∧ Model.references s (f c) = true ∧ Updated i f s s' := by
  rw [returns_update, hc.2.1]
  constructor
  · rintro ⟨q, hq, hk, rfl, href, hupd⟩
    have hqc : q = c := s.campaigns.eq_of_key_eq hq hc.1 (hk.trans hc.2.1.symm)
    subst hqc
    exact ⟨rfl, href, hupd⟩
  · rintro ⟨rfl, href, hupd⟩
    exact ⟨c, hc.1, hc.2.1, rfl, href, hupd⟩

/-- **`update_campaign`** sets the given fields of one row, if nothing speaks against it. -/
theorem returns_updateCampaign : (updateCampaign w i data).Returns s a s' ↔
    ∃ c, IsCampaign s w i c ∧ AcceptsUpdate s w c data ∧ a = patch data c ∧
      Updated i (patch data) s s' := by
  constructor
  · intro h
    unfold updateCampaign at h
    rw [Prog.returns_bind] at h
    obtain ⟨c, s₁, hget, h⟩ := h
    obtain ⟨rfl, hc⟩ := getCampaign_spec hget
    rw [Prog.returns_bind] at h
    obtain ⟨_, s₂, hdates, h⟩ := h
    obtain ⟨hfit, rfl⟩ := returns_checkDates.mp hdates
    rw [Prog.returns_bind] at h
    obtain ⟨_, s₃, hkit, h⟩ := h
    obtain ⟨hown, rfl⟩ := returns_checkBrandKit.mp hkit
    rw [Prog.returns_bind] at h
    obtain ⟨_, s₄, hreq, h⟩ := h
    obtain ⟨hname, rfl⟩ := Prog.returns_require.mp hreq
    obtain ⟨rfl, href, T, hT, rfl⟩ := (returns_update_of_isCampaign hc).mp h
    exact ⟨c, hc, ⟨hfit, hown, hname, href, T, by rw [hc.2.1]; exact hT⟩, rfl, T, hT, rfl⟩
  · rintro ⟨c, hc, hacc, rfl, hupd⟩
    refine Prog.returns_bind.mpr ⟨c, s, getCampaign_returns hc, ?_⟩
    refine Prog.returns_bind.mpr ⟨(), s, returns_checkDates.mpr ⟨hacc.dates, rfl⟩, ?_⟩
    refine Prog.returns_bind.mpr ⟨(), s, returns_checkBrandKit.mpr ⟨hacc.kit, rfl⟩, ?_⟩
    refine Prog.returns_bind.mpr ⟨(), s, Prog.returns_require.mpr ⟨hacc.name, rfl⟩, ?_⟩
    exact (returns_update_of_isCampaign hc).mpr ⟨rfl, hacc.references, hupd⟩

/-- **An update is accepted** exactly if the campaign is there and nothing speaks against it. -/
theorem updateCampaign_succeeds_iff : (updateCampaign w i data).succeeds s = true ↔
    ∃ c, IsCampaign s w i c ∧ AcceptsUpdate s w c data := by
  rw [Prog.succeeds_iff]
  constructor
  · rintro ⟨a, s', h⟩
    obtain ⟨c, hc, hacc, -, -⟩ := returns_updateCampaign.mp h
    exact ⟨c, hc, hacc⟩
  · rintro ⟨c, hc, hacc⟩
    obtain ⟨T, hT⟩ := hacc.unique
    rw [hc.2.1] at hT
    exact ⟨_, _, returns_updateCampaign.mpr ⟨c, hc, hacc, rfl, T, hT, rfl⟩⟩

/-- **`delete_campaign`** marks one row. -/
theorem deleteCampaign_spec (h : (deleteCampaign d w i).Returns s a s') :
    ∃ c, IsCampaign s w i c ∧ a = { c with deletedAt := some (d.now 0) } ∧
      (s' = s ∨ Updated i (fun c : Campaign => { c with deletedAt := some (d.now 0) }) s s') := by
  unfold deleteCampaign at h
  rw [Prog.returns_bind] at h
  obtain ⟨c, s₁, hget, h⟩ := h
  obtain ⟨rfl, hc⟩ := getCampaign_spec hget
  rw [Prog.returns_bind] at h
  obtain ⟨b, s₂, hdel, h⟩ := h
  rw [Prog.returns_bind] at h
  obtain ⟨_, s₃, hreq, h⟩ := h
  obtain ⟨-, rfl⟩ := Prog.returns_require.mp hreq
  obtain ⟨rfl, rfl⟩ := Prog.returns_pure.mp h
  refine ⟨c, hc, rfl, ?_⟩
  rw [← hc.2.1]
  exact softDelete_spec hdel

theorem mem_of_createCampaign {data : CampaignCreate}
    (h : (createCampaign d w o data).Returns s a s') : a ∈ s'.campaigns.rows := by
  unfold createCampaign at h
  simp only [Prog.returns_bind] at h
  obtain ⟨_, s₁, -, _, s₂, -, hcreate⟩ := h
  obtain ⟨rfl, -, T, hT, rfl⟩ := returns_create.mp hcreate
  exact Table.mem_insert_self hT

theorem mem_of_deleteCampaign (h : (deleteCampaign d w i).Returns s a s') :
    a ∈ s'.campaigns.rows := by
  unfold deleteCampaign softDelete at h
  simp only [Prog.returns_bind] at h
  obtain ⟨c, s₁, hget, b, s₂, ⟨o, s₃, hupd, hsome⟩, _, s₄, hreq, hret⟩ := h
  obtain ⟨rfl, hc⟩ := getCampaign_spec hget
  obtain ⟨-, rfl⟩ := Prog.returns_pure.mp hsome
  obtain ⟨-, rfl⟩ := Prog.returns_require.mp hreq
  obtain ⟨rfl, rfl⟩ := Prog.returns_pure.mp hret
  rcases updateWhere_spec hupd with ⟨-, hnone⟩ | ⟨r, hr, hk, -, -, -, T, hT, rfl⟩
  · exact absurd (hnone c hc.1 rfl hc.2.2.1).2 (by simp)
  · exact Table.mem_modify_self hT hc.1 rfl

/-- **`change_status`**: nothing to do, or an allowed transition of one row. -/
theorem returns_changeStatus : (changeStatus w i new).Returns s a s' ↔
    ∃ c, IsCampaign s w i c ∧ ((c.status = new ∧ a = c ∧ s' = s) ∨
      c.status ≠ new ∧ new ∈ validTransitions c.status ∧
        a = { c with status := new } ∧ Model.references s { c with status := new } = true ∧
        Updated i (fun c : Campaign => { c with status := new }) s s') := by
  unfold changeStatus
  rw [Prog.returns_bind]
  constructor
  · rintro ⟨c, s₁, hget, h⟩
    obtain ⟨rfl, hc⟩ := getCampaign_spec hget
    refine ⟨c, hc, ?_⟩
    by_cases hst : c.status = new
    · rw [if_pos hst] at h
      obtain ⟨rfl, rfl⟩ := Prog.returns_pure.mp h
      exact Or.inl ⟨hst, rfl, rfl⟩
    · rw [if_neg hst, Prog.returns_bind] at h
      obtain ⟨_, s₂, hreq, h⟩ := h
      obtain ⟨hv, rfl⟩ := Prog.returns_require.mp hreq
      exact Or.inr ⟨hst, hv, (returns_update_of_isCampaign hc).mp h⟩
  · rintro ⟨c, hc, ⟨hst, rfl, rfl⟩ | ⟨hst, hv, hupd⟩⟩
    · refine ⟨a, s', getCampaign_returns hc, ?_⟩
      rw [if_pos hst]
      exact Prog.returns_pure.mpr ⟨rfl, rfl⟩
    · refine ⟨c, s, getCampaign_returns hc, ?_⟩
      rw [if_neg hst]
      exact Prog.returns_bind.mpr ⟨(), s, Prog.returns_require.mpr ⟨hv, rfl⟩,
        (returns_update_of_isCampaign hc).mpr hupd⟩

/-- **A change of the status is accepted** exactly if there is nothing to do or the transition is
allowed. -/
theorem changeStatus_succeeds_iff : (changeStatus w i new).succeeds s = true ↔
    ∃ c, IsCampaign s w i c ∧ AcceptsStatus s c new := by
  rw [Prog.succeeds_iff]
  constructor
  · rintro ⟨a, s', h⟩
    obtain ⟨c, hc, ⟨hst, -, -⟩ | ⟨-, hv, -, href, -⟩⟩ := returns_changeStatus.mp h
    · exact ⟨c, hc, Or.inl hst⟩
    · exact ⟨c, hc, Or.inr ⟨hv, href⟩⟩
  · rintro ⟨c, hc, hacc⟩
    by_cases hst : c.status = new
    · exact ⟨c, s, returns_changeStatus.mpr ⟨c, hc, Or.inl ⟨hst, rfl, rfl⟩⟩⟩
    · obtain ⟨hv, href⟩ := hacc.resolve_left hst
      obtain ⟨T, hT⟩ := Table.exists_modify (T := s.campaigns) (k := i)
        (f := fun c : Campaign => { c with status := new }) (fun _ => rfl) fun _ _ => rfl
      exact ⟨_, _, returns_changeStatus.mpr
        ⟨c, hc, Or.inr ⟨hst, hv, rfl, href, T, hT, rfl⟩⟩⟩

theorem frames_getCampaign {δ : Type} {g : Database → δ} : (getCampaign w i).Frames g :=
  Prog.frames_bind frames_getById fun _ => Prog.frames_bind (frames_orRaise _ _) fun _ =>
    Prog.frames_bind (Prog.frames_require _ _) fun _ => Prog.frames_pure _

/-! ### A campaign of the first workspace -/

/-- The campaign 30 of the workspace 10. -/
def launch : Campaign :=
  { campaignOf (drawsFrom 30 0 "") 10 1 { campaignName := "Launch" } with status := .active }

/-- Two workspaces, and the campaign of the first. -/
def launched : Database := { twoStudios with campaigns := ⟨[launch], by decide⟩ }

end MarketingSuite.Campaigns.Service
