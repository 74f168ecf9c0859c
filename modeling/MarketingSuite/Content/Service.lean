import MarketingSuite.Campaigns.Service
import Mathlib.Data.List.MinMax

/-! # The content service

`app/services/ai_content.py` and `app/repositories/campaign_content.py`: the versions of the
contents of a campaign. `create_campaign_content` looks the latest version up under `language or
"en"` and stores the language that it was given. -/

namespace MarketingSuite.Content.Service

open MarketingSuite.Lib.Programs MarketingSuite.Lib.Tables
open MarketingSuite.Base.Values MarketingSuite.Base.Models MarketingSuite.Base.Schema
open MarketingSuite.Repositories.Base MarketingSuite.Campaigns.Service

/-- `CampaignContentCreate`. -/
structure CampaignContentCreate where
  campaignId : Uuid
  title : String
  contentType : ContentType
  language : Option String := some "en"
  body : Option String := none
  summary : Option String := none
  hashtags : Option String := none
  cta : Option String := none
  seoTitle : Option String := none
  seoDescription : Option String := none
  scheduledPlaceholder : Option String := none
  metadata : Option Json := none

/-- `CampaignContentUpdate`. -/
structure CampaignContentUpdate where
  title : PatchField String := none
  contentType : PatchField ContentType := none
  status : PatchField ContentStatus := none
  language : PatchField String := none
  body : PatchField String := none
  summary : PatchField String := none
  hashtags : PatchField String := none
  cta : PatchField String := none
  seoTitle : PatchField String := none
  seoDescription : PatchField String := none
  scheduledPlaceholder : PatchField String := none
  metadata : PatchField Json := none

/-- `AIContentGenerateRequest`. -/
structure AIContentGenerateRequest where
  prompt : String
  contentType : ContentType
  language : String := "en"
  brandKitId : Option Uuid := none
  toneOfVoice : Option String := none
  targetAudience : Option String := none
  provider : ApiProvider := .mock

/-- `AIContentGenerateResponse`. -/
structure AIContentGenerateResponse where
  contentType : ContentType
  body : String
  summary : Option String
  hashtags : Option String
  cta : Option String
  metadata : Option Json
  providerUsed : String

/-- `MockAIProvider.generate_content`. -/
def mockGenerateContent (request : AIContentGenerateRequest) : AIContentGenerateResponse where
  contentType := request.contentType
  body := "This is mock generated content for topic: " ++ request.prompt ++ ". Audience: " ++
    orElse request.targetAudience "General" ++ "."
  summary := some ("Mock summary for " ++ request.prompt)
  hashtags := some "#mock #ai #marketing"
  cta := some "Click here to see more mock content!"
  metadata := some (.obj [("mocked", .bool true), ("language", .str request.language)])
  providerUsed := ApiProvider.mock.value

/-- `AIContentService.generate_content`. `AIProviderFactory.get_provider` gives the mock for every
provider, and the workspace is not used. -/
def generateContent (_workspaceId : Uuid) (request : AIContentGenerateRequest) :
    Svc AIContentGenerateResponse :=
  pure (mockGenerateContent request)

/-- The rows that `get_latest_version` selects from. -/
def matching (campaignId : Uuid) (contentType : ContentType) (language : String)
    (r : CampaignContent) : Bool :=
  r.campaignId = campaignId && r.contentType = contentType && r.language = some language &&
    r.isCurrent && r.deletedAt.isNone

/-- `CampaignContentRepository.get_latest_version`; of rows with the same version, the first. -/
def getLatestVersion (campaignId : Uuid) (contentType : ContentType) (language : String) :
    Svc (Option CampaignContent) := do
  let rows ← selectAll (matching campaignId contentType language)
  pure (rows.argmax CampaignContent.version)

/-- The row made of a request, after the version `latest`; a row is current by default. -/
def contentOf (d : Draws) (workspaceId : Uuid) (data : CampaignContentCreate)
    (latest : Option CampaignContent) : CampaignContent where
  id := d.uuid 0
  workspaceId := workspaceId
  campaignId := data.campaignId
  title := data.title
  contentType := data.contentType
  status := .draft
  language := data.language
  body := data.body
  summary := data.summary
  hashtags := data.hashtags
  cta := data.cta
  seoTitle := data.seoTitle
  seoDescription := data.seoDescription
  version := match latest with
    | some latest => latest.version + 1
    | none => 1
  parentVersionId := latest.map CampaignContent.id
  isCurrent := true
  scheduledPlaceholder := data.scheduledPlaceholder
  metadata := data.metadata
  createdAt := d.now 0
  deletedAt := none

/-- The row with `is_current` set to false. -/
def notCurrent (r : CampaignContent) : CampaignContent := { r with isCurrent := false }

/-- "Mark the old one as not current". -/
def retire : Option CampaignContent → Svc Unit
  | none => pure ()
  | some latest => do
    let _ ← update latest.id notCurrent
    pure ()

/-- `AIContentService.create_campaign_content`. -/
def createCampaignContent (d : Draws) (workspaceId : Uuid) (data : CampaignContentCreate) :
    Svc CampaignContent := do
  -- the campaign exists, is not deleted and belongs to the workspace
  let _ ← getCampaign workspaceId data.campaignId
  let latest ← getLatestVersion data.campaignId data.contentType (orElse data.language "en")
  retire latest
  create (contentOf d workspaceId data latest)

/-- `AIContentService.get_campaign_contents`. -/
def getCampaignContents (workspaceId campaignId : Uuid) (skip limit : ℤ) :
    Svc (List CampaignContent) := do
  let _ ← getCampaign workspaceId campaignId
  newestPage (fun r => r.campaignId = campaignId && r.deletedAt.isNone) CampaignContent.createdAt
    skip limit

/-- `AIContentService.get_content`. -/
def getContent (workspaceId campaignId contentId : Uuid) : Svc CampaignContent := do
  let found ← getById CampaignContent contentId
  let content ← orRaise found (.http 404 "Content not found")
  Prog.require (content.workspaceId = workspaceId ∧ content.campaignId = campaignId)
    (.http 404 "Content not found")
  pure content

/-- The fields of a content that `model_dump(exclude_unset=True)` sets. -/
def patch (data : CampaignContentUpdate) (r : CampaignContent) : CampaignContent :=
  { r with
    title := (data.title.getD (some r.title)).getD r.title
    contentType := (data.contentType.getD (some r.contentType)).getD r.contentType
    status := (data.status.getD (some r.status)).getD r.status
    language := data.language.getD r.language
    body := data.body.getD r.body
    summary := data.summary.getD r.summary
    hashtags := data.hashtags.getD r.hashtags
    cta := data.cta.getD r.cta
    seoTitle := data.seoTitle.getD r.seoTitle
    seoDescription := data.seoDescription.getD r.seoDescription
    scheduledPlaceholder := data.scheduledPlaceholder.getD r.scheduledPlaceholder
    metadata := data.metadata.getD r.metadata }

/-- The request sets no NOT NULL column to null. -/
def CampaignContentUpdate.storable (data : CampaignContentUpdate) : Prop :=
  data.title ≠ some none ∧ data.contentType ≠ some none ∧ data.status ≠ some none

instance (data : CampaignContentUpdate) : Decidable data.storable := by
  unfold CampaignContentUpdate.storable
  infer_instance

/-- `AIContentService.update_content`. -/
def updateContent (workspaceId campaignId contentId : Uuid) (data : CampaignContentUpdate) :
    Svc CampaignContent := do
  let content ← getContent workspaceId campaignId contentId
  Prog.require data.storable .integrity
  update content.id (patch data)

/-- `AIContentService.delete_content`. -/
def deleteContent (d : Draws) (workspaceId campaignId contentId : Uuid) : Svc CampaignContent := do
  let content ← getContent workspaceId campaignId contentId
  let deleted ← softDelete content.id fun r : CampaignContent => { r with deletedAt := some (d.now 0) }
  Prog.require (deleted = true) (.http 404 "Content not found")
  pure { content with deletedAt := some (d.now 0) }

/-! ### What a call that returns did -/

variable {s s' : Database} {d : Draws} {w c i : Uuid} {r a : CampaignContent}
  {data : CampaignContentCreate} {upd : CampaignContentUpdate}

/-- The content with id `i` is there, not deleted, and of the campaign `c` and the workspace `w`. -/
def IsContent (s : Database) (w c i : Uuid) (r : CampaignContent) : Prop :=
  r ∈ s.campaignContents.rows ∧ r.id = i ∧ r.deletedAt = none ∧ r.workspaceId = w ∧ r.campaignId = c

/-- The version that a new one replaces. -/
def latestOf (s : Database) (data : CampaignContentCreate) : Option CampaignContent :=
  (s.campaignContents.select
    (matching data.campaignId data.contentType (orElse data.language "en"))).argmax
      CampaignContent.version

/-- What a new version does to a row that is there. -/
def demote (o : Option CampaignContent) (p : CampaignContent) : CampaignContent :=
  if o.map CampaignContent.id = some p.id then notCurrent p else p

/-- The requests to create a content that are accepted. -/
structure CreateAccepts (s : Database) (d : Draws) (w : Uuid) (data : CampaignContentCreate) :
    Prop where
  campaign : ∃ k, IsCampaign s w data.campaignId k
  workspace : s.workspaces.has w = true
  fresh : ∀ p ∈ s.campaignContents.rows, p.id ≠ d.uuid 0
  latest : ∀ p, latestOf s data = some p → Model.references s p = true

/-- The requests to update a content that are accepted. -/
def UpdateAccepts (s : Database) (w c i : Uuid) (upd : CampaignContentUpdate) : Prop :=
  upd.storable ∧ ∃ r, IsContent s w c i r ∧ Model.references s (patch upd r) = true

/-- What does not see whether a row is current does not see that a new version came. -/
theorem demote_keeps {β : Type} {v : CampaignContent → β} (hv : ∀ p, v (notCurrent p) = v p)
    (o : Option CampaignContent) (p : CampaignContent) : v (demote o p) = v p := by
  unfold demote
  split_ifs
  · exact hv p
  · rfl

theorem demote_id (o : Option CampaignContent) (p : CampaignContent) : (demote o p).id = p.id :=
  demote_keeps (fun _ => rfl) o p

theorem demote_none (p : CampaignContent) : demote none p = p := rfl

theorem returns_getLatestVersion {o : Option CampaignContent} :
    (getLatestVersion data.campaignId data.contentType (orElse data.language "en")).Returns s o s' ↔
      o = latestOf s data ∧ s' = s := by
  unfold getLatestVersion
  rw [Prog.returns_bind]
  constructor
  · rintro ⟨rows, t, hsel, h⟩
    obtain ⟨rfl, rfl⟩ := Prog.returns_gets.mp hsel
    exact Prog.returns_pure.mp h
  · rintro ⟨rfl, rfl⟩
    exact ⟨_, _, Prog.returns_gets.mpr ⟨rfl, rfl⟩, Prog.returns_pure.mpr ⟨rfl, rfl⟩⟩

theorem latestOf_some {p : CampaignContent} (h : latestOf s data = some p) :
    p ∈ s.campaignContents.rows ∧
      matching data.campaignId data.contentType (orElse data.language "en") p = true :=
  Table.mem_select.mp (List.argmax_mem h)

theorem latestOf_none (h : latestOf s data = none) : ∀ p ∈ s.campaignContents.rows,
    matching data.campaignId data.contentType (orElse data.language "en") p = false := by
  intro p hp
  by_contra hmatch
  have hmem := Table.mem_select.mpr ⟨hp, Bool.eq_true_of_not_eq_false hmatch⟩
  exact List.eq_nil_iff_forall_not_mem.mp (List.argmax_eq_none.mp h) p hmem

/-! ### Retiring a version -/

theorem rows_of_retire {T : Table CampaignContent} {p : CampaignContent}
    (h : s.campaignContents.modify p.id notCurrent = some T) :
    T.rows = s.campaignContents.rows.map (demote (some p)) := by
  rw [Table.modify_eq_some.mp h]
  refine List.map_congr_left fun r _ => ?_
  have hiff : Keyed.key r = p.id ↔ (some p).map CampaignContent.id = some r.id := by
    simp only [Option.map_some, Option.some.injEq]
    exact eq_comm
  simp only [demote, hiff]

theorem retire_spec {o : Option CampaignContent} {u : Unit}
    (ho : ∀ p, o = some p → p ∈ s.campaignContents.rows) (h : (retire o).Returns s u s') :
    (∀ p, o = some p → Model.references s p = true) ∧
      ∃ T, s' = { s with campaignContents := T } ∧
        T.rows = s.campaignContents.rows.map (demote o) := by
  rcases o with _ | p
  · obtain ⟨-, rfl⟩ := Prog.returns_pure.mp h
    refine ⟨fun _ h => absurd h (by simp), s'.campaignContents, rfl, ?_⟩
    rw [List.map_congr_left fun p _ => demote_none p, List.map_id']
  · unfold retire at h
    rw [Prog.returns_bind] at h
    obtain ⟨b, t, hupd, h⟩ := h
    obtain ⟨-, rfl⟩ := Prog.returns_pure.mp h
    obtain ⟨q, hq, hk, rfl, href, T, hT, rfl⟩ := returns_update.mp hupd
    have hqp : q = p := s.campaignContents.eq_of_key_eq hq (ho p rfl) hk
    subst hqp
    have hmod : s.campaignContents.modify q.id notCurrent = some T := hT
    refine ⟨?_, T, rfl, rows_of_retire hmod⟩
    rintro p' hp'
    obtain rfl := Option.some.inj hp'
    exact href

theorem retire_returns {o : Option CampaignContent}
    (ho : ∀ p, o = some p → p ∈ s.campaignContents.rows ∧ Model.references s p = true) :
    ∃ T, (retire o).Returns s () { s with campaignContents := T } ∧
      T.rows = s.campaignContents.rows.map (demote o) := by
  rcases o with _ | p
  · refine ⟨s.campaignContents, Prog.returns_pure.mpr ⟨rfl, rfl⟩, ?_⟩
    rw [List.map_congr_left fun p _ => demote_none p, List.map_id']
  · obtain ⟨hp, href⟩ := ho p rfl
    obtain ⟨T, hT⟩ : ∃ T, s.campaignContents.modify p.id notCurrent = some T :=
      Table.exists_modify (fun _ => rfl) fun _ _ => rfl
    have hupd : (update p.id notCurrent).Returns s (notCurrent p) { s with campaignContents := T } :=
      returns_update.mpr ⟨p, hp, rfl, rfl, href, T, hT, rfl⟩
    exact ⟨T, Prog.returns_bind_pure.mpr ⟨_, hupd, rfl⟩, rows_of_retire hT⟩

/-! ### The three operations -/

/-- The version that is replaced satisfies the constraints, and so does the new one. -/
theorem references_contentOf {T : Table CampaignContent} {o : Option CampaignContent}
    (hT : T.rows = s.campaignContents.rows.map (demote o)) (hw : s.workspaces.has w = true)
    (hc : s.campaigns.has data.campaignId = true)
    (ho : ∀ p, o = some p → p ∈ s.campaignContents.rows) :
    Model.references { s with campaignContents := T } (contentOf d w data o) = true := by
  have hparent : optionalRef T (o.map CampaignContent.id) = true := by
    rcases o with _ | p
    · rfl
    · refine Table.has_iff.mpr ⟨demote (some p) p, ?_, demote_id _ _⟩
      rw [hT]
      exact List.mem_map_of_mem (ho p rfl)
  simp [Model.references, contentOf, hw, hc, hparent]

/-- **`create_campaign_content`**: the version it finds is retired and a current one is added. -/
theorem createCampaignContent_spec (h : (createCampaignContent d w data).Returns s a s') :
    CreateAccepts s d w data ∧ a = contentOf d w data (latestOf s data) ∧
      ∃ T, s' = { s with campaignContents := T } ∧ ∀ q, q ∈ T.rows ↔
        (∃ p ∈ s.campaignContents.rows, q = demote (latestOf s data) p) ∨ q = a := by
  unfold createCampaignContent at h
  rw [Prog.returns_bind] at h
  obtain ⟨k, s₁, hget, h⟩ := h
  obtain ⟨rfl, hk⟩ := getCampaign_spec hget
  rw [Prog.returns_bind] at h
  obtain ⟨o, s₂, hlatest, h⟩ := h
  obtain ⟨rfl, rfl⟩ := returns_getLatestVersion.mp hlatest
  rw [Prog.returns_bind] at h
  obtain ⟨_, s₃, hret, h⟩ := h
  obtain ⟨href, T, rfl, hT⟩ := retire_spec (fun p hp => (latestOf_some hp).1) hret
  obtain ⟨rfl, href', T', hT', rfl⟩ := returns_create.mp h
  have hins : T.insert (contentOf d w data (latestOf s₂ data)) = some T' := hT'
  have hdemoted : ∀ p ∈ s₂.campaignContents.rows, demote (latestOf s₂ data) p ∈ T.rows := by
    intro p hp
    rw [hT]
    exact List.mem_map_of_mem hp
  refine ⟨⟨⟨k, hk⟩, ?_, fun p hp => ?_, href⟩, rfl, T', rfl, fun q => ?_⟩
  · simp only [Model.references, Bool.and_eq_true] at href'
    exact href'.1.1
  · have hne := (Table.apart_of_insert hins (hdemoted p hp)).1
    rwa [show Keyed.key (demote (latestOf s₂ data) p) = p.id from demote_id _ _] at hne
  · rw [Table.mem_insert hins, hT, List.mem_map]
    simp only [eq_comm]

theorem createCampaignContent_succeeds (h : CreateAccepts s d w data) :
    (createCampaignContent d w data).succeeds s = true := by
  obtain ⟨⟨k, hk⟩, hw, hfresh, hlatest⟩ := h
  have hlat : ∀ p, latestOf s data = some p →
      p ∈ s.campaignContents.rows ∧ Model.references s p = true :=
    fun p hp => ⟨(latestOf_some hp).1, hlatest p hp⟩
  obtain ⟨T, hret, hT⟩ := retire_returns hlat
  have hc : s.campaigns.has data.campaignId = true := Table.has_iff.mpr ⟨k, hk.1, hk.2.1⟩
  have href := references_contentOf (d := d) hT hw hc fun p hp => (latestOf_some hp).1
  obtain ⟨T', hT'⟩ : ∃ T', T.insert (contentOf d w data (latestOf s data)) = some T' := by
    refine Table.exists_insert fun q hq => ⟨?_, rfl⟩
    rw [hT] at hq
    obtain ⟨p, hp, rfl⟩ := List.mem_map.mp hq
    rw [show Keyed.key (demote (latestOf s data) p) = p.id from demote_id _ _]
    exact hfresh p hp
  unfold createCampaignContent
  rw [Prog.succeeds_bind (getCampaign_returns hk),
    Prog.succeeds_bind (returns_getLatestVersion.mpr ⟨rfl, rfl⟩), Prog.succeeds_bind hret]
  exact Prog.succeeds_of_returns (returns_create.mpr ⟨rfl, href, T', hT', rfl⟩)

theorem getContent_spec (h : (getContent w c i).Returns s r s') : s' = s ∧ IsContent s w c i r := by
  unfold getContent at h
  rw [Prog.returns_bind] at h
  obtain ⟨found, s₁, hget, h⟩ := h
  obtain ⟨rfl, hf⟩ := getById_spec hget
  rw [Prog.returns_bind] at h
  obtain ⟨r', s₂, hr, h⟩ := h
  obtain ⟨rfl, rfl⟩ := returns_orRaise.mp hr
  rw [Prog.returns_bind] at h
  obtain ⟨_, s₃, hreq, h⟩ := h
  obtain ⟨⟨hw, hc⟩, rfl⟩ := Prog.returns_require.mp hreq
  obtain ⟨rfl, rfl⟩ := Prog.returns_pure.mp h
  obtain ⟨hm, hk, hd⟩ := (hf r).mp rfl
  exact ⟨rfl, hm, hk, hd, hw, hc⟩

theorem getContent_returns (h : IsContent s w c i r) : (getContent w c i).Returns s r s := by
  obtain ⟨hm, hk, hd, hw, hc⟩ := h
  have hget : (getById CampaignContent i).Returns s (some r) s := getById_returns hm hk hd
  refine Prog.returns_bind.mpr ⟨_, _, hget, ?_⟩
  refine Prog.returns_bind.mpr ⟨r, s, returns_orRaise.mpr ⟨rfl, rfl⟩, ?_⟩
  refine Prog.returns_bind.mpr ⟨(), s, Prog.returns_require.mpr ⟨⟨hw, hc⟩, rfl⟩, ?_⟩
  exact Prog.returns_pure.mpr ⟨rfl, rfl⟩

/-- **`update_content`** sets the given fields of one row. -/
theorem updateContent_spec (h : (updateContent w c i upd).Returns s a s') :
    UpdateAccepts s w c i upd ∧ ∃ T, s.campaignContents.modify i (patch upd) = some T ∧
      s' = { s with campaignContents := T } := by
  unfold updateContent at h
  rw [Prog.returns_bind] at h
  obtain ⟨r, s₁, hget, h⟩ := h
  obtain ⟨rfl, hr⟩ := getContent_spec hget
  rw [Prog.returns_bind] at h
  obtain ⟨_, s₂, hreq, h⟩ := h
  obtain ⟨hst, rfl⟩ := Prog.returns_require.mp hreq
  obtain ⟨q, hq, hk, -, href, T, hT, rfl⟩ := returns_update.mp h
  have hqr : q = r := s₂.campaignContents.eq_of_key_eq hq hr.1 hk
  subst hqr
  rw [hr.2.1] at hT
  exact ⟨⟨hst, q, hr, href⟩, T, hT, rfl⟩

theorem updateContent_succeeds (h : UpdateAccepts s w c i upd) :
    (updateContent w c i upd).succeeds s = true := by
  obtain ⟨hst, r, hr, href⟩ := h
  obtain ⟨T, hT⟩ : ∃ T, s.campaignContents.modify r.id (patch upd) = some T :=
    Table.exists_modify (fun _ => rfl) fun _ _ => rfl
  unfold updateContent
  rw [Prog.succeeds_bind (getContent_returns hr), Prog.succeeds_require hst]
  exact Prog.succeeds_of_returns (returns_update.mpr ⟨r, hr.1, rfl, rfl, href, T, hT, rfl⟩)

/-- **`delete_content`** marks one row. -/
theorem deleteContent_spec (h : (deleteContent d w c i).Returns s a s') :
    s' = s ∨ Updated i (fun r : CampaignContent => { r with deletedAt := some (d.now 0) }) s s' := by
  unfold deleteContent at h
  rw [Prog.returns_bind] at h
  obtain ⟨r, s₁, hget, h⟩ := h
  obtain ⟨rfl, hr⟩ := getContent_spec hget
  rw [Prog.returns_bind] at h
  obtain ⟨b, s₂, hdel, h⟩ := h
  rw [Prog.returns_bind] at h
  obtain ⟨_, s₃, hreq, h⟩ := h
  obtain ⟨-, rfl⟩ := Prog.returns_require.mp hreq
  obtain ⟨-, rfl⟩ := Prog.returns_pure.mp h
  rw [← hr.2.1]
  exact softDelete_spec hdel

/-! ### Reading -/

theorem frames_getContent {δ : Type} {g : Database → δ} : (getContent w c i).Frames g :=
  Prog.frames_bind frames_getById fun _ => Prog.frames_bind (frames_orRaise _ _) fun _ =>
    Prog.frames_bind (Prog.frames_require _ _) fun _ => Prog.frames_pure _

theorem frames_getLatestVersion {δ : Type} {g : Database → δ} {contentType : ContentType}
    {language : String} : (getLatestVersion c contentType language).Frames g :=
  Prog.frames_bind (Prog.frames_gets _) fun _ => Prog.frames_pure _

end MarketingSuite.Content.Service
