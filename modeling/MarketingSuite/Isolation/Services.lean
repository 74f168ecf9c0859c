import MarketingSuite.Content.Service
import MarketingSuite.Isolation.Rows

/-! # The campaign and the content service, twice

A row that is named by its id alone is fetched first and compared with the workspace afterwards: in
two databases that agree for the workspace it is found in both, or refused in both. With this, every
call of the two services keeps two runs together. -/

namespace MarketingSuite.Isolation.Services

open MarketingSuite.Lib.Programs MarketingSuite.Lib.Tables MarketingSuite.Lib.Shares
open MarketingSuite.Lib.Relations
open MarketingSuite.Base.Values MarketingSuite.Base.Models MarketingSuite.Base.Schema
open MarketingSuite.Repositories.Base MarketingSuite.Isolation.Rows
open MarketingSuite.Campaigns.Service MarketingSuite.Content.Service

variable {w i c : Uuid} {k : Option Uuid} {o₁ o₂ s s' t t' : Database} {e : Exc}

/-! ### Queries -/

section Queries

variable {ρ : Type} [Keyed ρ Uuid] [Model ρ] {p : ρ → Bool}

theorem looks_orRaise {α : Type} {o : Option α} :
    Looks (orRaise o e : Svc α) s t fun a => o = some a := by
  rcases o with _ | a
  · exact looks_raise
  · exact looks_pure rfl

theorem looks_scalarOneOrNone {α : Type} {l : List α} :
    Looks (scalarOneOrNone l) s t fun o => l = o.toList := by
  rcases l with _ | ⟨a, _ | ⟨b, l⟩⟩
  · exact looks_pure rfl
  · exact looks_pure rfl
  · exact looks_raise

theorem looks_selectOne (h : (table s : Table ρ).select p = (table t : Table ρ).select p) :
    Looks (selectOne p) s t fun o => (table s : Table ρ).select p = o.toList :=
  looks_bind (looks_gets h rfl) fun _ hl => hl ▸ looks_scalarOneOrNone

theorem looks_newestPage {createdAt : ρ → Time} {skip limit : ℤ}
    (h : (table s : Table ρ).select p = (table t : Table ρ).select p) :
    Looks (newestPage p createdAt skip limit) s t fun _ => True := by
  refine looks_bind looks_require fun _ _ => ?_
  exact looks_bind (P := fun _ => True) (looks_gets h trivial) fun _ _ => looks_pure trivial

/-- The row with this id is there, not deleted, and the caller's. -/
structure Found (s : Database) (i : Uuid) (mine : ρ → Prop) (r : ρ) : Prop where
  mem : r ∈ (table s : Table ρ).rows
  key : Keyed.key r = i
  kept : Model.deletedAt r = none
  mine : mine r

/-- Fetch a row by its id, and refuse it unless it is the caller's. -/
def fetch (i : Uuid) (mine : ρ → Prop) [DecidablePred mine] (e : Exc) : Svc ρ := do
  let found ← getById ρ i
  let r ← orRaise found e
  Prog.require (mine r) e
  pure r

variable {mine : ρ → Prop} [DecidablePred mine] {r : ρ}

theorem fetch_returns (h : Found s i mine r) : (fetch i mine e).Returns s r s := by
  refine Prog.returns_bind.mpr ⟨_, s, getById_returns h.mem h.key h.kept, ?_⟩
  refine Prog.returns_bind.mpr ⟨r, s, returns_orRaise.mpr ⟨rfl, rfl⟩, ?_⟩
  refine Prog.returns_bind.mpr ⟨(), s, Prog.returns_require.mpr ⟨h.mine, rfl⟩, ?_⟩
  exact Prog.returns_pure.mpr ⟨rfl, rfl⟩

theorem fetch_raises (h : ∀ r, ¬ Found s i mine r) : (fetch i mine e).Raises s e s := by
  obtain ⟨o, hget⟩ := exists_getById (ρ := ρ) s i
  obtain ⟨-, hspec⟩ := getById_spec hget
  refine (Prog.raises_bind_of_returns hget).mpr ?_
  rcases o with _ | r
  · exact Prog.raises_bind.mpr (Or.inl (raises_orRaise.mpr ⟨rfl, rfl, rfl⟩))
  · obtain ⟨hmem, hkey, hkept⟩ := (hspec r).mp rfl
    have hnot : ¬ mine r := fun hm => h r ⟨hmem, hkey, hkept, hm⟩
    refine (Prog.raises_bind_of_returns (returns_orRaise.mpr ⟨rfl, rfl⟩)).mpr ?_
    exact Prog.raises_bind.mpr (Or.inl (Prog.raises_require.mpr ⟨hnot, rfl, rfl⟩))

/-- **Fetched first and compared afterwards**: found in both databases, or refused in both. -/
theorem looks_fetch [Tenant ρ] [Written ρ] (hagree : Agree w s t)
    (hmine : ∀ r, mine r → Tenant.workspaceId r = w) :
    Looks (fetch i mine e) s t fun r => Found s i mine r ∧ Found t i mine r := by
  have hiff : ∀ r, Found s i mine r ↔ Found t i mine r := by
    intro r
    constructor
    · rintro ⟨hmem, hkey, hkept, hm⟩
      exact ⟨(mem_iff_of_agree hagree (own_iff.mpr (hmine r hm))).mp hmem, hkey, hkept, hm⟩
    · rintro ⟨hmem, hkey, hkept, hm⟩
      exact ⟨(mem_iff_of_agree hagree (own_iff.mpr (hmine r hm))).mpr hmem, hkey, hkept, hm⟩
  by_cases h : ∃ r, Found s i mine r
  · obtain ⟨r, hr⟩ := h
    exact together_of_returns (fetch_returns hr) (fetch_returns ((hiff r).mp hr))
      ⟨rfl, rfl, hr, (hiff r).mp hr⟩
  · have hnone : ∀ r, ¬ Found s i mine r := fun r hr => h ⟨r, hr⟩
    exact together_of_raises (fetch_raises hnone)
      (fetch_raises fun r hr => hnone r ((hiff r).mpr hr)) ⟨rfl, rfl⟩

/-- **A row that was found is deleted** in both databases, if the mark leaves its references and the
invariant. -/
theorem together_deletion [Tenant ρ] [Written ρ] {mark : ρ → ρ} {mine' : ρ → Prop} {a : ρ}
    (hst : Standing w k o₁ o₂ s t) (h₁ : Found s i mine' r) (h₂ : Found t i mine' r)
    (hw : Tenant.workspaceId r = w) (hkey : ∀ r : ρ, Keyed.key (mark r) = Keyed.key r)
    (hown : ∀ r : ρ, Tenant.workspaceId (mark r) = Tenant.workspaceId r)
    (hrefs : ∀ {u}, Sound u → r ∈ (table u : Table ρ).rows → Model.references u (mark r) = true)
    (hsound : ∀ {u}, Sound u → ∀ T, (table u : Table ρ).modify (Keyed.key r) mark = some T →
      Sound (setTable u T)) :
    Together (do
      let deleted ← softDelete (Keyed.key r) mark
      Prog.require (deleted = true) e
      pure a) s t (fun _ => Standing w none o₁ o₂) (Standing w none o₁ o₂) := by
  have hget : Looks (getById ρ (Keyed.key r)) s t fun found => found = some r :=
    together_of_returns (getById_returns h₁.mem rfl h₁.kept)
      (getById_returns h₂.mem rfl h₂.kept) ⟨rfl, rfl, rfl⟩
  have href : Model.references s (mark r) = Model.references t (mark r) := by
    rw [hrefs hst.sound₁ h₁.mem, hrefs hst.sound₂ h₂.mem]
  have hupdate := together_update hst h₁.mem rfl (own_iff.mpr hw) hkey hown href
    (fun _ => hsound hst.sound₁) fun _ => hsound hst.sound₂
  have hwhere : Together (updateWhere (Keyed.key r) (fun _ => true) mark) s t
      (fun _ => Standing w none o₁ o₂) (Standing w none o₁ o₂) := by
    refine hget.bind (fun found hfound => ?_) hst.done
    subst hfound
    exact together_bind (hupdate.mono (fun _ _ _ h => h.2.1.done) fun _ _ h => h.done)
      fun _ _ _ h => together_pure h
  have hdelete : Together (softDelete (Keyed.key r) mark) s t (fun _ => Standing w none o₁ o₂)
      (Standing w none o₁ o₂) := together_bind hwhere fun _ _ _ h => together_pure h
  exact together_bind hdelete fun _ _ _ h => looks_require.bind (fun _ _ => together_pure h) h

end Queries

/-! ### The campaign service -/

section Campaigns

/-- The campaign is in the workspace. -/
abbrev InWorkspace (w : Uuid) (c : Campaign) : Prop := c.workspaceId = w

theorem looks_getCampaign (hagree : Agree w s t) : Looks (getCampaign w i) s t fun c =>
    Found s i (InWorkspace w) c ∧ Found t i (InWorkspace w) c :=
  looks_fetch hagree fun _ hc => hc

theorem looks_checkDates {start end_ : Option DateTime} :
    Looks (checkDates start end_) s t fun _ => True := by
  rcases start with _ | start
  · exact looks_pure trivial
  rcases end_ with _ | end_
  · exact looks_pure trivial
  exact looks_bind looks_orRaise fun _ _ => looks_require.mono fun _ _ => trivial

theorem select_brandKit (hagree : Agree w s t) (j : Uuid) :
    s.brandKits.select (fun b => b.id = j && b.workspaceId = w) =
      t.brandKits.select (fun b => b.id = j && b.workspaceId = w) := by
  have hown : ∀ b : BrandKit, (b.id = j && b.workspaceId = w : Bool) = true → own w b = true := by
    intro b hb
    simp only [Bool.and_eq_true, decide_eq_true_eq] at hb
    exact own_iff.mpr hb.2
  exact select_of_share hagree.brandKits (fun b _ => hown b) fun b _ => hown b

theorem has_of_select {T : Table BrandKit} {j : Uuid} {b : BrandKit}
    (h : b ∈ T.select fun b => b.id = j && b.workspaceId = w) : T.has j = true := by
  obtain ⟨hb, hp⟩ := Table.mem_select.mp h
  simp only [Bool.and_eq_true, decide_eq_true_eq] at hp
  exact Table.has_iff.mpr ⟨b, hb, hp.1⟩

theorem looks_checkBrandKit (hagree : Agree w s t) {kit : Option Uuid} :
    Looks (checkBrandKit w kit) s t fun _ =>
      optionalRef s.brandKits kit = true ∧ optionalRef t.brandKits kit = true := by
  rcases kit with _ | j
  · exact looks_pure ⟨rfl, rfl⟩
  refine looks_bind (looks_selectOne (select_brandKit hagree j)) fun found hfound => ?_
  refine looks_require.mono fun _ hsome => ?_
  obtain ⟨b, rfl⟩ := Option.isSome_iff_exists.mp hsome
  have hb : b ∈ s.brandKits.select fun b => b.id = j && b.workspaceId = w := by
    have hlist : s.brandKits.select (fun b => b.id = j && b.workspaceId = w) = [b] := hfound
    rw [hlist]
    exact List.mem_singleton_self b
  have hb₂ := select_brandKit hagree j ▸ hb
  exact ⟨has_of_select hb, has_of_select hb₂⟩

theorem has_workspace (hagree : Agree w s t) : s.workspaces.has w = t.workspaces.has w := by
  have hmem : ∀ {T T₂ : Table Workspace}, T.select (own w) = T₂.select (own w) →
      T.has w = true → T₂.has w = true := by
    intro T T₂ h hT
    obtain ⟨ws, hws, hid⟩ := Table.has_iff.mp hT
    exact Table.has_iff.mpr ⟨ws, (mem_iff_of_share h (own_iff.mpr hid)).mp hws, hid⟩
  exact Bool.eq_iff_iff.mpr ⟨hmem hagree.workspaces, hmem hagree.workspaces.symm⟩

theorem together_createCampaign {d : Draws} {owner : Uuid} {data : CampaignCreate}
    (hst : Standing w (some (d.uuid 0)) o₁ o₂ s t) (howner : s.users.has owner = t.users.has owner) :
    Together (createCampaign d w owner data) s t (fun _ => Standing w none o₁ o₂)
      (Standing w none o₁ o₂) := by
  refine looks_checkDates.bind (fun _ _ => ?_) hst.done
  refine (looks_checkBrandKit hst.agree).bind (fun _ hkit => ?_) hst.done
  have href : Model.references s (campaignOf d w owner data) =
      Model.references t (campaignOf d w owner data) := by
    simp only [Model.references, campaignOf, has_workspace hst.agree, howner, hkit.1, hkit.2]
  refine (together_create hst (own_iff.mpr rfl) (hst.keys _ rfl).campaigns href ?_ ?_).mono
    (fun _ _ _ h => h.2.2) fun _ _ h => h
  · exact fun h T hT => sound_insert_campaign hst.sound₁ hT h
  · exact fun h T hT => sound_insert_campaign hst.sound₂ hT h

theorem looks_getCampaigns {ilike : String → String → Bool} {skip limit : ℤ}
    {status : Option CampaignStatus} {search : Option String} (hagree : Agree w s t) :
    Looks (getCampaigns ilike w skip limit status search) s t fun _ => True := by
  have hpage : ∀ p : Campaign → Bool, (∀ c, p c = true → c.workspaceId = w) →
      Looks (newestPage p Campaign.createdAt skip limit) s t fun _ => True := fun p hp =>
    looks_newestPage (select_of_share hagree.campaigns (fun c _ h => own_iff.mpr (hp c h))
      fun c _ h => own_iff.mpr (hp c h))
  unfold getCampaigns
  refine together_ite (fun _ => ?_) fun _ => ?_
  · refine looks_bind looks_require fun _ _ => ?_
    refine hpage _ fun c hc => ?_
    simp only [Bool.and_eq_true, decide_eq_true_eq] at hc
    exact hc.1.1
  rcases status with _ | status
  · refine hpage _ fun c hc => ?_
    simp only [Bool.and_eq_true, decide_eq_true_eq] at hc
    exact hc.1
  · refine hpage _ fun c hc => ?_
    simp only [Bool.and_eq_true, decide_eq_true_eq] at hc
    exact hc.1.1

/-- A campaign of the workspace whose changed fields keep what its foreign keys need is changed in
both databases, or in neither. -/
theorem together_updateCampaignRow {r : Campaign} {f : Campaign → Campaign}
    (hst : Standing w k o₁ o₂ s t) (h₁ : Found s i (InWorkspace w) r)
    (h₂ : Found t i (InWorkspace w) r) (hid : ∀ c, (f c).id = c.id)
    (hw : ∀ c, (f c).workspaceId = c.workspaceId)
    (href : Model.references s (f r) = Model.references t (f r)) :
    Together (update r.id f) s t (fun _ => Standing w none o₁ o₂) (Standing w none o₁ o₂) := by
  have hsound : ∀ {u : Database}, Sound u → r ∈ u.campaigns.rows →
      Model.references u (f r) = true → ∀ T, u.campaigns.modify r.id f = some T →
      Sound { u with campaigns := T } := by
    intro u hu hr hru T hT
    refine sound_modify_campaign hu hT hid hw fun q hq hqk => ?_
    rw [u.campaigns.eq_of_key_eq hq hr hqk]
    exact hru
  refine (together_update hst h₁.mem rfl (own_iff.mpr h₁.mine) hid hw href
    (hsound hst.sound₁ h₁.mem) (hsound hst.sound₂ h₂.mem)).mono (fun _ _ _ h => h.2.1.done)
    fun _ _ h => h.done

/-- The new brand kit of a campaign is there, if the old one is. -/
theorem references_patch {data : CampaignUpdate} {r : Campaign} (hs : Sound s)
    (hr : r ∈ s.campaigns.rows) (hkit : optionalRef s.brandKits
      (if data.brandKitId.join = r.brandKitId then none else data.brandKitId.join) = true) :
    Model.references s (Campaigns.Service.patch data r) = true := by
  have hrefs := hs.campaigns r hr
  simp only [Model.references, Bool.and_eq_true] at hrefs ⊢
  refine ⟨hrefs.1, ?_⟩
  rcases hk : data.brandKitId with _ | kit
  · simp only [Campaigns.Service.patch, hk, Option.getD_none]
    exact hrefs.2
  · simp only [Campaigns.Service.patch, hk, Option.getD_some]
    rw [hk, Option.join_some] at hkit
    by_cases hsame : kit = r.brandKitId
    · rw [hsame]
      exact hrefs.2
    · rw [if_neg hsame] at hkit
      exact hkit

theorem together_updateCampaign {data : CampaignUpdate} (hst : Standing w k o₁ o₂ s t) :
    Together (updateCampaign w i data) s t (fun _ => Standing w none o₁ o₂)
      (Standing w none o₁ o₂) := by
  refine (looks_getCampaign hst.agree).bind (fun r hr => ?_) hst.done
  refine looks_checkDates.bind (fun _ _ => ?_) hst.done
  refine (looks_checkBrandKit hst.agree).bind (fun _ hkit => ?_) hst.done
  refine looks_require.bind (fun _ _ => ?_) hst.done
  refine together_updateCampaignRow hst hr.1 hr.2 (fun _ => rfl) (fun _ => rfl) ?_
  rw [references_patch hst.sound₁ hr.1.mem hkit.1, references_patch hst.sound₂ hr.2.mem hkit.2]

theorem together_deleteCampaign {d : Draws} (hst : Standing w k o₁ o₂ s t) :
    Together (deleteCampaign d w i) s t (fun _ => Standing w none o₁ o₂)
      (Standing w none o₁ o₂) := by
  refine (looks_getCampaign hst.agree).bind (fun r hr => ?_) hst.done
  exact together_deletion hst hr.1 hr.2 hr.1.mine (fun _ => rfl) (fun _ => rfl)
    (fun hu hmem => hu.campaigns r hmem) fun hu T hT =>
      sound_modify_campaign hu hT (fun _ => rfl) (fun _ => rfl) fun q hq _ => hu.campaigns q hq

theorem together_changeStatus {new : CampaignStatus} (hst : Standing w k o₁ o₂ s t) :
    Together (changeStatus w i new) s t (fun _ => Standing w none o₁ o₂)
      (Standing w none o₁ o₂) := by
  refine (looks_getCampaign hst.agree).bind (fun r hr => ?_) hst.done
  refine together_ite (fun _ => together_pure hst.done) fun _ => ?_
  refine looks_require.bind (fun _ _ => ?_) hst.done
  refine together_updateCampaignRow hst hr.1 hr.2 (fun _ => rfl) (fun _ => rfl) ?_
  have hrefs : ∀ {u : Database}, Sound u → r ∈ u.campaigns.rows →
      Model.references u { r with status := new } = true := fun hu h => hu.campaigns r h
  rw [hrefs hst.sound₁ hr.1.mem, hrefs hst.sound₂ hr.2.mem]

end Campaigns

/-! ### The content service -/

section Contents

/-- The content is of the campaign, and in the workspace. -/
abbrev InCampaign (w c : Uuid) (r : CampaignContent) : Prop := r.workspaceId = w ∧ r.campaignId = c

variable {camp : Campaign} {d : Draws}

theorem looks_getContent (hagree : Agree w s t) : Looks (getContent w c i) s t fun r =>
    Found s i (InCampaign w c) r ∧ Found t i (InCampaign w c) r :=
  looks_fetch hagree fun _ hr => hr.1

/-- The contents of a campaign of the workspace are rows of the workspace. -/
theorem own_of_campaign (hs : Sound s) (hc : Found s c (InWorkspace w) camp) {r : CampaignContent}
    (hr : r ∈ s.campaignContents.rows) (hrc : r.campaignId = c) : own w r = true := by
  have hkey : camp.id = r.campaignId := (hc.key : camp.id = c).trans hrc.symm
  exact own_iff.mpr ((hs.home r hr camp hc.mem hkey).symm.trans hc.mine)

theorem select_ofCampaign (hst : Standing w k o₁ o₂ s t) (h₁ : Found s c (InWorkspace w) camp)
    (h₂ : Found t c (InWorkspace w) camp) {p : CampaignContent → Bool}
    (hp : ∀ r, p r = true → r.campaignId = c) :
    s.campaignContents.select p = t.campaignContents.select p :=
  select_of_share hst.agree.contents
    (fun r hr hpr => own_of_campaign hst.sound₁ h₁ hr (hp r hpr))
    fun r hr hpr => own_of_campaign hst.sound₂ h₂ hr (hp r hpr)

theorem looks_getCampaignContents {skip limit : ℤ} (hst : Standing w k o₁ o₂ s t) :
    Looks (getCampaignContents w c skip limit) s t fun _ => True := by
  refine looks_bind (looks_getCampaign hst.agree) fun camp hc => ?_
  refine looks_newestPage (select_ofCampaign hst hc.1 hc.2 fun r hr => ?_)
  simp only [Bool.and_eq_true, decide_eq_true_eq] at hr
  exact hr.1

/-- The version that is replaced is a content of the campaign in both databases. -/
theorem looks_getLatestVersion (hst : Standing w k o₁ o₂ s t) (h₁ : Found s c (InWorkspace w) camp)
    (h₂ : Found t c (InWorkspace w) camp) {ct : ContentType} {language : String} :
    Looks (getLatestVersion c ct language) s t fun latest => ∀ p, latest = some p →
      p ∈ s.campaignContents.rows ∧ p ∈ t.campaignContents.rows ∧ own w p = true := by
  have hmatch : ∀ r, matching c ct language r = true → r.campaignId = c := by
    intro r hr
    simp only [matching, Bool.and_eq_true, decide_eq_true_eq] at hr
    exact hr.1.1.1.1
  have hsel := select_ofCampaign hst h₁ h₂ hmatch
  refine looks_bind (looks_gets hsel rfl) fun rows hrows => looks_pure fun p hp => ?_
  have hmem : p ∈ rows := List.argmax_mem hp
  rw [← hrows] at hmem
  obtain ⟨hs, hpm⟩ := Table.mem_select.mp hmem
  have hmem₂ : p ∈ t.campaignContents.select (matching c ct language) := by
    rw [← hsel]
    exact hmem
  exact ⟨hs, (Table.mem_select.mp hmem₂).1, own_of_campaign hst.sound₁ h₁ hs (hmatch p hpm)⟩

theorem together_updateContentRow {r : CampaignContent} {f : CampaignContent → CampaignContent}
    (hst : Standing w k o₁ o₂ s t) (h₁ : r ∈ s.campaignContents.rows)
    (h₂ : r ∈ t.campaignContents.rows) (hr : own w r = true) (hid : ∀ r, (f r).id = r.id)
    (hw : ∀ r, (f r).workspaceId = r.workspaceId) (hc : ∀ r, (f r).campaignId = r.campaignId)
    (hp : ∀ r, (f r).parentVersionId = r.parentVersionId) :
    Together (update r.id f) s t (fun a s' t' => a = f r ∧ Standing w k o₁ o₂ s' t' ∧
      Updated r.id f s s' ∧ Updated r.id f t t') (Standing w k o₁ o₂) := by
  have hrefs : ∀ {u : Database}, Sound u → r ∈ u.campaignContents.rows →
      Model.references u (f r) = true := by
    intro u hu hmem
    have h := hu.contents r hmem
    simp only [Model.references, hw r, hc r, hp r]
    exact h
  refine together_update hst h₁ rfl hr hid hw ?_ (fun _ T hT => ?_) fun _ T hT => ?_
  · rw [hrefs hst.sound₁ h₁, hrefs hst.sound₂ h₂]
  · exact sound_modify_content hst.sound₁ hT hid hw hc hp
  · exact sound_modify_content hst.sound₂ hT hid hw hc hp

/-- What holds after a version was retired. -/
structure Retired (s s' : Database) : Prop where
  grows : Grows s s'
  campaigns : s'.campaigns = s.campaigns

theorem retired_of_updated {p : CampaignContent} (h : Updated p.id notCurrent s s') :
    Retired s s' := by
  obtain ⟨T, hT, rfl⟩ := h
  have hgrows : Grows s { s with campaignContents := T } := grows_contents fun j hj => by
    rw [has_modify (f := notCurrent) (fun _ => rfl) hT]
    exact hj
  exact ⟨hgrows, rfl⟩

theorem Retired.found (h : Retired s s') (hc : Found s c (InWorkspace w) camp) :
    Found s' c (InWorkspace w) camp := by
  have hmem : camp ∈ s'.campaigns.rows := by
    rw [h.campaigns]
    exact hc.mem
  exact ⟨hmem, hc.key, hc.kept, hc.mine⟩

theorem together_retire {latest : Option CampaignContent} (hst : Standing w k o₁ o₂ s t)
    (h : ∀ p, latest = some p →
      p ∈ s.campaignContents.rows ∧ p ∈ t.campaignContents.rows ∧ own w p = true) :
    Together (retire latest) s t (fun _ s' t' => Standing w k o₁ o₂ s' t' ∧ Retired s s' ∧
      Retired t t') (Standing w k o₁ o₂) := by
  rcases latest with _ | p
  · exact together_pure ⟨hst, ⟨.refl s, rfl⟩, .refl t, rfl⟩
  obtain ⟨h₁, h₂, hp⟩ := h p rfl
  refine together_bind (together_updateContentRow (f := notCurrent) hst h₁ h₂ hp (fun _ => rfl)
    (fun _ => rfl) (fun _ => rfl) fun _ => rfl) fun a s' t' ha => together_pure ⟨ha.2.1, ?_, ?_⟩
  · exact retired_of_updated ha.2.2.1
  · exact retired_of_updated ha.2.2.2

theorem references_newContent {data : CampaignContentCreate} {latest : Option CampaignContent}
    (hs : Sound s) (hc : Found s data.campaignId (InWorkspace w) camp)
    (hp : ∀ p, latest = some p → p ∈ s.campaignContents.rows) :
    Model.references s (contentOf d w data latest) = true := by
  have hrefs := hs.campaigns camp hc.mem
  simp only [Model.references, Bool.and_eq_true] at hrefs
  have hws : s.workspaces.has w = true := by
    rw [← hc.mine]
    exact hrefs.1.1
  have hcamp : s.campaigns.has data.campaignId = true :=
    Table.has_iff.mpr ⟨camp, hc.mem, hc.key⟩
  have hparent : optionalRef s.campaignContents (latest.map CampaignContent.id) = true := by
    rcases latest with _ | p
    · rfl
    · exact Table.has_iff.mpr ⟨p, hp p rfl, rfl⟩
  simp only [Model.references, contentOf, hws, hcamp, hparent, Bool.and_self]

theorem sound_newContent {data : CampaignContentCreate} {latest : Option CampaignContent}
    {T : Table CampaignContent} (hs : Sound s) (hc : Found s data.campaignId (InWorkspace w) camp)
    (href : Model.references s (contentOf d w data latest) = true)
    (hT : s.campaignContents.insert (contentOf d w data latest) = some T) :
    Sound { s with campaignContents := T } := by
  refine sound_insert_content hs hT href fun q hq hqk => ?_
  have hkey : q.id = camp.id := hqk.trans (hc.key : camp.id = data.campaignId).symm
  rw [s.campaigns.eq_of_key_eq hq hc.mem hkey]
  exact hc.mine

theorem together_createCampaignContent {data : CampaignContentCreate}
    (hst : Standing w (some (d.uuid 0)) o₁ o₂ s t) :
    Together (createCampaignContent d w data) s t (fun _ => Standing w none o₁ o₂)
      (Standing w none o₁ o₂) := by
  refine (looks_getCampaign hst.agree).bind (fun camp hc => ?_) hst.done
  refine (looks_getLatestVersion hst hc.1 hc.2).bind (fun latest hlatest => ?_) hst.done
  refine together_bind ((together_retire hst hlatest).mono (fun _ _ _ h => h) fun _ _ h => h.done)
    fun _ s' t' h => ?_
  obtain ⟨hst', hret, hret₂⟩ := h
  have href : Model.references s' (contentOf d w data latest) = true :=
    references_content_mono hret.grows
      (references_newContent hst.sound₁ hc.1 fun p hp => (hlatest p hp).1)
  have href₂ : Model.references t' (contentOf d w data latest) = true :=
    references_content_mono hret₂.grows
      (references_newContent hst.sound₂ hc.2 fun p hp => (hlatest p hp).2.1)
  refine (together_create hst' (own_iff.mpr rfl) (hst'.keys _ rfl).contents (href.trans href₂.symm)
    (fun h T hT => ?_) fun h T hT => ?_).mono (fun _ _ _ h => h.2.2) fun _ _ h => h
  · exact sound_newContent hst'.sound₁ (hret.found hc.1) h hT
  · exact sound_newContent hst'.sound₂ (hret₂.found hc.2) h hT

theorem together_updateContent {upd : CampaignContentUpdate} (hst : Standing w k o₁ o₂ s t) :
    Together (updateContent w c i upd) s t (fun _ => Standing w none o₁ o₂)
      (Standing w none o₁ o₂) := by
  refine (looks_getContent hst.agree).bind (fun r hr => ?_) hst.done
  refine looks_require.bind (fun _ _ => ?_) hst.done
  exact (together_updateContentRow (f := Content.Service.patch upd) hst hr.1.mem hr.2.mem
    (own_iff.mpr hr.1.mine.1) (fun _ => rfl) (fun _ => rfl) (fun _ => rfl) fun _ => rfl).mono
      (fun _ _ _ h => h.2.1.done) fun _ _ h => h.done

theorem together_deleteContent (hst : Standing w k o₁ o₂ s t) :
    Together (deleteContent d w c i) s t (fun _ => Standing w none o₁ o₂)
      (Standing w none o₁ o₂) := by
  refine (looks_getContent hst.agree).bind (fun r hr => ?_) hst.done
  exact together_deletion hst hr.1 hr.2 hr.1.mine.1 (fun _ => rfl) (fun _ => rfl)
    (fun hu hmem => hu.contents r hmem) fun hu T hT =>
      sound_modify_content hu hT (fun _ => rfl) (fun _ => rfl) (fun _ => rfl) fun _ => rfl

end Contents

end MarketingSuite.Isolation.Services
