import MarketingSuite.Lib.Relations
import MarketingSuite.Lib.Shares
import MarketingSuite.Repositories.Base

/-! # The rows of a workspace

Two databases agree for a workspace if they have the same rows of it, in the same order. Two runs
that stand together are in such databases, in each of which the foreign keys hold, every content is
of its campaign's workspace, and the rows of the other workspaces are what they were. A write to a
row of the workspace keeps two runs together. -/

namespace MarketingSuite.Isolation.Rows

open MarketingSuite.Lib.Programs MarketingSuite.Lib.Tables MarketingSuite.Lib.Shares
open MarketingSuite.Lib.Relations
open MarketingSuite.Base.Values MarketingSuite.Base.Models MarketingSuite.Base.Schema
open MarketingSuite.Repositories.Base

/-- A class of `TenantMixin`, and the workspaces themselves. -/
class Tenant (ρ : Type) where
  workspaceId : ρ → Uuid

instance : Tenant Workspace := ⟨Workspace.id⟩
instance : Tenant BrandKit := ⟨BrandKit.workspaceId⟩
instance : Tenant Campaign := ⟨Campaign.workspaceId⟩
instance : Tenant CampaignContent := ⟨CampaignContent.workspaceId⟩
instance : Tenant SocialAccount := ⟨SocialAccount.workspaceId⟩
instance : Tenant PublishHistory := ⟨PublishHistory.workspaceId⟩
instance : Tenant IntegrationConnection := ⟨IntegrationConnection.workspaceId⟩

/-- The row belongs to the workspace `w`. -/
def own {ρ : Type} [Tenant ρ] (w : Uuid) (r : ρ) : Bool := Tenant.workspaceId r = w

/-- The two databases have the same rows of the workspace `w`. -/
structure Agree (w : Uuid) (s t : Database) : Prop where
  workspaces : s.workspaces.select (own w) = t.workspaces.select (own w)
  brandKits : s.brandKits.select (own w) = t.brandKits.select (own w)
  campaigns : s.campaigns.select (own w) = t.campaigns.select (own w)
  contents : s.campaignContents.select (own w) = t.campaignContents.select (own w)
  accounts : s.socialAccounts.select (own w) = t.socialAccounts.select (own w)
  histories : s.publishHistory.select (own w) = t.publishHistory.select (own w)
  connections : s.integrationConnections.select (own w) = t.integrationConnections.select (own w)

/-- From `s` to `s'` no row of another workspace than `w` was made, changed or deleted, and no row
of a table that the services do not write. -/
structure Elsewhere (w : Uuid) (s s' : Database) : Prop where
  campaigns : rest (own w) s'.campaigns = rest (own w) s.campaigns
  contents : rest (own w) s'.campaignContents = rest (own w) s.campaignContents
  accounts : rest (own w) s'.socialAccounts = rest (own w) s.socialAccounts
  histories : rest (own w) s'.publishHistory = rest (own w) s.publishHistory
  connections : rest (own w) s'.integrationConnections = rest (own w) s.integrationConnections
  others : { s' with
    campaigns := s.campaigns
    campaignContents := s.campaignContents
    socialAccounts := s.socialAccounts
    publishHistory := s.publishHistory
    integrationConnections := s.integrationConnections } = s

/-- **The invariant**: foreign keys hold, and a content is of its campaign's workspace. -/
structure Sound (s : Database) : Prop where
  campaigns : ∀ c ∈ s.campaigns.rows, Model.references s c = true
  contents : ∀ r ∈ s.campaignContents.rows, Model.references s r = true
  histories : ∀ h ∈ s.publishHistory.rows, Model.references s h = true
  home : ∀ r ∈ s.campaignContents.rows, ∀ c ∈ s.campaigns.rows, c.id = r.campaignId →
    c.workspaceId = r.workspaceId

/-- The key is taken in both databases or in neither, in each table that the services add to. -/
structure SameKey (i : Uuid) (s t : Database) : Prop where
  campaigns : s.campaigns.has i = t.campaigns.has i
  contents : s.campaignContents.has i = t.campaignContents.has i
  histories : s.publishHistory.has i = t.publishHistory.has i

/-- **Two runs stand together** for the workspace `w`, begun in `o₁` and `o₂`; `k` is a key that is
still to be used. -/
structure Standing (w : Uuid) (k : Option Uuid) (o₁ o₂ s t : Database) : Prop where
  agree : Agree w s t
  keys : ∀ i, k = some i → SameKey i s t
  sound₁ : Sound s
  sound₂ : Sound t
  elsewhere₁ : Elsewhere w o₁ s
  elsewhere₂ : Elsewhere w o₂ t

variable {w i : Uuid} {k : Option Uuid} {o o₁ o₂ s s' t : Database}

theorem own_iff {ρ : Type} [Tenant ρ] {r : ρ} : own w r = true ↔ Tenant.workspaceId r = w := by
  simp [own]

theorem Agree.refl (w : Uuid) (s : Database) : Agree w s s := ⟨rfl, rfl, rfl, rfl, rfl, rfl, rfl⟩

theorem Elsewhere.refl (w : Uuid) (s : Database) : Elsewhere w s s :=
  ⟨rfl, rfl, rfl, rfl, rfl, rfl⟩

theorem Standing.done (h : Standing w k o₁ o₂ s t) : Standing w none o₁ o₂ s t :=
  { h with keys := fun _ hk => absurd hk (by simp) }

theorem Standing.start (hagree : Agree w s t) (hk : ∀ i, k = some i → SameKey i s t)
    (hs : Sound s) (ht : Sound t) : Standing w k s t s t :=
  ⟨hagree, hk, hs, ht, .refl w s, .refl w t⟩

/-! ### Foreign keys -/

/-- No row to which a campaign, a content or a row of the history refers has gone. -/
structure Grows (s s' : Database) : Prop where
  users : ∀ i, s.users.has i = true → s'.users.has i = true
  workspaces : ∀ i, s.workspaces.has i = true → s'.workspaces.has i = true
  brandKits : ∀ i, s.brandKits.has i = true → s'.brandKits.has i = true
  campaigns : ∀ i, s.campaigns.has i = true → s'.campaigns.has i = true
  contents : ∀ i, s.campaignContents.has i = true → s'.campaignContents.has i = true
  accounts : ∀ i, s.socialAccounts.has i = true → s'.socialAccounts.has i = true

theorem Grows.refl (s : Database) : Grows s s :=
  ⟨fun _ => id, fun _ => id, fun _ => id, fun _ => id, fun _ => id, fun _ => id⟩

theorem optionalRef_mono {ρ : Type} [Keyed ρ Uuid] {T T' : Table ρ}
    (hT : ∀ i, T.has i = true → T'.has i = true) {j : Option Uuid} (h : optionalRef T j = true) :
    optionalRef T' j = true := by
  rcases j with _ | i
  · rfl
  · exact hT i h

theorem references_campaign_mono (hg : Grows s s') {c : Campaign}
    (h : Model.references s c = true) : Model.references s' c = true := by
  simp only [Model.references, Bool.and_eq_true] at h ⊢
  exact ⟨⟨hg.workspaces _ h.1.1, hg.users _ h.1.2⟩, optionalRef_mono hg.brandKits h.2⟩

theorem references_content_mono (hg : Grows s s') {r : CampaignContent}
    (h : Model.references s r = true) : Model.references s' r = true := by
  simp only [Model.references, Bool.and_eq_true] at h ⊢
  exact ⟨⟨hg.workspaces _ h.1.1, hg.campaigns _ h.1.2⟩, optionalRef_mono hg.contents h.2⟩

theorem references_history_mono (hg : Grows s s') {r : PublishHistory}
    (h : Model.references s r = true) : Model.references s' r = true := by
  simp only [Model.references, Bool.and_eq_true] at h ⊢
  exact ⟨⟨⟨hg.workspaces _ h.1.1.1, optionalRef_mono hg.campaigns h.1.1.2⟩,
    hg.contents _ h.1.2⟩, hg.accounts _ h.2⟩

/-! ### The tables that are written -/

/-- A table that the services write: its unique constraints are between rows of one workspace, and
what is said about two databases is said about their shares of it. -/
class Written (ρ : Type) [Keyed ρ Uuid] [Model ρ] [Tenant ρ] : Prop where
  separates : ∀ w, Separates (own w : ρ → Bool)
  table_set : ∀ s (T : Table ρ), table (setTable s T) = T
  share : ∀ {w s t}, Agree w s t →
    (table s : Table ρ).select (own w) = (table t : Table ρ).select (own w)
  agree_set : ∀ {w s t} {T T₂ : Table ρ}, Agree w s t → T.select (own w) = T₂.select (own w) →
    Agree w (setTable s T) (setTable t T₂)
  elsewhere_set : ∀ {w o s} {T : Table ρ}, Elsewhere w o s →
    rest (own w) T = rest (own w) (table s : Table ρ) → Elsewhere w o (setTable s T)
  keys_set : ∀ {i s t} {T T₂ : Table ρ}, SameKey i s t →
    (∀ i, T.has i = (table s : Table ρ).has i) → (∀ i, T₂.has i = (table t : Table ρ).has i) →
      SameKey i (setTable s T) (setTable t T₂)

theorem separates_of_free {ρ : Type} [Keyed ρ Uuid] (p : ρ → Bool)
    (h : ∀ r s : ρ, Keyed.compatible r s = true) : Separates p := fun r s _ _ => h r s

/-- The name of a campaign is unique in its workspace. -/
instance : Written Campaign where
  separates w r s hr hs := by
    have hne : r.workspaceId ≠ s.workspaceId := by
      rintro heq
      rw [own_iff] at hr
      have hsw : own w s = true := own_iff.mpr (heq.symm.trans hr)
      rw [hs] at hsw
      exact absurd hsw (by simp)
    simp [Keyed.compatible, hne]
  table_set _ _ := rfl
  share h := h.campaigns
  agree_set h hT := { h with campaigns := hT }
  elsewhere_set h hT := { h with campaigns := hT.trans h.campaigns }
  keys_set h h₁ h₂ := { h with campaigns := (h₁ _).trans (h.campaigns.trans (h₂ _).symm) }

instance : Written CampaignContent where
  separates _ := separates_of_free _ fun _ _ => rfl
  table_set _ _ := rfl
  share h := h.contents
  agree_set h hT := { h with contents := hT }
  elsewhere_set h hT := { h with contents := hT.trans h.contents }
  keys_set h h₁ h₂ := { h with contents := (h₁ _).trans (h.contents.trans (h₂ _).symm) }

instance : Written SocialAccount where
  separates _ := separates_of_free _ fun _ _ => rfl
  table_set _ _ := rfl
  share h := h.accounts
  agree_set h hT := { h with accounts := hT }
  elsewhere_set h hT := { h with accounts := hT.trans h.accounts }
  keys_set h _ _ := { h with }

instance : Written PublishHistory where
  separates _ := separates_of_free _ fun _ _ => rfl
  table_set _ _ := rfl
  share h := h.histories
  agree_set h hT := { h with histories := hT }
  elsewhere_set h hT := { h with histories := hT.trans h.histories }
  keys_set h h₁ h₂ := { h with histories := (h₁ _).trans (h.histories.trans (h₂ _).symm) }

instance : Written IntegrationConnection where
  separates _ := separates_of_free _ fun _ _ => rfl
  table_set _ _ := rfl
  share h := h.connections
  agree_set h hT := { h with connections := hT }
  elsewhere_set h hT := { h with connections := hT.trans h.connections }
  keys_set h _ _ := { h with }

/-- The row with the key of a row of the workspace is one of the workspace. -/
theorem own_of_key {ρ : Type} [Keyed ρ Uuid] [Tenant ρ] {T : Table ρ} {r : ρ} (hr : r ∈ T.rows)
    (hk : Keyed.key r = i) (hw : own w r = true) :
    ∀ q ∈ T.rows, Keyed.key q = i → own w q = true := by
  intro q hq hqk
  rw [T.eq_of_key_eq hq hr (hqk.trans hk.symm)]
  exact hw

section Written

variable {ρ : Type} [Keyed ρ Uuid] [Model ρ] [Tenant ρ] [Written ρ] {r : ρ} {f : ρ → ρ}
  {i : Uuid}

theorem mem_iff_of_agree (h : Agree w s t) (hr : own w r = true) :
    r ∈ (table s : Table ρ).rows ↔ r ∈ (table t : Table ρ).rows :=
  mem_iff_of_share (Written.share h) hr

/-- **A change of a row of the workspace** is made in both databases or in neither. -/
theorem together_update (hst : Standing w k o₁ o₂ s t) (hr : r ∈ (table s : Table ρ).rows)
    (hk : Keyed.key r = i) (hw : own w r = true) (hkey : ∀ r, Keyed.key (f r) = Keyed.key r)
    (hown : ∀ r : ρ, Tenant.workspaceId (f r) = Tenant.workspaceId r)
    (href : Model.references s (f r) = Model.references t (f r))
    (hs₁ : Model.references s (f r) = true → ∀ T, (table s : Table ρ).modify i f = some T →
      Sound (setTable s T))
    (hs₂ : Model.references t (f r) = true → ∀ T, (table t : Table ρ).modify i f = some T →
      Sound (setTable t T)) :
    Together (update i f) s t (fun a s' t' => a = f r ∧ Standing w k o₁ o₂ s' t' ∧
      Updated i f s s' ∧ Updated i f t t') (Standing w k o₁ o₂) := by
  have hr₂ : r ∈ (table t : Table ρ).rows := (mem_iff_of_agree hst.agree hw).mp hr
  have hside : ∀ q : ρ, own w (f q) = own w q := fun q => by rw [own, hown q, own]
  have hmine := own_of_key (T := table s) hr hk hw
  have hmine₂ := own_of_key (T := table t) hr₂ hk hw
  have hshare := Written.share (ρ := ρ) hst.agree
  rcases href₁ : Model.references s (f r) with _ | _
  · exact together_of_raises (raises_update hr hk (Or.inl href₁))
      (raises_update hr₂ hk (Or.inl (href ▸ href₁))) hst
  have href₂ : Model.references t (f r) = true := href ▸ href₁
  by_cases hmod : ∃ T, (table s : Table ρ).modify i f = some T
  · obtain ⟨T₂, hT₂⟩ := exists_modify_of_share (Written.separates w) hshare hkey hside hmine₂ hmod
    obtain ⟨T, hT⟩ := hmod
    refine together_of_returns (returns_update.mpr ⟨r, hr, hk, rfl, href₁, T, hT, rfl⟩)
      (returns_update.mpr ⟨r, hr₂, hk, rfl, href₂, T₂, hT₂, rfl⟩)
      ⟨rfl, ?_, ⟨T, hT, rfl⟩, T₂, hT₂, rfl⟩
    refine ⟨Written.agree_set hst.agree (share_modify hshare hside hT hT₂), fun j hj => ?_,
      hs₁ href₁ T hT, hs₂ href₂ T₂ hT₂, ?_, ?_⟩
    · exact Written.keys_set (hst.keys j hj) (has_modify hkey hT) (has_modify hkey hT₂)
    · exact Written.elsewhere_set hst.elsewhere₁ (rest_modify hside hmine hT)
    · exact Written.elsewhere_set hst.elsewhere₂ (rest_modify hside hmine₂ hT₂)
  · have hnone : ∀ T, (table s : Table ρ).modify i f ≠ some T := fun T hT => hmod ⟨T, hT⟩
    have hnone₂ : ∀ T, (table t : Table ρ).modify i f ≠ some T := fun T hT =>
      hmod (exists_modify_of_share (Written.separates w) hshare.symm hkey hside hmine ⟨T, hT⟩)
    exact together_of_raises (raises_update hr hk (Or.inr hnone))
      (raises_update hr₂ hk (Or.inr hnone₂)) hst

/-- **A new row of the workspace** is made in both databases or in neither. -/
theorem together_create (hst : Standing w k o₁ o₂ s t) (hw : own w r = true)
    (hkey : (table s : Table ρ).has (Keyed.key r) = (table t : Table ρ).has (Keyed.key r))
    (href : Model.references s r = Model.references t r)
    (hs₁ : Model.references s r = true → ∀ T, (table s : Table ρ).insert r = some T →
      Sound (setTable s T))
    (hs₂ : Model.references t r = true → ∀ T, (table t : Table ρ).insert r = some T →
      Sound (setTable t T)) :
    Together (create r) s t (fun a s' t' => a = r ∧ r ∈ (table s' : Table ρ).rows ∧
      Standing w none o₁ o₂ s' t') (Standing w none o₁ o₂) := by
  have hshare := Written.share (ρ := ρ) hst.agree
  rcases hs : Model.references s r with _ | _
  · exact together_of_raises (raises_create (Or.inl hs)) (raises_create (Or.inl (href ▸ hs)))
      hst.done
  have ht : Model.references t r = true := href ▸ hs
  by_cases hins : ∃ T, (table s : Table ρ).insert r = some T
  · obtain ⟨T, hT⟩ := hins
    have hfree : (table t : Table ρ).has (Keyed.key r) = false := by
      rw [← hkey]
      exact not_has_of_insert hT
    obtain ⟨T₂, hT₂⟩ := exists_insert_of_share (Written.separates w) hshare hw hfree ⟨T, hT⟩
    refine together_of_returns (returns_create.mpr ⟨rfl, hs, T, hT, rfl⟩)
      (returns_create.mpr ⟨rfl, ht, T₂, hT₂, rfl⟩) ⟨rfl, ?_, ?_⟩
    · rw [Written.table_set]
      exact Table.mem_insert_self hT
    exact ⟨Written.agree_set hst.agree (share_insert hshare hT hT₂),
      fun _ hj => absurd hj (by simp), hs₁ hs T hT, hs₂ ht T₂ hT₂,
      Written.elsewhere_set hst.elsewhere₁ (rest_insert hw hT),
      Written.elsewhere_set hst.elsewhere₂ (rest_insert hw hT₂)⟩
  · have hnone : ∀ T, (table s : Table ρ).insert r ≠ some T := fun T hT => hins ⟨T, hT⟩
    have hnone₂ : ∀ T, (table t : Table ρ).insert r ≠ some T := by
      intro T hT
      refine hins (exists_insert_of_share (Written.separates w) hshare.symm hw ?_ ⟨T, hT⟩)
      rw [hkey]
      exact not_has_of_insert hT
    exact together_of_raises (raises_create (Or.inr hnone)) (raises_create (Or.inr hnone₂)) hst.done

end Written

/-! ### The invariant, write by write -/

section Sound

theorem grows_campaigns {T : Table Campaign}
    (h : ∀ i, s.campaigns.has i = true → T.has i = true) : Grows s { s with campaigns := T } :=
  { Grows.refl s with campaigns := h }

theorem grows_contents {T : Table CampaignContent}
    (h : ∀ i, s.campaignContents.has i = true → T.has i = true) :
    Grows s { s with campaignContents := T } := { Grows.refl s with contents := h }

theorem grows_accounts {T : Table SocialAccount}
    (h : ∀ i, s.socialAccounts.has i = true → T.has i = true) :
    Grows s { s with socialAccounts := T } := { Grows.refl s with accounts := h }

/-- What neither adds nor changes campaigns, contents and history rows keeps the invariant. -/
theorem sound_of_grows (hs : Sound s) (hg : Grows s s') (hc : s'.campaigns = s.campaigns)
    (hr : s'.campaignContents = s.campaignContents) (hh : s'.publishHistory = s.publishHistory) :
    Sound s' where
  campaigns c h := references_campaign_mono hg (hs.campaigns c (hc ▸ h))
  contents r h := references_content_mono hg (hs.contents r (hr ▸ h))
  histories q h := references_history_mono hg (hs.histories q (hh ▸ h))
  home r h c h' := hs.home r (hr ▸ h) c (hc ▸ h')

theorem sound_modify_campaign {T : Table Campaign} {f : Campaign → Campaign} (hs : Sound s)
    (hT : s.campaigns.modify i f = some T) (hid : ∀ c, (f c).id = c.id)
    (hw : ∀ c, (f c).workspaceId = c.workspaceId)
    (href : ∀ c ∈ s.campaigns.rows, c.id = i → Model.references s (f c) = true) :
    Sound { s with campaigns := T } := by
  have hg : Grows s { s with campaigns := T } := grows_campaigns fun j hj => by
    rw [has_modify hid hT]
    exact hj
  refine ⟨fun c hc => ?_, fun r hr => references_content_mono hg (hs.contents r hr),
    fun h hh => references_history_mono hg (hs.histories h hh), fun r hr c hc hrc => ?_⟩
  · exact references_campaign_mono hg (Table.forall_modify hT hs.campaigns href c hc)
  · revert c
    refine Table.forall_modify hT (hs.home r hr) fun q hq _ hrq => ?_
    rw [hw q]
    exact hs.home r hr q hq ((hid q).symm.trans hrq)

theorem sound_insert_campaign {T : Table Campaign} {c : Campaign} (hs : Sound s)
    (hT : s.campaigns.insert c = some T) (href : Model.references s c = true) :
    Sound { s with campaigns := T } := by
  have hg : Grows s { s with campaigns := T } := grows_campaigns fun j hj => has_insert hT hj
  refine ⟨fun q hq => ?_, fun r hr => references_content_mono hg (hs.contents r hr),
    fun h hh => references_history_mono hg (hs.histories h hh), fun r hr q hq hrq => ?_⟩
  · exact references_campaign_mono hg (Table.forall_insert hT hs.campaigns href q hq)
  · rcases (Table.mem_insert hT).mp hq with hq | rfl
    · exact hs.home r hr q hq hrq
    · -- a content refers to a campaign that was there, and the new one was not
      have hrefs := hs.contents r hr
      simp only [Model.references, Bool.and_eq_true] at hrefs
      have hnew : s.campaigns.has q.id = false := not_has_of_insert hT
      rw [hrq, hrefs.1.2] at hnew
      exact absurd hnew (by simp)

theorem sound_modify_content {T : Table CampaignContent} {f : CampaignContent → CampaignContent}
    (hs : Sound s) (hT : s.campaignContents.modify i f = some T) (hid : ∀ r, (f r).id = r.id)
    (hw : ∀ r, (f r).workspaceId = r.workspaceId) (hc : ∀ r, (f r).campaignId = r.campaignId)
    (hp : ∀ r, (f r).parentVersionId = r.parentVersionId) :
    Sound { s with campaignContents := T } := by
  have hg : Grows s { s with campaignContents := T } := grows_contents fun j hj => by
    rw [has_modify hid hT]
    exact hj
  refine ⟨fun c hc => references_campaign_mono hg (hs.campaigns c hc), fun r hr => ?_,
    fun h hh => references_history_mono hg (hs.histories h hh), fun r hr c hcm hrc => ?_⟩
  · refine references_content_mono hg (Table.forall_modify hT hs.contents (fun q hq _ => ?_) r hr)
    have hrefs := hs.contents q hq
    simp only [Model.references, hw q, hc q, hp q]
    exact hrefs
  · revert r
    refine Table.forall_modify hT (fun q hq => hs.home q hq c hcm) fun q hq _ hrq => ?_
    rw [hw q]
    exact hs.home q hq c hcm (hrq.trans (hc q))

theorem sound_insert_content {T : Table CampaignContent} {r : CampaignContent} (hs : Sound s)
    (hT : s.campaignContents.insert r = some T) (href : Model.references s r = true)
    (hhome : ∀ c ∈ s.campaigns.rows, c.id = r.campaignId → c.workspaceId = r.workspaceId) :
    Sound { s with campaignContents := T } := by
  have hg : Grows s { s with campaignContents := T } := grows_contents fun j hj => has_insert hT hj
  refine ⟨fun c hc => references_campaign_mono hg (hs.campaigns c hc), fun q hq => ?_,
    fun h hh => references_history_mono hg (hs.histories h hh), fun q hq c hc hqc => ?_⟩
  · exact references_content_mono hg (Table.forall_insert hT hs.contents href q hq)
  · exact Table.forall_insert hT hs.home hhome q hq c hc hqc

theorem sound_modify_history {T : Table PublishHistory} {f : PublishHistory → PublishHistory}
    (hs : Sound s) (hT : s.publishHistory.modify i f = some T)
    (href : ∀ h, Model.references s (f h) = Model.references s h) :
    Sound { s with publishHistory := T } := by
  refine { hs with histories := ?_ }
  exact Table.forall_modify hT hs.histories fun q hq _ => (href q).trans (hs.histories q hq)

theorem sound_insert_history {T : Table PublishHistory} {h : PublishHistory} (hs : Sound s)
    (hT : s.publishHistory.insert h = some T) (href : Model.references s h = true) :
    Sound { s with publishHistory := T } := by
  exact { hs with histories := Table.forall_insert hT hs.histories href }

end Sound

end MarketingSuite.Isolation.Rows
