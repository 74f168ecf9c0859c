import MarketingSuite.Isolation.Providers
import MarketingSuite.Lib.Runs

/-! # Tenants do not see each other

The calls of the campaign, the content and the publishing service, made for a workspace. Two
databases, each reached by any run of the system, that agree on the rows of the workspace answer
every such call alike, are changed alike in the rows of the workspace, and not at all in those of
others. -/

namespace MarketingSuite.Isolation.Calls

open MarketingSuite.Lib.Programs MarketingSuite.Lib.Tables MarketingSuite.Lib.Shares
open MarketingSuite.Lib.Relations MarketingSuite.Lib.Sessions MarketingSuite.Lib.Runs
open MarketingSuite.Base.Values MarketingSuite.Base.Models MarketingSuite.Base.Schema
open MarketingSuite.Repositories.Base MarketingSuite.Isolation.Rows
open MarketingSuite.Isolation.Services MarketingSuite.Isolation.Providers
open MarketingSuite.Campaigns.Service MarketingSuite.Content.Service MarketingSuite.Publishing.Service
open MarketingSuite.Integrations.Service (strOfExc)

/-- A call of one of the three services. What is drawn at random and what the world answers comes
with it. -/
inductive Call
  | createCampaign (d : Draws) (ownerId : Uuid) (data : CampaignCreate)
  | getCampaign (campaignId : Uuid)
  | getCampaigns (ilike : String → String → Bool) (skip limit : ℤ)
      (status : Option CampaignStatus) (search : Option String)
  | updateCampaign (campaignId : Uuid) (data : CampaignUpdate)
  | deleteCampaign (d : Draws) (campaignId : Uuid)
  | changeStatus (campaignId : Uuid) (newStatus : CampaignStatus)
  | generateContent (request : AIContentGenerateRequest)
  | createCampaignContent (d : Draws) (data : CampaignContentCreate)
  | getCampaignContents (campaignId : Uuid) (skip limit : ℤ)
  | getContent (campaignId contentId : Uuid)
  | updateContent (campaignId contentId : Uuid) (data : CampaignContentUpdate)
  | deleteContent (d : Draws) (campaignId contentId : Uuid)
  | publishContent (d : Draws) (env : Social.Factory.Env) (request : PublishRequest)
  | getPublishHistory (skip limit : ℤ) (campaignId contentId : Option Uuid)
      (status : Option String) (socialAccountId : Option Uuid)

/-- What a call returns. -/
inductive Answer
  | campaign (c : Campaign)
  | campaigns (l : List Campaign)
  | generated (r : AIContentGenerateResponse)
  | content (r : CampaignContent)
  | contents (l : List CampaignContent)
  | history (h : PublishHistory)
  | histories (l : List PublishHistory)

/-- A call in the session of its request. -/
def perform (w : Uuid) : Call → Prog (Session Database) Exc Answer
  | .createCampaign d ownerId data => do
    let c ← Session.exec (createCampaign d w ownerId data)
    pure (.campaign c)
  | .getCampaign campaignId => do
    let c ← Session.exec (getCampaign w campaignId)
    pure (.campaign c)
  | .getCampaigns ilike skip limit status search => do
    let l ← Session.exec (getCampaigns ilike w skip limit status search)
    pure (.campaigns l)
  | .updateCampaign campaignId data => do
    let c ← Session.exec (updateCampaign w campaignId data)
    pure (.campaign c)
  | .deleteCampaign d campaignId => do
    let c ← Session.exec (deleteCampaign d w campaignId)
    pure (.campaign c)
  | .changeStatus campaignId newStatus => do
    let c ← Session.exec (changeStatus w campaignId newStatus)
    pure (.campaign c)
  | .generateContent request => do
    let r ← Session.exec (generateContent w request)
    pure (.generated r)
  | .createCampaignContent d data => do
    let r ← Session.exec (createCampaignContent d w data)
    pure (.content r)
  | .getCampaignContents campaignId skip limit => do
    let l ← Session.exec (getCampaignContents w campaignId skip limit)
    pure (.contents l)
  | .getContent campaignId contentId => do
    let r ← Session.exec (getContent w campaignId contentId)
    pure (.content r)
  | .updateContent campaignId contentId data => do
    let r ← Session.exec (updateContent w campaignId contentId data)
    pure (.content r)
  | .deleteContent d campaignId contentId => do
    let r ← Session.exec (deleteContent d w campaignId contentId)
    pure (.content r)
  | .publishContent d env request => do
    let h ← publishContent d (strOfExc env.toEnv) (Publishing.Truth.publisher env) w request
    pure (.history h)
  | .getPublishHistory skip limit campaignId contentId status socialAccountId => do
    let l ← Session.exec
      (getPublishHistory w skip limit campaignId contentId status socialAccountId)
    pure (.histories l)

/-! ### The system -/

/-- A request of another part of the system: it leaves campaigns, contents and the publish history
alone, and deletes no user, workspace, brand kit or social account. -/
abbrev Other : Type := { p : Svc Unit //
  p.Frames (fun s => (s.campaigns, s.campaignContents, s.publishHistory)) ∧
    ∀ s, Grows s (p s).2 }

/-- What can happen. -/
inductive Event
  | call (w : Uuid) (q : Call)
  | other (body : Other)

/-- The state after an event. A call that returns is committed by its endpoint; the tokens that a
provider renews on the way are an event of their own. -/
def step (s : Database) : Event → Database
  | .call w q => (Session.serve (do
      let a ← perform w q
      Session.commit
      pure a) s).2
  | .other body => (body.val s).2

/-- No campaign was made yet. -/
structure Bare (s : Database) : Prop where
  campaigns : s.campaigns.rows = []
  contents : s.campaignContents.rows = []
  histories : s.publishHistory.rows = []

/-- The key that a call draws. -/
def Call.newKey : Call → Option Uuid
  | .createCampaign d _ _ | .createCampaignContent d _ | .publishContent d _ _ => some (d.uuid 0)
  | _ => none

/-- The user for whom a call makes a row. -/
def Call.author : Call → Option Uuid
  | .createCampaign _ ownerId _ => some ownerId
  | _ => none

/-- What a call is given from outside the workspace is the same in both databases: the key that it
draws is free in both or in neither, and so with the user who makes it. -/
structure SameInputs (q : Call) (s t : Database) : Prop where
  key : ∀ i, q.newKey = some i → SameKey i s t
  author : ∀ i, q.author = some i → s.users.has i = t.users.has i

/-- **Isolation** of the workspace `w` in a call: the outcome is the same from both databases, the
rows of the workspace are the same afterwards, and no other row was touched. -/
structure Isolated (w : Uuid) (q : Call) (s t : Database) : Prop where
  outcome : (perform w q (Session.fresh s)).1 = (perform w q (Session.fresh t)).1
  agree : Agree w (perform w q (Session.fresh s)).2.view (perform w q (Session.fresh t)).2.view
  committed : Agree w (perform w q (Session.fresh s)).2.committed
    (perform w q (Session.fresh t)).2.committed
  elsewhere₁ : Elsewhere w s (perform w q (Session.fresh s)).2.view ∧
    Elsewhere w s (perform w q (Session.fresh s)).2.committed
  elsewhere₂ : Elsewhere w t (perform w q (Session.fresh t)).2.view ∧
    Elsewhere w t (perform w q (Session.fresh t)).2.committed

/-! ### The publishing service, twice -/

variable {w : Uuid} {k : Option Uuid} {o₁ o₂ s t : Database} {d : Draws} {q : Call}
  {env : Social.Factory.Env} {request : PublishRequest}

/-- The content of a request, in the workspace. -/
abbrev ContentOf (w : Uuid) (r : CampaignContent) : Prop := r.workspaceId = w

/-- The account of a request, in the workspace. -/
abbrev AccountOf (w : Uuid) (a : SocialAccount) : Prop := a.workspaceId = w

theorem fetchRelations_eq : fetchRelations w request = (do
    let content ← fetch request.contentId (ContentOf w) (.http 404 "Content not found")
    let account ← fetch request.socialAccountId (AccountOf w) (.http 404 "Social account not found")
    pure (content, account)) := by
  simp only [fetchRelations, fetch, Prog.bind_assoc, Prog.pure_bind]

theorem looks_fetchRelations (hagree : Agree w s t) :
    Looks (fetchRelations w request) s t fun p =>
      (Found s request.contentId (ContentOf w) p.1 ∧ Found t request.contentId (ContentOf w) p.1) ∧
        Found s request.socialAccountId (AccountOf w) p.2 ∧
          Found t request.socialAccountId (AccountOf w) p.2 := by
  rw [fetchRelations_eq]
  refine looks_bind (looks_fetch hagree fun _ h => h) fun content hc => ?_
  exact looks_bind (looks_fetch hagree fun _ h => h) fun account ha => looks_pure ⟨hc, ha⟩

theorem references_pending {content : CampaignContent} {account : SocialAccount} (hs : Sound s)
    (hc : Found s request.contentId (ContentOf w) content)
    (ha : Found s request.socialAccountId (AccountOf w) account) :
    Model.references s (pendingHistory d w content account) = true := by
  have hrefs := hs.contents content hc.mem
  simp only [Model.references, Bool.and_eq_true] at hrefs
  have hws : s.workspaces.has w = true := by
    rw [← hc.mine]
    exact hrefs.1.1
  have hcontent : s.campaignContents.has content.id = true :=
    Table.has_iff.mpr ⟨content, hc.mem, rfl⟩
  have haccount : s.socialAccounts.has account.id = true :=
    Table.has_iff.mpr ⟨account, ha.mem, rfl⟩
  simp only [Model.references, pendingHistory, optionalRef, hws, hrefs.1.2, hcontent, haccount,
    Bool.and_self]

/-- Two sessions that stand together, in what they see and in what is committed. -/
structure Sessions (w : Uuid) (o₁ o₂ : Database) (x y : Session Database) : Prop where
  view : Standing w none o₁ o₂ x.view y.view
  committed : Standing w none o₁ o₂ x.committed y.committed

theorem together_outcomeOf {p : Svc String} {x y : Session Database} {s' t' : Database}
    (hx : x.pending = some s') (hy : y.pending = some t')
    (hp : Together p x.committed y.committed (fun _ => Standing w none o₁ o₂)
      (Standing w none o₁ o₂)) :
    Together (outcomeOf (Session.outside p)) x y
      (fun _ x' y' => x'.pending = some s' ∧ y'.pending = some t' ∧
        Standing w none o₁ o₂ x'.committed y'.committed) fun _ _ => False := by
  have hout : Together (Session.outside p) x y
      (fun _ x' y' => x'.pending = some s' ∧ y'.pending = some t' ∧
        Standing w none o₁ o₂ x'.committed y'.committed)
      (fun x' y' => x'.pending = some s' ∧ y'.pending = some t' ∧
        Standing w none o₁ o₂ x'.committed y'.committed) :=
    together_outside (hp.mono (fun _ _ _ h => ⟨hx, hy, h⟩) fun _ _ h => ⟨hx, hy, h⟩)
  exact together_handle (together_bind hout fun _ _ _ h => together_pure h) fun _ _ _ h =>
    together_pure h

theorem together_conclude {textOf : Exc → String} {outcome : Except Exc String}
    {h : PublishHistory} (hst : Standing w none o₁ o₂ s t) (hh : h ∈ s.publishHistory.rows)
    (hw : own w h = true) :
    Together (update h.id (concluded d textOf outcome)) s t (fun _ => Standing w none o₁ o₂)
      (Standing w none o₁ o₂) := by
  have ht : h ∈ t.publishHistory.rows := (mem_iff_of_agree hst.agree hw).mp hh
  have hown : ∀ r : PublishHistory, (concluded d textOf outcome r).workspaceId = r.workspaceId := by
    intro r
    rcases outcome with e | id <;> rfl
  refine (together_update (f := concluded d textOf outcome) hst hh rfl hw (fun _ => concluded_id)
    hown ?_ (fun _ T hT => ?_) fun _ T hT => ?_).mono (fun _ _ _ h => h.2.1) fun _ _ h => h
  · rw [references_concluded, references_concluded, hst.sound₁.histories h hh,
      hst.sound₂.histories h ht]
  · exact sound_modify_history hst.sound₁ hT fun _ => references_concluded
  · exact sound_modify_history hst.sound₂ hT fun _ => references_concluded

theorem together_publishContent {textOf : Exc → String}
    (hst : Standing w (some (d.uuid 0)) s t s t) :
    Together (publishContent d textOf (Publishing.Truth.publisher env) w request) (Session.fresh s)
      (Session.fresh t) (fun _ => Sessions w s t) (Sessions w s t) := by
  have hdone : Standing w none s t s t := hst.done
  refine Looks.exec_bind (looks_fetchRelations hst.agree) (fun p hp => ?_) ⟨hdone, hdone⟩
  obtain ⟨content, account⟩ := p
  obtain ⟨⟨hc, hc₂⟩, ha, ha₂⟩ := hp
  have href := references_pending (d := d) hst.sound₁ hc ha
  have href₂ := references_pending (d := d) hst.sound₂ hc₂ ha₂
  have hcreate := together_create (r := pendingHistory d w content account) hst (own_iff.mpr rfl)
    (hst.keys _ rfl).histories (href.trans href₂.symm)
    (fun h T hT => sound_insert_history hst.sound₁ hT h)
    fun h T hT => sound_insert_history hst.sound₂ hT h
  refine together_bind (S := fun h x y => h ∈ x.view.publishHistory.rows ∧ own w h = true ∧
      x.committed = s ∧ y.committed = t ∧ x.pending = some x.view ∧ y.pending = some y.view ∧
      Standing w none s t x.view y.view)
    (together_exec (hcreate.mono ?_ fun _ _ h => ⟨h, hdone⟩)) fun h x y hxy => ?_
  · rintro h s' t' ⟨rfl, hmem, hst'⟩
    exact ⟨hmem, own_iff.mpr rfl, rfl, rfl, rfl, rfl, hst'⟩
  obtain ⟨hmem, hw, hxc, hyc, hxp, hyp, hst'⟩ := hxy
  have hprovider : Together ((Publishing.Truth.publisher env).publish account content) x.committed
      y.committed (fun _ => Standing w none s t) (Standing w none s t) := by
    rw [hxc, hyc]
    exact together_publish hdone ha.mine ha.mem
  refine together_bind ((together_outcomeOf hxp hyp hprovider).mono (fun _ _ _ h => h)
    fun _ _ h => h.elim) fun outcome x' y' h' => ?_
  obtain ⟨hx', hy', hcommitted⟩ := h'
  have hview : x'.view = x.view := by rw [Session.view, hx']; rfl
  have hview₂ : y'.view = y.view := by rw [Session.view, hy']; rfl
  refine together_exec ((together_conclude ?_ ?_ hw).mono (fun _ _ _ h => ⟨h, hcommitted⟩)
    fun _ _ h => ⟨h, hcommitted⟩)
  · rw [hview, hview₂]
    exact hst'
  · rw [hview]
    exact hmem

theorem looks_getPublishHistory {skip limit : ℤ} {campaignId contentId accountId : Option Uuid}
    {status : Option String} (hagree : Agree w s t) :
    Looks (getPublishHistory w skip limit campaignId contentId status accountId) s t
      fun _ => True := by
  refine looks_newestPage (select_of_share hagree.histories (fun h _ hp => ?_) fun h _ hp => ?_)
  all_goals
    simp only [Bool.and_eq_true, decide_eq_true_eq] at hp
    exact own_iff.mpr hp.1.1.1.1

/-! ### Every call, twice -/

theorem together_read {α : Type} {p : Svc α} {P : α → Prop} {g : α → Answer}
    (hst : Standing w k s t s t) (h : Looks p s t P) :
    Together (do let a ← Session.exec p; pure (g a)) (Session.fresh s) (Session.fresh t)
      (fun _ => Sessions w s t) (Sessions w s t) :=
  together_bind_pure (together_exec (h.together (fun _ _ => ⟨hst.done, hst.done⟩)
    ⟨hst.done, hst.done⟩))

theorem together_write {α : Type} {p : Svc α} {g : α → Answer} (hst : Standing w k s t s t)
    (h : Together p s t (fun _ => Standing w none s t) (Standing w none s t)) :
    Together (do let a ← Session.exec p; pure (g a)) (Session.fresh s) (Session.fresh t)
      (fun _ => Sessions w s t) (Sessions w s t) :=
  together_bind_pure (together_exec (h.mono (fun _ _ _ h => ⟨h, hst.done⟩)
    fun _ _ h => ⟨h, hst.done⟩))

/-- **Every call keeps two runs together.** -/
theorem together_perform (hst : Standing w q.newKey s t s t)
    (hauthor : ∀ i, q.author = some i → s.users.has i = t.users.has i) :
    Together (perform w q) (Session.fresh s) (Session.fresh t) (fun _ => Sessions w s t)
      (Sessions w s t) := by
  have hagree := hst.agree
  cases q with
  | createCampaign d ownerId data =>
    exact together_write hst (together_createCampaign hst (hauthor ownerId rfl))
  | getCampaign campaignId => exact together_read hst (looks_getCampaign hagree)
  | getCampaigns ilike skip limit status search =>
    exact together_read hst (looks_getCampaigns hagree)
  | updateCampaign campaignId data => exact together_write hst (together_updateCampaign hst)
  | deleteCampaign d campaignId => exact together_write hst (together_deleteCampaign hst)
  | changeStatus campaignId newStatus => exact together_write hst (together_changeStatus hst)
  | generateContent request =>
    exact together_read (P := fun _ => True) hst (looks_pure trivial)
  | createCampaignContent d data => exact together_write hst (together_createCampaignContent hst)
  | getCampaignContents campaignId skip limit =>
    exact together_read hst (looks_getCampaignContents hst)
  | getContent campaignId contentId => exact together_read hst (looks_getContent hagree)
  | updateContent campaignId contentId data => exact together_write hst (together_updateContent hst)
  | deleteContent d campaignId contentId => exact together_write hst (together_deleteContent hst)
  | publishContent d env request => exact together_bind_pure (together_publishContent hst)
  | getPublishHistory skip limit campaignId contentId status accountId =>
    exact together_read hst (looks_getPublishHistory hagree)

theorem isolated_of_sound (hagree : Agree w s t) (hs : Sound s) (ht : Sound t)
    (hin : SameInputs q s t) : Isolated w q s t := by
  have hst : Standing w q.newKey s t s t := .start hagree hin.key hs ht
  obtain ⟨hout, h⟩ := (together_perform hst hin.author).outcome
  exact ⟨hout, h.view.agree, h.committed.agree, ⟨h.view.elsewhere₁, h.committed.elsewhere₁⟩,
    h.view.elsewhere₂, h.committed.elsewhere₂⟩

/-! ### Reachable databases -/

theorem Bare.sound (h : Bare s) : Sound s where
  campaigns c hc := absurd hc (by simp [h.campaigns])
  contents r hr := absurd hr (by simp [h.contents])
  histories r hr := absurd hr (by simp [h.histories])
  home r hr := absurd hr (by simp [h.contents])

/-- **A step keeps a database sound.** -/
theorem sound_step (e : Event) (hs : Sound s) : Sound (step s e) := by
  cases e with
  | call w q =>
    have hst : Standing w q.newKey s s s s := .start (.refl w s) (fun _ _ => ⟨rfl, rfl, rfl⟩) hs hs
    have hrun : Together (Session.serve (do
        let a ← perform w q
        Session.commit
        pure a)) s s (fun _ => Standing w none s s) (Standing w none s s) :=
      together_serve (together_bind ((together_perform hst fun _ _ => rfl).mono
        (fun _ _ _ h => h) fun _ _ h => h.committed) fun a x y h =>
          together_bind (S := fun _ x y => Standing w none s s x.committed y.committed)
            (together_commit h.view) fun _ _ _ h => together_pure h)
    exact hrun.outcome.2.sound₁
  | other body =>
    have hgrows := body.property.2 s
    have hframe := body.property.1 s
    simp only [Prod.mk.injEq] at hframe
    exact sound_of_grows hs hgrows hframe.1 hframe.2.1 hframe.2.2

theorem sound_run (l : List Event) (hs : Sound s) : Sound (run step s l) :=
  inv_run (I := Sound) (fun _ e => sound_step e) l hs

/-- **Tenants do not see each other.** In two databases, each reached from one without campaigns by
any run, the foreign keys hold and every content is of its campaign's workspace. If they agree on
the rows of a workspace, every call for the workspace has the same outcome and the same effect on
these rows, and changes no other row. -/
theorem tenants_isolated (ho₁ : Bare o₁) (ho₂ : Bare o₂) (l₁ l₂ : List Event) :
    Sound (run step o₁ l₁) ∧ Sound (run step o₂ l₂) ∧
      ∀ w q, Agree w (run step o₁ l₁) (run step o₂ l₂) →
        SameInputs q (run step o₁ l₁) (run step o₂ l₂) →
          Isolated w q (run step o₁ l₁) (run step o₂ l₂) := by
  have hs : Sound (run step o₁ l₁) := sound_run l₁ ho₁.sound
  have ht : Sound (run step o₂ l₂) := sound_run l₂ ho₂.sound
  exact ⟨hs, ht, fun w q hagree hin => isolated_of_sound hagree hs ht hin⟩

/-- The first workspace makes the campaign 30. -/
def quiet : List Event := [.call 10 (.createCampaign (drawsFrom 30 0 "") 1
  { campaignName := "Launch" })]

/-- The second one makes the campaign 40 as well. -/
def busy : List Event := quiet ++ [.call 20 (.createCampaign (drawsFrom 40 0 "") 2
  { campaignName := "Rival" })]

/-- The first workspace cannot tell whether the campaign 40 is there. -/
theorem tenants_isolated_studios : Isolated 10 (.getCampaign 40) (run step twoStudios quiet)
    (run step twoStudios busy) ∧ (run step twoStudios quiet).campaigns.has 40 = false ∧
      (run step twoStudios busy).campaigns.has 40 = true := by
  have hbare : Bare twoStudios := ⟨rfl, rfl, rfl⟩
  have hiso := (tenants_isolated hbare hbare quiet busy).2.2 10 (.getCampaign 40)
    ⟨rfl, rfl, by decide, rfl, rfl, rfl, rfl⟩
    ⟨fun _ h => absurd h (by simp [Call.newKey]), fun _ h => absurd h (by simp [Call.author])⟩
  exact ⟨hiso, by decide, by decide⟩

end MarketingSuite.Isolation.Calls
