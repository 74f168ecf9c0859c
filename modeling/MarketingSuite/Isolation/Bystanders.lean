import MarketingSuite.Analytics.Metrics
import MarketingSuite.Isolation.Calls
import MarketingSuite.Lib.Unwinding
import MarketingSuite.Publishing.Tokens

/-! # A workspace does not notice the others

Requests of all workspaces in any order: the calls of the campaign, the content and the publishing
service and the counts of the dashboard, each in a session that its endpoint commits or not. Take
away whatever the other workspaces ask, or let them ask something else: the answers to a workspace
and its rows stay the same. New ids are drawn at random, so no two of them are equal. -/

namespace MarketingSuite.Isolation.Bystanders

open MarketingSuite.Lib.Programs MarketingSuite.Lib.Tables MarketingSuite.Lib.Shares
open MarketingSuite.Lib.Relations MarketingSuite.Lib.Sessions MarketingSuite.Lib.Runs
open MarketingSuite.Lib.Unwinding
open MarketingSuite.Base.Values MarketingSuite.Base.Models MarketingSuite.Base.Schema
open MarketingSuite.Repositories.Base MarketingSuite.Isolation.Rows
open MarketingSuite.Isolation.Services
open MarketingSuite.Isolation.Calls (Call Answer perform SameInputs Sessions together_perform Bare)
open MarketingSuite.Campaigns.Service MarketingSuite.Content.Service
open MarketingSuite.Publishing.Service
open MarketingSuite.Analytics.Metrics (CampaignMetrics PublishingMetrics countRows isPublication
  campaignMetrics publishingMetrics)
open MarketingSuite.Social.Providers (Platform updateBoth persist refreshTokens)
open MarketingSuite.Social.Factory (Env MediaAsset SocialProvider Stage onDesk)
open MarketingSuite.Social.Refresh (frames_checkText)
open MarketingSuite.Publishing.Tokens (publisherToken publishWith body_eq frames_desk_publishWith)
open MarketingSuite.Publishing.Truth (frames_googleChecks)

/-! ### Requests -/

/-- What is asked for a workspace. -/
inductive Query
  | call (q : Call)
  | campaignMetrics
  | publishingMetrics

/-- What a query returns. -/
inductive Reply
  | answer (a : Answer)
  | campaignMetrics (m : CampaignMetrics)
  | publishingMetrics (m : PublishingMetrics)

/-- A query in the session of its request. -/
def ask (w : Uuid) : Query → Prog (Session Database) Exc Reply
  | .call q => do
    let a ← perform w q
    pure (.answer a)
  | .campaignMetrics => do
    let m ← Session.exec (campaignMetrics w)
    pure (.campaignMetrics m)
  | .publishingMetrics => do
    let m ← Session.exec (publishingMetrics w)
    pure (.publishingMetrics m)

/-- A request of a workspace, to an endpoint that commits or to one that does not. -/
structure Request where
  workspaceId : Uuid
  query : Query
  committed : Bool

/-- What an endpoint does with its session in the end. -/
def conclude (committed : Bool) : Prog (Session Database) Exc Unit :=
  if committed = true then Session.commit else pure ()

/-- The endpoint of a request. -/
def handle (r : Request) : Svc Reply :=
  Session.serve (do
    let a ← ask r.workspaceId r.query
    conclude r.committed
    pure a)

/-- The workspaces share one database. -/
def tenants : Shared Database Request Uuid (Except Exc Reply) where
  domain := Request.workspaceId
  step s r := (handle r s).2
  answer s r := (handle r s).1

/-- The key that a request draws. -/
def Request.newKey (r : Request) : Option Uuid :=
  match r.query with
  | .call q => q.newKey
  | _ => none

/-- Whether a key is taken, in each of the tables that the calls add to. -/
def taken (i : Uuid) (s : Database) : Bool × Bool × Bool :=
  (s.campaigns.has i, s.campaignContents.has i, s.publishHistory.has i)

/-- The keys that the requests draw are new. -/
structure Fresh (s : Database) (l : List Request) : Prop where
  free : ∀ r ∈ l, ∀ i, r.newKey = some i → taken i s = (false, false, false)
  distinct : (l.filterMap Request.newKey).Nodup

variable {w v i : Uuid} {s s' t : Database} {q : Call} {r : Request} {l m : List Request}
  {α δ : Type}

/-! ### A request takes its own key only -/

section Keys

variable {ρ : Type} [Keyed ρ Uuid] {T T' : Table ρ} {a : ρ} {f : ρ → ρ}

theorem has_insert_other (h : T.insert a = some T') (hne : Keyed.key a ≠ i) :
    T'.has i = T.has i := by
  rw [Bool.eq_iff_iff, Table.has_iff, Table.has_iff]
  constructor
  · rintro ⟨b, hb, hk⟩
    rcases (Table.mem_insert h).mp hb with hb | rfl
    · exact ⟨b, hb, hk⟩
    · exact absurd hk hne
  · rintro ⟨b, hb, hk⟩
    exact ⟨b, (Table.mem_insert h).mpr (Or.inl hb), hk⟩

variable [Model ρ] {g : Database → δ}

theorem atomic_create : Prog.Atomic (create a) := by
  refine Prog.atomic_bind (Prog.atomic_gets _) (fun s l t h => (Prog.returns_gets.mp h).2)
    fun db => ?_
  refine Prog.atomic_bind (Prog.atomic_require _ _)
    (fun s l t h => (Prog.returns_require.mp h).2) fun _ => ?_
  refine Prog.atomic_bind (atomic_orRaise _ _) (fun s l t h => (returns_orRaise.mp h).2) fun T => ?_
  exact Prog.atomic_bind_pure (Prog.atomic_modify _)

theorem frames_create_of (hg : ∀ db T, (table db : Table ρ).insert a = some T →
    g (setTable db T) = g db) : Prog.Frames g (create a) := by
  intro s
  rcases (create a).returns_or_raises s with ⟨b, s', h⟩ | ⟨e, s', h⟩
  · obtain ⟨-, -, T, hT, rfl⟩ := returns_create.mp h
    rw [congrArg Prod.snd h]
    exact hg s T hT
  · rw [congrArg Prod.snd h, atomic_create s e s' h]

theorem frames_update_of (hg : ∀ db T, (table db : Table ρ).modify i f = some T →
    g (setTable db T) = g db) : Prog.Frames g (update i f) := by
  intro s
  rcases (update i f).returns_or_raises s with ⟨b, s', h⟩ | ⟨e, s', h⟩
  · obtain ⟨-, -, -, -, -, T, hT, rfl⟩ := returns_update.mp h
    rw [congrArg Prod.snd h]
    exact hg s T hT
  · rw [congrArg Prod.snd h, atomic_update s e s' h]

theorem frames_softDelete_of (hg : ∀ db T, (table db : Table ρ).modify i f = some T →
    g (setTable db T) = g db) : Prog.Frames g (softDelete i f) := by
  refine Prog.frames_bind (Prog.frames_bind frames_getById fun found => ?_) fun _ =>
    Prog.frames_pure _
  rcases found with _ | b
  · exact Prog.frames_pure _
  · exact Prog.frames_ite (Prog.frames_bind (frames_update_of hg) fun _ => Prog.frames_pure _)
      (Prog.frames_pure _)

end Keys

section Programs

variable {j : Uuid} {d : Draws} {c : Uuid} {g : Database → δ}

theorem frames_checkDates {a b : Option DateTime} : (checkDates a b).Frames g := by
  rcases a with _ | a <;> rcases b with _ | b
  · exact Prog.frames_pure _
  · exact Prog.frames_pure _
  · exact Prog.frames_pure _
  · exact Prog.frames_bind (frames_orRaise _ _) fun _ => Prog.frames_require _ _

theorem frames_checkBrandKit {b : Option Uuid} : (checkBrandKit w b).Frames g := by
  rcases b with _ | b
  · exact Prog.frames_pure _
  · exact Prog.frames_bind frames_selectOne fun _ => Prog.frames_require _ _

theorem taken_campaigns {T : Table Campaign} (h : T.has j = s.campaigns.has j) :
    taken j { s with campaigns := T } = taken j s :=
  congrArg (·, s.campaignContents.has j, s.publishHistory.has j) h

theorem taken_contents {T : Table CampaignContent} (h : T.has j = s.campaignContents.has j) :
    taken j { s with campaignContents := T } = taken j s :=
  congrArg (s.campaigns.has j, ·, s.publishHistory.has j) h

theorem taken_histories {T : Table PublishHistory} (h : T.has j = s.publishHistory.has j) :
    taken j { s with publishHistory := T } = taken j s :=
  congrArg (s.campaigns.has j, s.campaignContents.has j, ·) h

theorem frames_updateCampaignRow {f : Campaign → Campaign} (hf : ∀ a, (f a).id = a.id) :
    (update i f).Frames (taken j) :=
  frames_update_of fun _ _ hT => taken_campaigns (has_modify hf hT j)

theorem frames_updateContentRow {f : CampaignContent → CampaignContent}
    (hf : ∀ a, (f a).id = a.id) : (update i f).Frames (taken j) :=
  frames_update_of fun _ _ hT => taken_contents (has_modify hf hT j)

theorem frames_newestPage {ρ : Type} [Keyed ρ Uuid] [Model ρ] {p : ρ → Bool} {at_ : ρ → Time}
    {skip limit : ℤ} : (newestPage p at_ skip limit).Frames g :=
  Prog.frames_bind (Prog.frames_require _ _) fun _ => Prog.frames_bind (Prog.frames_gets _) fun _ =>
    Prog.frames_pure _

theorem frames_getCampaigns {ilike : String → String → Bool} {skip limit : ℤ}
    {status : Option CampaignStatus} {search : Option String} :
    (getCampaigns ilike w skip limit status search).Frames g := by
  refine Prog.frames_ite (Prog.frames_bind (Prog.frames_require _ _) fun _ => frames_newestPage) ?_
  rcases status with _ | status
  · exact frames_newestPage
  · exact frames_newestPage

theorem frames_createCampaign {owner : Uuid} {data : CampaignCreate} (h : d.uuid 0 ≠ j) :
    (createCampaign d w owner data).Frames (taken j) := by
  refine Prog.frames_bind frames_checkDates fun _ => ?_
  refine Prog.frames_bind frames_checkBrandKit fun _ => ?_
  exact frames_create_of fun _ _ hT => taken_campaigns (has_insert_other hT h)

theorem frames_updateCampaign {data : CampaignUpdate} :
    (updateCampaign w c data).Frames (taken j) := by
  refine Prog.frames_bind frames_getCampaign fun _ => ?_
  refine Prog.frames_bind frames_checkDates fun _ => ?_
  refine Prog.frames_bind frames_checkBrandKit fun _ => ?_
  exact Prog.frames_bind (Prog.frames_require _ _) fun _ => frames_updateCampaignRow fun _ => rfl

theorem frames_deleteCampaign : (deleteCampaign d w c).Frames (taken j) := by
  refine Prog.frames_bind frames_getCampaign fun _ => ?_
  refine Prog.frames_bind (frames_softDelete_of fun _ _ hT =>
    taken_campaigns (has_modify ?_ hT j)) fun _ =>
      Prog.frames_bind (Prog.frames_require _ _) fun _ => Prog.frames_pure _
  exact fun _ => rfl

theorem frames_changeStatus {new : CampaignStatus} :
    (changeStatus w c new).Frames (taken j) := by
  refine Prog.frames_bind frames_getCampaign fun _ => Prog.frames_ite (Prog.frames_pure _) ?_
  exact Prog.frames_bind (Prog.frames_require _ _) fun _ => frames_updateCampaignRow fun _ => rfl

theorem frames_createCampaignContent {data : CampaignContentCreate} (h : d.uuid 0 ≠ j) :
    (createCampaignContent d w data).Frames (taken j) := by
  refine Prog.frames_bind frames_getCampaign fun _ => ?_
  refine Prog.frames_bind ?_ fun latest => ?_
  · exact Prog.frames_bind (Prog.frames_gets _) fun _ => Prog.frames_pure _
  refine Prog.frames_bind ?_ fun _ => frames_create_of fun _ _ hT =>
    taken_contents (has_insert_other hT h)
  rcases latest with _ | p
  · exact Prog.frames_pure _
  · exact Prog.frames_bind (frames_updateContentRow fun _ => rfl) fun _ => Prog.frames_pure _

theorem frames_updateContent {data : CampaignContentUpdate} :
    (updateContent w c i data).Frames (taken j) := by
  refine Prog.frames_bind frames_getContent fun _ => ?_
  exact Prog.frames_bind (Prog.frames_require _ _) fun _ => frames_updateContentRow fun _ => rfl

theorem frames_deleteContent : (deleteContent d w c i).Frames (taken j) := by
  refine Prog.frames_bind frames_getContent fun _ => ?_
  refine Prog.frames_bind (frames_softDelete_of fun _ _ hT =>
    taken_contents (has_modify ?_ hT j)) fun _ =>
      Prog.frames_bind (Prog.frames_require _ _) fun _ => Prog.frames_pure _
  exact fun _ => rfl

end Programs

/-! ### A provider writes accounts and connections only -/

section Providers

variable {g : Database → δ} (haccounts : ∀ s T, g { s with socialAccounts := T } = g s)
  (hconnections : ∀ s T, g { s with integrationConnections := T } = g s)

include haccounts hconnections

theorem keeps_updateBoth {platform : Platform} {account : SocialAccount}
    {x : Social.Providers.Secrets} : Session.Keeps g (updateBoth platform account x) := by
  refine Session.keeps_bind (Session.keeps_exec ?_) fun conn => ?_
  · exact Prog.frames_bind (Prog.frames_gets _) fun _ => Prog.frames_pure _
  refine Session.keeps_bind (Session.keeps_exec frames_getById) fun socAccount => ?_
  rcases conn with _ | conn
  · exact Session.keeps_raise _
  rcases socAccount with _ | socAccount
  · exact Session.keeps_raise _
  refine Session.keeps_bind (Session.keeps_exec ?_) fun _ => Session.keeps_commit
  refine Prog.frames_bind (frames_update hconnections) fun _ => ?_
  refine Prog.frames_bind (frames_orRaise _ _) fun _ => ?_
  exact Prog.frames_bind (frames_update haccounts) fun _ => Prog.frames_pure _

theorem frames_refreshTokens {e : Social.Providers.Env} {platform : Platform} :
    (refreshTokens e platform).Frames fun k => g k.db := by
  refine Prog.frames_bind (Prog.frames_gets _) fun account => ?_
  refine Prog.frames_ite ?_ (Prog.frames_pure _)
  refine Prog.frames_bind (Prog.frames_require _ _) fun _ => ?_
  refine Prog.frames_bind ?_ fun tokens => ?_
  · exact Prog.frames_bind (Prog.frames_modify fun _ => rfl) fun _ => Prog.frames_ofExcept _
  refine Prog.frames_bind ?_ fun _ => Prog.frames_modify fun _ => rfl
  have hpersist : (persist e platform account (tokens.encrypted e account)).Frames g :=
    Session.frames_serve (Session.keeps_handle (keeps_updateBoth haccounts hconnections) fun _ =>
      Session.keeps_bind (fun _ _ _ hc => ⟨hc, hc⟩) fun _ => Session.keeps_raise _)
  exact Prog.frames_focus hpersist fun _ _ => rfl

variable {env : Env} {content : CampaignContent} {assets : List MediaAsset}

theorem frames_publisherToken (p : SocialProvider) :
    (publisherToken env content assets p).Frames fun t => g t.desk.db := by
  have hcheck : ∀ {u : Social.Providers.Work Unit}, u.Frames id →
      (onDesk u).Frames fun t => g t.desk.db := fun hu =>
    Prog.frames_focus (f := fun k : Social.Providers.Desk => g k.db) (Prog.frames_of_id hu)
      fun _ _ => rfl
  have hrefresh : ∀ platform, (onDesk (refreshTokens env.toProviders platform)).Frames
      fun t => g t.desk.db := fun platform =>
    Prog.frames_focus (f := fun k : Social.Providers.Desk => g k.db)
      (frames_refreshTokens haccounts hconnections) fun _ _ => rfl
  cases p with
  | mock => exact Prog.frames_pure _
  | facebook =>
    refine Prog.frames_bind (Prog.frames_gets _) fun _ => ?_
    exact Prog.frames_bind (Prog.frames_require _ _) fun _ => Prog.frames_pure _
  | instagram =>
    refine Prog.frames_bind (Prog.frames_gets _) fun _ => ?_
    refine Prog.frames_bind (Prog.frames_require _ _) fun _ => ?_
    exact Prog.frames_bind (Prog.frames_ofExcept _) fun _ => Prog.frames_pure _
  | linkedin =>
    refine Prog.frames_bind (Prog.frames_gets _) fun _ => ?_
    refine Prog.frames_bind (hcheck frames_checkText) fun _ => ?_
    refine Prog.frames_bind (hcheck (Prog.frames_require _ _)) fun _ => ?_
    refine Prog.frames_bind (hrefresh .linkedin) fun _ => ?_
    exact Prog.frames_bind (Prog.frames_gets _) fun _ => Prog.frames_pure _
  | twitter =>
    refine Prog.frames_bind (Prog.frames_gets _) fun _ => ?_
    refine Prog.frames_bind (hcheck frames_checkText) fun _ => ?_
    refine Prog.frames_bind (hrefresh .twitter) fun _ => ?_
    refine Prog.frames_bind (Prog.frames_gets _) fun _ => ?_
    exact Prog.frames_bind (Prog.frames_require _ _) fun _ => Prog.frames_pure _
  | google =>
    refine Prog.frames_bind (Prog.frames_gets _) fun _ => ?_
    refine Prog.frames_bind (hcheck frames_googleChecks) fun _ => ?_
    refine Prog.frames_bind (hrefresh .google) fun _ => ?_
    exact Prog.frames_bind (Prog.frames_gets _) fun _ => Prog.frames_pure _

/-- **No provider touches another table.** -/
theorem frames_publish (account : SocialAccount) :
    ((Publishing.Truth.publisher env).publish account content).Frames g := by
  have hbody : ∀ p : SocialProvider,
      (p.body env content (env.assetsOf content)).Frames fun t => g t.desk.db := by
    intro p
    rw [body_eq]
    refine Prog.frames_bind (Prog.frames_gets _) fun account => ?_
    refine Prog.frames_bind (frames_publisherToken haccounts hconnections p) fun _ t => ?_
    exact congrArg (fun k => g k.db) (frames_desk_publishWith p t)
  have hdispatch : (Publishing.Truth.dispatch env account content).Frames fun t => g t.desk.db :=
    Prog.frames_ite (hbody _) (Prog.frames_raise _)
  exact fun s => hdispatch (Publishing.Truth.start s account)

end Providers

theorem keeps_publishContent {d : Draws} {textOf : Exc → String} {env : Env} {j : Uuid}
    {request : PublishRequest} (h : d.uuid 0 ≠ j) :
    Session.Keeps (taken j)
      (publishContent d textOf (Publishing.Truth.publisher env) w request) := by
  refine Session.keeps_bind (Session.keeps_exec ?_) fun ⟨content, account⟩ => ?_
  · refine Prog.frames_bind frames_getById fun _ => Prog.frames_bind (frames_orRaise _ _) fun _ => ?_
    refine Prog.frames_bind (Prog.frames_require _ _) fun _ => ?_
    refine Prog.frames_bind frames_getById fun _ => Prog.frames_bind (frames_orRaise _ _) fun _ => ?_
    exact Prog.frames_bind (Prog.frames_require _ _) fun _ => Prog.frames_pure _
  refine Session.keeps_bind (Session.keeps_exec (frames_create_of fun _ _ hT =>
    taken_histories (has_insert_other hT h))) fun r => ?_
  refine Session.keeps_bind ?_ fun outcome => Session.keeps_exec (frames_update_of fun _ _ hT =>
    taken_histories (has_modify (fun _ => concluded_id) hT j))
  exact Session.keeps_handle (Session.keeps_bind (Session.keeps_outside
    (frames_publish (fun _ _ => rfl) (fun _ _ => rfl) account)) fun _ => Session.keeps_pure _)
    fun _ => Session.keeps_pure _

/-- **A call takes its own key only.** -/
theorem keeps_perform (h : q.newKey ≠ some i) : Session.Keeps (taken i) (perform w q) := by
  have hread : ∀ {α : Type} {p : Svc α} {g : α → Answer}, p.Frames (taken i) →
      Session.Keeps (taken i) (do let a ← Session.exec p; pure (g a)) := fun hp =>
    Session.keeps_bind (Session.keeps_exec hp) fun _ => Session.keeps_pure _
  have hkey : ∀ {d : Draws}, q.newKey = some (d.uuid 0) → d.uuid 0 ≠ i := by
    rintro d hd rfl
    exact h hd
  cases q with
  | createCampaign d ownerId data => exact hread (frames_createCampaign (hkey rfl))
  | getCampaign campaignId => exact hread frames_getCampaign
  | getCampaigns ilike skip limit status search => exact hread frames_getCampaigns
  | updateCampaign campaignId data => exact hread frames_updateCampaign
  | deleteCampaign d campaignId => exact hread frames_deleteCampaign
  | changeStatus campaignId newStatus => exact hread frames_changeStatus
  | generateContent request => exact hread (Prog.frames_pure _)
  | createCampaignContent d data => exact hread (frames_createCampaignContent (hkey rfl))
  | getCampaignContents campaignId skip limit =>
    exact hread (Prog.frames_bind frames_getCampaign fun _ => frames_newestPage)
  | getContent campaignId contentId => exact hread frames_getContent
  | updateContent campaignId contentId data => exact hread frames_updateContent
  | deleteContent d campaignId contentId => exact hread frames_deleteContent
  | publishContent d env request =>
    exact Session.keeps_bind (keeps_publishContent (hkey rfl)) fun _ => Session.keeps_pure _
  | getPublishHistory skip limit campaignId contentId status accountId =>
    exact hread frames_newestPage

theorem frames_countRows {ρ : Type} [Keyed ρ Uuid] [Model ρ] {p : ρ → Bool} {g : Database → δ} :
    (countRows p).Frames g := Prog.frames_gets _

theorem taken_step (h : r.newKey ≠ some i) : taken i (tenants.step s r) = taken i s := by
  have hask : Session.Keeps (taken i) (ask r.workspaceId r.query) := by
    unfold Request.newKey at h
    rcases hq : r.query with q | _ | _
    · rw [hq] at h
      exact Session.keeps_bind (keeps_perform h) fun _ => Session.keeps_pure _
    · exact Session.keeps_bind (Session.keeps_exec (Prog.frames_bind frames_countRows fun _ =>
        Prog.frames_bind frames_countRows fun _ => Prog.frames_bind frames_countRows fun _ =>
          Prog.frames_pure _)) fun _ => Session.keeps_pure _
    · exact Session.keeps_bind (Session.keeps_exec (Prog.frames_bind frames_countRows fun _ =>
        Prog.frames_bind frames_countRows fun _ => Prog.frames_bind frames_countRows fun _ =>
          Prog.frames_pure _)) fun _ => Session.keeps_pure _
  have hend : Session.Keeps (taken i) (conclude r.committed) := by
    unfold conclude
    split_ifs
    · exact Session.keeps_commit
    · exact Session.keeps_pure _
  exact Session.frames_serve (Session.keeps_bind hask fun _ => Session.keeps_bind hend fun _ =>
    Session.keeps_pure _) s

/-! ### What the other keys are -/

theorem Fresh.next (h : Fresh s (r :: l)) : Fresh (tenants.step s r) l := by
  refine ⟨fun r' hr' i hi => ?_, ?_⟩
  · have hne : r.newKey ≠ some i := by
      intro hr
      have hnodup := h.distinct
      rw [List.filterMap_cons_some hr, List.nodup_cons] at hnodup
      exact hnodup.1 (List.mem_filterMap.mpr ⟨r', hr', hi⟩)
    rw [taken_step hne]
    exact h.free r' (List.mem_cons_of_mem r hr') i hi
  · have hnodup := h.distinct
    rcases hr : r.newKey with _ | i
    · rwa [List.filterMap_cons_none hr] at hnodup
    · rw [List.filterMap_cons_some hr] at hnodup
      exact (List.nodup_cons.mp hnodup).2

theorem Fresh.sameKey (hs : Fresh s (r :: l)) (ht : Fresh t (r :: m)) (hi : r.newKey = some i) :
    SameKey i s t := by
  have h := hs.free r List.mem_cons_self i hi
  have h' := ht.free r List.mem_cons_self i hi
  simp only [taken, Prod.mk.injEq] at h h'
  exact ⟨h.1.trans h'.1.symm, h.2.1.trans h'.2.1.symm, h.2.2.trans h'.2.2.symm⟩

/-! ### A request twice -/

theorem looks_countRows {ρ : Type} [Keyed ρ Uuid] [Model ρ] {p : ρ → Bool}
    (h : (table s : Table ρ).select p = (table t : Table ρ).select p) :
    Looks (countRows p) s t fun _ => True := looks_gets (congrArg List.length h) trivial

theorem looks_campaignMetrics (hagree : Agree w s t) :
    Looks (campaignMetrics w) s t fun _ => True := by
  have hcount : ∀ p : Campaign → Bool, (∀ c, p c = true → c.workspaceId = w) →
      Looks (countRows p) s t fun _ => True := fun p hp =>
    looks_countRows (select_of_share hagree.campaigns (fun c _ h => own_iff.mpr (hp c h))
      fun c _ h => own_iff.mpr (hp c h))
  refine looks_bind (hcount _ fun c h => of_decide_eq_true h) fun _ _ => ?_
  refine looks_bind (hcount _ fun c h => of_decide_eq_true (Bool.and_eq_true_iff.mp h).1)
    fun _ _ => ?_
  exact looks_bind (hcount _ fun c h => of_decide_eq_true (Bool.and_eq_true_iff.mp h).1)
    fun _ _ => looks_pure trivial

theorem looks_publishingMetrics (hagree : Agree w s t) :
    Looks (publishingMetrics w) s t fun _ => True := by
  have hown : ∀ {status : PublishStatus} (h : PublishHistory), isPublication w status h = true →
      own w h = true := fun h hp =>
    own_iff.mpr (of_decide_eq_true (Bool.and_eq_true_iff.mp hp).1)
  have hcount : ∀ status, Looks (countRows (isPublication w status)) s t fun _ => True :=
    fun status => looks_countRows (select_of_share hagree.histories (fun h _ hp => hown h hp)
      fun h _ hp => hown h hp)
  exact looks_bind (hcount _) fun _ _ => looks_bind (hcount _) fun _ _ =>
    looks_bind (hcount _) fun _ _ => looks_pure trivial

/-- The two databases have the same users. -/
def SameUsers (s t : Database) : Prop := ∀ i, s.users.has i = t.users.has i

theorem together_ask {r : Request} (hst : Standing r.workspaceId r.newKey s t s t)
    (husers : SameUsers s t) :
    Together (ask r.workspaceId r.query) (Session.fresh s) (Session.fresh t)
      (fun _ => Sessions r.workspaceId s t) (Sessions r.workspaceId s t) := by
  have hread : ∀ {α : Type} {p : Svc α} {g : α → Reply}, Looks p s t (fun _ => True) →
      Together (do let a ← Session.exec p; pure (g a)) (Session.fresh s) (Session.fresh t)
        (fun _ => Sessions r.workspaceId s t) (Sessions r.workspaceId s t) := fun hp =>
    together_bind_pure (together_exec (hp.together (fun _ _ => ⟨hst.done, hst.done⟩)
      ⟨hst.done, hst.done⟩))
  unfold Request.newKey at hst
  rcases hq : r.query with q | _ | _
  · rw [hq] at hst
    exact together_bind_pure (together_perform hst fun i _ => husers i)
  · exact hread (looks_campaignMetrics hst.agree)
  · exact hread (looks_publishingMetrics hst.agree)

/-- **A request keeps two databases together**, whether it is committed or not. -/
theorem together_handle_request {r : Request} (hst : Standing r.workspaceId r.newKey s t s t)
    (husers : SameUsers s t) :
    Together (handle r) s t (fun _ => Standing r.workspaceId none s t)
      (Standing r.workspaceId none s t) := by
  refine together_serve (together_bind ((together_ask hst husers).mono (fun _ _ _ h => h)
    fun _ _ h => h.committed) fun a x y h => ?_)
  exact together_bind (S := fun _ x y => Standing r.workspaceId none s t x.committed y.committed)
    (together_ite (fun _ => together_commit h.view) fun _ => together_pure h.committed)
    fun _ _ _ h => together_pure h

/-! ### Unwinding -/

/-- The two databases look alike to the workspace `w`. -/
structure Alike (w : Uuid) (s t : Database) : Prop where
  agree : Agree w s t
  users : s.users = t.users

/-- What holds before the requests that are still to come. -/
structure Awaits (s : Database) (l : List Request) : Prop where
  sound : Sound s
  fresh : Fresh s l

theorem agree_symm (h : Agree w s t) : Agree w t s :=
  ⟨h.workspaces.symm, h.brandKits.symm, h.campaigns.symm, h.contents.symm, h.accounts.symm,
    h.histories.symm, h.connections.symm⟩

theorem agree_trans {u : Database} (h : Agree w s t) (h' : Agree w t u) : Agree w s u :=
  ⟨h.workspaces.trans h'.workspaces, h.brandKits.trans h'.brandKits,
    h.campaigns.trans h'.campaigns, h.contents.trans h'.contents, h.accounts.trans h'.accounts,
    h.histories.trans h'.histories, h.connections.trans h'.connections⟩

theorem select_of_rest {ρ : Type} [Keyed ρ Uuid] [Tenant ρ] {T T' : Table ρ}
    (h : rest (own v) T' = rest (own v) T) (hv : v ≠ w) :
    T'.select (own w) = T.select (own w) := by
  have hown : ∀ a : ρ, own w a = true → (!own v a) = true := by
    intro a ha
    have hne : Tenant.workspaceId a ≠ v := fun hav => hv (hav.symm.trans (own_iff.mp ha))
    simp [own, hne]
  have hsplit : ∀ U : Table ρ, U.select (own w) = (rest (own v) U).filter (own w) :=
    fun _ => select_eq_filter fun a _ ha => hown a ha
  rw [hsplit, hsplit, h]

theorem agree_of_elsewhere (h : Elsewhere v s s') (hv : v ≠ w) : Agree w s' s where
  workspaces := congrArg (fun d => d.workspaces.select (own w)) h.others
  brandKits := congrArg (fun d => d.brandKits.select (own w)) h.others
  campaigns := select_of_rest h.campaigns hv
  contents := select_of_rest h.contents hv
  accounts := select_of_rest h.accounts hv
  histories := select_of_rest h.histories hv
  connections := select_of_rest h.connections hv

theorem users_of_elsewhere (h : Elsewhere v s s') : s'.users = s.users :=
  congrArg (fun d => d.users) h.others

theorem standing_step (hs : Sound s) :
    Standing r.workspaceId none s s (tenants.step s r) (tenants.step s r) :=
  (together_handle_request (.start (.refl _ s) (fun _ _ => ⟨rfl, rfl, rfl⟩) hs hs)
    fun _ => rfl).outcome.2

/-- **The unwinding conditions** of every workspace. -/
theorem unwinds (w : Uuid) : tenants.Unwinds w Awaits (Alike w) where
  symm h := ⟨agree_symm h.agree, h.users.symm⟩
  next h := ⟨(standing_step h.sound).sound₁, h.fresh.next⟩
  own := by
    rintro s t r l m hs ht rfl halike
    have hst : Standing r.workspaceId r.newKey s t s t :=
      .start halike.agree (fun _ => Fresh.sameKey hs.fresh ht.fresh) hs.sound ht.sound
    have husers : SameUsers s t := fun i => by rw [halike.users]
    obtain ⟨hanswer, h⟩ := (together_handle_request hst husers).outcome
    exact ⟨hanswer, h.agree,
      (users_of_elsewhere h.elsewhere₁).trans (halike.users.trans (users_of_elsewhere h.elsewhere₂).symm)⟩
  other := by
    intro s t r l hs hr halike
    have h := standing_step (r := r) hs.sound
    exact ⟨agree_trans (agree_of_elsewhere h.elsewhere₁ hr) halike.agree,
      (users_of_elsewhere h.elsewhere₁).trans halike.users⟩

/-- **A workspace does not notice the others.** From two sound databases that look alike to it, two
runs in which it asks the same are answered alike and leave its rows alike, whatever the other
workspaces ask in between and wherever they ask it. -/
theorem others_not_noticed (hs : Sound s) (ht : Sound t) (hl : Fresh s l) (hm : Fresh t m)
    (halike : Alike w s t) (hsame : tenants.purge w l = tenants.purge w m) :
    tenants.answers w s l = tenants.answers w t m ∧
      Alike w (run tenants.step s l) (run tenants.step t m) :=
  (unwinds w).noninterference ⟨hs, hl⟩ ⟨ht, hm⟩ halike hsame

/-- The first workspace makes the campaign 30, counts its campaigns and asks for the campaign 40. -/
def alone : List Request := [
  ⟨10, .call (.createCampaign (drawsFrom 30 0 "") 1 { campaignName := "Launch" }), true⟩,
  ⟨10, .campaignMetrics, false⟩, ⟨10, .call (.getCampaign 40), false⟩]

/-- The second one makes the campaign 40 in between, and tries to delete the campaign 30. -/
def crowded : List Request := [
  ⟨20, .call (.createCampaign (drawsFrom 40 0 "") 2 { campaignName := "Rival" }), true⟩,
  ⟨10, .call (.createCampaign (drawsFrom 30 0 "") 1 { campaignName := "Launch" }), true⟩,
  ⟨20, .call (.deleteCampaign (drawsFrom 0 0 "") 30), true⟩,
  ⟨10, .campaignMetrics, false⟩, ⟨10, .call (.getCampaign 40), false⟩]

theorem others_not_noticed_studios :
    tenants.answers 10 twoStudios crowded = tenants.answers 10 twoStudios alone ∧
      Alike 10 (run tenants.step twoStudios crowded) (run tenants.step twoStudios alone) ∧
      (run tenants.step twoStudios crowded).campaigns.has 40 = true := by
  have hsound : Sound twoStudios := Bare.sound ⟨rfl, rfl, rfl⟩
  have hcrowded : Fresh twoStudios crowded := by
    refine ⟨fun r hr i hi => ?_, by decide⟩
    simp only [crowded, List.mem_cons, List.not_mem_nil, or_false] at hr
    rcases hr with rfl | rfl | rfl | rfl | rfl
    · cases hi
      rfl
    · cases hi
      rfl
    all_goals cases hi
  have halone : Fresh twoStudios alone := by
    refine ⟨fun r hr i hi => ?_, by decide⟩
    simp only [alone, List.mem_cons, List.not_mem_nil, or_false] at hr
    rcases hr with rfl | rfl | rfl
    · cases hi
      rfl
    all_goals cases hi
  have h := others_not_noticed (w := 10) hsound hsound hcrowded halone ⟨.refl 10 _, rfl⟩ rfl
  exact ⟨h.1, h.2, by decide⟩

end MarketingSuite.Isolation.Bystanders
