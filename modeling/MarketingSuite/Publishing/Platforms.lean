import MarketingSuite.Analytics.Metrics
import MarketingSuite.Publishing.Truth
import MarketingSuite.Social.Publishers

/-! # Publishing at the platforms

The providers with the requests that their publishers send. A publication asks a platform for a
post once at most, with its last request, and reports the id in an answer that accepts it. Over a
run of publications the history holds these ids, in their order. An answer that is lost, or that
gives no id, accepts nothing, though the platform may have made a post. -/

namespace MarketingSuite.Publishing.Platforms

open MarketingSuite.Lib.Programs MarketingSuite.Lib.Tables MarketingSuite.Lib.Sessions
open MarketingSuite.Lib.Runs MarketingSuite.Lib.Exchanges
open MarketingSuite.Base.Values MarketingSuite.Base.Models MarketingSuite.Base.Schema
open MarketingSuite.Social.Publishers (World Asks AsksOf acceptedBy acceptedId isUpload
  commitsLast_call)
open MarketingSuite.Repositories.Base
open MarketingSuite.Analytics.Metrics (PublishingMetrics publishingMetrics isPublication)
open MarketingSuite.Social.Factory
open MarketingSuite.Publishing.Service MarketingSuite.Publishing.Truth

/-- The requests of a publisher, which is given the version and the uploads of the environment. -/
def talk (w : World) (env : Env) (token : String) (post : Post) :
    Social.Publishers.Talk (Option String) :=
  Social.Publishers.call w env.strOf token ⟨env.linkedinApiVersion.getD "", env.publisher⟩ post

/-- The environment with the platforms as they answer after the requests `s`. -/
def online (w : World) (env : Env) (s : List Social.Publishers.Call) : Env :=
  { env with publisher := fun token post => (talk w env token post s).1 }

/-- What a provider does, on the database and with the requests of its publisher. -/
def publishOver (w : World) (env : Env) (account : SocialAccount) (content : CampaignContent) :
    Prog (Database × List Social.Publishers.Call) Exc String := fun (c, s) =>
  let r := dispatch (online w env s) account content (start c account)
  (r.1, r.2.desk.db, r.2.asked.foldr (fun q s => (talk w env q.token q.post s).2) s)

/-! ### Providers call a publisher once at most -/

/-- A program that calls a publisher once at most, for one of the posts in `P`. -/
def CallsOnce (env : Env) (P : Post → Prop) (p : Act String) : Prop :=
  ∀ t, t.asked = [] → (p t).2.asked = [] ∨
    ∃ t' post, t'.asked = [] ∧ P post ∧ (p t).2 = noted env t' post

variable {env : Env} {P : Post → Prop} {α : Type} {account : SocialAccount}
  {content : CampaignContent} {assets : List MediaAsset}

theorem callsOnce_raise (e : Exc) : CallsOnce env P (Prog.raise e) := fun _ ht => Or.inl ht

theorem callsOnce_pure (id : String) : CallsOnce env P (pure id) := fun _ ht => Or.inl ht

theorem callsOnce_bind {p : Act α} {f : α → Act String} (hp : p.Frames Stage.asked)
    (hf : ∀ t a t', p.Returns t a t' → CallsOnce env P (f a)) : CallsOnce env P (p >>= f) := by
  intro t ht
  rcases p.returns_or_raises t with ⟨a, t', hret⟩ | ⟨e, t', hraise⟩
  · rw [Prog.bind_of_returns hret]
    exact hf t a t' hret t' ((hp.returns hret).trans ht)
  · rw [Prog.bind_of_raises hraise]
    exact Or.inl ((hp.raises hraise).trans ht)

theorem callsOnce_deliver {post : Post} {missing : Exc} (hpost : P post) :
    CallsOnce env P (deliver env post missing) := by
  intro t ht
  rw [deliver_eq]
  exact Or.inr ⟨t, post, ht, hpost, rfl⟩

theorem callsOnce_post {x : Except Exc Post} {missing : Exc} (hx : ∀ post, x = .ok post → P post) :
    CallsOnce env P (do let post ← Prog.ofExcept x; deliver env post missing) := by
  refine callsOnce_bind (Prog.frames_ofExcept _) fun t post t' hret => ?_
  exact callsOnce_deliver (hx post (Prog.returns_ofExcept.mp hret).1)

/-- The posts of a platform that are not uploads. -/
def PostOf (platform : ApiProvider) (post : Post) : Prop :=
  post.provider = platform ∧ isUpload post = false

theorem postOf_of_ne_google {platform : ApiProvider} {post : Post} (h : post.provider = platform)
    (hne : platform ≠ .google) : PostOf platform post := by
  refine ⟨h, ?_⟩
  cases post with
  | youtubeVideo => exact absurd h.symm hne
  | _ => rfl

/-- **The providers that the service can call** call a publisher of their platform once at most. -/
theorem callsOnce_dispatch :
    CallsOnce env (PostOf account.provider) (dispatch env account content) := by
  unfold dispatch SocialProvider.publishContent
  rcases hp : account.provider with _ | _ | _ | _ | _ | _ | _ | _ | _ | _
  case «meta» =>
    refine callsOnce_bind (Prog.frames_gets _) fun _ account _ _ => ?_
    refine callsOnce_bind (Prog.frames_require _ _) fun _ _ _ _ => ?_
    exact callsOnce_post fun _ h => postOf_of_ne_google (provider_facebookPost h) (by decide)
  case instagram =>
    refine callsOnce_bind (Prog.frames_gets _) fun _ account _ _ => ?_
    refine callsOnce_bind (Prog.frames_require _ _) fun _ _ _ _ => ?_
    exact callsOnce_post fun _ h => postOf_of_ne_google (provider_instagramPost h) (by decide)
  case linkedin =>
    refine callsOnce_bind (Prog.frames_gets _) fun _ account _ _ => ?_
    refine callsOnce_bind asks_nothing fun _ _ _ _ => ?_
    refine callsOnce_bind asks_nothing fun _ _ _ _ => ?_
    refine callsOnce_bind asks_nothing fun _ _ _ _ => ?_
    refine callsOnce_bind (Prog.frames_ofExcept _) fun _ _ _ _ => ?_
    exact callsOnce_post fun _ h => postOf_of_ne_google (provider_linkedinPost h) (by decide)
  case twitter =>
    refine callsOnce_bind (Prog.frames_gets _) fun _ account _ _ => ?_
    refine callsOnce_bind asks_nothing fun _ _ _ _ => ?_
    refine callsOnce_bind asks_nothing fun _ _ _ _ => ?_
    refine callsOnce_bind (Prog.frames_gets _) fun _ account _ _ => ?_
    refine callsOnce_bind (Prog.frames_require _ _) fun _ _ _ _ => ?_
    refine callsOnce_bind (Prog.frames_ofExcept _) fun _ _ _ _ => ?_
    exact callsOnce_deliver (postOf_of_ne_google rfl (by decide))
  case google => exact callsOnce_raise _
  all_goals exact callsOnce_pure _

/-! ### One request for one post -/

theorem dispatch_mock (h : getProvider account.provider = .mock) :
    dispatch env account content = mockPublishContent env := by
  rw [dispatch, h]
  rfl

/-- Every provider but the mock returns an id exactly if its publisher gave it. -/
theorem honest_dispatch (h : getProvider account.provider ≠ .mock) :
    Honest env account.provider (dispatch env account content) := by
  unfold dispatch SocialProvider.publishContent
  rcases hp : account.provider with _ | _ | _ | _ | _ | _ | _ | _ | _ | _
  case «meta» => exact honest_facebook
  case instagram => exact honest_instagram
  case linkedin => exact honest_linkedin
  case twitter => exact honest_twitter
  case google =>
    intro t ht id
    exact iff_of_false (by simp [getProvider, SocialProvider.parameters, Prog.raise])
      (not_got_of_nil ht)
  all_goals
    rw [hp] at h
    exact absurd rfl h

theorem acceptedId_eq_some {strOf : Json → String} {platform : ApiProvider}
    {q : Social.Publishers.Call} {id : String} : acceptedId strOf platform q = some id ↔
      acceptedBy strOf platform q = some (some id) ∧ id ≠ "" := by
  rw [acceptedId, Option.filter_eq_some_iff, Option.join_eq_some_iff]
  simp

theorem asks_of_acceptedBy {strOf : Json → String} {platform : ApiProvider}
    {q : Social.Publishers.Call} {o : Option String} (h : acceptedBy strOf platform q = some o) :
    Asks q := by
  unfold acceptedBy at h
  rcases hq : q.answer with e | response
  · rw [hq] at h
    cases h
  · rw [hq] at h
    dsimp only at h
    split_ifs at h with hmakes
    rw [Asks, hmakes]
    rfl

variable (w : World) (env : Env) (account : SocialAccount) (content : CampaignContent)
  (c : Database) (s : List Social.Publishers.Call)

/-- The requests of a publication, and the id in the last answer. -/
def Published (l : List Social.Publishers.Call) (outcome : Except Exc String) : Prop :=
  (∀ q ∈ l.dropLast, ¬ Asks q) ∧ (∀ q ∈ l, Asks q → AsksOf account.provider q) ∧
    if getProvider account.provider = .mock then l = []
    else ∀ id, outcome = .ok id ↔
      ∃ q, l.getLast? = some q ∧ acceptedId env.strOf account.provider q = some id

/-- **One request for one post.** A publication asks the platforms for a post with its last request
at most, and returns exactly the id in the answer of the account's own platform. The mock asks
nobody. -/
theorem one_request_for_one_post :
    ∃ l, (publishOver w env account content (c, s)).2.2 = s ++ l ∧
      Published env account l (publishOver w env account content (c, s)).1 := by
  by_cases hmock : getProvider account.provider = .mock
  · refine ⟨[], ?_, by simp, by simp, by rw [if_pos hmock]⟩
    simp only [publishOver, dispatch_mock hmock, List.append_nil]
    rfl
  have hhonest : ∀ id, (dispatch (online w env s) account content (start c account)).1 = .ok id ↔
      Got (online w env s) account.provider
        (dispatch (online w env s) account content (start c account)).2 id :=
    honest_dispatch hmock (start c account) rfl
  have honce : CallsOnce (online w env s) (PostOf account.provider)
    (dispatch (online w env s) account content) := callsOnce_dispatch
  rcases honce (start c account) rfl with hnone | ⟨t, post, ht, ⟨hplatform, hupload⟩, hnoted⟩
  · refine ⟨[], ?_, by simp, by simp, ?_⟩
    · simp only [publishOver, hnone, List.foldr_nil, List.append_nil]
    · rw [if_neg hmock]
      intro id
      refine iff_of_false (fun hid => not_got_of_nil hnone ((hhonest id).mp hid)) ?_
      simp
  · have hasked : (dispatch (online w env s) account content (start c account)).2.asked =
        [⟨tokenOf (online w env s) t.desk.account, post,
          (online w env s).publisher (tokenOf (online w env s) t.desk.account) post⟩] := by
      rw [hnoted, noted, ht]
    have hcommits : CommitsLast Asks (AsksOf post.provider) (acceptedBy env.strOf post.provider)
        (talk w env (tokenOf (online w env s) t.desk.account) post) := commitsLast_call hupload
    obtain ⟨l, hl, hdrop, hown, hends⟩ := hcommits s
    refine ⟨l, ?_, hdrop, hplatform ▸ hown, ?_⟩
    · simp only [publishOver, hasked, List.foldr_cons, List.foldr_nil]
      exact hl
    · rw [if_neg hmock]
      intro id
      have hgot : (publishOver w env account content (c, s)).1 = .ok id ↔
          EndsWith Asks (acceptedBy env.strOf post.provider) l (some id) ∧ id ≠ "" := by
        rw [← hends]
        refine (hhonest id).trans ?_
        rw [hnoted]
        exact got_noted ht hplatform
      rw [hgot, hplatform]
      constructor
      · rintro ⟨⟨q, hq, -, hread⟩, hid⟩
        exact ⟨q, hq, acceptedId_eq_some.mpr ⟨hread, hid⟩⟩
      · rintro ⟨q, hq, hgiven⟩
        obtain ⟨hread, hid⟩ := acceptedId_eq_some.mp hgiven
        exact ⟨⟨q, hq, asks_of_acceptedBy hread, hread⟩, hid⟩

/-! ### Runs of the service -/

/-- The session of the callers, and the requests so far. -/
abbrev Online : Type := Session Database × List Social.Publishers.Call

/-- A part that asks nobody. -/
def onSession {α : Type} (p : Prog (Session Database) Exc α) : Prog Online Exc α :=
  Prog.focus Prod.fst (fun t x => (x, t.2)) p

/-- The provider, whose own sessions see the committed state. -/
def provide : Prog Online Exc String := fun t =>
  let r := publishOver w env account content (t.1.committed, t.2)
  (r.1, ⟨r.2.1, t.1.pending⟩, r.2.2)

/-- `PublishingService.publish_content`, with the requests of the publisher. -/
def publishContentOver (d : Draws) (textOf : Exc → String) (workspaceId : Uuid)
    (request : PublishRequest) : Prog Online Exc PublishHistory := do
  let (content, account) ← onSession (Session.exec (fetchRelations workspaceId request))
  let history ← onSession (Session.exec (create (pendingHistory d workspaceId content account)))
  let outcome ← outcomeOf (provide w env account content)
  onSession (Session.exec (update history.id (concluded d textOf outcome)))

theorem outcomeOf_eq {σ α : Type} (p : Prog σ Exc α) (t : σ) :
    outcomeOf p t = (.ok (p t).1, (p t).2) := by
  rcases hp : p t with ⟨e | a, t'⟩
  · simp [outcomeOf, Prog.handle, bind, pure, hp]
  · simp [outcomeOf, Prog.handle, bind, pure, hp]

/-- **It is the service with the platforms as they answer then.** -/
theorem publishContentOver_eq (d : Draws) (textOf : Exc → String) (workspaceId : Uuid)
    (request : PublishRequest) (t : Online) :
    ((publishContentOver w env d textOf workspaceId request t).1,
        (publishContentOver w env d textOf workspaceId request t).2.1) =
      Service.publishContent d textOf (publisher (online w env t.2)) workspaceId request t.1 := by
  unfold publishContentOver Service.publishContent
  rcases hfetch : Session.exec (fetchRelations workspaceId request) t.1 with ⟨e | p, x⟩
  · simp [bind, onSession, Prog.focus, hfetch]
  rcases hcreate : Session.exec (create (pendingHistory d workspaceId p.1 p.2)) x with ⟨e | h, y⟩
  · simp [bind, onSession, Prog.focus, hfetch, hcreate]
  simp only [bind, onSession, Prog.focus, hfetch, hcreate, outcomeOf_eq]
  rfl

variable {w env s} {d : Draws} {textOf : Exc → String} {wid : Uuid} {request : PublishRequest}
  {t t' : Online} {a : PublishHistory} {x y : Session Database}

theorem returns_onSession {α : Type} {p : Prog (Session Database) Exc α} {a : α} :
    (onSession p).Returns t a t' ↔ ∃ x, p.Returns t.1 a x ∧ t' = (x, t.2) := Prog.returns_focus

theorem pending_of_create {account : SocialAccount} {content : CampaignContent}
    (h : (Session.exec (create (pendingHistory d wid content account))).Returns x a y) :
    a = pendingHistory d wid content account ∧ ∃ T,
      x.view.publishHistory.insert a = some T ∧ y = ⟨x.committed, some { x.view with
        publishHistory := T }⟩ ∧ Model.references x.view a = true := by
  obtain ⟨v, hcreate, rfl⟩ := Session.returns_exec.mp h
  obtain ⟨rfl, href, T, hT, rfl⟩ := returns_create.mp hcreate
  exact ⟨rfl, T, hT, rfl, href⟩

theorem returns_conclude {h : PublishHistory} {T : Table PublishHistory} {v : Database}
    (d : Draws) (textOf : Exc → String) (c : Database)
    (outcome : Except Exc String) (hT : v.publishHistory.insert h = some T)
    (href : Model.references v h = true) :
    ∃ U, U.rows = v.publishHistory.rows ++ [concluded d textOf outcome h] ∧
      (Session.exec (update h.id (concluded d textOf outcome))).Returns
        ⟨c, some { v with publishHistory := T }⟩ (concluded d textOf outcome h)
        ⟨c, some { v with publishHistory := U }⟩ := by
  obtain ⟨U, hU⟩ := Table.exists_modify (T := T) (k := h.id) (f := concluded d textOf outcome)
    (fun _ => concluded_id) fun _ _ => rfl
  have hothers : v.publishHistory.rows.map (fun r => if r.id = h.id then
      concluded d textOf outcome r else r) = v.publishHistory.rows := by
    refine (List.map_congr_left fun r hr => if_neg ?_).trans (List.map_id _)
    exact (Table.apart_of_insert hT hr).1
  refine ⟨U, ?_, Session.returns_exec.mpr ⟨{ v with publishHistory := U }, ?_, rfl⟩⟩
  · rw [Table.modify_eq_some.mp hU, Table.insert_eq_some.mp hT, List.map_append]
    refine congrArg₂ (· ++ ·) hothers ?_
    simp [Keyed.key]
  · refine returns_update.mpr ⟨h, Table.mem_insert_self hT, rfl, rfl, ?_, U, hU, rfl⟩
    rw [references_concluded]
    exact href

theorem raises_onSession {α : Type} {p : Prog (Session Database) Exc α} {e : Exc} :
    (onSession p).Raises t e t' ↔ ∃ x, p.Raises t.1 e x ∧ t' = (x, t.2) := Prog.raises_focus

/-- **How a publication ends**: it is refused before anybody is asked, or it appends the row that the
provider's outcome concludes. -/
theorem publishContentOver_cases (w : World) (env : Env) (d : Draws) (textOf : Exc → String)
    (wid : Uuid) (request : PublishRequest) (t : Online) :
    (∃ e x, (publishContentOver w env d textOf wid request).Raises t e (x, t.2)) ∨
    ∃ content account, account ∈ t.1.view.socialAccounts.rows ∧ ∃ T : Table PublishHistory,
      T.rows = t.1.view.publishHistory.rows ++
        [concluded d textOf (publishOver w env account content (t.1.committed, t.2)).1
          (pendingHistory d wid content account)] ∧
      (publishContentOver w env d textOf wid request).Returns t
        (concluded d textOf (publishOver w env account content (t.1.committed, t.2)).1
          (pendingHistory d wid content account))
        (⟨(publishOver w env account content (t.1.committed, t.2)).2.1,
          some { t.1.view with publishHistory := T }⟩,
          (publishOver w env account content (t.1.committed, t.2)).2.2) := by
  unfold publishContentOver
  rcases (Session.exec (fetchRelations wid request)).returns_or_raises t.1 with
    ⟨p, x, hfetch⟩ | ⟨e, x, hfetch⟩
  swap
  · exact Or.inl ⟨e, x, Prog.raises_bind.mpr (Or.inl (raises_onSession.mpr ⟨x, hfetch, rfl⟩))⟩
  obtain ⟨v, hrun, rfl⟩ := Session.returns_exec.mp hfetch
  obtain ⟨rfl, hrel⟩ := fetchRelations_spec hrun
  have hfetch' := returns_onSession.mpr ⟨_, hfetch, rfl⟩
  rcases (Session.exec (create (pendingHistory d wid p.1 p.2))).returns_or_raises
    ⟨t.1.committed, some t.1.view⟩ with ⟨h, y, hcreate⟩ | ⟨e, y, hcreate⟩
  swap
  · refine Or.inl ⟨e, y, (Prog.raises_bind_of_returns hfetch').mpr ?_⟩
    exact Prog.raises_bind.mpr (Or.inl (raises_onSession.mpr ⟨y, hcreate, rfl⟩))
  obtain ⟨rfl, T, hT, rfl, href⟩ := pending_of_create hcreate
  obtain ⟨U, hU, hupdate⟩ := returns_conclude d textOf
    (publishOver w env p.2 p.1 (t.1.committed, t.2)).2.1
    (publishOver w env p.2 p.1 (t.1.committed, t.2)).1 hT href
  refine Or.inr ⟨p.1, p.2, hrel.account_mem, U, hU, Prog.returns_bind.mpr ⟨p, _, hfetch', ?_⟩⟩
  refine Prog.returns_bind.mpr ⟨_, _, returns_onSession.mpr ⟨_, hcreate, rfl⟩, ?_⟩
  refine Prog.returns_bind.mpr ⟨_, _, outcomeOf_eq _ _, ?_⟩
  exact returns_onSession.mpr ⟨_, hupdate, rfl⟩

/-! ### What the history and the metrics say after a run -/

/-- A call of the service. -/
structure Publication where
  env : Env
  draws : Draws
  textOf : Exc → String
  workspaceId : Uuid
  request : PublishRequest

/-- The session and the requests after a call. A call that raises is rolled back; what was asked of
the platforms is not. -/
def step (w : World) (strOf : Json → String) (t : Online) (e : Publication) : Online :=
  match publishContentOver w { e.env with strOf := strOf } e.draws e.textOf e.workspaceId e.request
    t with
  | (.ok _, t') => t'
  | (.error _, t') => (t.1, t'.2)

/-- The id in the answer to a request, if the platform that it asks for a post accepts it. -/
def idGiven (strOf : Json → String) (q : Social.Publishers.Call) : Option String :=
  q.request.endpoint.asksFor.bind fun platform => acceptedId strOf platform q

/-- The requests of one publication of a workspace. -/
structure Entry where
  workspaceId : Uuid
  requests : List Social.Publishers.Call

/-- **The row reports the answers**: it is published with the id in the one that accepts the post, or
it failed and none accepts it with an id. -/
structure Reports (strOf : Json → String) (h : PublishHistory) (e : Entry) : Prop where
  workspace : h.workspaceId = e.workspaceId
  once : (e.requests.filter fun q => q.request.endpoint.asksFor.isSome).length ≤ 1
  ids : h.externalPostId.toList = e.requests.filterMap (idGiven strOf)
  status : h.status = if h.externalPostId.isSome = true then .published else .failed

/-- The journal with the requests of a call that returns. -/
def note (w : World) (strOf : Json → String) (t : Online) (e : Publication) (j : List Entry) :
    List Entry :=
  if (publishContentOver w { e.env with strOf := strOf } e.draws e.textOf e.workspaceId
      e.request).succeeds t = true then
    j ++ [⟨e.workspaceId, (step w strOf t e).2.drop t.2.length⟩]
  else j

/-- **History and answers agree** since `t₀`: the history has grown by a row for each publication in
the journal, which reports its answers, and nothing else has been asked. -/
structure Agree (strOf : Json → String) (t₀ : Online) (h : Recorded Online (List Entry)) : Prop where
  accounts : h.state.1.view.socialAccounts = t₀.1.view.socialAccounts
  requests : h.state.2 = t₀.2 ++ h.history.flatMap Entry.requests
  history : ∃ rows, h.state.1.view.publishHistory.rows = t₀.1.view.publishHistory.rows ++ rows ∧
    List.Forall₂ (Reports strOf) rows h.history

theorem idGiven_of_asksOf {strOf : Json → String} {platform : ApiProvider}
    {q : Social.Publishers.Call} (h : AsksOf platform q) :
    idGiven strOf q = acceptedId strOf platform q := by
  unfold AsksOf at h
  rw [idGiven, h]
  rfl

theorem idGiven_of_not_asks {strOf : Json → String} {q : Social.Publishers.Call} (h : ¬ Asks q) :
    idGiven strOf q = none := by
  unfold Asks at h
  rw [idGiven, Option.not_isSome_iff_eq_none.mp h]
  rfl

theorem reports_concluded (env : Env) (d : Draws) (textOf : Exc → String) (wid : Uuid)
    (account : SocialAccount) (content : CampaignContent)
    {outcome : Except Exc String} {l : List Social.Publishers.Call}
    (hreal : getProvider account.provider ≠ .mock) (h : Published env account l outcome) :
    Reports env.strOf (concluded d textOf outcome (pendingHistory d wid content account))
      ⟨wid, l⟩ := by
  obtain ⟨hdrop, hown, hiff⟩ := h
  rw [if_neg hreal] at hiff
  have hworkspace : (concluded d textOf outcome (pendingHistory d wid content account)).workspaceId =
      wid := by cases outcome <;> rfl
  have hid : (concluded d textOf outcome (pendingHistory d wid content account)).externalPostId =
      outcome.toOption := by cases outcome <;> rfl
  have hstatus : (concluded d textOf outcome (pendingHistory d wid content account)).status =
      if outcome.toOption.isSome = true then .published else .failed := by cases outcome <;> rfl
  rcases List.eq_nil_or_concat l with rfl | ⟨pre, q, rfl⟩
  · refine ⟨hworkspace, by simp, ?_, hid ▸ hstatus⟩
    rw [hid]
    rcases outcome with e | id
    · rfl
    · simpa using (hiff id).mp rfl
  · rw [List.concat_eq_append] at hdrop hown hiff ⊢
    rw [List.dropLast_concat] at hdrop
    have hquiet : pre.filterMap (idGiven env.strOf) = [] :=
      List.filterMap_eq_nil_iff.mpr fun q hq => idGiven_of_not_asks (hdrop q hq)
    have hlast : idGiven env.strOf q = outcome.toOption := by
      by_cases hasks : Asks q
      · rw [idGiven_of_asksOf (hown q (by simp) hasks)]
        refine Option.ext fun id => ?_
        have hout : outcome.toOption = some id ↔ outcome = .ok id := by
          cases outcome <;> simp [Except.toOption]
        rw [hout, hiff id]
        simp
      · rw [idGiven_of_not_asks hasks]
        rcases outcome with e | id
        · rfl
        · obtain ⟨q', hq', hgiven⟩ := (hiff id).mp rfl
          obtain rfl : q = q' := by simpa using hq'
          exact absurd (asks_of_acceptedBy (acceptedId_eq_some.mp hgiven).1) hasks
    refine ⟨hworkspace, ?_, ?_, hid ▸ hstatus⟩
    · have hnone : pre.filter (fun q => q.request.endpoint.asksFor.isSome) = [] :=
        List.filter_eq_nil_iff.mpr fun q hq => hdrop q hq
      rw [List.filter_append, hnone, List.nil_append]
      exact List.length_filter_le _ [q]
    · rw [hid, List.filterMap_append, hquiet, List.nil_append, ← hlast]
      rcases hq : idGiven env.strOf q with _ | id
      · simp [hq]
      · simp [hq]

variable {strOf : Json → String} {t₀ : Online} {h : Recorded Online (List Entry)}

theorem agree_step (hreal : ∀ a ∈ t₀.1.view.socialAccounts.rows, getProvider a.provider ≠ .mock)
    (hagree : Agree strOf t₀ h) (e : Publication) :
    Agree strOf t₀ (record (step w strOf) (note w strOf) h e) := by
  obtain ⟨haccounts, hrequests, rows, hrows, hall⟩ := hagree
  rcases publishContentOver_cases w { e.env with strOf := strOf } e.draws e.textOf e.workspaceId
    e.request h.state with ⟨x, y, hraise⟩ | ⟨content, account, hmem, T, hT, hret⟩
  · have hstep : step w strOf h.state e = h.state := by
      unfold Prog.Raises at hraise
      rw [step, hraise]
    have hnote : note w strOf h.state e h.history = h.history := by
      refine if_neg fun hsucc => ?_
      obtain ⟨a, t', hret⟩ := Prog.succeeds_iff.mp hsucc
      exact Prog.not_raises_of_returns hret hraise
    rw [record, hstep, hnote]
    exact ⟨haccounts, hrequests, rows, hrows, hall⟩
  · obtain ⟨l, hl, hpublished⟩ := one_request_for_one_post w { e.env with strOf := strOf } account
      content h.state.1.committed h.state.2
    rw [haccounts] at hmem
    have hreports := reports_concluded { e.env with strOf := strOf } e.draws e.textOf e.workspaceId
      account content (hreal account hmem) hpublished
    have hnote : note w strOf h.state e h.history = h.history ++ [⟨e.workspaceId, l⟩] := by
      refine (if_pos (Prog.succeeds_of_returns hret)).trans ?_
      unfold Prog.Returns at hret
      rw [step, hret]
      dsimp only
      rw [hl, List.drop_left]
    unfold Prog.Returns at hret
    rw [record, hnote, step, hret]
    refine ⟨haccounts, ?_, rows ++ [_], ?_, List.rel_append hall (.cons hreports .nil)⟩
    · dsimp only
      rw [hl, hrequests, List.flatMap_append, List.append_assoc]
      simp
    · dsimp only [Session.view_pending]
      rw [hT, hrows, List.append_assoc]

/-- What the provider of an account that is not a fallback leaves after a run. -/
theorem agree_run (hreal : ∀ a ∈ t₀.1.view.socialAccounts.rows, getProvider a.provider ≠ .mock)
    (l : List Publication) :
    Agree strOf t₀ (run (record (step w strOf) (note w strOf)) ⟨t₀, []⟩ l) := by
  refine inv_run (I := Agree strOf t₀) (fun h e hagree => agree_step hreal hagree e) l ?_
  exact ⟨rfl, by simp, [], by simp, .nil⟩

/-- **The history tells what the platforms answered.** Over a run of publications of accounts that
are not the mock's, the history grows by one row for each call that returns, and the row has the id
in the answer that accepts its post, or has failed and no answer accepts one with an id. -/
theorem history_reports_answers (w : World) (strOf : Json → String) (t : Online)
    (hreal : ∀ a ∈ t.1.view.socialAccounts.rows, getProvider a.provider ≠ .mock)
    (l : List Publication) :
    Agree strOf t (run (record (step w strOf) (note w strOf)) ⟨t, []⟩ l) := agree_run hreal l

/-- A platform that accepts every post. -/
def accepting : World := fun _ _ => .ok ⟨200, fun _ => none, "", .ok (.obj [("id", .str "1000")])⟩

/-- `str` of a text. -/
def textOfJson : Json → String
  | .str s => s
  | _ => ""

/-- A post on the page of the workspace 10. -/
def pagePost : Publication := ⟨world, drawsFrom 90 5 "", fun _ => "", 10, ⟨40, 70⟩⟩

/-- The studio has a page. -/
def page : Online := (⟨withAccount .meta, none⟩, [])

theorem history_reports_answers_page :
    Agree textOfJson page (run (record (step accepting textOfJson) (note accepting textOfJson))
      ⟨page, []⟩ [pagePost]) :=
  history_reports_answers accepting textOfJson page (by decide) [pagePost]

/-- The publications of a workspace of which an answer accepts the post with an id, or no answer
does. -/
def Entry.counts (strOf : Json → String) (workspaceId : Uuid) (accepted : Bool) (e : Entry) : Bool :=
  e.workspaceId = workspaceId && (e.requests.filterMap (idGiven strOf)).isEmpty = !accepted

theorem isPublication_of_reports {h : PublishHistory} {e : Entry} (hr : Reports strOf h e)
    (workspaceId : Uuid) :
    isPublication workspaceId .published h = e.counts strOf workspaceId true ∧
      isPublication workspaceId .failed h = e.counts strOf workspaceId false ∧
        isPublication workspaceId .pending h = false := by
  unfold isPublication Entry.counts
  rw [← hr.ids, hr.workspace, hr.status]
  rcases h.externalPostId with _ | id
  · simp
  · simp

theorem countP_of_forall₂ {α β : Type} {R : α → β → Prop} {p : α → Bool} {q : β → Bool}
    {l : List α} {l' : List β} (h : List.Forall₂ R l l') (hpq : ∀ a b, R a b → p a = q b) :
    l.countP p = l'.countP q := by
  induction h with
  | nil => rfl
  | cons hab _ ih => rw [List.countP_cons, List.countP_cons, ih, hpq _ _ hab]

theorem publishingMetrics_returns (workspaceId : Uuid) (v : Database) :
    (publishingMetrics workspaceId).Returns v
      ⟨v.publishHistory.rows.countP (isPublication workspaceId .published),
        v.publishHistory.rows.countP (isPublication workspaceId .failed),
        v.publishHistory.rows.countP (isPublication workspaceId .pending)⟩ v := by
  simp only [List.countP_eq_length_filter]
  rfl

/-- **The metrics count the answers**: over a run the published posts of a workspace grow by the
publications of which an answer accepts the post with an id, the failed posts by the others, and
none stays pending. -/
theorem metrics_count_answers (w : World) (strOf : Json → String) (t : Online)
    (hreal : ∀ a ∈ t.1.view.socialAccounts.rows, getProvider a.provider ≠ .mock)
    (l : List Publication) (workspaceId : Uuid) :
    let h := run (record (step w strOf) (note w strOf)) ⟨t, []⟩ l
    ∃ m m' : PublishingMetrics,
      (publishingMetrics workspaceId).Returns t.1.view m t.1.view ∧
      (publishingMetrics workspaceId).Returns h.state.1.view m' h.state.1.view ∧
      m'.publishedPosts = m.publishedPosts + h.history.countP (Entry.counts strOf workspaceId true) ∧
      m'.failedPosts = m.failedPosts + h.history.countP (Entry.counts strOf workspaceId false) ∧
      m'.pendingPosts = m.pendingPosts := by
  intro h
  obtain ⟨-, -, rows, hrows, hall⟩ : Agree strOf t h := agree_run hreal l
  have hgrown : ∀ (p : PublishHistory → Bool) (q : Entry → Bool),
      (∀ r e, Reports strOf r e → p r = q e) → h.state.1.view.publishHistory.rows.countP p =
        t.1.view.publishHistory.rows.countP p + h.history.countP q := by
    intro p q hpq
    rw [hrows, List.countP_append, countP_of_forall₂ hall hpq]
  refine ⟨_, _, publishingMetrics_returns workspaceId _, publishingMetrics_returns workspaceId _,
    ?_, ?_, ?_⟩
  · exact hgrown _ _ fun r e hr => (isPublication_of_reports hr workspaceId).1
  · exact hgrown _ _ fun r e hr => (isPublication_of_reports hr workspaceId).2.1
  · have hnone := hgrown _ (fun _ => false) fun r e hr =>
      (isPublication_of_reports hr workspaceId).2.2
    simpa using hnone

theorem metrics_count_answers_page :
    let h := run (record (step accepting textOfJson) (note accepting textOfJson)) ⟨page, []⟩
      [pagePost]
    ∃ m m' : PublishingMetrics,
      (publishingMetrics 10).Returns page.1.view m page.1.view ∧
      (publishingMetrics 10).Returns h.state.1.view m' h.state.1.view ∧
      m'.publishedPosts = m.publishedPosts + h.history.countP (Entry.counts textOfJson 10 true) ∧
      m'.failedPosts = m.failedPosts + h.history.countP (Entry.counts textOfJson 10 false) ∧
      m'.pendingPosts = m.pendingPosts ∧ h.history.countP (Entry.counts textOfJson 10 true) = 1 := by
  obtain ⟨m, m', hm, hm', hpublished, hfailed, hpending⟩ :=
    metrics_count_answers accepting textOfJson page (by decide) [pagePost] 10
  exact ⟨m, m', hm, hm', hpublished, hfailed, hpending, by decide +kernel⟩

end MarketingSuite.Publishing.Platforms
