import MarketingSuite.Campaigns.Service
import MarketingSuite.Publishing.Service
import MarketingSuite.Social.Factory
import MarketingSuite.Social.Refresh

/-! # What the publish history says

`PublishingService.publish_content` with the providers of the factory. A row of the history is
truthful if it is published exactly when the publisher of the account's own platform was called with
the account's token and gave its id, and is not failed when that platform would have given one. The
history is truthful for the platforms whose provider the factory finds and the service can call. -/

namespace MarketingSuite.Publishing.Truth

open MarketingSuite.Lib.Programs MarketingSuite.Lib.Tables MarketingSuite.Lib.Sessions
open MarketingSuite.Base.Values MarketingSuite.Base.Models MarketingSuite.Base.Schema
open MarketingSuite.Repositories.Base
open MarketingSuite.Sync.Engine (getByWorkspaceAndProvider)
open MarketingSuite.Social.Providers (Desk Work Platform ask onDatabase persist updateBoth Secrets
  checkText checkAuthor refreshTokens)
open MarketingSuite.Social.Refresh (frames_checkText frames_checkAssets)
open MarketingSuite.Social.Factory
open MarketingSuite.Publishing.Service

variable {env : Env} {α β : Type}

/-! ### Providers leave the history alone -/

/-- The publish history, as a provider at work sees it. -/
def historyOf (t : Stage) : Table PublishHistory := t.desk.db.publishHistory

theorem keeps_updateBoth {platform : Platform} {account : SocialAccount} {x : Secrets} :
    Session.Keeps Database.publishHistory (updateBoth platform account x) := by
  refine Session.keeps_bind (Session.keeps_exec ?_) fun conn => ?_
  · exact Prog.frames_bind (Prog.frames_gets _) fun _ => Prog.frames_pure _
  refine Session.keeps_bind (Session.keeps_exec frames_getById) fun socAccount => ?_
  rcases conn with _ | conn
  · exact Session.keeps_raise _
  rcases socAccount with _ | socAccount
  · exact Session.keeps_raise _
  refine Session.keeps_bind (Session.keeps_exec ?_) fun _ => Session.keeps_commit
  refine Prog.frames_bind (frames_update fun _ _ => rfl) fun _ => ?_
  refine Prog.frames_bind (frames_orRaise _ _) fun token => ?_
  exact Prog.frames_bind (frames_update fun _ _ => rfl) fun _ => Prog.frames_pure _

theorem frames_refreshTokens {e : Social.Providers.Env} {platform : Platform} :
    (refreshTokens e platform).Frames fun k => k.db.publishHistory := by
  refine Prog.frames_bind (Prog.frames_gets _) fun account => ?_
  refine Prog.frames_ite ?_ (Prog.frames_pure _)
  refine Prog.frames_bind (Prog.frames_require _ _) fun _ => ?_
  refine Prog.frames_bind ?_ fun tokens => ?_
  · exact Prog.frames_bind (Prog.frames_modify fun _ => rfl) fun _ => Prog.frames_ofExcept _
  refine Prog.frames_bind ?_ fun _ => Prog.frames_modify fun _ => rfl
  have hpersist : (persist e platform account (tokens.encrypted e account)).Frames
      Database.publishHistory :=
    Session.frames_serve (Session.keeps_handle keeps_updateBoth fun _ =>
      Session.keeps_bind (fun _ _ _ hc => ⟨hc, hc⟩) fun _ => Session.keeps_raise _)
  exact Prog.frames_focus hpersist fun _ _ => rfl

theorem frames_onDesk {p : Work α} (hp : p.Frames fun k => k.db.publishHistory) :
    (onDesk p).Frames historyOf := Prog.frames_focus hp fun _ _ => rfl

theorem frames_deliver {post : Post} {missing : Exc} :
    (deliver env post missing).Frames historyOf := by
  refine Prog.frames_bind (Prog.frames_gets _) fun _ => ?_
  refine Prog.frames_bind ?_ fun _ => ?_
  · exact Prog.frames_bind (Prog.frames_modify fun _ => rfl) fun _ => Prog.frames_ofExcept _
  exact Prog.frames_bind (Prog.frames_require _ _) fun _ => Prog.frames_pure _

theorem frames_googleChecks {account : SocialAccount} {content : CampaignContent}
    {assets : List MediaAsset} : (googleChecks account content assets).Frames id :=
  Prog.frames_bind frames_checkText fun _ => frames_checkAssets

/-- **No provider touches the history.** -/
theorem frames_body (content : CampaignContent) (assets : List MediaAsset) (p : SocialProvider) :
    (p.body env content assets).Frames historyOf := by
  have hchecks : ∀ {p : Work Unit}, p.Frames id → (onDesk p).Frames historyOf := fun hp =>
    frames_onDesk (Prog.frames_of_id hp)
  cases p with
  | mock => exact Prog.frames_pure _
  | facebook =>
    refine Prog.frames_bind (Prog.frames_gets _) fun _ => ?_
    refine Prog.frames_bind (Prog.frames_require _ _) fun _ => ?_
    exact Prog.frames_bind (Prog.frames_ofExcept _) fun _ => frames_deliver
  | instagram =>
    refine Prog.frames_bind (Prog.frames_gets _) fun _ => ?_
    refine Prog.frames_bind (Prog.frames_require _ _) fun _ => ?_
    exact Prog.frames_bind (Prog.frames_ofExcept _) fun _ => frames_deliver
  | linkedin =>
    refine Prog.frames_bind (Prog.frames_gets _) fun _ => ?_
    refine Prog.frames_bind (hchecks frames_checkText) fun _ => ?_
    refine Prog.frames_bind (hchecks (Prog.frames_require _ _)) fun _ => ?_
    refine Prog.frames_bind (frames_onDesk frames_refreshTokens) fun _ => ?_
    refine Prog.frames_bind (Prog.frames_ofExcept _) fun _ => ?_
    exact Prog.frames_bind (Prog.frames_ofExcept _) fun _ => frames_deliver
  | google =>
    refine Prog.frames_bind (Prog.frames_gets _) fun _ => ?_
    refine Prog.frames_bind (hchecks frames_googleChecks) fun _ => ?_
    refine Prog.frames_bind (frames_onDesk frames_refreshTokens) fun _ => ?_
    refine Prog.frames_bind (Prog.frames_gets _) fun _ => ?_
    refine Prog.frames_bind ?_ fun _ => Prog.frames_pure _
    exact Prog.frames_bind (Prog.frames_modify fun _ => rfl) fun _ => Prog.frames_ofExcept _
  | twitter =>
    refine Prog.frames_bind (Prog.frames_gets _) fun _ => ?_
    refine Prog.frames_bind (hchecks frames_checkText) fun _ => ?_
    refine Prog.frames_bind (frames_onDesk frames_refreshTokens) fun _ => ?_
    refine Prog.frames_bind (Prog.frames_gets _) fun _ => ?_
    refine Prog.frames_bind (Prog.frames_require _ _) fun _ => ?_
    exact Prog.frames_bind (Prog.frames_ofExcept _) fun _ => frames_deliver

/-! ### The service with the factory -/

/-- A provider before it begins, with the account object. -/
def start (c : Database) (account : SocialAccount) : Stage := ⟨⟨c, account, []⟩, []⟩

/-- What `SocialProviderFactory.get_provider(account.provider).publish_content(account, content)`
does. -/
def dispatch (env : Env) (account : SocialAccount) (content : CampaignContent) : Act String :=
  (getProvider account.provider).publishContent env content (env.assetsOf content)

/-- The provider of the service. -/
def publisher (env : Env) : Publisher where
  publish account content c :=
    ((dispatch env account content (start c account)).1,
      (dispatch env account content (start c account)).2.desk.db)
  keepsHistory account content c := by
    have hdispatch : (dispatch env account content).Frames historyOf :=
      Prog.frames_ite (frames_body _ _ _) (Prog.frames_raise _)
    exact hdispatch (start c account)

/-! ### What a truthful row is -/

/-- The call of the platform's publisher with the token gave the id. -/
structure Gives (q : Call) (provider : ApiProvider) (token id : String) : Prop where
  own : q.post.provider = provider
  withToken : q.token = token
  answer : q.answer = .ok (some id)
  nonempty : id ≠ ""

/-- A provider at work got the id of the account's own platform, called with the token that the
account has then. -/
def Got (env : Env) (provider : ApiProvider) (t : Stage) (id : String) : Prop :=
  ∃ q ∈ t.asked, Gives q provider (tokenOf env t.desk.account) id

/-- The provider that publishes on a platform. -/
def platformOf : ApiProvider → Option SocialProvider
  | .meta => some .facebook
  | .instagram => some .instagram
  | .linkedin => some .linkedin
  | .google => some .google
  | .twitter => some .twitter
  | .openai | .claude | .gemini | .stripe | .mock => none

/-- **A truthful row** of the history of an account: it is published with an id exactly if the
account's own platform was called and gave it, and it is not failed if that platform's own procedure
gets an id. -/
structure Truthful (env : Env) (c : Database) (account : SocialAccount) (content : CampaignContent)
    (a : PublishHistory) : Prop where
  published : ∀ id, (a.status = .published ∧ a.externalPostId = some id) ↔
    Got env account.provider (dispatch env account content (start c account)).2 id
  notFailed : ∀ p, platformOf account.provider = some p → ∀ id,
    Got env account.provider
      (p.body env content (env.assetsOf content) (start c account)).2 id → a.status ≠ .failed

/-! ### Honest providers -/

/-- A program that returns an id exactly if it got it, started before anything was asked. -/
def Honest (env : Env) (provider : ApiProvider) (p : Act String) : Prop :=
  ∀ t, t.asked = [] → ∀ id, (p t).1 = .ok id ↔ Got env provider (p t).2 id

variable {provider : ApiProvider} {account : SocialAccount} {content : CampaignContent}
  {assets : List MediaAsset} {c : Database} {t t' : Stage} {id : String}

theorem not_got_of_nil (h : t.asked = []) : ¬ Got env provider t id := by
  rintro ⟨q, hq, -⟩
  rw [h] at hq
  exact absurd hq List.not_mem_nil

theorem honest_bind {p : Act α} {f : α → Act String} (hp : p.Frames Stage.asked)
    (hf : ∀ t a t', p.Returns t a t' → Honest env provider (f a)) :
    Honest env provider (p >>= f) := by
  intro t ht id
  rcases p.returns_or_raises t with ⟨a, t', hret⟩ | ⟨e, t', hraise⟩
  · rw [Prog.bind_of_returns hret]
    exact hf t a t' hret t' ((hp.returns hret).trans ht) id
  · rw [Prog.bind_of_raises hraise]
    have hnone : ¬ Got env provider t' id := not_got_of_nil ((hp.raises hraise).trans ht)
    exact ⟨fun h => absurd h (by simp), fun h => absurd h hnone⟩

/-- The state after a call of a publisher. -/
def noted (env : Env) (t : Stage) (post : Post) : Stage :=
  { t with asked := ⟨tokenOf env t.desk.account, post,
    env.publisher (tokenOf env t.desk.account) post⟩ :: t.asked }

/-- After one call of the own publisher, what was got is what it answered. -/
theorem got_noted {post : Post} (ht : t.asked = []) (hpost : post.provider = provider) :
    Got env provider (noted env t post) id ↔
      env.publisher (tokenOf env t.desk.account) post = .ok (some id) ∧ id ≠ "" := by
  constructor
  · rintro ⟨q, hq, hgives⟩
    simp only [noted, ht, List.mem_singleton] at hq
    subst hq
    exact ⟨hgives.answer, hgives.nonempty⟩
  · rintro ⟨hanswer, hid⟩
    exact ⟨_, List.mem_cons_self, hpost, rfl, hanswer, hid⟩

theorem deliver_eq (t : Stage) (post : Post) (missing : Exc) :
    deliver env post missing t =
      (env.publisher (tokenOf env t.desk.account) post >>= fun answer =>
        if truthy answer = true then .ok (answer.getD "") else .error missing,
       noted env t post) := by
  have hrun : deliver env post missing t =
      (do
        let postId ← Prog.ofExcept (env.publisher (tokenOf env t.desk.account) post)
        Prog.require (truthy postId = true) missing
        pure (postId.getD "") : Act String) (noted env t post) := rfl
  rw [hrun]
  rcases env.publisher (tokenOf env t.desk.account) post with e | answer
  · rfl
  · by_cases htrue : truthy answer = true
    · simp [Prog.ofExcept, bind, Except.bind, Prog.require, htrue, pure]
    · simp [Prog.ofExcept, bind, Except.bind, Prog.require, htrue, Prog.raise]

/-- **A publisher that is asked for an id is honest.** -/
theorem honest_deliver {post : Post} {missing : Exc} (hpost : post.provider = provider) :
    Honest env provider (deliver env post missing) := by
  intro t ht id
  rw [deliver_eq, got_noted ht hpost, Prog.bind_eq_ok]
  constructor
  · rintro ⟨_ | x, hanswer, hid⟩
    · exact absurd hid (by simp [truthy])
    · by_cases hx : x = ""
      · exact absurd hid (by simp [truthy, hx])
      · have hid : x = id := by simpa [truthy, hx] using hid
        rw [← hid]
        exact ⟨hanswer, hx⟩
  · rintro ⟨hanswer, hid⟩
    exact ⟨some id, hanswer, by simp [truthy, hid]⟩

theorem asks_nothing {p : Work α} : (onDesk p).Frames Stage.asked :=
  Prog.frames_focus_rest fun _ _ => rfl

theorem honest_post {x : Except Exc Post} {missing : Exc}
    (hx : ∀ post, x = .ok post → post.provider = provider) :
    Honest env provider (do let post ← Prog.ofExcept x; deliver env post missing) := by
  refine honest_bind (Prog.frames_ofExcept _) fun t post t' hret => ?_
  exact honest_deliver (hx post (Prog.returns_ofExcept.mp hret).1)

theorem provider_facebookPost {post : Post} (h : facebookPost env account content assets = .ok post) :
    post.provider = .meta := by
  rcases assets with _ | ⟨asset, _ | ⟨asset', l⟩⟩
  · rw [facebookPost] at h
    split_ifs at h
    rw [← Except.ok.inj h]
    rfl
  · rw [facebookPost] at h
    split_ifs at h
    split at h
    · rw [← Except.ok.inj h]
      rfl
    · rw [← Except.ok.inj h]
      rfl
    · exact absurd h (by simp)
  · exact absurd h (by simp [facebookPost])

theorem provider_instagramPost {post : Post}
    (h : instagramPost env account content assets = .ok post) : post.provider = .instagram := by
  unfold instagramPost at h
  rcases himage : imageAsset assets with _ | asset
  · rw [himage] at h
    exact absurd h (by simp)
  · rw [himage] at h
    dsimp only at h
    split_ifs at h
    rw [← Except.ok.inj h]
    rfl

theorem provider_linkedinPost {post : Post}
    (h : linkedinPost env account content assets = .ok post) : post.provider = .linkedin := by
  unfold linkedinPost at h
  rcases himage : imageAsset assets with _ | asset
  · rw [himage] at h
    rw [← Except.ok.inj h]
    rfl
  · rw [himage] at h
    dsimp only at h
    split_ifs at h
    rcases hload : downloadImage env (asset.publicUrl.getD "") with e | imageBinary
    · rw [hload] at h
      exact absurd h (by simp)
    · rw [hload] at h
      rw [← Except.ok.inj h]
      rfl

theorem honest_facebook : Honest env .meta (facebookPublishContent env content assets) := by
  refine honest_bind (Prog.frames_gets _) fun _ account _ _ => ?_
  refine honest_bind (Prog.frames_require _ _) fun _ _ _ _ => ?_
  exact honest_post fun _ => provider_facebookPost

theorem honest_instagram : Honest env .instagram (instagramPublishContent env content assets) := by
  refine honest_bind (Prog.frames_gets _) fun _ account _ _ => ?_
  refine honest_bind (Prog.frames_require _ _) fun _ _ _ _ => ?_
  exact honest_post fun _ => provider_instagramPost

theorem honest_linkedin : Honest env .linkedin (linkedinPublishContent env content assets) := by
  refine honest_bind (Prog.frames_gets _) fun _ account _ _ => ?_
  refine honest_bind asks_nothing fun _ _ _ _ => ?_
  refine honest_bind asks_nothing fun _ _ _ _ => ?_
  refine honest_bind asks_nothing fun _ _ _ _ => ?_
  refine honest_bind (Prog.frames_ofExcept _) fun _ _ _ _ => ?_
  exact honest_post fun _ => provider_linkedinPost

theorem honest_twitter : Honest env .twitter (twitterPublishContent env content assets) := by
  refine honest_bind (Prog.frames_gets _) fun _ account _ _ => ?_
  refine honest_bind asks_nothing fun _ _ _ _ => ?_
  refine honest_bind asks_nothing fun _ _ _ _ => ?_
  refine honest_bind (Prog.frames_gets _) fun _ account _ _ => ?_
  refine honest_bind (Prog.frames_require _ _) fun _ _ _ _ => ?_
  exact honest_bind (Prog.frames_ofExcept _) fun _ _ _ _ => honest_deliver rfl

/-! ### Google's own procedure -/

/-- Google would publish: its checks pass, the token is good or is renewed, and its publisher gives
the id. -/
def GoogleDelivers (env : Env) (c : Database) (account : SocialAccount) (content : CampaignContent)
    (id : String) : Prop :=
  (googleChecks account content (env.assetsOf content)).succeeds ⟨c, account, []⟩ = true ∧
    ∃ k, (refreshTokens env.toProviders .google).Returns ⟨c, account, []⟩ () k ∧
      env.publisher (tokenOf env k.account) (googlePost k.account content (env.assetsOf content)) =
        .ok (some id) ∧ id ≠ ""

theorem provider_googlePost : (googlePost account content assets).provider = .google := by
  rcases assets with _ | ⟨asset, l⟩
  · rfl
  · rw [googlePost]
    split_ifs <;> rfl

theorem askGoogle_snd (t : Stage) (post : SocialAccount → Post) :
    ((do
      let account ← readAccount
      let postId ← askPublisher env (tokenOf env account) (post account)
      pure (strOptional postId) : Act String) t).2 = noted env t (post t.desk.account) := by
  rcases hanswer : env.publisher (tokenOf env t.desk.account) (post t.desk.account) with e | answer
  · simp [readAccount, askPublisher, Prog.gets, Prog.modify, Prog.ofExcept, bind, noted, hanswer]
  · simp [readAccount, askPublisher, Prog.gets, Prog.modify, Prog.ofExcept, bind, noted, hanswer,
      pure]

theorem returns_onDesk {p : Work α} {a : α} {k : Desk} (h : p.Returns t.desk a k) :
    (onDesk p).Returns t a { t with desk := k } := Prog.returns_focus.mpr ⟨k, h, rfl⟩

theorem raises_onDesk {p : Work α} {e : Exc} {k : Desk} (h : p.Raises t.desk e k) :
    (onDesk p).Raises t e { t with desk := k } := Prog.raises_focus.mpr ⟨k, h, rfl⟩

/-- **What Google's own procedure gets.** -/
theorem got_google : Got env .google
    (googlePublishContent env content (env.assetsOf content) (start c account)).2 id ↔
      GoogleDelivers env c account content id := by
  unfold googlePublishContent GoogleDelivers
  have hread : readAccount.Returns (start c account) account (start c account) := rfl
  rw [Prog.bind_of_returns hread]
  rcases (googleChecks account content (env.assetsOf content)).returns_or_raises
    (start c account).desk with ⟨u, k, hchecks⟩ | ⟨e, k, hchecks⟩
  · obtain rfl : k = (start c account).desk := frames_googleChecks.returns hchecks
    rw [Prog.bind_of_returns (returns_onDesk hchecks)]
    rcases (refreshTokens env.toProviders .google).returns_or_raises (start c account).desk with
      ⟨v, k, hrefresh⟩ | ⟨e, k, hrefresh⟩
    · rw [Prog.bind_of_returns (returns_onDesk hrefresh),
        askGoogle_snd _ fun account => googlePost account content (env.assetsOf content),
        got_noted rfl provider_googlePost]
      constructor
      · intro h
        exact ⟨Prog.succeeds_of_returns hchecks, k, hrefresh, h⟩
      · rintro ⟨-, k', hrefresh', h⟩
        obtain rfl : k = k' := congrArg Prod.snd (hrefresh.symm.trans hrefresh')
        exact h
    · rw [Prog.bind_of_raises (raises_onDesk hrefresh)]
      refine ⟨fun h => absurd h (not_got_of_nil rfl), ?_⟩
      rintro ⟨-, k', hrefresh', -⟩
      exact absurd hrefresh (Prog.not_raises_of_returns hrefresh')
  · rw [Prog.bind_of_raises (raises_onDesk hchecks)]
    refine ⟨fun h => absurd h (not_got_of_nil rfl), ?_⟩
    rintro ⟨hsucceeds, -⟩
    obtain ⟨u, k', hret⟩ := Prog.succeeds_iff.mp hsucceeds
    exact absurd hchecks (Prog.not_raises_of_returns hret)

/-! ### The history -/

variable {d : Draws} {textOf : Exc → String} {w : Uuid} {request : PublishRequest}
  {s : Database}

theorem concluded_published {outcome : Except Exc String} {h : PublishHistory} :
    ((concluded d textOf outcome h).status = .published ∧
      (concluded d textOf outcome h).externalPostId = some id) ↔ outcome = .ok id := by
  rcases outcome with e | x
  · simp [concluded]
  · simp [concluded]

theorem concluded_failed {outcome : Except Exc String} {h : PublishHistory} :
    (concluded d textOf outcome h).status = .failed ↔ ∀ id, outcome ≠ .ok id := by
  rcases outcome with e | x
  · simp [concluded]
  · simp [concluded]

theorem truthful_of_honest {p : SocialProvider} (hp : platformOf account.provider = some p)
    (hget : getProvider account.provider = p) (hcall : p.parameters.length = 2)
    (hhonest : Honest env account.provider (p.body env content (env.assetsOf content)))
    (c : Database) : Truthful env c account content
      (concluded d textOf ((publisher env).publish account content c).1
        (pendingHistory d w content account)) := by
  have hrun : dispatch env account content = p.body env content (env.assetsOf content) := by
    rw [dispatch, hget, SocialProvider.publishContent, if_pos hcall]
  have houtcome : ((publisher env).publish account content c).1 =
      (p.body env content (env.assetsOf content) (start c account)).1 := by
    rw [← hrun]
    rfl
  refine ⟨fun id => ?_, fun q hq id hgot => ?_⟩
  · rw [concluded_published, houtcome, hrun]
    exact hhonest (start c account) rfl id
  · obtain rfl : p = q := Option.some.inj (hp.symm.trans hq)
    rw [Ne, concluded_failed, houtcome]
    exact fun hnone => hnone id ((hhonest (start c account) rfl id).mpr hgot)

theorem not_truthful_of_mock (hget : getProvider account.provider = .mock) (c : Database) :
    ¬ Truthful env c account content
      (concluded d textOf ((publisher env).publish account content c).1
        (pendingHistory d w content account)) := by
  have hrun : dispatch env account content = mockPublishContent env := by
    rw [dispatch, hget]
    rfl
  intro h
  have hpublished := h.published ("mock_post_" ++ String.ofList (env.hex.toList.take 8))
  have houtcome : ((publisher env).publish account content c).1 =
      .ok ("mock_post_" ++ String.ofList (env.hex.toList.take 8)) := by
    simp only [publisher, hrun]
    rfl
  rw [concluded_published, hrun] at hpublished
  exact not_got_of_nil rfl (hpublished.mp houtcome)

theorem truthful_google_iff (hgoogle : account.provider = .google) (c : Database) :
    Truthful env c account content
      (concluded d textOf ((publisher env).publish account content c).1
        (pendingHistory d w content account)) ↔
      ∀ id, ¬ GoogleDelivers env c account content id := by
  have hrun : dispatch env account content = Prog.raise .typeError := by
    rw [dispatch, hgoogle]
    rfl
  have houtcome : ((publisher env).publish account content c).1 = .error .typeError := by
    simp only [publisher, hrun]
    rfl
  have hfailed : (concluded d textOf ((publisher env).publish account content c).1
      (pendingHistory d w content account)).status = .failed := by
    rw [houtcome]
    rfl
  constructor
  · intro h id hdelivers
    have hgot := got_google.mpr hdelivers
    rw [← hgoogle] at hgot
    exact h.notFailed .google (by rw [hgoogle]; rfl) id hgot hfailed
  · intro hnone
    refine ⟨fun id => ?_, fun p hp id hgot => ?_⟩
    · rw [concluded_published, houtcome, hrun]
      exact ⟨fun h => absurd h (by simp), fun h => absurd h (not_got_of_nil rfl)⟩
    · rw [hgoogle] at hp hgot
      obtain rfl : SocialProvider.google = p := Option.some.inj hp
      exact absurd (got_google.mp hgot) (hnone id)

/-- **When the history is truthful.** An accepted publication for an account of any platform but the
mock returns a row of the history, and it is truthful exactly for Meta, Instagram, LinkedIn and
Twitter, and for Google when Google would not publish. -/
theorem truthful_iff (env : Env) (textOf : Exc → String) (c : Database)
    (hrel : Relations s w request content account) (hacc : AcceptsPublish s d w request)
    (hmock : account.provider ≠ .mock) :
    ∃ a s', (publishContent d textOf (publisher env) w request).Returns ⟨c, some s⟩ a s' ∧
      (Truthful env c account content a ↔
        account.provider ∈ [.meta, .instagram, .linkedin, .twitter] ∨
          account.provider = .google ∧ ∀ id, ¬ GoogleDelivers env c account content id) := by
  obtain ⟨v, hret⟩ := publishContent_concludes textOf (publisher env) c hrel hacc
  refine ⟨_, _, hret, ?_⟩
  rcases hp : account.provider with _ | _ | _ | _ | _ | _ | _ | _ | _ | _
  case «meta» =>
    refine iff_of_true (truthful_of_honest (p := .facebook) ?_ ?_ rfl ?_ c) (by simp)
    all_goals rw [hp]
    exacts [rfl, rfl, honest_facebook]
  case linkedin =>
    refine iff_of_true (truthful_of_honest (p := .linkedin) ?_ ?_ rfl ?_ c) (by simp)
    all_goals rw [hp]
    exacts [rfl, rfl, honest_linkedin]
  case instagram =>
    refine iff_of_true (truthful_of_honest (p := .instagram) ?_ ?_ rfl ?_ c) (by simp)
    all_goals rw [hp]
    exacts [rfl, rfl, honest_instagram]
  case twitter =>
    refine iff_of_true (truthful_of_honest (p := .twitter) ?_ ?_ rfl ?_ c) (by simp)
    all_goals rw [hp]
    exacts [rfl, rfl, honest_twitter]
  case google =>
    rw [truthful_google_iff hp c]
    simp
  case mock => exact absurd hp hmock
  all_goals
    refine iff_of_false (not_truthful_of_mock ?_ c) (by simp)
    rw [hp]
    rfl

/-! ### Publications that are not what they seem -/

/-- Every publisher gives an id. -/
def world : Env where
  toProviders := Social.Refresh.twitter
  publisher _ _ := .ok (some "1000")
  download _ := .error (.status "404")
  fetch _ := .ok []
  uploadMedia _ _ _ _ _ := .ok "7"
  linkedinApiVersion := some "202401"
  isDecimal := Char.isDigit
  assetsOf _ := []
  hex := "0123456789abcdef0123456789abcdef"

/-- An account of the workspace 10, with a token that does not expire. -/
def accountWith (provider : ApiProvider) : SocialAccount :=
  { Social.Refresh.studioAccount with provider := provider, expiresAt := none }

/-- A text of the campaign 30. -/
def text : CampaignContent := { Social.Refresh.post with id := 40, campaignId := 30 }

/-- The campaign 30 with a text, and an account to publish it with. -/
def withAccount (provider : ApiProvider) : Database :=
  { Campaigns.Service.launched with
    campaignContents := ⟨[text], by decide⟩
    socialAccounts := ⟨[accountWith provider], by simp⟩ }

theorem relations_withAccount (provider : ApiProvider) :
    Relations (withAccount provider) 10 ⟨40, 70⟩ text (accountWith provider) :=
  ⟨List.mem_singleton_self _, rfl, rfl, rfl, List.mem_singleton_self _, rfl, rfl, rfl⟩

theorem accepts_withAccount (provider : ApiProvider) :
    AcceptsPublish (withAccount provider) (drawsFrom 90 5 "") 10 ⟨40, 70⟩ := by
  refine ⟨text, accountWith provider, relations_withAccount provider, ?_, ?_⟩
  · cases provider <;> decide
  · intro h hh
    exact absurd hh List.not_mem_nil

/-- A post on Facebook is in the history as it was made. -/
theorem truthful_facebook : ∃ a s', (publishContent (drawsFrom 90 5 "") (fun _ => "")
      (publisher world) 10 ⟨40, 70⟩).Returns ⟨withAccount .meta, some (withAccount .meta)⟩ a s' ∧
    Truthful world (withAccount .meta) (accountWith .meta) text a := by
  obtain ⟨a, s', hret, hiff⟩ := truthful_iff world (fun _ => "") (withAccount .meta)
    (relations_withAccount .meta) (accepts_withAccount .meta) (by decide)
  exact ⟨a, s', hret, hiff.mpr (Or.inl (by decide))⟩

/-- **The history lies.** An account of OpenAI has a post that nobody made, and one of Google a
failure where Google would have published. -/
theorem history_lies :
    (∃ a s', (publishContent (drawsFrom 90 5 "") (fun _ => "") (publisher world) 10 ⟨40, 70⟩).Returns
        ⟨withAccount .openai, some (withAccount .openai)⟩ a s' ∧ a.status = .published ∧
      a.externalPostId = some "mock_post_01234567" ∧
      ¬ Truthful world (withAccount .openai) (accountWith .openai) text a) ∧
    ∃ a s', (publishContent (drawsFrom 90 5 "") (fun _ => "") (publisher world) 10 ⟨40, 70⟩).Returns
        ⟨withAccount .google, some (withAccount .google)⟩ a s' ∧ a.status = .failed ∧
      GoogleDelivers world (withAccount .google) (accountWith .google) text "1000" ∧
      ¬ Truthful world (withAccount .google) (accountWith .google) text a := by
  have hdelivers : GoogleDelivers world (withAccount .google) (accountWith .google) text "1000" :=
    ⟨by decide, ⟨withAccount .google, accountWith .google, []⟩, rfl, rfl, by decide⟩
  obtain ⟨v, hret⟩ := publishContent_concludes (fun _ => "") (publisher world)
    (withAccount .openai) (relations_withAccount .openai) (accepts_withAccount .openai)
  obtain ⟨v', hret'⟩ := publishContent_concludes (fun _ => "") (publisher world)
    (withAccount .google) (relations_withAccount .google) (accepts_withAccount .google)
  refine ⟨⟨_, _, hret, rfl, by decide, not_truthful_of_mock rfl _⟩, _, _, hret', rfl, hdelivers, ?_⟩
  rw [truthful_google_iff rfl]
  exact fun hnone => hnone "1000" hdelivers

end MarketingSuite.Publishing.Truth
