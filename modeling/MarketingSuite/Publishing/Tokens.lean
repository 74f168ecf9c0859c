import MarketingSuite.Publishing.Truth

/-! # The token that a publisher is built with

After the checks of its input and the refresh of the token, the provider of a platform builds the
publisher of that platform with the plaintext of the account's token, and then calls it. Where no
refresh can be stored, the account and the content alone decide whether it comes to that. -/

namespace MarketingSuite.Publishing.Tokens

open MarketingSuite.Lib.Programs
open MarketingSuite.Base.Values MarketingSuite.Base.Models MarketingSuite.Base.Schema
open MarketingSuite.Social.Providers (Asset Desk Work Platform startsWith checkText checkAuthor
  checkAsset checkAssets expiresSoon refreshTokens)
open MarketingSuite.Social.Refresh (Named preserves_refreshTokens refreshTokens_returns
  frames_checkText)
open MarketingSuite.Social.Factory
open MarketingSuite.Publishing.Truth

variable (env : Env) (content : CampaignContent) (assets : List MediaAsset)

/-- What `publish_content` of a provider does up to its publisher, and the token that it builds it
with. The mock builds none. -/
def publisherToken : SocialProvider → Act (Option String)
  | .mock => pure none
  | .facebook => do
    let account ← readAccount
    checkToken env account
    pure (some (tokenOf env account))
  | .instagram => do
    let account ← readAccount
    checkToken env account
    let _ ← Prog.ofExcept (instagramPost env account content assets)
    pure (some (tokenOf env account))
  | .linkedin => do
    let account ← readAccount
    onDesk (checkText .linkedin account content)
    onDesk (checkAuthor account)
    onDesk (refreshTokens env.toProviders .linkedin)
    let account ← readAccount
    pure (some (tokenOf env account))
  | .twitter => do
    let account ← readAccount
    onDesk (checkText .twitter account content)
    onDesk (refreshTokens env.toProviders .twitter)
    let account ← readAccount
    Prog.require (tokenOf env account ≠ "")
      (.integration "Missing access token for Twitter publisher.")
    pure (some (tokenOf env account))
  | .google => do
    let account ← readAccount
    onDesk (googleChecks account content assets)
    onDesk (refreshTokens env.toProviders .google)
    let account ← readAccount
    pure (some (tokenOf env account))

/-- What it does with the publisher, for the account as it was at first. -/
def publishWith (account : SocialAccount) : SocialProvider → Act String
  | .mock => mockPublishContent env
  | .facebook => do
    let post ← Prog.ofExcept (facebookPost env account content assets)
    deliver env post (.integration "Meta API did not return a valid post ID.")
  | .instagram => do
    let post ← Prog.ofExcept (instagramPost env account content assets)
    deliver env post (.integration "Meta API did not return a valid post ID.")
  | .linkedin => do
    Prog.ofExcept (linkedinPublisher env)
    let post ← Prog.ofExcept (linkedinPost env account content assets)
    deliver env post (.integration "Failed to retrieve valid post ID from LinkedIn.")
  | .twitter => do
    let account ← readAccount
    let mediaIds ← Prog.ofExcept (uploadAssets env (tokenOf env account) assets)
    deliver env (.tweet (content.body.getD "") mediaIds)
      (.integration "Failed to retrieve valid post ID from Twitter.")
  | .google => do
    let account ← readAccount
    let postId ← askPublisher env (tokenOf env account) (googlePost account content assets)
    pure (strOptional postId)

variable {env content assets} {t t' : Stage} {token : String} {account : SocialAccount}

theorem readAccount_bind {α : Type} (f : SocialAccount → Act α) (t : Stage) :
    (readAccount >>= f) t = f t.desk.account t := rfl

theorem returns_readAccount_bind {α : Type} {f : SocialAccount → Act α} {a : α} :
    (readAccount >>= f).Returns t a t' ↔ (f t.desk.account).Returns t a t' := by
  rw [Prog.Returns, readAccount_bind, Prog.Returns]

/-- **A provider is these two parts.** -/
theorem body_eq (p : SocialProvider) : p.body env content assets = (do
    let account ← readAccount
    let _ ← publisherToken env content assets p
    publishWith env content assets account p) := by
  funext t
  cases p with
  | mock => rfl
  | facebook =>
    simp only [SocialProvider.body, facebookPublishContent, publisherToken, Prog.bind_assoc,
      readAccount_bind]
    rfl
  | instagram =>
    simp only [SocialProvider.body, instagramPublishContent, publisherToken, publishWith,
      Prog.bind_assoc, readAccount_bind]
    rcases instagramPost env t.desk.account content assets with e | post
    · rfl
    · rfl
  | linkedin =>
    simp only [SocialProvider.body, linkedinPublishContent, publisherToken, Prog.bind_assoc,
      readAccount_bind]
    rfl
  | twitter =>
    simp only [SocialProvider.body, twitterPublishContent, publisherToken, Prog.bind_assoc,
      readAccount_bind]
    refine congrFun (congrArg _ (funext fun _ => congrArg _ (funext fun _ => funext fun t => ?_))) t
    simp only [readAccount_bind]
    by_cases htoken : tokenOf env t.desk.account ≠ ""
    · simp only [Prog.require, if_pos htoken]
      rfl
    · simp only [Prog.require, if_neg htoken]
      rfl
  | google =>
    simp only [SocialProvider.body, googlePublishContent, publisherToken, Prog.bind_assoc,
      readAccount_bind]
    rfl

/-! ### Every call of a publisher has that token -/

theorem frames_publisherToken (p : SocialProvider) :
    (publisherToken env content assets p).Frames Stage.asked := by
  cases p with
  | mock => exact Prog.frames_pure _
  | facebook =>
    refine Prog.frames_bind (Prog.frames_gets _) fun _ => ?_
    exact Prog.frames_bind (Prog.frames_require _ _) fun _ => Prog.frames_pure _
  | instagram =>
    refine Prog.frames_bind (Prog.frames_gets _) fun _ => ?_
    refine Prog.frames_bind (Prog.frames_require _ _) fun _ => ?_
    exact Prog.frames_bind (Prog.frames_ofExcept _) fun _ => Prog.frames_pure _
  | linkedin =>
    refine Prog.frames_bind (Prog.frames_gets _) fun _ => Prog.frames_bind asks_nothing fun _ => ?_
    refine Prog.frames_bind asks_nothing fun _ => Prog.frames_bind asks_nothing fun _ => ?_
    exact Prog.frames_bind (Prog.frames_gets _) fun _ => Prog.frames_pure _
  | twitter =>
    refine Prog.frames_bind (Prog.frames_gets _) fun _ => Prog.frames_bind asks_nothing fun _ => ?_
    refine Prog.frames_bind asks_nothing fun _ => Prog.frames_bind (Prog.frames_gets _) fun _ => ?_
    exact Prog.frames_bind (Prog.frames_require _ _) fun _ => Prog.frames_pure _
  | google =>
    refine Prog.frames_bind (Prog.frames_gets _) fun _ => Prog.frames_bind asks_nothing fun _ => ?_
    refine Prog.frames_bind asks_nothing fun _ => ?_
    exact Prog.frames_bind (Prog.frames_gets _) fun _ => Prog.frames_pure _

theorem token_of_publisherToken {p : SocialProvider} {o : Option String}
    (h : (publisherToken env content assets p).Returns t o t') :
    p = .mock ∧ o = none ∨ o = some (tokenOf env t'.desk.account) := by
  have hlast : ∀ {t₁}, (do
      let account ← readAccount
      pure (some (tokenOf env account)) : Act (Option String)).Returns t₁ o t' →
      o = some (tokenOf env t'.desk.account) := by
    intro t₁ h
    have h := returns_readAccount_bind.mp h
    obtain ⟨rfl, rfl⟩ := Prog.returns_pure.mp h
    rfl
  cases p with
  | mock => exact Or.inl ⟨rfl, (Prog.returns_pure.mp h).1⟩
  | facebook =>
    obtain ⟨_, hcheck, rfl⟩ := Prog.returns_bind_pure.mp (returns_readAccount_bind.mp h)
    obtain ⟨-, rfl⟩ := Prog.returns_require.mp hcheck
    exact Or.inr rfl
  | instagram =>
    obtain ⟨_, _, hcheck, h⟩ := Prog.returns_bind.mp (returns_readAccount_bind.mp h)
    obtain ⟨-, rfl⟩ := Prog.returns_require.mp hcheck
    obtain ⟨_, hpost, rfl⟩ := Prog.returns_bind_pure.mp h
    obtain ⟨-, rfl⟩ := Prog.returns_ofExcept.mp hpost
    exact Or.inr rfl
  | linkedin =>
    obtain ⟨_, _, -, h⟩ := Prog.returns_bind.mp (returns_readAccount_bind.mp h)
    obtain ⟨_, _, -, h⟩ := Prog.returns_bind.mp h
    obtain ⟨_, _, -, h⟩ := Prog.returns_bind.mp h
    exact Or.inr (hlast h)
  | twitter =>
    obtain ⟨_, _, -, h⟩ := Prog.returns_bind.mp (returns_readAccount_bind.mp h)
    obtain ⟨_, _, -, h⟩ := Prog.returns_bind.mp h
    obtain ⟨_, hreq, rfl⟩ := Prog.returns_bind_pure.mp (returns_readAccount_bind.mp h)
    obtain ⟨-, rfl⟩ := Prog.returns_require.mp hreq
    exact Or.inr rfl
  | google =>
    obtain ⟨_, _, -, h⟩ := Prog.returns_bind.mp (returns_readAccount_bind.mp h)
    obtain ⟨_, _, -, h⟩ := Prog.returns_bind.mp h
    exact Or.inr (hlast h)

/-- `p` calls publishers with the token of the account only. -/
def Carries (env : Env) (p : Act String) : Prop :=
  ∀ t, t.asked = [] → ∀ q ∈ (p t).2.asked, q.token = tokenOf env t.desk.account

theorem carries_deliver (post : Post) (missing : Exc) : Carries env (deliver env post missing) := by
  intro t ht q hq
  rw [deliver_eq, noted, ht] at hq
  rw [List.mem_singleton.mp hq]

theorem carries_ofExcept {α : Type} {f : α → Act String} (x : Except Exc α)
    (hf : ∀ a, Carries env (f a)) : Carries env (Prog.ofExcept x >>= f) := by
  intro t ht q hq
  rcases x with e | a
  · have hq : q ∈ t.asked := hq
    rw [ht] at hq
    exact absurd hq List.not_mem_nil
  · exact hf a t ht q hq

theorem carries_publishWith (p : SocialProvider) :
    Carries env (publishWith env content assets account p) := by
  cases p with
  | mock =>
    intro t ht q hq
    have hq : q ∈ t.asked := hq
    rw [ht] at hq
    exact absurd hq List.not_mem_nil
  | facebook => exact carries_ofExcept _ fun _ => carries_deliver _ _
  | instagram => exact carries_ofExcept _ fun _ => carries_deliver _ _
  | linkedin =>
    exact carries_ofExcept _ fun _ => carries_ofExcept _ fun _ => carries_deliver _ _
  | twitter => exact fun t => carries_ofExcept _ (fun _ => carries_deliver _ _) t
  | google =>
    intro t ht q hq
    have hsnd : (publishWith env content assets account .google t).2 =
        noted env t (googlePost t.desk.account content assets) :=
      askGoogle_snd t fun account => googlePost account content assets
    rw [hsnd, noted, ht] at hq
    rw [List.mem_singleton.mp hq]

/-- **Nothing is asked of a publisher but with the token that it was built with.** -/
theorem token_of_asked {p : SocialProvider} {q : Call} (ht : t.asked = [])
    (hq : q ∈ (p.body env content assets t).2.asked) :
    ∃ t', (publisherToken env content assets p).Returns t (some q.token) t' := by
  rw [body_eq, readAccount_bind] at hq
  rcases (publisherToken env content assets p).returns_or_raises t with ⟨o, t', hret⟩ |
    ⟨e, t', hraise⟩
  · rw [Prog.bind_of_returns hret] at hq
    have hasked : t'.asked = [] := ((frames_publisherToken p).returns hret).trans ht
    rcases token_of_publisherToken hret with ⟨rfl, -⟩ | rfl
    · have hq : q ∈ t'.asked := hq
      rw [hasked] at hq
      exact absurd hq List.not_mem_nil
    · rw [carries_publishWith p t' hasked q hq]
      exact ⟨t', hret⟩
  · rw [Prog.bind_of_raises hraise] at hq
    have hasked : t'.asked = [] := ((frames_publisherToken p).raises hraise).trans ht
    rw [hasked] at hq
    exact absurd hq List.not_mem_nil

/-! ### When it comes to that -/

/-- The content has a text. -/
def hasText (content : CampaignContent) : Bool :=
  truthy content.body = true ∧ strip (content.body.getD "") ≠ ""

/-- **An account and a content with which a provider gets to its publisher**, where nothing can be
refreshed. The mock has none, and Google's provider is called without its first argument. -/
def ready (env : Env) (account : SocialAccount) (content : CampaignContent)
    (assets : List MediaAsset) : SocialProvider → Bool
  | .mock => false
  | .google => false
  | .facebook => account.accessToken ≠ ""
  | .instagram => account.accessToken ≠ "" ∧
      (imageAsset assets).any fun asset => truthy asset.publicUrl
  | .linkedin => account.accessToken ≠ "" ∧ hasText content ∧
      startsWith account.accountId "urn:li:person:" ∧ ¬ expiresSoon env.toProviders account
  | .twitter => account.accessToken ≠ "" ∧ hasText content ∧
      ¬ expiresSoon env.toProviders account ∧ tokenOf env account ≠ ""

/-- The assets that Google's provider takes: none, or one that is an image or a video. -/
def takesAssets : List Asset → Bool
  | [] => true
  | [asset] =>
    asset.publicUrl.any (fun u => startsWith u "http://" || startsWith u "https://") = true ∧
      (startsWith asset.mimeType "video/" = true ∨ startsWith asset.mimeType "image/" = true) ∧
      (startsWith asset.mimeType "image/" = true →
        asset.mimeType ∈ ["image/jpeg", "image/png", "image/webp"])
  | _ => false

/-- The same, with Google's provider called with all its arguments. -/
def passes (env : Env) (account : SocialAccount) (content : CampaignContent)
    (assets : List MediaAsset) : SocialProvider → Bool
  | .google => account.accessToken ≠ "" ∧ hasText content ∧
      takesAssets (assets.map MediaAsset.toAsset) ∧ ¬ expiresSoon env.toProviders account
  | p => ready env account content assets p

/-- What `SocialProviderFactory.get_provider(account.provider).publish_content(account, content)`
does up to the publisher. -/
def handOver (env : Env) (account : SocialAccount) (content : CampaignContent) :
    Act (Option String) :=
  if (getProvider account.provider).parameters.length = 2 then
    publisherToken env content (env.assetsOf content) (getProvider account.provider)
  else Prog.raise .typeError

variable {s : Database} {platform : Platform}

theorem tests_text {k : Desk} : (checkText platform account content).Tests k
    (account.accessToken ≠ "" ∧ hasText content = true) := by
  rw [hasText, decide_eq_true_eq]
  exact Prog.tests_require.bind Prog.tests_require

theorem tests_checkText : (onDesk (checkText platform account content)).Tests t
    (account.accessToken ≠ "" ∧ hasText content = true) := tests_text.focus rfl

theorem tests_checkAuthor : (onDesk (checkAuthor account)).Tests t
    (startsWith account.accountId "urn:li:person:" = true) := Prog.tests_require.focus rfl

theorem returns_refreshTokens (hs : Named t.desk.db) {u : Unit} :
    (onDesk (refreshTokens env.toProviders platform)).Returns t u t' ↔
      expiresSoon env.toProviders t.desk.account = false ∧ t' = t := by
  rw [onDesk, Prog.returns_focus]
  constructor
  · rintro ⟨k, hret, rfl⟩
    obtain ⟨hsoon, rfl⟩ := (refreshTokens_returns hs).mp hret
    exact ⟨hsoon, rfl⟩
  · rintro ⟨hsoon, rfl⟩
    exact ⟨_, (refreshTokens_returns hs).mpr ⟨hsoon, rfl⟩, rfl⟩

theorem instagramPost_eq_ok (env : Env) (account : SocialAccount) (content : CampaignContent)
    (assets : List MediaAsset) : (∃ post, instagramPost env account content assets = .ok post) ↔
      (imageAsset assets).any (fun asset => truthy asset.publicUrl) = true := by
  unfold instagramPost
  rcases imageAsset assets with _ | asset
  · simp
  · by_cases hurl : truthy asset.publicUrl = true
    · simp [hurl]
    · simp [hurl]

theorem tests_checkAssets {l : List Asset} {k : Desk} :
    (checkAssets l).Tests k (takesAssets l = true) := by
  intro u k'
  rcases l with _ | ⟨asset, _ | ⟨asset', l⟩⟩
  · simp [checkAssets, takesAssets]
  · simp only [checkAssets, checkAsset, Prog.tests_require.returns_bind, Prog.returns_require,
      takesAssets, decide_eq_true_eq, and_assoc]
  · simp [checkAssets, takesAssets]

theorem tests_googleChecks : (onDesk (googleChecks account content assets)).Tests t
    ((account.accessToken ≠ "" ∧ hasText content = true) ∧
      takesAssets (assets.map MediaAsset.toAsset) = true) :=
  (tests_text.bind tests_checkAssets).focus rfl

/-- No token is refreshed on the way to a publisher. -/
def Unrefreshed (env : Env) (t : Stage) : Prop :=
  ∀ platform u t', (onDesk (refreshTokens env.toProviders platform)).Returns t u t' ↔
    expiresSoon env.toProviders t.desk.account = false ∧ t' = t

theorem unrefreshed_of_named (hs : Named t.desk.db) : Unrefreshed env t :=
  fun _ _ _ => returns_refreshTokens hs

theorem unrefreshed_of_lasting (h : expiresSoon env.toProviders t.desk.account = false) :
    Unrefreshed env t := by
  intro platform u t'
  have hkeeps : refreshTokens env.toProviders platform t.desk = (.ok (), t.desk) := by
    have hread : (Prog.gets Desk.account : Work SocialAccount).Returns t.desk t.desk.account
        t.desk := Prog.returns_gets.mpr ⟨rfl, rfl⟩
    unfold refreshTokens
    rw [Prog.bind_of_returns hread, if_neg (by rw [h]; decide)]
    rfl
  rw [onDesk, Prog.returns_focus, and_iff_right h]
  constructor
  · rintro ⟨k, hret, rfl⟩
    rw [← (Prod.mk.inj (hkeeps.symm.trans hret)).2]
  · rintro rfl
    exact ⟨_, hkeeps, rfl⟩

/-- **Whose input passes gets a publisher, with the stored token**, if nothing is refreshed. -/
theorem publisherToken_returns_of (hs : Unrefreshed env (start s account)) (p : SocialProvider) :
    (∃ t', (publisherToken env content assets p).Returns (start s account) (some token) t') ↔
      passes env account content assets p = true ∧ token = tokenOf env account := by
  have hself : (start s account).desk.account = account := rfl
  have hrefresh (platform : Platform) : (onDesk (refreshTokens env.toProviders platform)).Tests
      (start s account) (expiresSoon env.toProviders account = false) := hs platform
  cases p with
  | mock =>
    refine iff_of_false ?_ fun h => Bool.false_ne_true h.1
    rintro ⟨t', h⟩
    exact absurd (Prog.returns_pure.mp h).1 (by simp)
  | facebook =>
    simp only [publisherToken, checkToken, returns_readAccount_bind, hself, passes, ready,
      decide_eq_true_eq, Prog.tests_require.returns_bind, Prog.returns_pure, Option.some.injEq]
    constructor
    · rintro ⟨t', htoken, rfl, -⟩
      exact ⟨htoken, rfl⟩
    · rintro ⟨htoken, rfl⟩
      exact ⟨_, htoken, rfl, rfl⟩
  | instagram =>
    simp only [publisherToken, checkToken, returns_readAccount_bind, hself, passes, ready,
      decide_eq_true_eq, Prog.tests_require.returns_bind, ← instagramPost_eq_ok env account content]
    constructor
    · rintro ⟨t', htoken, h⟩
      obtain ⟨post, hpost, ho⟩ := Prog.returns_bind_pure.mp h
      exact ⟨⟨htoken, post, (Prog.returns_ofExcept.mp hpost).1⟩, Option.some.inj ho⟩
    · rintro ⟨⟨htoken, post, hpost⟩, rfl⟩
      exact ⟨_, htoken, Prog.returns_bind_pure.mpr
        ⟨post, Prog.returns_ofExcept.mpr ⟨hpost, rfl⟩, rfl⟩⟩
  | linkedin =>
    simp only [publisherToken, returns_readAccount_bind, hself, passes, ready, decide_eq_true_eq,
      tests_checkText.returns_bind, tests_checkAuthor.returns_bind, (hrefresh _).returns_bind,
      Prog.returns_pure, Option.some.injEq, Bool.not_eq_true]
    constructor
    · rintro ⟨t', ⟨htoken, htext⟩, hauthor, hsoon, rfl, -⟩
      exact ⟨⟨htoken, htext, hauthor, hsoon⟩, rfl⟩
    · rintro ⟨⟨htoken, htext, hauthor, hsoon⟩, rfl⟩
      exact ⟨_, ⟨htoken, htext⟩, hauthor, hsoon, rfl, rfl⟩
  | twitter =>
    simp only [publisherToken, returns_readAccount_bind, hself, passes, ready, decide_eq_true_eq,
      tests_checkText.returns_bind, (hrefresh _).returns_bind, Prog.tests_require.returns_bind,
      Prog.returns_pure, Option.some.injEq, Bool.not_eq_true]
    constructor
    · rintro ⟨t', ⟨htoken, htext⟩, hsoon, hplain, rfl, -⟩
      exact ⟨⟨htoken, htext, hsoon, hplain⟩, rfl⟩
    · rintro ⟨⟨htoken, htext, hsoon, hplain⟩, rfl⟩
      exact ⟨_, ⟨htoken, htext⟩, hsoon, hplain, rfl, rfl⟩
  | google =>
    simp only [publisherToken, returns_readAccount_bind, hself, passes, decide_eq_true_eq,
      tests_googleChecks.returns_bind, (hrefresh _).returns_bind, Prog.returns_pure,
      Option.some.injEq, Bool.not_eq_true]
    constructor
    · rintro ⟨t', ⟨⟨htoken, htext⟩, hassets⟩, hsoon, rfl, -⟩
      exact ⟨⟨htoken, htext, hassets, hsoon⟩, rfl⟩
    · rintro ⟨⟨htoken, htext, hassets, hsoon⟩, rfl⟩
      exact ⟨_, ⟨⟨htoken, htext⟩, hassets⟩, hsoon, rfl, rfl⟩

/-- **Who is ready gets a publisher, with the stored token.** -/
theorem publisherToken_returns (hs : Named s) (p : SocialProvider) (hp : p ≠ .google) :
    (∃ t', (publisherToken env content assets p).Returns (start s account) (some token) t') ↔
      ready env account content assets p = true ∧ token = tokenOf env account := by
  have hpasses : passes env account content assets p = ready env account content assets p := by
    cases p with
    | google => exact absurd rfl hp
    | _ => rfl
  rw [← hpasses]
  exact publisherToken_returns_of (unrefreshed_of_named hs) p

/-- **The provider of an account**: it hands the stored token over exactly if the account and the
content are ready for it. -/
theorem handOver_returns (hs : Named s) :
    (∃ t', (handOver env account content).Returns (start s account) (some token) t') ↔
      ready env account content (env.assetsOf content) (getProvider account.provider) = true ∧
        token = tokenOf env account := by
  unfold handOver
  generalize getProvider account.provider = p
  by_cases hp : p = .google
  · subst hp
    refine iff_of_false ?_ fun h => Bool.false_ne_true h.1
    rintro ⟨t', h⟩
    cases h
  · have hparameters : p.parameters.length = 2 := by
      cases p with
      | google => exact absurd rfl hp
      | _ => rfl
    rw [if_pos hparameters]
    exact publisherToken_returns hs p hp

/-- Nothing is asked of a publisher but with a token that was handed over. -/
theorem handOver_of_asked {q : Call}
    (hq : q ∈ (dispatch env account content (start s account)).2.asked) :
    ∃ t', (handOver env account content).Returns (start s account) (some q.token) t' := by
  unfold dispatch SocialProvider.publishContent at hq
  unfold handOver
  by_cases hparameters : (getProvider account.provider).parameters.length = 2
  · rw [if_pos hparameters] at hq ⊢
    exact token_of_asked rfl hq
  · rw [if_neg hparameters] at hq
    exact absurd hq List.not_mem_nil

/-! ### The database -/

theorem preserves_onDesk {α : Type} {p : Work α} (hp : p.Preserves fun k => k.db = s) :
    (onDesk p).Preserves fun t => t.desk.db = s := fun t ht => hp t.desk ht

theorem preserves_check {p : Work Unit} (hp : p.Frames id) :
    (onDesk p).Preserves fun t => t.desk.db = s := preserves_onDesk (Prog.preserves_of_frames hp)

/-- Up to its publisher a provider leaves the database alone, as nothing can be refreshed. -/
theorem preserves_publisherToken (hs : Named s) (p : SocialProvider) :
    (publisherToken env content assets p).Preserves fun t => t.desk.db = s := by
  have hrefresh : ∀ platform, (onDesk (refreshTokens env.toProviders platform)).Preserves
      fun t => t.desk.db = s := fun platform => preserves_onDesk (preserves_refreshTokens hs _ _)
  cases p with
  | mock => exact Prog.preserves_pure _
  | facebook =>
    refine Prog.preserves_bind (Prog.preserves_gets _) fun _ => ?_
    exact Prog.preserves_bind (Prog.preserves_require _ _) fun _ => Prog.preserves_pure _
  | instagram =>
    refine Prog.preserves_bind (Prog.preserves_gets _) fun _ => ?_
    refine Prog.preserves_bind (Prog.preserves_require _ _) fun _ => ?_
    exact Prog.preserves_bind (Prog.preserves_ofExcept _) fun _ => Prog.preserves_pure _
  | linkedin =>
    refine Prog.preserves_bind (Prog.preserves_gets _) fun _ => ?_
    refine Prog.preserves_bind (preserves_check frames_checkText) fun _ => ?_
    refine Prog.preserves_bind (preserves_check (Prog.frames_require _ _)) fun _ => ?_
    refine Prog.preserves_bind (hrefresh .linkedin) fun _ => ?_
    exact Prog.preserves_bind (Prog.preserves_gets _) fun _ => Prog.preserves_pure _
  | twitter =>
    refine Prog.preserves_bind (Prog.preserves_gets _) fun _ => ?_
    refine Prog.preserves_bind (preserves_check frames_checkText) fun _ => ?_
    refine Prog.preserves_bind (hrefresh .twitter) fun _ => ?_
    refine Prog.preserves_bind (Prog.preserves_gets _) fun _ => ?_
    exact Prog.preserves_bind (Prog.preserves_require _ _) fun _ => Prog.preserves_pure _
  | google =>
    refine Prog.preserves_bind (Prog.preserves_gets _) fun _ => ?_
    refine Prog.preserves_bind (preserves_check frames_googleChecks) fun _ => ?_
    refine Prog.preserves_bind (hrefresh .google) fun _ => ?_
    exact Prog.preserves_bind (Prog.preserves_gets _) fun _ => Prog.preserves_pure _

theorem frames_desk_ask (token : String) (post : Post) :
    (askPublisher env token post).Frames Stage.desk :=
  Prog.frames_bind (Prog.frames_modify fun _ => rfl) fun _ => Prog.frames_ofExcept _

theorem frames_desk_deliver (post : Post) (missing : Exc) :
    (deliver env post missing).Frames Stage.desk := by
  refine Prog.frames_bind (Prog.frames_gets _) fun _ => ?_
  refine Prog.frames_bind (frames_desk_ask _ _) fun _ => ?_
  exact Prog.frames_bind (Prog.frames_require _ _) fun _ => Prog.frames_pure _

theorem frames_desk_publishWith (p : SocialProvider) :
    (publishWith env content assets account p).Frames Stage.desk := by
  cases p with
  | mock => exact Prog.frames_pure _
  | facebook =>
    exact Prog.frames_bind (Prog.frames_ofExcept _) fun _ => frames_desk_deliver _ _
  | instagram =>
    exact Prog.frames_bind (Prog.frames_ofExcept _) fun _ => frames_desk_deliver _ _
  | linkedin =>
    refine Prog.frames_bind (Prog.frames_ofExcept _) fun _ => ?_
    exact Prog.frames_bind (Prog.frames_ofExcept _) fun _ => frames_desk_deliver _ _
  | twitter =>
    refine Prog.frames_bind (Prog.frames_gets _) fun _ => ?_
    exact Prog.frames_bind (Prog.frames_ofExcept _) fun _ => frames_desk_deliver _ _
  | google =>
    refine Prog.frames_bind (Prog.frames_gets _) fun _ => ?_
    exact Prog.frames_bind (frames_desk_ask _ _) fun _ => Prog.frames_pure _

/-- **A publication leaves the database alone.** -/
theorem dispatch_db (hs : Named s) : (dispatch env account content (start s account)).2.desk.db = s := by
  have hbody : ∀ p : SocialProvider, (p.body env content (env.assetsOf content)).Preserves
      fun t => t.desk.db = s := by
    intro p
    rw [body_eq]
    refine Prog.preserves_bind (Prog.preserves_gets _) fun account => ?_
    refine Prog.preserves_bind (preserves_publisherToken hs p) fun _ t ht => ?_
    rw [← ht]
    exact congrArg Desk.db (frames_desk_publishWith p t)
  have hdispatch : (dispatch env account content).Preserves fun t => t.desk.db = s :=
    Prog.preserves_ite (hbody _) (Prog.preserves_raise _)
  exact hdispatch (start s account) rfl

end MarketingSuite.Publishing.Tokens
