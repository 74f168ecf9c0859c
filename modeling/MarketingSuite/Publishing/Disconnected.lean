import MarketingSuite.Publishing.Tokens

/-! # Publishing after a disconnect

`disconnect_provider` clears the row of the connection. What publishes are the tokens of the account
rows, which a sync copied there and nothing takes back; and `publish_content` looks neither at the
connection nor at `is_active`. So a disconnect stops nothing but what the providers refuse anyway. -/

namespace MarketingSuite.Publishing.Disconnected

open MarketingSuite.Lib.Programs MarketingSuite.Lib.Sessions MarketingSuite.Lib.Runs
open MarketingSuite.Base.Values MarketingSuite.Base.Models MarketingSuite.Base.Schema
open MarketingSuite.Base.Texts (CharProperties)
open MarketingSuite.Base.Payloads (Dict)
open MarketingSuite.Repositories.Base
open MarketingSuite.Sync.Engine (executeSyncJob)
open MarketingSuite.Sync.Durability (callOf)
open MarketingSuite.Integrations.Service (connectProvider disconnectProvider strOfExc)
open MarketingSuite.Social.Refresh (Other Named)
open MarketingSuite.Social.Factory
open MarketingSuite.Publishing.Service MarketingSuite.Publishing.Truth
open MarketingSuite.Publishing.Tokens

/-! ### Runs -/

/-- What can happen: the four calls, and requests of other parts of the system, which leave the
connections alone. -/
inductive Event
  | connect (env : Integrations.Service.Env) (d : Draws) (w : Uuid) (provider authCode : String)
      (codeVerifier : Option String)
  | sync (env : Sync.Engine.Env) (payload : Dict)
  | disconnect (env : Sync.Engine.Env) (w : Uuid) (provider : String)
  | publish (env : Social.Factory.Env) (d : Draws) (w : Uuid) (request : PublishRequest)
  | other (body : Other)

/-- The state after an event. The endpoint of a publication does not commit. -/
def step (lower : String → String) (s : Database) : Event → Database
  | .connect env d w provider authCode codeVerifier =>
    Social.Refresh.step lower s (.connect env d w provider authCode codeVerifier)
  | .sync env payload => Social.Refresh.step lower s (.sync env payload)
  | .disconnect env w provider => Social.Refresh.step lower s (.disconnect env w provider)
  | .publish env d w request =>
    (Session.serve (publishContent d (strOfExc env.toEnv) (publisher env) w request) s).2
  | .other body => Social.Refresh.step lower s (.other body)

/-- How a provider of a workspace stands: not disconnected, or disconnected, or connected again
since then but not synchronised. -/
inductive Standing
  | connected
  | cut
  | reconnected
deriving DecidableEq, Repr

/-- How the providers of the workspaces stand, by their names. -/
abbrev Standings : Type := Uuid → String → Standing

/-- The standings with one changed. -/
def Standings.set (h : Standings) (w : Uuid) (provider : String) (x : Standing) : Standings :=
  fun w' provider' => if w' = w ∧ provider' = provider then x else h w' provider'

/-- What an event that succeeds changes: a disconnect cuts the provider off, until it is connected
and then synchronised. -/
def note (lower : String → String) (s : Database) (e : Event) (h : Standings) : Standings :=
  match e with
  | .disconnect env w provider =>
    if (disconnectProvider { env with lower := lower } w provider).succeeds s = true then
      h.set w (lower provider) .cut
    else h
  | .connect env d w provider authCode codeVerifier =>
    if (connectProvider { env with lower := lower } d w provider authCode codeVerifier).succeeds s =
        true ∧ h w (lower provider) = .cut then
      h.set w (lower provider) .reconnected
    else h
  | .sync env payload =>
    match callOf { env with lower := lower } payload s with
    | .ok call =>
      if (executeSyncJob { env with lower := lower } payload).succeeds s = true ∧
          h call.workspaceId call.connection.provider = .reconnected then
        h.set call.workspaceId call.connection.provider .connected
      else h
    | .error _ => h
  | .publish _ _ _ _ => h
  | .other _ => h

/-- The name of the provider whose sync stores the accounts of a platform. -/
def nameOf : ApiProvider → Option String
  | .meta => some "facebook"
  | .instagram => some "instagram"
  | .linkedin => some "linkedin"
  | .google => some "google"
  | .twitter => some "twitter"
  | .openai | .claude | .gemini | .stripe | .mock => none

/-- The accounts of a platform are cut off in a workspace. -/
def cutOff (h : Standings) (w : Uuid) (provider : ApiProvider) : Bool :=
  (nameOf provider).any fun name => h w name ≠ .connected

/-- The start of a run: nothing has been disconnected. -/
def beginning (s : Database) : Recorded Database Standings := ⟨s, fun _ _ => .connected⟩

/-! ### What a disconnect should stop -/

section Publication

variable (env : Env) (s : Database) (account : SocialAccount) (content : CampaignContent)

/-- The provider hands a token to the publisher of the platform. -/
def HandsToken : Prop :=
  ∃ token t', (handOver env account content).Returns (start s account) (some token) t'

/-- The publication goes through: a token is handed over, or an id comes back. -/
def GoesThrough : Prop :=
  HandsToken env s account content ∨
    ∃ id, (dispatch env account content (start s account)).1 = .ok id

end Publication

/-- **A disconnect cuts off publishing**: no call of `publish_content` that comes to its provider
hands a token over for an account that is cut off, and none goes through one that is not active. -/
def Sealed (h : Recorded Database Standings) : Event → Prop
  | .publish env d w request => ∀ content account, Relations h.state w request content account →
    AcceptsPublish h.state d w request →
      (cutOff h.history w account.provider = true → ¬ HandsToken env h.state account content) ∧
      (account.isActive = false → ¬ GoesThrough env h.state account content)
  | _ => True

/-- The account and the content of such a call are not ready for the provider, and it is not the
mock, which publishes whatever it gets. -/
def Unready (h : Recorded Database Standings) : Event → Prop
  | .publish env d w request => ∀ content account, Relations h.state w request content account →
    AcceptsPublish h.state d w request →
      (cutOff h.history w account.provider = true →
        ready env account content (env.assetsOf content) (getProvider account.provider) = false) ∧
      (account.isActive = false →
        ready env account content (env.assetsOf content) (getProvider account.provider) = false ∧
          getProvider account.provider ≠ .mock)
  | _ => True

variable {env : Env} {s : Database} {account : SocialAccount} {content : CampaignContent}
  {d : Draws} {w : Uuid} {request : PublishRequest} {textOf : Exc → String}

/-- **The tokens that are handed over are the stored ones.** -/
theorem handsToken_iff (hs : Named s) : HandsToken env s account content ↔
    ready env account content (env.assetsOf content) (getProvider account.provider) = true := by
  constructor
  · rintro ⟨token, h⟩
    exact ((handOver_returns hs).mp h).1
  · intro hready
    exact ⟨_, (handOver_returns hs).mpr ⟨hready, rfl⟩⟩

theorem goesThrough_iff (hs : Named s) : GoesThrough env s account content ↔
    ready env account content (env.assetsOf content) (getProvider account.provider) = true ∨
      getProvider account.provider = .mock := by
  constructor
  · rintro (hhands | ⟨id, hid⟩)
    · exact Or.inl ((handsToken_iff hs).mp hhands)
    by_cases hparameters : (getProvider account.provider).parameters.length = 2
    · have hbody := hid
      rw [dispatch, SocialProvider.publishContent, if_pos hparameters, body_eq,
        readAccount_bind] at hbody
      rcases (publisherToken env content (env.assetsOf content)
        (getProvider account.provider)).returns_or_raises (start s account) with ⟨o, t', hret⟩ |
        ⟨e, t', hraise⟩
      · rcases token_of_publisherToken hret with ⟨hmock, -⟩ | rfl
        · exact Or.inr hmock
        · have hover : (handOver env account content).Returns (start s account)
              (some (tokenOf env t'.desk.account)) t' := by
            rw [handOver, if_pos hparameters]
            exact hret
          exact Or.inl ((handsToken_iff hs).mp ⟨_, _, hover⟩)
      · rw [Prog.bind_of_raises hraise] at hbody
        cases hbody
    · rw [dispatch, SocialProvider.publishContent, if_neg hparameters] at hid
      cases hid
  · rintro (hready | hmock)
    · exact Or.inl ((handsToken_iff hs).mpr hready)
    · rw [GoesThrough, dispatch, hmock]
      exact Or.inr ⟨_, rfl⟩

/-! ### The connections keep their names -/

theorem committed_publishContent (hs : Named s) (env : Env) (textOf : Exc → String) :
    (Session.serve (publishContent d textOf (publisher env) w request) s).2 = s := by
  have hexec : ∀ {α : Type} (p : Svc α), (Session.exec p).Preserves fun t => t.committed = s :=
    fun _ _ h => h
  have hcall : ∀ account content, (outcomeOf (Session.outside ((publisher env).publish account
      content))).Preserves fun t => t.committed = s := by
    intro account content
    refine Prog.preserves_handle (Prog.preserves_bind ?_ fun _ => Prog.preserves_pure _) fun _ =>
      Prog.preserves_pure _
    rintro t rfl
    exact dispatch_db hs
  have hall : (publishContent d textOf (publisher env) w request).Preserves
      fun t => t.committed = s := by
    refine Prog.preserves_bind (hexec _) fun p => Prog.preserves_bind (hexec _) fun _ => ?_
    exact Prog.preserves_bind (hcall _ _) fun _ => hexec _
  exact hall (Session.fresh s) rfl

theorem named_step (u : CharProperties) (s : Database) (e : Event) (hs : Named s) :
    Named (step (Base.Texts.lower u) s e) := by
  cases e with
  | publish env d w request =>
    have hdb : step (Base.Texts.lower u) s (.publish env d w request) = s :=
      committed_publishContent hs env _
    rw [hdb]
    exact hs
  | connect env d w provider authCode codeVerifier =>
    exact Social.Refresh.named_step u s (.connect env d w provider authCode codeVerifier) hs
  | sync env payload => exact Social.Refresh.named_step u s (.sync env payload) hs
  | disconnect env w provider =>
    exact Social.Refresh.named_step u s (.disconnect env w provider) hs
  | other body => exact Social.Refresh.named_step u s (.other body) hs

/-! ### When a disconnect is enough -/

theorem sealed_iff_unready {h : Recorded Database Standings} (hs : Named h.state) (e : Event) :
    Sealed h e ↔ Unready h e := by
  cases e with
  | publish env d w request =>
    refine forall₄_congr fun content account _ _ => and_congr ?_ ?_
    · rw [handsToken_iff hs, Bool.not_eq_true]
    · rw [goesThrough_iff hs, not_or, Bool.not_eq_true]
  | _ => exact Iff.rfl

/-- **A disconnect cuts off publishing exactly in the runs in which the provider would refuse
anyway** every content that is to be published through an account that is cut off or not active. -/
theorem sealed_iff (u : CharProperties) {s₀ : Database}
    (h₀ : s₀.integrationConnections.rows = []) (l : List Event) :
    Along (record (step (Base.Texts.lower u)) (note (Base.Texts.lower u))) Sealed (beginning s₀) l ↔
      Along (record (step (Base.Texts.lower u)) (note (Base.Texts.lower u))) Unready
        (beginning s₀) l := by
  have hstart : Named (beginning s₀).state := by
    intro c hc
    have hc : c ∈ s₀.integrationConnections.rows := hc
    rw [h₀] at hc
    exact absurd hc List.not_mem_nil
  exact along_congr (I := fun h => Named h.state) (fun h e hs => named_step u h.state e hs)
    (fun h e hs => sealed_iff_unready hs e) hstart

/-! ### A token after its disconnect -/

open Social.Refresh (plain twitter firstTokens)

/-- The campaign 30 with a text, and nothing connected. -/
def drafted : Database :=
  { Campaigns.Service.launched with campaignContents := (withAccount .twitter).campaignContents }

/-- Publishers, at the minute 100. -/
def publishers : Env := { world with now := minutes 100 }

/-- The workspace 10 connects Twitter. -/
def connectTwitter : Event :=
  .connect firstTokens (drawsFrom 50 0 "") 10 "Twitter" "code" (some "verifier")

/-- Its account is synchronised. -/
def syncTwitter : Event :=
  .sync twitter.toEnv [("workspace_id", .id 10), ("provider", .str "twitter")]

/-- It disconnects Twitter. -/
def disconnectTwitter : Event := .disconnect twitter.toEnv 10 "Twitter"

/-- It publishes the text through its account. -/
def publishText : Event := .publish publishers (drawsFrom 90 5 "") 10 ⟨40, 70⟩

/-- The account that the sync stored. -/
def syncedAccount : SocialAccount := Social.Refresh.studioAccount

/-- The state in which the text is published, after a disconnect. -/
def disconnected : Recorded Database Standings :=
  run (record (step (Base.Texts.lower plain)) (note (Base.Texts.lower plain))) (beginning drafted)
    [connectTwitter, syncTwitter, disconnectTwitter]

/-- The same, connected and synchronised again. -/
def connectedAgain : Recorded Database Standings :=
  run (record (step (Base.Texts.lower plain)) (note (Base.Texts.lower plain))) (beginning drafted)
    [connectTwitter, syncTwitter, disconnectTwitter, connectTwitter, syncTwitter]

/-- **A text is published through the account again** once it is connected and synchronised. -/
theorem sealed_iff_connected_again :
    Along (record (step (Base.Texts.lower plain)) (note (Base.Texts.lower plain))) Sealed
      (beginning drafted)
      [connectTwitter, syncTwitter, disconnectTwitter, connectTwitter, syncTwitter, publishText] := by
  refine (sealed_iff plain rfl _).mpr ⟨trivial, trivial, trivial, trivial, trivial, ?_, trivial⟩
  show Unready connectedAgain publishText
  intro content account hrel _
  have hrows : ∀ r ∈ connectedAgain.state.socialAccounts.rows,
      r.isActive = true ∧ cutOff connectedAgain.history 10 r.provider = false := by decide
  obtain ⟨hactive, hopen⟩ := hrows account hrel.account_mem
  refine ⟨fun hcut => ?_, fun hinactive => ?_⟩
  · rw [hopen] at hcut
    cases hcut
  · rw [hactive] at hinactive
    cases hinactive

/-- After the disconnect the token of the account is handed to Twitter's publisher. -/
theorem token_outlives_disconnect :
    ¬ Along (record (step (Base.Texts.lower plain)) (note (Base.Texts.lower plain))) Sealed
      (beginning drafted) [connectTwitter, syncTwitter, disconnectTwitter, publishText] := by
  intro h
  have hsealed : Sealed disconnected publishText := h.2.2.2.1
  have hmem : syncedAccount ∈ disconnected.state.socialAccounts.rows := by decide
  have hrel : Relations disconnected.state 10 ⟨40, 70⟩ text syncedAccount :=
    ⟨List.mem_singleton_self _, rfl, rfl, rfl, hmem, rfl, rfl, rfl⟩
  have haccepts : AcceptsPublish disconnected.state (drawsFrom 90 5 "") 10 ⟨40, 70⟩ :=
    ⟨text, syncedAccount, hrel, by decide, fun h hh => absurd hh List.not_mem_nil⟩
  have hcut : cutOff disconnected.history 10 syncedAccount.provider = true := by decide
  have hhands : HandsToken publishers disconnected.state syncedAccount text :=
    ⟨"access1", _, Prog.returns_of_fst rfl⟩
  exact (hsealed text syncedAccount hrel haccepts).1 hcut hhands

end MarketingSuite.Publishing.Disconnected
