import MarketingSuite.Lib.Runs
import MarketingSuite.Lib.Sessions
import MarketingSuite.Lib.Tickets
import MarketingSuite.Base.Texts
import MarketingSuite.Integrations.Service
import Mathlib.Data.List.TakeWhile

/-! # OAuth flows

`OAuthManager` of `app/integrations/oauth/manager.py`, and `get_oauth_url` and `oauth_callback` of
`app/api/v1/endpoints/integrations.py`. All flows of the process share the dictionary `_states`,
and none of the manager's methods waits for anything, so that each of them is a step. The random
states and verifiers are inputs of the steps; SHA-256 is a function. -/

namespace MarketingSuite.Integrations.OAuth

open MarketingSuite.Lib.Programs MarketingSuite.Lib.Runs MarketingSuite.Lib.Tickets
open MarketingSuite.Lib.Sessions MarketingSuite.Base.Values MarketingSuite.Base.Models
open MarketingSuite.Base.Schema MarketingSuite.Repositories.Base
open MarketingSuite.Integrations.Service (connectProvider)

/-- What `secrets.token_urlsafe(32)` returns for a verifier. -/
abbrev Verifier : Type := {s : String // s ≠ ""}

/-- The world around the manager: SHA-256, `str.upper`, the environment variables, and
`uuid.UUID`. -/
structure Env extends toService : Integrations.Service.Env where
  sha256 : ByteArray → Fin 32 → Fin 256
  upper : String → String
  environ : String → Option String
  uuidOf : String → Option Uuid

/-- What `_states` holds for a state. -/
structure StateData where
  workspaceId : String
  provider : String
  codeVerifier : Option Verifier
deriving DecidableEq

/-- `_states`. -/
abbrev States : Type := Waiting String StateData

/-- `_PKCE_PROVIDERS`. -/
def pkceProviders : List String := ["x", "twitter"]

/-- `META_GRAPH_API_VERSION`. -/
def metaGraphApiVersion : String := "v26.0"

/-! ### Challenges -/

/-- A character of the URL-safe alphabet of base64. -/
def b64Char (n : Fin 64) : Char :=
  "ABCDEFGHIJKLMNOPQRSTUVWXYZabcdefghijklmnopqrstuvwxyz0123456789-_".toList.getD n.val 'A'

/-- `base64.urlsafe_b64encode`. -/
def urlsafeB64encode : List (Fin 256) → List Char
  | [] => []
  | [a] => [b64Char ⟨a / 4, by omega⟩, b64Char ⟨a % 4 * 16, by omega⟩, '=', '=']
  | [a, b] => [b64Char ⟨a / 4, by omega⟩, b64Char ⟨a % 4 * 16 + b / 16, by omega⟩,
      b64Char ⟨b % 16 * 4, by omega⟩, '=']
  | a :: b :: c :: l => b64Char ⟨a / 4, by omega⟩ :: b64Char ⟨a % 4 * 16 + b / 16, by omega⟩ ::
      b64Char ⟨b % 16 * 4 + c / 64, by omega⟩ :: b64Char ⟨c % 64, by omega⟩ :: urlsafeB64encode l

/-- `_generate_pkce_challenge`. -/
def generatePkceChallenge (env : Env) (verifier : String) : String :=
  let digest := List.ofFn (env.sha256 verifier.toUTF8)
  String.ofList ((urlsafeB64encode digest).reverse.dropWhile (· = '=')).reverse

/-! ### Authorization URLs -/

/-- A URL with its query. `encoded` says that the query comes from `urlencode` and not from an
f-string. -/
structure Url where
  base : String
  encoded : Bool
  params : List (String × String)
deriving DecidableEq

/-- A byte in the output of `quote_plus`. -/
def quoteByte (b : UInt8) : List Char :=
  let c := Char.ofNat b.toNat
  let digit (n : ℕ) : Char := "0123456789ABCDEF".toList.getD n '0'
  if b = 32 then ['+']
  else if b.toNat < 128 ∧ (c.isAlphanum = true ∨ c ∈ ['_', '.', '-', '~']) then [c]
  else ['%', digit (b.toNat / 16), digit (b.toNat % 16)]

/-- `urllib.parse.quote_plus`. -/
def quotePlus (s : String) : String := String.ofList (s.toUTF8.toList.flatMap quoteByte)

/-- The text of a URL. -/
def Url.text (u : Url) : String :=
  let quote := if u.encoded = true then quotePlus else id
  u.base ++ "?" ++ "&".intercalate (u.params.map fun p => quote p.1 ++ "=" ++ quote p.2)

/-- `{k: v for k, v in params.items() if v}`. -/
def present : List (String × Option String) → List (String × String)
  | [] => []
  | (k, some v) :: l => if v = "" then present l else (k, v) :: present l
  | (_, none) :: l => present l

/-- The challenge that a URL carries. -/
def Url.codeChallenge (u : Url) : Option String := u.params.lookup "code_challenge"

/-! ### The manager -/

/-- `generate_state`, for the drawn state and verifier. -/
def generateState (env : Env) (states : States) (workspaceId provider state : String)
    (verifier : Verifier) : States :=
  states.put state
    { workspaceId := workspaceId
      provider := provider
      codeVerifier := if env.lower provider ∈ pkceProviders then some verifier else none }

/-- `validate_state`. -/
def validateState (states : States) (state : String) : Option StateData × States :=
  (states state, states.erase state)

/-- `get_authorization_url`. -/
def getAuthorizationUrl (env : Env) (states : States) (provider state redirectUri clientId : String) :
    Except Exc Url :=
  let provider := env.lower provider
  let stateData := states state
  let codeChallenge := (stateData.bind (·.codeVerifier)).map fun v => generatePkceChallenge env v
  if provider = "slack" then
    .ok ⟨"https://slack.com/oauth/v2/authorize", false, [("client_id", clientId),
      ("state", state), ("redirect_uri", redirectUri), ("scope", "chat:write,commands")]⟩
  else if provider = "mock" then
    .ok ⟨"https://mockprovider.com/oauth/authorize", false, [("client_id", clientId),
      ("state", state), ("redirect_uri", redirectUri)]⟩
  else if provider = "google" then
    .ok ⟨"https://accounts.google.com/o/oauth2/v2/auth", true, [("response_type", "code"),
      ("client_id", clientId), ("redirect_uri", redirectUri), ("state", state),
      ("scope", "openid email profile https://www.googleapis.com/auth/business.manage " ++
        "https://www.googleapis.com/auth/youtube.upload"),
      ("access_type", "offline"), ("prompt", "consent")]⟩
  else if provider = "facebook" then
    .ok ⟨"https://www.facebook.com/" ++ metaGraphApiVersion ++ "/dialog/oauth", true,
      [("client_id", clientId), ("redirect_uri", redirectUri), ("state", state),
        ("scope", "pages_show_list,pages_read_engagement,pages_manage_posts")]⟩
  else if provider = "instagram" then
    .ok ⟨"https://www.facebook.com/" ++ metaGraphApiVersion ++ "/dialog/oauth", true,
      [("client_id", clientId), ("redirect_uri", redirectUri), ("state", state),
        ("scope", "instagram_basic,instagram_content_publish,pages_show_list," ++
          "pages_read_engagement")]⟩
  else if provider ∈ pkceProviders then
    .ok ⟨"https://twitter.com/i/oauth2/authorize", true, present [("response_type", some "code"),
      ("client_id", some clientId), ("redirect_uri", some redirectUri), ("state", some state),
      ("code_challenge", codeChallenge), ("code_challenge_method", some "S256"),
      ("scope", some "tweet.read tweet.write users.read offline.access")]⟩
  else .error (.valueError ("Unsupported provider for OAuth: " ++ provider))

/-! ### The endpoints -/

/-- `get_oauth_url`: the URL and the state of its answer. -/
def getOauthUrl (env : Env) (states : States) (workspaceId : Uuid)
    (provider redirectUri state : String) (verifier : Verifier) :
    Except Exc (String × String) × States :=
  let states := generateState env states (env.strOf (.id workspaceId)) provider state verifier
  let clientId := (env.environ (env.upper provider ++ "_CLIENT_ID")).getD ""
  if clientId = "" then
    (.error (.http 500 ("Client ID not configured for provider " ++ provider)), states)
  else
    ((getAuthorizationUrl env states provider state redirectUri clientId).map
      fun url => (url.text, state), states)

/-- The arguments of a call of `connect_provider`. -/
structure Handed where
  workspaceId : Uuid
  provider : String
  code : String
  codeVerifier : Option Verifier
deriving DecidableEq

/-- What the callback hands to `connect_provider`. -/
def handOver (env : Env) (data : StateData) (code : String) : Except Exc Handed :=
  match env.uuidOf data.workspaceId with
  | some workspaceId => .ok ⟨workspaceId, data.provider, code, data.codeVerifier⟩
  | none => .error (.valueError "badly formed hexadecimal UUID string")

/-- `oauth_callback`: the state is consumed before anything else is done. -/
def oauthCallback (env : Env) (d : Draws) (states : States) (state code : String) :
    Svc String × States :=
  match validateState states state with
  | (none, states) => (Prog.raise (.http 400 "Invalid or expired state"), states)
  | (some data, states) =>
    (Session.transact do
      let call ← Prog.ofExcept (handOver env data code)
      let _ ← connectProvider env.toService d call.workspaceId call.provider call.code
        (call.codeVerifier.map (·.val))
      pure ("Successfully connected to " ++ data.provider), states)

/-! ### The process -/

/-- A call of the manager, or a callback. -/
inductive Event
  | generate (workspaceId provider state : String) (verifier : Verifier)
  | authorize (provider state redirectUri clientId : String)
  | validate (state : String)
  | callback (state code : String)

/-- The state that an event draws. -/
def Event.generated : Event → Option String
  | .generate _ _ state _ => some state
  | _ => none

/-- What an event does to `_states`. -/
def step (env : Env) (states : States) : Event → States
  | .generate workspaceId provider state verifier =>
    generateState env states workspaceId provider state verifier
  | .authorize .. => states
  | .validate state => (validateState states state).2
  | .callback state _ => (validateState states state).2

/-- A URL that was built for a state, with the provider that it was asked for, and whether the
state was waiting for its callback. -/
structure Built where
  state : String
  provider : String
  waiting : Bool
  url : Url

/-- What has happened: the states generated, each for its workspace and provider, what
`validate_state` returned and for which state, the URLs built, and what was handed to
`connect_provider`. -/
structure History where
  generated : List (String × String × String)
  accepted : List (String × StateData)
  urls : List Built
  handed : List (String × Handed)

/-- The history after a state came back. -/
def History.accept (states : States) (state : String) (η : History) : History :=
  match (validateState states state).1 with
  | some data => { η with accepted := η.accepted ++ [(state, data)] }
  | none => η

/-- The history after an event. -/
def note (env : Env) (states : States) : Event → History → History
  | .generate workspaceId provider state _, η =>
    { η with generated := η.generated ++ [(state, workspaceId, provider)] }
  | .authorize provider state redirectUri clientId, η =>
    match getAuthorizationUrl env states provider state redirectUri clientId with
    | .ok url => { η with urls := η.urls ++ [⟨state, provider, (states state).isSome, url⟩] }
    | .error _ => η
  | .validate state, η => η.accept states state
  | .callback state code, η =>
    match (validateState states state).1.map (handOver env · code) with
    | some (.ok call) =>
      { η.accept states state with handed := η.handed ++ [(state, call)] }
    | _ => η.accept states state

/-- The process when it starts. -/
def start : Recorded States History := ⟨Waiting.empty, ⟨[], [], [], []⟩⟩

/-- The process after the events, with what has happened. -/
def after (env : Env) (l : List Event) : Recorded States History :=
  run (record (step env) (note env)) start l

/-- The S256 challenge of a verifier. -/
def s256 (env : Env) (v : Verifier) : String := generatePkceChallenge env v

/-- **What the states are good for**: a state is accepted once at most, and for what it was generated
for. The verifier that a PKCE flow hands over is the one whose challenge is in every URL that was
built for a PKCE provider while the state was waiting, and no URL of the state has another
challenge; a flow of another provider has neither. -/
structure SingleUseAndBound (env : Env) (η : History) : Prop where
  once : (η.accepted.map Prod.fst).Nodup
  bound : ∀ p ∈ η.accepted, (p.1, p.2.workspaceId, p.2.provider) ∈ η.generated
  handed : ∀ q ∈ η.handed, ∃ workspaceId, (q.1, workspaceId, q.2.provider) ∈ η.generated ∧
    env.uuidOf workspaceId = some q.2.workspaceId
  pkce : ∀ q ∈ η.handed, env.lower q.2.provider ∈ pkceProviders →
    ∃ v, q.2.codeVerifier = some v ∧ ∀ u ∈ η.urls, u.state = q.1 →
      (u.waiting = true → env.lower u.provider ∈ pkceProviders →
        u.url.codeChallenge = some (s256 env v)) ∧
      ∀ c, u.url.codeChallenge = some c → c = s256 env v
  others : ∀ g ∈ η.generated, env.lower g.2.2 ∉ pkceProviders →
    (∀ u ∈ η.urls, u.state = g.1 → u.url.codeChallenge = none) ∧
    (∀ p ∈ η.accepted, p.1 = g.1 → p.2.codeVerifier = none) ∧
    ∀ q ∈ η.handed, q.1 = g.1 → q.2.codeVerifier = none

variable {env : Env} {states : States} {h : Recorded States History} {data : StateData}
  {provider state redirectUri clientId : String} {url : Url}

/-! ### The challenge in a URL -/

theorem b64Char_ne (n : Fin 64) : b64Char n ≠ '=' := by
  revert n
  decide +kernel

theorem head_urlsafeB64encode {l : List (Fin 256)} (hl : l ≠ []) :
    ∃ n l', urlsafeB64encode l = b64Char n :: l' := by
  match l, hl with
  | [a], _ => exact ⟨_, _, rfl⟩
  | [a, b], _ => exact ⟨_, _, rfl⟩
  | a :: b :: c :: l, _ => exact ⟨_, _, rfl⟩

theorem generatePkceChallenge_ne_empty (env : Env) (v : String) :
    generatePkceChallenge env v ≠ "" := by
  intro hempty
  have hlist := congrArg String.toList hempty
  have hne : List.ofFn (env.sha256 v.toUTF8) ≠ [] := by simp
  obtain ⟨n, l', hhead⟩ := head_urlsafeB64encode hne
  simp only [generatePkceChallenge, hhead, String.toList_ofList, String.toList_empty,
    List.reverse_eq_nil_iff, List.dropWhile_eq_nil_iff] at hlist
  exact b64Char_ne n (by simpa using hlist (b64Char n) (by simp))

theorem lookup_present_cons (k key : String) (v : Option String) (l : List (String × Option String)) :
    (present ((key, v) :: l)).lookup k =
      if k = key ∧ truthy v = true then v else (present l).lookup k := by
  rcases v with _ | v
  · simp [present, truthy]
  · by_cases hv : v = ""
    · simp [present, truthy, hv]
    · by_cases hk : k = key
      · simp [present, truthy, hv, hk]
      · have hbeq : (k == key) = false := by simpa using hk
        simp [present, truthy, hv, hk, List.lookup_cons, hbeq]

/-- **The URL of a PKCE provider** carries the challenge of the verifier that waits with the state,
and no other URL carries one. -/
theorem codeChallenge_eq
    (hurl : getAuthorizationUrl env states provider state redirectUri clientId = .ok url) :
    url.codeChallenge = if env.lower provider ∈ pkceProviders then
      ((states state).bind (·.codeVerifier)).map (s256 env) else none := by
  unfold getAuthorizationUrl at hurl
  dsimp only at hurl
  split_ifs at hurl with hslack hmock hgoogle hfacebook hinstagram hpkce
  all_goals obtain rfl := Except.ok.inj hurl
  · rw [hslack]; rfl
  · rw [hmock]; rfl
  · rw [hgoogle]; rfl
  · rw [hfacebook]; rfl
  · rw [hinstagram]; rfl
  · rw [if_pos hpkce]
    simp only [Url.codeChallenge, lookup_present_cons]
    rcases (states state).bind (·.codeVerifier) with _ | v
    · simp [truthy, present]
    · simp [truthy, generatePkceChallenge_ne_empty, s256]

theorem handOver_eq_ok {code : String} {call : Handed} : handOver env data code = .ok call ↔
    env.uuidOf data.workspaceId = some call.workspaceId ∧
      call.provider = data.provider ∧ call.code = code ∧ call.codeVerifier = data.codeVerifier := by
  unfold handOver
  rcases env.uuidOf data.workspaceId with _ | w
  · simp
  · constructor
    · intro hok
      obtain rfl := Except.ok.inj hok
      exact ⟨rfl, rfl, rfl, rfl⟩
    · rcases call with ⟨w', provider, code', verifier⟩
      rintro ⟨hw, rfl, rfl, rfl⟩
      rw [Option.some.inj hw]

/-! ### The invariant -/

/-- What a URL and a verifier of one state have to do with each other. -/
def Fits (env : Env) (v : Option Verifier) (u : Built) : Prop :=
  (u.waiting = true → env.lower u.provider ∈ pkceProviders →
    u.url.codeChallenge = v.map (s256 env)) ∧
  ∀ c, u.url.codeChallenge = some c → v.map (s256 env) = some c

/-- What is stored for a state fits its provider and the URLs built for it. -/
structure Matches (env : Env) (urls : List Built) (state : String) (data : StateData) : Prop where
  verifier : data.codeVerifier.isSome = true ↔ env.lower data.provider ∈ pkceProviders
  urls : ∀ u ∈ urls, u.state = state → Fits env data.codeVerifier u

/-- The workspace and the provider that a state is for. -/
def StateData.purpose (data : StateData) : String × String := (data.workspaceId, data.provider)

/-- What holds of the process after every event. -/
structure Consistent (env : Env) (h : Recorded States History) : Prop where
  sound : Sound StateData.purpose h.state h.history.generated h.history.accepted
  waiting : ∀ s data, h.state s = some data → Matches env h.history.urls s data
  accepted : ∀ p ∈ h.history.accepted, Matches env h.history.urls p.1 p.2
  idle : ∀ u ∈ h.history.urls, u.waiting = false → u.url.codeChallenge = none
  known : ∀ u ∈ h.history.urls, u.waiting = true → u.state ∈ h.history.generated.map Prod.fst
  handed : ∀ q ∈ h.history.handed, ∃ p ∈ h.history.accepted, p.1 = q.1 ∧
    handOver env p.2 q.2.code = .ok q.2

theorem Fits.of_idle {v : Option Verifier} {u : Built} (hwait : u.waiting = false)
    (hnone : u.url.codeChallenge = none) : Fits env v u :=
  ⟨fun htrue => absurd htrue (by simp [hwait]), fun c hc => absurd hc (by simp [hnone])⟩

/-- The URL that is built for a state fits the verifier that waits with it. -/
theorem fits_authorize
    (hurl : getAuthorizationUrl env states provider state redirectUri clientId = .ok url)
    (hdata : states state = some data) :
    Fits env data.codeVerifier ⟨state, provider, (states state).isSome, url⟩ := by
  have heq := codeChallenge_eq hurl
  rw [hdata, Option.bind_some] at heq
  refine ⟨fun _ hpkce => ?_, fun c hc => ?_⟩
  · rw [heq, if_pos hpkce]
  · dsimp only at hc
    rw [heq] at hc
    split_ifs at hc
    exact hc

theorem consistent_start : Consistent env start where
  sound := sound_empty
  waiting := by simp [start, Waiting.empty]
  accepted := by simp [start]
  idle := by simp [start]
  known := by simp [start]
  handed := by simp [start]

theorem Consistent.authorize (hc : Consistent env h)
    (hurl : getAuthorizationUrl env h.state provider state redirectUri clientId = .ok url) :
    Consistent env ⟨h.state, { h.history with
      urls := h.history.urls ++ [⟨state, provider, (h.state state).isSome, url⟩] }⟩ where
  sound := hc.sound
  waiting s data hdata := by
    refine ⟨(hc.waiting s data hdata).verifier, fun u hu hus => ?_⟩
    rcases List.mem_append.mp hu with hu | hu
    · exact (hc.waiting s data hdata).urls u hu hus
    · obtain rfl := List.mem_singleton.mp hu
      obtain rfl : state = s := hus
      exact fits_authorize hurl hdata
  accepted p hp := by
    refine ⟨(hc.accepted p hp).verifier, fun u hu hus => ?_⟩
    rcases List.mem_append.mp hu with hu | hu
    · exact (hc.accepted p hp).urls u hu hus
    · obtain rfl := List.mem_singleton.mp hu
      obtain rfl : state = p.1 := hus
      have hgone := hc.sound.gone p hp
      have hnone : url.codeChallenge = none := by
        rw [codeChallenge_eq hurl, hgone]
        simp
      exact Fits.of_idle (by simp [hgone]) hnone
  idle u hu hidle := by
    rcases List.mem_append.mp hu with hu | hu
    · exact hc.idle u hu hidle
    · obtain rfl := List.mem_singleton.mp hu
      have hnone : h.state state = none := by simpa using hidle
      dsimp only
      rw [codeChallenge_eq hurl, hnone]
      simp
  known u hu hwait := by
    rcases List.mem_append.mp hu with hu | hu
    · exact hc.known u hu hwait
    · obtain rfl := List.mem_singleton.mp hu
      obtain ⟨data, hdata⟩ := Option.isSome_iff_exists.mp hwait
      exact List.mem_map_of_mem (hc.sound.waiting state data hdata)
  handed := hc.handed

theorem Consistent.generate {workspaceId : String} {verifier : Verifier} (hc : Consistent env h)
    (hfresh : state ∉ h.history.generated.map Prod.fst) :
    Consistent env ⟨generateState env h.state workspaceId provider state verifier,
      { h.history with
        generated := h.history.generated ++ [(state, workspaceId, provider)] }⟩ where
  sound := hc.sound.put hfresh
  waiting s data hdata := by
    rcases Waiting.put_eq_some hdata with ⟨rfl, rfl⟩ | hold
    · refine ⟨?_, fun u hu hus => ?_⟩
      · dsimp only
        split_ifs with hpkce
        · simp [hpkce]
        · simp [hpkce]
      · have hidle : u.waiting = false := by
          by_contra hwait
          exact hfresh (hus ▸ hc.known u hu (by simpa using hwait))
        exact Fits.of_idle hidle (hc.idle u hu hidle)
    · exact hc.waiting s data hold
  accepted := hc.accepted
  idle := hc.idle
  known u hu hwait := by
    rw [List.map_append]
    exact List.mem_append_left _ (hc.known u hu hwait)
  handed := hc.handed

theorem Consistent.accept (hc : Consistent env h) (state : String) :
    Consistent env ⟨(validateState h.state state).2, h.history.accept h.state state⟩ := by
  rcases hdata : h.state state with _ | data
  · simp only [validateState, History.accept, hdata, Waiting.erase_of_none hdata]
    exact hc
  · simp only [validateState, History.accept, hdata]
    exact {
      sound := hc.sound.redeem hdata
      waiting := fun s data' hdata' => hc.waiting s data' (Waiting.erase_eq_some hdata').2
      accepted := fun p hp => by
        rcases List.mem_append.mp hp with hp | hp
        · exact hc.accepted p hp
        · rw [List.mem_singleton.mp hp]
          exact hc.waiting state data hdata
      idle := hc.idle
      known := hc.known
      handed := fun q hq => by
        obtain ⟨p, hp, hpq⟩ := hc.handed q hq
        exact ⟨p, List.mem_append_left _ hp, hpq⟩ }

/-- **Every event keeps the process consistent**, if the state that it draws is a fresh one. -/
theorem consistent_record (hc : Consistent env h) {e : Event}
    (hfresh : ∀ s, e.generated = some s → s ∉ h.history.generated.map Prod.fst) :
    Consistent env (record (step env) (note env) h e) := by
  cases e with
  | generate workspaceId provider state verifier => exact hc.generate (hfresh state rfl)
  | authorize provider state redirectUri clientId =>
    unfold record note
    dsimp only
    split
    next url hurl => exact hc.authorize hurl
    next => exact hc
  | validate state => exact hc.accept state
  | callback state code =>
    have hacc := hc.accept state
    unfold record note
    dsimp only
    split
    next call hcall =>
      exact {
        sound := hacc.sound
        waiting := hacc.waiting
        accepted := hacc.accepted
        idle := hacc.idle
        known := hacc.known
        handed := fun q hq => by
          rcases List.mem_append.mp hq with hq | hq
          · obtain ⟨p, hp, hpq⟩ := hc.handed q hq
            refine ⟨p, ?_, hpq⟩
            unfold History.accept
            split
            · exact List.mem_append_left _ hp
            · exact hp
          · obtain rfl := List.mem_singleton.mp hq
            obtain ⟨data, hdata, hok⟩ := Option.map_eq_some_iff.mp hcall
            refine ⟨(state, data), by simp [History.accept, hdata], rfl, ?_⟩
            obtain ⟨-, -, hcode, -⟩ := handOver_eq_ok.mp hok
            rw [← hcode] at hok
            exact hok }
    next => exact hacc

/-! ### Runs -/

theorem after_append (env : Env) (l : List Event) (e : Event) :
    after env (l ++ [e]) = record (step env) (note env) (after env l) e := by
  unfold after
  rw [run_append]
  rfl

theorem generated_accept (states : States) (state : String) (η : History) :
    (η.accept states state).generated = η.generated := by
  unfold History.accept
  split
  · rfl
  · rfl

theorem generated_after (env : Env) (l : List Event) :
    (after env l).history.generated.map Prod.fst = l.filterMap Event.generated := by
  induction l using List.reverseRecOn with
  | nil => rfl
  | append_singleton l e ih =>
    rw [after_append, List.filterMap_append, ← ih]
    cases e with
    | generate workspaceId provider state verifier =>
      simp [record, note, Event.generated]
    | authorize provider state redirectUri clientId =>
      unfold record note
      dsimp only
      split
      · simp [Event.generated]
      · simp [Event.generated]
    | validate state => simp [record, note, generated_accept, Event.generated]
    | callback state code =>
      unfold record note
      dsimp only
      split
      · simp [Event.generated, generated_accept]
      · simp [Event.generated, generated_accept]

/-- The process is consistent after every run in which no state is drawn twice. -/
theorem consistent_after (env : Env) {l : List Event} (hnd : (l.filterMap Event.generated).Nodup) :
    Consistent env (after env l) := by
  induction l using List.reverseRecOn with
  | nil => exact consistent_start
  | append_singleton l e ih =>
    rw [List.filterMap_append, List.nodup_append] at hnd
    rw [after_append]
    refine consistent_record (ih hnd.1) fun s hs => ?_
    rw [generated_after]
    intro hmem
    exact hnd.2.2 s hmem s (by simp [hs]) rfl

theorem Consistent.singleUseAndBound (hc : Consistent env h) : SingleUseAndBound env h.history where
  once := hc.sound.once
  bound := hc.sound.bound
  handed q hq := by
    obtain ⟨p, hp, hpq, hok⟩ := hc.handed q hq
    obtain ⟨hid, hprovider, -, -⟩ := handOver_eq_ok.mp hok
    refine ⟨p.2.workspaceId, ?_, hid⟩
    rw [← hpq, hprovider]
    exact hc.sound.bound p hp
  pkce q hq hpkce := by
    obtain ⟨p, hp, hpq, hok⟩ := hc.handed q hq
    obtain ⟨-, hprovider, -, hverifier⟩ := handOver_eq_ok.mp hok
    rw [hprovider] at hpkce
    have hmatch := hc.accepted p hp
    obtain ⟨v, hv⟩ := Option.isSome_iff_exists.mp (hmatch.verifier.mpr hpkce)
    refine ⟨v, hverifier.trans hv, fun u hu hus => ?_⟩
    obtain ⟨hwait, hall⟩ := hmatch.urls u hu (hus.trans hpq.symm)
    rw [hv, Option.map_some] at hwait hall
    exact ⟨hwait, fun c hchallenge => (Option.some.inj (hall c hchallenge)).symm⟩
  others g hg hplain := by
    -- the state waits or has come back, without a verifier in both cases
    have hnone : ∀ data, data.purpose = g.2 → Matches env h.history.urls g.1 data →
        data.codeVerifier = none := by
      intro data hpurpose hmatch
      rw [← hpurpose] at hplain
      by_contra hsome
      exact hplain (hmatch.verifier.mp (Option.isSome_iff_ne_none.mpr hsome))
    have haccepted : ∀ p ∈ h.history.accepted, p.1 = g.1 → p.2.codeVerifier = none := by
      intro p hp hpg
      have hpurpose : p.2.purpose = g.2 := by
        have hkeys := hc.sound.keys
        have heq := List.inj_on_of_nodup_map hkeys (hc.sound.bound p hp) hg hpg
        exact congrArg Prod.snd heq
      exact hnone p.2 hpurpose (hpg ▸ hc.accepted p hp)
    refine ⟨fun u hu hus => ?_, haccepted, fun q hq hqg => ?_⟩
    · have hfits : Fits env none u := by
        rcases hc.sound.kept g hg with ⟨data, hdata, hpurpose⟩ | ⟨p, hp, hpg, hpurpose⟩
        · have hmatch := hc.waiting g.1 data hdata
          exact hnone data hpurpose hmatch ▸ hmatch.urls u hu hus
        · have hmatch := hc.accepted p hp
          exact haccepted p hp hpg ▸ hmatch.urls u hu (hus.trans hpg.symm)
      by_contra hsome
      obtain ⟨c, hchallenge⟩ := Option.ne_none_iff_exists'.mp hsome
      exact absurd (hfits.2 c hchallenge) (by simp)
    · obtain ⟨p, hp, hpq, hok⟩ := hc.handed q hq
      obtain ⟨-, -, -, hverifier⟩ := handOver_eq_ok.mp hok
      rw [hverifier]
      exact haccepted p hp (hpq.trans hqg)

/-- **OAuth states are single-use and bound**, in every run of calls and callbacks in which no state
is drawn twice. -/
theorem states_single_use_and_bound (env : Env) (l : List Event)
    (hnd : (l.filterMap Event.generated).Nodup) : SingleUseAndBound env (after env l).history :=
  (consistent_after env hnd).singleUseAndBound

/-! ### A run -/

/-- Every digest is zero, and 10 is the text of the workspace 10. -/
def zeroDigest : Env where
  encrypt _ token := token
  decrypt token := some token
  lower := Base.Texts.lower ⟨fun _ => false, fun _ => false⟩
  strOf _ := "10"
  textOf _ := ""
  connector _ _ _ := .ok []
  uuid _ := 70
  now := 0
  connect _ _ _ := .ok ⟨some "access", some "refresh", none⟩
  sha256 _ _ := ⟨0, by decide⟩
  upper s := s
  environ _ := some "client"
  uuidOf text := if text = "10" then some 10 else none

/-- A flow of Twitter, with the URLs of `before` and `later` before and after the callback. -/
def twitterFlow (before later : String) : List Event :=
  [.generate "10" "Twitter" "state" ⟨"verifier", by decide⟩,
    .authorize before "state" "https://suite.example" "client", .callback "state" "code",
    .authorize later "state" "https://suite.example" "client"]

theorem single_use_and_bound_twitter :
    SingleUseAndBound zeroDigest (after zeroDigest (twitterFlow "Twitter" "slack")).history :=
  states_single_use_and_bound zeroDigest (twitterFlow "Twitter" "slack") (by decide)

/-- The challenge of the verifier handed over is in every URL built for the state, whenever it was
built and for whichever provider. -/
def ChallengeInEveryUrl (env : Env) (η : History) : Prop :=
  ∀ q ∈ η.handed, env.lower q.2.provider ∈ pkceProviders →
    ∃ v, q.2.codeVerifier = some v ∧ ∀ u ∈ η.urls, u.state = q.1 →
      u.url.codeChallenge = some (s256 env v)

/-- A URL without a challenge in a flow whose verifier is handed over: one for Slack with the state
of the flow, or one for Twitter after the callback. -/
theorem url_without_challenge :
    ¬ ChallengeInEveryUrl zeroDigest (after zeroDigest (twitterFlow "slack" "slack")).history ∧
    ¬ ChallengeInEveryUrl zeroDigest (after zeroDigest (twitterFlow "Twitter" "Twitter")).history := by
  have hflow : ∀ before later, (∃ u ∈ (after zeroDigest (twitterFlow before later)).history.urls,
      u.state = "state" ∧ u.url.codeChallenge = none) →
      ("state", ⟨10, "Twitter", "code", some ⟨"verifier", by decide⟩⟩) ∈
        (after zeroDigest (twitterFlow before later)).history.handed →
      ¬ ChallengeInEveryUrl zeroDigest (after zeroDigest (twitterFlow before later)).history := by
    rintro before later ⟨u, hu, hstate, hnone⟩ hhanded h
    obtain ⟨v, -, hurls⟩ := h _ hhanded (by decide)
    rw [hurls u hu hstate] at hnone
    exact absurd hnone (by simp)
  exact ⟨hflow _ _ (by decide) (by decide), hflow _ _ (by decide) (by decide)⟩

/-! ### The endpoints -/

/-- **The URL that `get_oauth_url` answers with** for a PKCE provider carries the challenge of the
verifier that it stores. -/
theorem getOauthUrl_pkce {workspaceId : Uuid} {verifier : Verifier} {answer : String × String}
    (hpkce : env.lower provider ∈ pkceProviders)
    (hok : (getOauthUrl env states workspaceId provider redirectUri state verifier).1 =
      .ok answer) :
    ∃ url : Url, answer = (url.text, state) ∧ url.codeChallenge = some (s256 env verifier) := by
  unfold getOauthUrl at hok
  dsimp only at hok
  split_ifs at hok with hclient
  generalize hstates : generateState env states _ provider state verifier = waiting at hok
  rcases hurl : getAuthorizationUrl env waiting provider state redirectUri
    ((env.environ (env.upper provider ++ "_CLIENT_ID")).getD "") with e | url
  · rw [hurl] at hok
    exact absurd hok (by simp [Except.map])
  · rw [hurl] at hok
    refine ⟨url, (Except.ok.inj hok).symm, ?_⟩
    rw [codeChallenge_eq hurl, if_pos hpkce, ← hstates]
    simp [generateState, Waiting.put, hpkce]

/-- **The callback** runs `connect_provider` on what it hands over. -/
theorem oauthCallback_returns {d : Draws} {s s' : Database} {code answer : String}
    (hok : (oauthCallback env d states state code).1.Returns s answer s') :
    ∃ data call connection, states state = some data ∧ handOver env data code = .ok call ∧
      (connectProvider env.toService d call.workspaceId call.provider code
        (call.codeVerifier.map (·.val))).Returns s connection s' := by
  unfold oauthCallback validateState at hok
  rcases hdata : states state with _ | data
  · rw [hdata] at hok
    exact (Prog.returns_raise.mp hok).elim
  · rw [hdata] at hok
    obtain ⟨call, t, hcall, hrest⟩ := Prog.returns_bind.mp (Session.returns_transact.mp hok)
    obtain ⟨hhand, rfl⟩ := Prog.returns_ofExcept.mp hcall
    obtain ⟨connection, hconnect, -⟩ := Prog.returns_bind_pure.mp hrest
    obtain ⟨-, -, rfl, -⟩ := handOver_eq_ok.mp hhand
    exact ⟨data, call, connection, rfl, hhand, hconnect⟩

end MarketingSuite.Integrations.OAuth
