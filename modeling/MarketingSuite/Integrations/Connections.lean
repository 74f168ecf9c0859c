import MarketingSuite.Integrations.Connectors
import MarketingSuite.Social.Refresh

/-! # Connections

There is at most one connection for a workspace and a provider, although no constraint says so, and
`connect_provider` leaves one with the tokens that the provider granted. Google's connector is the
exception: its `connect` has no parameter for the verifier that it is called with. -/

namespace MarketingSuite.Integrations.Connections

open MarketingSuite.Lib.Programs MarketingSuite.Lib.Tables MarketingSuite.Lib.Runs
open MarketingSuite.Base.Values MarketingSuite.Base.Models MarketingSuite.Base.Schema
open MarketingSuite.Base.Payloads (Dict)
open MarketingSuite.Base.Texts (CharProperties lower_idem)
open MarketingSuite.Repositories.Base
open MarketingSuite.Sync.Engine (registered encryptToken decryptToken getByWorkspaceAndProvider)
open MarketingSuite.Integrations.Service (Tokens saveConnection saveConnection_spec blank
  connectProvider_spec disconnectProvider_spec encryptOptional exists_saveConnection)
open MarketingSuite.Integrations.Connectors
open MarketingSuite.Social.Refresh (Event step Named named_run)

/-- **The invariant**: a workspace has one connection for a provider at most. -/
def Single (s : Database) : Prop :=
  ∀ c ∈ s.integrationConnections.rows, ∀ q ∈ s.integrationConnections.rows,
    c.workspaceId = q.workspaceId → c.provider = q.provider → c = q

variable {s s' : Database} {w : Uuid} {d : Draws} {provider authCode : String}
  {codeVerifier : Option String} {tokens : Tokens} {a : IntegrationConnection}

theorem single_of_modify {i : Uuid} {f : IntegrationConnection → IntegrationConnection}
    {T : Table IntegrationConnection} (hs : Single s)
    (hT : s.integrationConnections.modify i f = some T)
    (hw : ∀ c, (f c).workspaceId = c.workspaceId) (hp : ∀ c, (f c).provider = c.provider) :
    Single { s with integrationConnections := T } := by
  have hold : ∀ c ∈ T.rows, ∃ r ∈ s.integrationConnections.rows, c.workspaceId = r.workspaceId ∧
      c.provider = r.provider ∧ c = if r.id = i then f r else r := by
    intro c hc
    rw [Table.modify_eq_some.mp hT, List.mem_map] at hc
    obtain ⟨r, hr, rfl⟩ := hc
    refine ⟨r, hr, ?_, ?_, rfl⟩
    · split_ifs
      · exact hw r
      · rfl
    · split_ifs
      · exact hp r
      · rfl
  intro c hc q hq hcw hcp
  obtain ⟨r, hr, hrw, hrp, hcr⟩ := hold c hc
  obtain ⟨r', hr', hrw', hrp', hqr⟩ := hold q hq
  obtain rfl := hs r hr r' hr' (hrw.symm.trans (hcw.trans hrw')) (hrp.symm.trans (hcp.trans hrp'))
  rw [hcr, hqr]

/-- A connection is saved in the row of its workspace and provider, or that row is new. -/
theorem single_saveConnection {world : Sync.Engine.Env} (hs : Single s)
    (h : (saveConnection world d w provider tokens).Returns s a s') : Single s' := by
  obtain ⟨c, T, rfl, hw, hp, rfl, ⟨hc, hT⟩ | ⟨rfl, hT, hnone⟩⟩ := saveConnection_spec h
  · exact single_of_modify hs hT (fun _ => rfl) fun _ => rfl
  · intro q hq r hr hqw hqp
    rcases (Table.mem_insert hT).mp hq with hq | rfl
    · rcases (Table.mem_insert hT).mp hr with hr | rfl
      · exact hs q hq r hr hqw hqp
      · exact absurd hqp (hnone q hq hqw)
    · rcases (Table.mem_insert hT).mp hr with hr | rfl
      · exact absurd hqp.symm (hnone r hr hqw.symm)
      · rfl

/-- **Every event keeps the connections single.** -/
theorem single_step (u : CharProperties) (s : Database) (e : Event) (hs : Named s ∧ Single s) :
    Single (step (Base.Texts.lower u) s e) := by
  obtain ⟨hnamed, hs⟩ := hs
  cases e with
  | connect env d w provider authCode codeVerifier =>
    rw [step]
    refine Prog.settle_inv (I := Single) hs fun c s' h => ?_
    obtain ⟨-, tokens, -, hsave⟩ := connectProvider_spec h
    exact single_saveConnection hs hsave
  | disconnect env w provider =>
    rw [step]
    refine Prog.settle_inv (I := Single) hs fun b s' h => ?_
    obtain ⟨i, T, rfl, hT⟩ := disconnectProvider_spec h
    exact single_of_modify hs hT (fun _ => rfl) fun _ => rfl
  | sync env payload =>
    rw [step]
    refine Prog.settle_inv (I := Single) hs fun result s' h => ?_
    obtain ⟨call, -, -, hpersist⟩ := Sync.Durability.returns_executeSyncJob.mp h
    obtain ⟨x, -, hsave⟩ := Sync.Results.returns_persist.mp hpersist
    obtain ⟨-, T, -, rfl⟩ := Sync.Accounts.returns_saveAll.mp hsave
    exact hs
  | publish env platform account content assets =>
    have hdb : step (Base.Texts.lower u) s (.publish env platform account content assets) = s :=
      Social.Refresh.publishContent_db hnamed account []
    rw [hdb]
    exact hs
  | other body =>
    have hframe : (step (Base.Texts.lower u) s (.other body)).integrationConnections =
        s.integrationConnections := body.property s
    unfold Single
    rw [hframe]
    exact hs

theorem single_run (u : CharProperties) {s₀ : Database} (h₀ : s₀.integrationConnections.rows = [])
    (l : List Event) : Single (run (step (Base.Texts.lower u)) s₀ l) := by
  have hstart : Named s₀ ∧ Single s₀ := by
    unfold Named Single
    rw [h₀]
    exact ⟨by simp, by simp⟩
  have hboth := inv_run (I := fun s => Named s ∧ Single s)
    (fun s e hs => ⟨Social.Refresh.named_step u s e hs.1, single_step u s e hs⟩) l hstart
  exact hboth.2

/-! ### Connecting a provider -/

/-- Fernet under one key: no ciphertext is empty, and decrypting undoes encrypting. -/
structure Fernet (env : Sync.Engine.Env) : Prop where
  ne_empty : ∀ k token, env.encrypt k token ≠ ""
  decrypt_encrypt : ∀ k token, env.decrypt (env.encrypt k token) = some token

theorem decrypt_encryptToken {engine : Sync.Engine.Env} (hfernet : Fernet engine) (k : ℕ)
    (token : String) : decryptToken engine (encryptToken engine k token) = token := by
  unfold encryptToken decryptToken
  by_cases hempty : token = ""
  · rw [if_pos hempty, if_pos hempty]
  · rw [if_neg hempty, if_neg (hfernet.ne_empty k token), hfernet.decrypt_encrypt k token,
      Option.getD_some]

/-- **The provider is connected**: `connect_provider` returns the only connection of the workspace
and the provider, which is CONNECTED and holds the granted tokens, and an instance of its connector
has the access token. -/
def Connects (env : Env) (d : Draws) (w : Uuid) (provider authCode : String)
    (codeVerifier : Option String) (cls : ConnectorClass) (g : Granted) (world : World) : Prop :=
  ∃ c world', (connectProvider env d w provider authCode codeVerifier).Returns world c world' ∧
    world'.db.integrationConnections.select
      (fun q => q.workspaceId = w && q.provider = env.lower provider) = [c] ∧
    c.status = .connected ∧
    c.accessToken.map (decryptToken env.toEngine) = some g.accessToken.val ∧
    c.refreshToken.map (decryptToken env.toEngine) = g.refreshToken.map (·.val) ∧
    ∃ connector, getConnectorInstance env c = .ok connector ∧ connector.cls = cls ∧
      connector.accessToken = some g.accessToken.val

variable {env : Env} {world world' : World} {cls : ConnectorClass} {g : Granted} {m : Metadata}
  {b b' : CircuitBreaker} {u : CharProperties} {connector : Connector}

theorem decrypt_encryptOptional (hfernet : Fernet env.toEngine) (k : ℕ) (token : Option Token) :
    (encryptOptional env.toEngine k (token.map (·.val))).map (decryptToken env.toEngine) =
      token.map (·.val) := by
  rcases token with _ | ⟨token, hne⟩
  · rfl
  · have hgiven : truthy (some token) = true := by simpa [truthy] using hne
    simp only [Option.map_some, encryptOptional, hgiven, if_true]
    exact congrArg some (decrypt_encryptToken hfernet k token)

theorem select_saveConnection {engine : Sync.Engine.Env} (hs : Single s)
    (h : (saveConnection engine d w provider tokens).Returns s a s') :
    s'.integrationConnections.select (fun q => q.workspaceId = w && q.provider = provider) = [a] := by
  have hs' := single_saveConnection hs h
  obtain ⟨c, T, rfl, hw, hp, rfl, hwhere⟩ := saveConnection_spec h
  have hmem : tokens.write engine c ∈ T.rows := by
    rcases hwhere with ⟨hc, hT⟩ | ⟨-, hT, -⟩
    · exact Table.mem_modify_self hT hc rfl
    · exact Table.mem_insert_self hT
  refine T.select_eq_singleton hmem (by simp [Tokens.write, hw, hp]) fun q hq hkey => ?_
  rw [Bool.and_eq_true, decide_eq_true_eq, decide_eq_true_eq] at hkey
  exact hs' q hq _ hmem (hkey.1.trans hw.symm) (hkey.2.trans hp.symm)

/-- A connector that takes a verifier gets the granted tokens at the first attempt, if its breaker
is closed. -/
theorem connectThrough_returns (connector : Connector) (hclosed : b.state = .closed)
    (hgrants : Grants (env.during 0) connector.cls (env.api connector.cls 0) authCode codeVerifier g)
    (hgoogle : connector.cls ≠ .google) :
    ∃ m, (connectThrough env connector authCode codeVerifier).Returns b m b.recordSuccess ∧
      m.Carries g := by
  obtain ⟨m, hcall, hcarries⟩ := callConnect_of_grants
    (a := ⟨env.strOf, env.textOf, env.during 0⟩) hgrants hgoogle
  unfold connectThrough retryPolicy
  refine ⟨m, attemptsFrom_returns 2 ?_, hcarries⟩
  rw [hcall]
  exact call_returns hclosed

theorem not_connectThrough_returns (hgoogle : connector.cls = .google) :
    ¬ (connectThrough env connector authCode codeVerifier).Returns b m b' := by
  obtain ⟨cls, credentials, token⟩ := connector
  obtain rfl := hgoogle
  unfold connectThrough retryPolicy
  refine not_attemptsFrom_returns (fun k s x s' => ?_) 2 0 b
  rw [callConnect_google]
  exact not_call_returns

theorem createConnector_registered (hlower : env.lower = Base.Texts.lower u)
    (hregistered : registry.lookup (env.lower provider) = some cls) (credentials : Credentials)
    (token : Option String) : createConnector env (env.lower provider) credentials token =
      .ok ⟨cls, credentials, token⟩ := by
  have hidem : env.lower (env.lower provider) = env.lower provider := by
    rw [hlower, lower_idem u provider]
  simp only [createConnector, getConnector, hidem, hregistered]
  rfl

/-- The granted tokens can be read from the row that they are written to. -/
theorem decrypt_written (hfernet : Fernet env.toEngine) (hcarries : m.Carries g)
    (old : IntegrationConnection) :
    (m.tokens.write env.toEngine old).accessToken.map (decryptToken env.toEngine) =
        some g.accessToken.val ∧
      (m.tokens.write env.toEngine old).refreshToken.map (decryptToken env.toEngine) =
        g.refreshToken.map (·.val) := by
  obtain ⟨haccess, hrefresh⟩ := hcarries
  constructor
  · have htoken := decrypt_encryptOptional hfernet 0 (some g.accessToken)
    rw [Option.map_some, ← haccess] at htoken
    exact htoken.trans haccess
  · have htoken := decrypt_encryptOptional hfernet 1 g.refreshToken
    rw [← hrefresh] at htoken ⊢
    exact htoken

/-- **Every provider but Google can be connected**, in every state of the connections that can come
about. -/
theorem connects_iff (u : CharProperties) (hlower : env.lower = Base.Texts.lower u)
    (hfernet : Fernet env.toEngine) {s₀ : Database} (h₀ : s₀.integrationConnections.rows = [])
    (l : List Event) (hdb : world.db = run (step (Base.Texts.lower u)) s₀ l)
    (hclosed : (world.breakers (env.lower provider)).state = .closed)
    (hregistered : registry.lookup (env.lower provider) = some cls)
    (hgrants : Grants (env.during 0) cls (env.api cls 0) authCode codeVerifier g)
    (hfresh : ∀ c ∈ world.db.integrationConnections.rows, c.id ≠ d.uuid 0) :
    Connects env d w provider authCode codeVerifier cls g world ↔ cls ≠ .google := by
  have hcreate := createConnector_registered hlower hregistered
  constructor
  · rintro ⟨c, world', hret, -⟩
    obtain ⟨connector, m, b, db, hconnector, hthrough, -⟩ := connectProvider_returns.mp hret
    rw [hcreate] at hconnector
    obtain rfl := Except.ok.inj hconnector
    exact fun hgoogle => not_connectThrough_returns hgoogle hthrough
  · intro hgoogle
    obtain ⟨m, hthrough, hcarries⟩ := connectThrough_returns
      ⟨cls, getProviderCredentials env (env.lower provider), none⟩ hclosed hgrants hgoogle
    have hs : Single world.db := hdb ▸ single_run u h₀ l
    obtain ⟨c, db, hsave⟩ := exists_saveConnection env.toEngine w (env.lower provider) m.tokens hfresh
    have hsel := select_saveConnection hs hsave
    obtain ⟨old, T, rfl, -, hp, -, -⟩ := saveConnection_spec hsave
    obtain ⟨hstored, hstored'⟩ := decrypt_written hfernet hcarries old
    refine ⟨_, _, connectProvider_returns.mpr
      ⟨_, m, _, db, hcreate _ none, hthrough, hsave, rfl⟩, hsel, rfl, hstored, hstored', ?_⟩
    have hname : env.lower (m.tokens.write env.toEngine old).provider = env.lower provider := by
      have hold : (m.tokens.write env.toEngine old).provider = env.lower provider := hp
      rw [hold, hlower, lower_idem u provider]
    have hinstance : getConnectorInstance env (m.tokens.write env.toEngine old) =
        .ok ⟨cls, getProviderCredentials env (env.lower provider),
          (m.tokens.write env.toEngine old).accessToken.map (decryptToken env.toEngine)⟩ := by
      simp only [getConnectorInstance, hname]
      exact hcreate _ _
    exact ⟨_, hinstance, rfl, hstored⟩

/-- **A connection is an event** of the life of the connections, so the states that can come about
are closed under it. -/
theorem connectProvider_event (u : CharProperties) (hlower : env.lower = Base.Texts.lower u)
    (h : (connectProvider env d w provider authCode codeVerifier).Returns world a world') :
    ∃ e, world'.db = step (Base.Texts.lower u) world.db e := by
  obtain ⟨connector, m, b, db, hconnector, hthrough, hsave, rfl⟩ := connectProvider_returns.mp h
  have hcls : connector.cls ≠ .google := fun hcls => not_connectThrough_returns hcls hthrough
  rw [createConnector, getConnector] at hconnector
  rcases hlookup : registry.lookup (env.lower (env.lower provider)) with _ | cls
  · rw [hlookup] at hconnector
    exact absurd hconnector (by simp [bind, Except.bind])
  · rw [hlookup] at hconnector
    obtain rfl := Except.ok.inj hconnector
    obtain ⟨pre, post, hsplit, -⟩ := List.lookup_eq_some_iff.mp hlookup
    have hmem : env.lower (env.lower provider) ∈ registered := by
      have hnames : registered = registry.map Prod.fst := rfl
      rw [hnames, hsplit]
      simp
    have hgoogle : env.lower provider ≠ "google" := by
      intro hname
      rw [hlower, lower_idem u provider, ← hlower, hname] at hlookup
      exact hcls (Option.some.inj hlookup).symm
    let service : Integrations.Service.Env :=
      { toEnv := env.toEngine, connect := fun _ _ _ => .ok m.tokens }
    refine ⟨.connect service d w provider authCode codeVerifier, ?_⟩
    have hret : (Integrations.Service.connectProvider { service with lower := Base.Texts.lower u }
        d w provider authCode codeVerifier).Returns world.db a db := by
      rw [← hlower]
      refine Prog.returns_bind.mpr ⟨(), world.db, Prog.returns_require.mpr ⟨hmem, rfl⟩, ?_⟩
      refine Prog.returns_handle.mpr (Or.inl (Prog.returns_bind.mpr ⟨m.tokens, world.db, ?_, hsave⟩))
      exact Prog.returns_ofExcept.mpr ⟨if_neg hgoogle, rfl⟩
    rw [step, Prog.settle_of_returns hret]

/-! ### LinkedIn and Google -/

/-- The tokens that everybody grants. -/
def sameTokens : Granted := ⟨⟨"access", by decide⟩, some ⟨"refresh", by decide⟩⟩

/-- A token answer for an hour. -/
def anHour : Response TokenResponse := .ok ⟨sameTokens.accessToken, sameTokens.refreshToken, 3600⟩

/-- A profile with an id and a subject. -/
def profile : Response Dict := .ok [("id", .str "42"), ("sub", .str "42")]

/-- Providers that go through with every flow. -/
def willing : (c : ConnectorClass) → ℕ → Api c
  | .mock, _ => ⟨"0a1b2c3d", "4e5f6071"⟩
  | .linkedin, _ => ⟨fun _ => anHour, fun _ => profile⟩
  | .facebook, _ => ⟨fun _ => .ok (some "short"), fun _ => .ok ⟨sameTokens.accessToken, none⟩,
      fun _ => profile⟩
  | .instagram, _ => ⟨fun _ => .ok (some "short"), fun _ => .ok ⟨sameTokens.accessToken, none⟩,
      fun _ => .ok [], fun _ _ => profile⟩
  | .google, _ => ⟨fun _ => anHour, fun _ => profile⟩
  | .slack, _ => fun _ => .ok (.ok sameTokens.accessToken "U1" "Studio")
  | .twitter, _ => ⟨fun _ _ => anHour, fun _ => profile⟩

/-- A suite in front of them. -/
def suite : Env where
  toEngine := Social.Refresh.twitter.toEnv
  upper name := name
  environ _ := some "client"
  api := willing
  before _ := minutes 116
  during _ := minutes 116
  after _ := minutes 116

/-- A workspace without connections, and breakers that have not been asked yet. -/
def fresh : World := ⟨Workspaces.System.founded, fun _ => {}⟩

theorem fernet_suite : Fernet suite.toEngine where
  ne_empty k token h := by
    have hlist := congrArg String.toList h
    simp [suite, Social.Refresh.twitter] at hlist
  decrypt_encrypt k token := by
    simp [suite, Social.Refresh.twitter]

/-- LinkedIn is connected, under any case of its name. -/
theorem connects_linkedin :
    Connects suite (drawsFrom 50 0 "") 10 "LinkedIn" "code" none .linkedin sameTokens fresh := by
  have hgrants : Grants (suite.during 0) .linkedin (suite.api .linkedin 0) "code" none sameTokens :=
    ⟨_, _, rfl, by decide, rfl, by decide, rfl⟩
  exact (connects_iff Social.Refresh.plain rfl fernet_suite rfl [] rfl rfl (by decide) hgrants
    (by decide)).mpr (by decide)

/-- **Google cannot be connected**: it goes through with the flow, and the service answers that it
failed. -/
theorem google_refused :
    Grants (suite.during 0) .google (suite.api .google 0) "code" none sameTokens ∧
    (connectProvider suite (drawsFrom 50 0 "") 10 "google" "code" none fresh).1 =
      .error (.http 500 "Failed to connect to provider") ∧
    ¬ Connects suite (drawsFrom 50 0 "") 10 "google" "code" none .google sameTokens fresh := by
  have houtcome : (connectProvider suite (drawsFrom 50 0 "") 10 "google" "code" none fresh).1 =
      .error (.http 500 "Failed to connect to provider") := by rfl
  refine ⟨⟨_, _, rfl, by decide, rfl, trivial, rfl⟩, houtcome, ?_⟩
  rintro ⟨c, world', hret, -⟩
  rw [hret] at houtcome
  exact absurd houtcome (by simp)

end MarketingSuite.Integrations.Connections
