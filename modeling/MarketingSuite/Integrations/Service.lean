import MarketingSuite.Sync.Engine

/-! # The integration service

`connect_provider` and `disconnect_provider` of `app/integrations/oauth/service.py`. A connection is
stored under the lower case name of its provider. What a connector answers comes through the retry
policy and the circuit breaker and is a parameter; the answer to a disconnect is only logged. -/

namespace MarketingSuite.Integrations.Service

open MarketingSuite.Lib.Programs MarketingSuite.Lib.Tables
open MarketingSuite.Base.Values MarketingSuite.Base.Models MarketingSuite.Base.Schema
open MarketingSuite.Repositories.Base
open MarketingSuite.Sync.Engine (encryptToken getByWorkspaceAndProvider registered)

/-- What `connector.connect` returns, besides what goes to `metadata_info`. -/
structure Tokens where
  accessToken : Option String
  refreshToken : Option String
  expiresAt : Option DateTime

/-- The world around the service: `connect provider auth_code code_verifier` is the outcome of a
connection. -/
structure Env extends Sync.Engine.Env where
  connect : String → String → Option String → Except Exc Tokens

/-- `isinstance(e, IntegrationError)`. -/
def isIntegrationError : Exc → Bool
  | .integration _ => true
  | .oauthToken _ => true
  | _ => false

/-- `str(e)`. -/
def strOfExc (env : Sync.Engine.Env) : Exc → String
  | .integration text => text
  | .oauthToken text => text
  | e => env.textOf e

/-- `encrypt_token(token) if token else None`. -/
def encryptOptional (env : Sync.Engine.Env) (k : ℕ) (token : Option String) : Option String :=
  if truthy token = true then token.map (encryptToken env k) else none

/-- `connector.connect(auth_code, code_verifier=code_verifier)`. That of Google's connector has no
such parameter. -/
def callConnect (env : Env) (provider authCode : String) (codeVerifier : Option String) :
    Except Exc Tokens :=
  if provider = "google" then .error .typeError else env.connect provider authCode codeVerifier

/-- What a connection gets of the tokens. The column of the expiry has no time zone. -/
def Tokens.write (env : Sync.Engine.Env) (tokens : Tokens) (c : IntegrationConnection) :
    IntegrationConnection :=
  { c with
    status := .connected
    accessToken := encryptOptional env 0 tokens.accessToken
    refreshToken := encryptOptional env 1 tokens.refreshToken
    expiresAt := tokens.expiresAt.map fun t => { t with aware := false } }

/-- A new row for a provider. -/
def blank (d : Draws) (workspaceId : Uuid) (provider : String) : IntegrationConnection where
  id := d.uuid 0
  workspaceId := workspaceId
  provider := provider
  status := .pending
  accessToken := none
  refreshToken := none
  expiresAt := none

/-- "Save Connection". -/
def saveConnection (env : Sync.Engine.Env) (d : Draws) (workspaceId : Uuid) (provider : String)
    (tokens : Tokens) : Svc IntegrationConnection := do
  let existing ← getByWorkspaceAndProvider workspaceId (some provider)
  match existing with
  | some c => update c.id (tokens.write env)
  | none => create (tokens.write env (blank d workspaceId provider))

/-- What is raised for a connection that failed. -/
def refusal (env : Sync.Engine.Env) (e : Exc) : Exc :=
  if isIntegrationError e = true then .http 400 (strOfExc env e)
  else .http 500 "Failed to connect to provider"

/-- `ConnectorFactory.create`, for its check of the name. -/
def createConnector (env : Sync.Engine.Env) (provider : String) : Svc Unit :=
  Prog.require (env.lower provider ∈ registered)
    (.valueError ("No connector registered for provider: " ++ provider))

/-- `IntegrationService.connect_provider`. -/
def connectProvider (env : Env) (d : Draws) (workspaceId : Uuid) (provider authCode : String)
    (codeVerifier : Option String) : Svc IntegrationConnection := do
  let provider := env.lower provider
  createConnector env.toEnv provider
  (do
    let tokens ← Prog.ofExcept (callConnect env provider authCode codeVerifier)
    saveConnection env.toEnv d workspaceId provider tokens : Svc IntegrationConnection).handle
      fun e => Prog.raise (refusal env.toEnv e)

/-- What a disconnect leaves of a connection. -/
def cleared (c : IntegrationConnection) : IntegrationConnection :=
  { c with status := .disconnected, accessToken := none, refreshToken := none, expiresAt := none }

/-- `IntegrationService.disconnect_provider`. -/
def disconnectProvider (env : Sync.Engine.Env) (workspaceId : Uuid) (provider : String) :
    Svc Bool := do
  let provider := env.lower provider
  let found ← getByWorkspaceAndProvider workspaceId (some provider)
  let connection ← orRaise found (.http 404 "Connection not found")
  createConnector env provider
  let _ ← update connection.id cleared
  pure true

/-! ### What a call that returns did -/

variable {env : Env} {world : Sync.Engine.Env} {d : Draws} {s s' : Database} {w : Uuid}
  {provider authCode : String} {codeVerifier : Option String} {tokens : Tokens}
  {a c : IntegrationConnection}

theorem getByWorkspaceAndProvider_spec {key : Option String} {o : Option IntegrationConnection}
    (h : (getByWorkspaceAndProvider w key).Returns s o s') : s' = s ∧
      (∀ c, o = some c → c ∈ s.integrationConnections.rows ∧ c.workspaceId = w ∧
        some c.provider = key) ∧
      (o = none → ∀ c ∈ s.integrationConnections.rows, c.workspaceId = w →
        some c.provider ≠ key) := by
  unfold getByWorkspaceAndProvider at h
  obtain ⟨rows, hsel, rfl⟩ := Prog.returns_bind_pure.mp h
  obtain ⟨rfl, rfl⟩ := Prog.returns_gets.mp hsel
  have hmem : ∀ c : IntegrationConnection, c ∈ (table s' : Table IntegrationConnection).select
      (fun c => c.workspaceId = w && some c.provider = key) ↔
        c ∈ s'.integrationConnections.rows ∧ c.workspaceId = w ∧ some c.provider = key := by
    intro c
    rw [Table.mem_select, Bool.and_eq_true, decide_eq_true_eq, decide_eq_true_eq]
    rfl
  refine ⟨rfl, fun c hc => (hmem c).mp (List.mem_of_head? hc), fun hnone c hc hw hkey => ?_⟩
  have hin := (hmem c).mpr ⟨hc, hw, hkey⟩
  rw [List.head?_eq_none_iff.mp hnone] at hin
  exact absurd hin (List.not_mem_nil)

theorem getByWorkspaceAndProvider_none {key : Option String}
    (h : ∀ c ∈ s.integrationConnections.rows, c.workspaceId = w → some c.provider ≠ key) :
    (getByWorkspaceAndProvider w key).Returns s none s := by
  refine Prog.returns_bind_pure.mpr ⟨_, Prog.returns_gets.mpr ⟨rfl, rfl⟩, ?_⟩
  refine (List.head?_eq_none_iff.mpr (List.eq_nil_iff_forall_not_mem.mpr fun c hc => ?_)).symm
  rw [Table.mem_select, Bool.and_eq_true, decide_eq_true_eq, decide_eq_true_eq] at hc
  exact h c hc.1 hc.2.1 hc.2.2

/-- **A saved connection** is the old row of the workspace and the provider, or a new one where there
is none. -/
theorem saveConnection_spec (h : (saveConnection world d w provider tokens).Returns s a s') :
    ∃ c T, a = tokens.write world c ∧ c.workspaceId = w ∧ c.provider = provider ∧
      s' = { s with integrationConnections := T } ∧
      (c ∈ s.integrationConnections.rows ∧
          s.integrationConnections.modify c.id (tokens.write world) = some T ∨
        c = blank d w provider ∧ s.integrationConnections.insert a = some T ∧
          ∀ q ∈ s.integrationConnections.rows, q.workspaceId = w → q.provider ≠ provider) := by
  unfold saveConnection at h
  obtain ⟨found, t, hget, h⟩ := Prog.returns_bind.mp h
  obtain ⟨rfl, hf, hnone⟩ := getByWorkspaceAndProvider_spec hget
  rcases found with _ | c
  · obtain ⟨rfl, -, T, hT, rfl⟩ := returns_create.mp h
    refine ⟨_, T, rfl, rfl, rfl, rfl, Or.inr ⟨rfl, hT, fun q hq hqw hqp => ?_⟩⟩
    exact hnone rfl q hq hqw (congrArg some hqp)
  · obtain ⟨hc, hw, hp⟩ := hf c rfl
    obtain ⟨q, hq, hqk, rfl, -, T, hT, rfl⟩ := returns_update.mp h
    obtain rfl : q = c := t.integrationConnections.eq_of_key_eq hq hc hqk
    exact ⟨q, T, rfl, hw, Option.some.inj hp, rfl, Or.inl ⟨hc, hT⟩⟩

/-- A connection can be saved, if the id for a new row is a fresh one. -/
theorem exists_saveConnection (world : Sync.Engine.Env) (w : Uuid) (provider : String)
    (tokens : Tokens) (hfresh : ∀ c ∈ s.integrationConnections.rows, c.id ≠ d.uuid 0) :
    ∃ a s', (saveConnection world d w provider tokens).Returns s a s' := by
  have hget : ∃ found, (getByWorkspaceAndProvider w (some provider)).Returns s found s :=
    ⟨_, Prog.returns_bind_pure.mpr ⟨_, Prog.returns_gets.mpr ⟨rfl, rfl⟩, rfl⟩⟩
  obtain ⟨found, hget⟩ := hget
  obtain ⟨-, hf, -⟩ := getByWorkspaceAndProvider_spec hget
  rcases found with _ | c
  · have happart : ∀ c ∈ s.integrationConnections.rows,
        Apart c (tokens.write world (blank d w provider)) :=
      fun c hc => ⟨hfresh c hc, rfl⟩
    obtain ⟨T, hT⟩ := Table.exists_insert happart
    exact ⟨_, _, Prog.returns_bind.mpr
      ⟨none, s, hget, returns_create.mpr ⟨rfl, rfl, T, hT, rfl⟩⟩⟩
  · obtain ⟨T, hT⟩ : ∃ T, s.integrationConnections.modify c.id (tokens.write world) = some T :=
      Table.exists_modify (fun _ => rfl) fun _ _ => rfl
    exact ⟨_, _, Prog.returns_bind.mpr ⟨some c, s, hget,
      returns_update.mpr ⟨c, (hf c rfl).1, rfl, rfl, rfl, T, hT, rfl⟩⟩⟩

/-- **`connect_provider`** saves the tokens that the connector got under the lower case name, which
is a registered one. -/
theorem connectProvider_spec
    (h : (connectProvider env d w provider authCode codeVerifier).Returns s a s') :
    env.lower (env.lower provider) ∈ registered ∧ ∃ tokens,
      callConnect env (env.lower provider) authCode codeVerifier = .ok tokens ∧
      (saveConnection env.toEnv d w (env.lower provider) tokens).Returns s a s' := by
  unfold connectProvider at h
  obtain ⟨_, t, hcreate, htry⟩ := Prog.returns_bind.mp h
  obtain ⟨hreg, rfl⟩ := Prog.returns_require.mp hcreate
  rcases Prog.returns_handle.mp htry with hbody | ⟨e, t', -, hraise⟩
  · obtain ⟨tokens, t', hcall, hsave⟩ := Prog.returns_bind.mp hbody
    obtain ⟨htok, rfl⟩ := Prog.returns_ofExcept.mp hcall
    exact ⟨hreg, tokens, htok, hsave⟩
  · exact (Prog.returns_raise.mp hraise).elim

theorem disconnectProvider_spec {b : Bool}
    (h : (disconnectProvider world w provider).Returns s b s') :
    ∃ i T, s' = { s with integrationConnections := T } ∧
      s.integrationConnections.modify i cleared = some T := by
  unfold disconnectProvider at h
  rw [Prog.returns_bind] at h
  obtain ⟨found, t, hget, h⟩ := h
  obtain ⟨rfl, -, -⟩ := getByWorkspaceAndProvider_spec hget
  rw [Prog.returns_bind] at h
  obtain ⟨c, t', hraise, h⟩ := h
  obtain ⟨-, rfl⟩ := returns_orRaise.mp hraise
  rw [Prog.returns_bind] at h
  obtain ⟨_, t₂, hcreate, h⟩ := h
  obtain ⟨-, rfl⟩ := Prog.returns_require.mp hcreate
  obtain ⟨q, hupd, -⟩ := Prog.returns_bind_pure.mp h
  obtain ⟨-, -, -, -, -, T, hT, rfl⟩ := returns_update.mp hupd
  exact ⟨c.id, T, rfl, hT⟩

end MarketingSuite.Integrations.Service
