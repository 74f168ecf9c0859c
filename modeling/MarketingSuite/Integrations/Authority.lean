import MarketingSuite.Api.Routes
import MarketingSuite.Integrations.Connections
import MarketingSuite.Integrations.OAuth
import MarketingSuite.Lib.Origins
import MarketingSuite.Tenants.Deletion

/-! # Who connects a provider

The callback of an OAuth flow asks for no user: `get_oauth_url` does, and the state that it hands
out stands for them. So a connected provider goes back, through the state of its callback, to a
member of its workspace who may manage integrations, and each such state connects once. -/

namespace MarketingSuite.Integrations.Authority

open MarketingSuite.Lib.Programs MarketingSuite.Lib.Tables MarketingSuite.Lib.Sessions
open MarketingSuite.Lib.Runs MarketingSuite.Lib.Tickets MarketingSuite.Lib.Origins
open MarketingSuite.Base.Values MarketingSuite.Base.Models MarketingSuite.Base.Schema
open MarketingSuite.Base.Texts (CharProperties lower_idem)
open MarketingSuite.Base.Payloads (Dict)
open MarketingSuite.Repositories.Base
open MarketingSuite.Api.Dependencies MarketingSuite.Api.Access MarketingSuite.Api.Routes
open MarketingSuite.Integrations.Service
open MarketingSuite.Integrations.OAuth (StateData States Verifier generateState getOauthUrl
  oauthCallback oauthCallback_returns handOver_eq_ok)
open MarketingSuite.Integrations.Connections (Single single_step)
open MarketingSuite.Sync.Engine (executeSyncJob getByWorkspaceAndProvider)
open MarketingSuite.Social.Refresh (Named Other named_step publishContent_db)
open MarketingSuite.Social.Providers (Asset Platform)

/-! ### The process -/

/-- The texts that the endpoints pass on: `str.lower`, and `str` and `uuid.UUID` of an id. -/
structure Texts where
  chars : CharProperties
  strOf : Json → String
  uuidOf : String → Option Uuid
  uuidOf_strOf : ∀ w, uuidOf (strOf (.id w)) = some w

def Texts.lower (x : Texts) : String → String := Base.Texts.lower x.chars

/-- The world around one request, with these texts. -/
def Texts.env (x : Texts) (world : OAuth.Env) : OAuth.Env :=
  { world with lower := x.lower, strOf := x.strOf, uuidOf := x.uuidOf }

/-- The database, and `_states` in the memory of the process. -/
structure Process where
  db : Database
  states : States

/-- The dependencies of the endpoints that change integrations. -/
def manage : Guard := ⟨true, "integration", "manage"⟩

/-- A request, a job, or a new start of the process. -/
inductive Request
  | getOauthUrl (world : OAuth.Env) (d : Draws) (caller : Caller) (w : Uuid)
      (provider redirectUri state : String) (verifier : Verifier)
  | oauthCallback (world : OAuth.Env) (d : Draws) (state code : String)
  | disconnectIntegration (world : OAuth.Env) (d : Draws) (caller : Caller) (w : Uuid)
      (provider : String)
  | sync (world : OAuth.Env) (payload : Dict)
  | publish (env : Social.Providers.Env) (platform : Platform) (account : SocialAccount)
      (content : CampaignContent) (assets : List Asset)
  | other (body : Other)
  | restart

/-- `disconnect_integration`. -/
def disconnectIntegration (x : Texts) (world : OAuth.Env) (d : Draws) (caller : Caller) (w : Uuid)
    (provider : String) : Svc Unit := Session.transact do
  let _ ← dependencies x.lower d caller manage w
  let _ ← disconnectProvider (x.env world).toEnv w provider
  pure ()

/-- The process after a request. Nothing commits the session of `get_oauth_url`. -/
def step (x : Texts) (p : Process) : Request → Process
  | .getOauthUrl world d caller w provider redirectUri state verifier =>
    if (dependencies x.lower d caller manage w).succeeds p.db = true then
      ⟨p.db, (getOauthUrl (x.env world) p.states w provider redirectUri state verifier).2⟩
    else p
  | .oauthCallback world d state code =>
    let answer := oauthCallback (x.env world) d p.states state code
    ⟨(answer.1 p.db).2, answer.2⟩
  | .disconnectIntegration world d caller w provider =>
    ⟨(disconnectIntegration x world d caller w provider p.db).2, p.states⟩
  | .sync world payload => ⟨Social.Refresh.step x.lower p.db (.sync world.toEnv payload), p.states⟩
  | .publish env platform account content assets =>
    ⟨Social.Refresh.step x.lower p.db (.publish env platform account content assets), p.states⟩
  | .other body => ⟨Social.Refresh.step x.lower p.db (.other body), p.states⟩
  | .restart => ⟨p.db, Waiting.empty⟩

/-! ### What is asked for -/

/-- The workspace has a connection to the provider, in use. -/
def Connected (w : Uuid) (provider : String) (s : Database) : Prop :=
  ∃ c ∈ s.integrationConnections.rows, c.workspaceId = w ∧ c.provider = provider ∧
    c.status = .connected

instance (w : Uuid) (provider : String) (s : Database) : Decidable (Connected w provider s) := by
  unfold Connected
  infer_instance

/-- The caller is a user who may manage the integrations of the workspace. -/
def Manages (x : Texts) (d : Draws) (caller : Caller) (w : Uuid) (s : Database) : Prop :=
  ∃ user t, (getCurrentUser x.lower d caller).Returns s user t ∧ Enters s w user.id ∧
    Permitted s w user.id "integration" "manage"

/-- The request hands the state out for the workspace and the provider, to somebody who may manage
the integrations of the workspace. -/
def HandsOut (x : Texts) (w : Uuid) (provider state : String) (p : Process) (q : Request) : Prop :=
  ∃ world d caller spelled redirectUri verifier,
    q = .getOauthUrl world d caller w spelled redirectUri state verifier ∧
      x.lower spelled = provider ∧ Manages x d caller w p.db

/-- The request takes the state back. -/
def TakesBack (state : String) : Request → Prop
  | .oauthCallback _ _ state' _ => state' = state
  | .restart => True
  | _ => False

/-- The request disconnects the provider. -/
def Disconnects (x : Texts) (w : Uuid) (provider : String) (p : Process) (q : Request) : Prop :=
  ∃ world d caller spelled, q = .disconnectIntegration world d caller w spelled ∧
    x.lower spelled = provider ∧
      (disconnectIntegration x world d caller w spelled).succeeds p.db = true

/-- The provider is connected by the callback of a state that was handed out for it and not taken
back in between, and has not been disconnected since then. -/
def Authorised (x : Texts) (w : Uuid) (provider : String) (p : Process) (l : List Request) : Prop :=
  ∃ pre world d state code post, l = pre ++ .oauthCallback world d state code :: post ∧
    Since (step x) (HandsOut x w provider state) (fun _ q => ¬ TakesBack state q) p pre ∧
    Along (step x) (fun p q => ¬ Disconnects x w provider p q)
      (run (step x) p (pre ++ [.oauthCallback world d state code])) post

variable {x : Texts} {p : Process} {q : Request} {w : Uuid} {provider state code : String}
  {data : StateData} {world : OAuth.Env} {d : Draws} {caller : Caller} {s s' : Database}

/-! ### The states -/

/-- The state waits with this data. -/
def Waits (state : String) (data : StateData) (p : Process) : Prop := p.states state = some data

/-- The request hands the state out with this data. -/
def HandsOutData (x : Texts) (state : String) (data : StateData) (p : Process) (q : Request) :
    Prop :=
  ∃ w, data.workspaceId = x.strOf (.id w) ∧ HandsOut x w (x.lower data.provider) state p q

theorem manages_of_dependencies (h : (dependencies x.lower d caller manage w).succeeds s = true) :
    Manages x d caller w s := by
  obtain ⟨user', t', hret⟩ := Prog.succeeds_iff.mp h
  obtain ⟨user, t, hu, -⟩ := Prog.returns_bind.mp hret
  obtain ⟨henters, hpermitted⟩ := (dependencies_succeed_iff hu).mp h
  exact ⟨user, t, hu, henters, hpermitted⟩

theorem states_oauthCallback (env : OAuth.Env) (states : States) :
    (oauthCallback env d states state code).2 = states.erase state := by
  unfold oauthCallback OAuth.validateState
  rcases states state with _ | data <;> rfl

/-- **A state that waits** was handed out by the step, or waited before and was not taken back. -/
theorem waits_step (h : Waits state data (step x p q)) :
    HandsOutData x state data p q ∨ Waits state data p ∧ ¬ TakesBack state q := by
  cases q with
  | getOauthUrl world d caller w provider redirectUri state' verifier =>
    rw [Waits, step] at h
    split_ifs at h with hdeps
    · have hput : generateState (x.env world) p.states (x.strOf (.id w)) provider state' verifier
          state = some data := by
        unfold getOauthUrl at h
        dsimp only at h
        split_ifs at h
        · exact h
        · exact h
      rcases Waiting.put_eq_some hput with ⟨rfl, rfl⟩ | hold
      · exact Or.inl ⟨w, rfl, world, d, caller, provider, redirectUri, verifier, rfl, rfl,
          manages_of_dependencies hdeps⟩
      · exact Or.inr ⟨hold, id⟩
    · exact Or.inr ⟨h, id⟩
  | oauthCallback world d state' code =>
    rw [Waits, step, states_oauthCallback] at h
    obtain ⟨hne, hold⟩ := Waiting.erase_eq_some h
    exact Or.inr ⟨hold, fun heq => hne heq.symm⟩
  | restart => exact absurd h (by simp [Waits, step, Waiting.empty])
  | disconnectIntegration _ _ _ _ _ => exact Or.inr ⟨h, id⟩
  | sync _ _ => exact Or.inr ⟨h, id⟩
  | publish _ _ _ _ _ => exact Or.inr ⟨h, id⟩
  | other _ => exact Or.inr ⟨h, id⟩

/-! ### The connections -/

theorem transact_cases {α : Type} (r : Svc α) (s : Database) :
    ((Session.transact r).succeeds s = false ∧ (Session.transact r s).2 = s) ∨
      ∃ a, r.Returns s a (Session.transact r s).2 := by
  rw [Session.transact_snd, Session.transact_succeeds]
  rcases r.settle_cases s with ⟨a, h⟩ | ⟨hsame, hno⟩
  · exact Or.inr ⟨a, h⟩
  · refine Or.inl ⟨Bool.eq_false_iff.mpr fun hsucc => ?_, hsame⟩
    obtain ⟨a, s', h⟩ := Prog.succeeds_iff.mp hsucc
    exact hno a s' h

/-- The callback changes nothing, or runs `connect_provider` for what its state is for. -/
theorem oauthCallback_cases (x : Texts) (world : OAuth.Env) (d : Draws) (states : States)
    (state code : String) (s : Database) :
    ((oauthCallback (x.env world) d states state code).1 s).2 = s ∨
    ∃ data w verifier c, states state = some data ∧ x.uuidOf data.workspaceId = some w ∧
      (connectProvider (x.env world).toService d w data.provider code verifier).Returns s c
        ((oauthCallback (x.env world) d states state code).1 s).2 := by
  unfold oauthCallback OAuth.validateState
  rcases states state with _ | data
  · exact Or.inl rfl
  · refine (transact_cases _ s).imp And.right fun ⟨_, h⟩ => ?_
    obtain ⟨call, t, hcall, hrest⟩ := Prog.returns_bind.mp h
    obtain ⟨hhand, rfl⟩ := Prog.returns_ofExcept.mp hcall
    obtain ⟨c, hconnect, -⟩ := Prog.returns_bind_pure.mp hrest
    obtain ⟨hid, hprovider, hcode, -⟩ := handOver_eq_ok.mp hhand
    rw [hprovider, hcode] at hconnect
    exact ⟨data, call.workspaceId, _, c, rfl, hid, hconnect⟩

theorem disconnectIntegration_cases (x : Texts) (world : OAuth.Env) (d : Draws) (caller : Caller)
    (w : Uuid) (provider : String) (s : Database) :
    ((disconnectIntegration x world d caller w provider).succeeds s = false ∧
      (disconnectIntegration x world d caller w provider s).2 = s) ∨
    ∃ t b, t.integrationConnections = s.integrationConnections ∧
      (disconnectProvider (x.env world).toEnv w provider).Returns t b
        (disconnectIntegration x world d caller w provider s).2 := by
  refine (transact_cases _ s).imp_right fun ⟨a, h⟩ => ?_
  obtain ⟨user, t, hdeps, hrest⟩ := Prog.returns_bind.mp h
  obtain ⟨b, hdisconnect, -⟩ := Prog.returns_bind_pure.mp hrest
  refine ⟨t, b, ?_, hdisconnect⟩
  have hframes : (dependencies x.lower d caller manage w).Frames
      Database.integrationConnections :=
    Prog.frames_bind (frames_getCurrentUser fun _ _ => rfl) fun _ =>
      Prog.frames_bind (Tenants.Deletion.frames_check manage) fun _ => Prog.frames_pure _
  exact hframes.returns hdeps

/-- What a request does to the database is nothing, or, after the dependencies, an event of the
connections. -/
theorem db_step (x : Texts) (p : Process) (q : Request) : (step x p q).db = p.db ∨
    ∃ s e, s.integrationConnections = p.db.integrationConnections ∧
      (step x p q).db = Social.Refresh.step x.lower s e := by
  cases q with
  | getOauthUrl world d caller w provider redirectUri state verifier =>
    rw [step]
    split_ifs <;> exact Or.inl rfl
  | oauthCallback world d state code =>
    refine (oauthCallback_cases x world d p.states state code p.db).imp_right ?_
    rintro ⟨data, w, verifier, c, -, -, hconnect⟩
    exact ⟨p.db, .connect (x.env world).toService d w data.provider code verifier, rfl,
      (Prog.settle_of_returns hconnect).symm⟩
  | disconnectIntegration world d caller w provider =>
    refine (disconnectIntegration_cases x world d caller w provider p.db).imp And.right ?_
    rintro ⟨t, b, ht, hdisconnect⟩
    exact ⟨t, .disconnect (x.env world).toEnv w provider, ht,
      (Prog.settle_of_returns hdisconnect).symm⟩
  | sync world payload => exact Or.inr ⟨p.db, .sync world.toEnv payload, rfl, rfl⟩
  | publish env platform account content assets =>
    exact Or.inr ⟨p.db, .publish env platform account content assets, rfl, rfl⟩
  | other body => exact Or.inr ⟨p.db, .other body, rfl, rfl⟩
  | restart => exact Or.inl rfl

/-- **The invariant**: the connections have names of the registry, one for a workspace and name. -/
structure Sound (p : Process) : Prop where
  named : Named p.db
  single : Single p.db

theorem sound_step (x : Texts) (p : Process) (q : Request) (hp : Sound p) : Sound (step x p q) := by
  rcases db_step x p q with hdb | ⟨s, e, hs, hdb⟩
  · exact ⟨by rw [hdb]; exact hp.named, by rw [hdb]; exact hp.single⟩
  · have hnamed : Named s := by
      unfold Named
      rw [hs]
      exact hp.named
    have hsingle : Single s := by
      unfold Single
      rw [hs]
      exact hp.single
    exact ⟨by rw [hdb]; exact named_step x.chars s e hnamed,
      by rw [hdb]; exact single_step x.chars s e ⟨hnamed, hsingle⟩⟩

theorem connected_of_saveConnection {env : Sync.Engine.Env} {tokens : Tokens}
    {a : IntegrationConnection} {w' : Uuid} {provider' : String}
    (h : (saveConnection env d w provider tokens).Returns s a s')
    (hc : Connected w' provider' s') :
    w' = w ∧ provider' = provider ∨ Connected w' provider' s := by
  obtain ⟨c, T, rfl, hw, hp, rfl, ⟨hmem, hT⟩ | ⟨rfl, hT, -⟩⟩ := saveConnection_spec h
  · obtain ⟨r, hr, hrw, hrp, hst⟩ := hc
    rcases (Table.mem_modify hT).mp hr with ⟨hold, -⟩ | ⟨r₀, hr₀, hid, rfl⟩
    · exact Or.inr ⟨r, hold, hrw, hrp, hst⟩
    · obtain rfl : r₀ = c := s.integrationConnections.eq_of_key_eq hr₀ hmem hid
      exact Or.inl ⟨hrw.symm.trans hw, hrp.symm.trans hp⟩
  · obtain ⟨r, hr, hrw, hrp, hst⟩ := hc
    rcases (Table.mem_insert hT).mp hr with hold | rfl
    · exact Or.inr ⟨r, hold, hrw, hrp, hst⟩
    · exact Or.inl ⟨hrw.symm, hrp.symm⟩

theorem connected_of_disconnectProvider {env : Sync.Engine.Env} {b : Bool} {w' : Uuid}
    {provider' : String} (hs : Single s)
    (h : (disconnectProvider env w provider).Returns s b s') (hc : Connected w' provider' s') :
    Connected w' provider' s ∧ ¬ (w' = w ∧ provider' = env.lower provider) := by
  unfold disconnectProvider at h
  rw [Prog.returns_bind] at h
  obtain ⟨found, t, hget, h⟩ := h
  obtain ⟨rfl, hf, -⟩ := getByWorkspaceAndProvider_spec hget
  rw [Prog.returns_bind] at h
  obtain ⟨c, t', hraise, h⟩ := h
  obtain ⟨rfl, rfl⟩ := returns_orRaise.mp hraise
  obtain ⟨hmem, hw, hp⟩ := hf c rfl
  rw [Prog.returns_bind] at h
  obtain ⟨_, t₂, hcreate, h⟩ := h
  obtain ⟨-, rfl⟩ := Prog.returns_require.mp hcreate
  obtain ⟨q, hupd, -⟩ := Prog.returns_bind_pure.mp h
  obtain ⟨-, -, -, -, -, T, hT, rfl⟩ := returns_update.mp hupd
  obtain ⟨r, hr, hrw, hrp, hst⟩ := hc
  rcases (Table.mem_modify hT).mp hr with ⟨hold, hne⟩ | ⟨r₀, -, -, rfl⟩
  · refine ⟨⟨r, hold, hrw, hrp, hst⟩, ?_⟩
    rintro ⟨rfl, rfl⟩
    obtain rfl := hs r hold c hmem (hrw.trans hw.symm) (hrp.trans (Option.some.inj hp).symm)
    exact hne rfl
  · exact absurd hst (by simp [cleared])

/-- The request is the callback of a state that waits for the workspace and the provider. -/
def Redeems (x : Texts) (w : Uuid) (provider : String) (p : Process) (q : Request) : Prop :=
  ∃ world d state code data, q = .oauthCallback world d state code ∧ Waits state data p ∧
    x.uuidOf data.workspaceId = some w ∧ x.lower data.provider = provider

/-- **A provider that is connected** was connected by the step, or was so before and is not
disconnected by it. -/
theorem connected_step (hp : Sound p) (hc : Connected w provider (step x p q).db) :
    Redeems x w provider p q ∨
      Connected w provider p.db ∧ ¬ Disconnects x w provider p q := by
  have hkept : ∀ {s : Database}, s.integrationConnections = p.db.integrationConnections →
      Connected w provider s → Connected w provider p.db := by
    intro s hs h
    unfold Connected at h ⊢
    rwa [hs] at h
  have hno : ∀ {q : Request}, (∀ world d caller w provider,
      q ≠ .disconnectIntegration world d caller w provider) → ¬ Disconnects x w provider p q := by
    rintro q hq ⟨world, d, caller, spelled, rfl, -, -⟩
    exact hq _ _ _ _ _ rfl
  cases q with
  | getOauthUrl world d caller w' provider' redirectUri state verifier =>
    refine Or.inr ⟨?_, hno fun _ _ _ _ _ => Request.noConfusion⟩
    rw [step] at hc
    split_ifs at hc
    · exact hc
    · exact hc
  | oauthCallback world d state code =>
    have hno' := hno (q := .oauthCallback world d state code) fun _ _ _ _ _ => Request.noConfusion
    rcases oauthCallback_cases x world d p.states state code p.db with
      hsame | ⟨data, w', verifier, c, hdata, hid, hconnect⟩
    · exact Or.inr ⟨hkept (congrArg Database.integrationConnections hsame) hc, hno'⟩
    · obtain ⟨-, tokens, -, hsave⟩ := connectProvider_spec hconnect
      rcases connected_of_saveConnection hsave hc with ⟨rfl, rfl⟩ | hold
      · exact Or.inl ⟨world, d, state, code, data, rfl, hdata, hid, rfl⟩
      · exact Or.inr ⟨hold, hno'⟩
  | disconnectIntegration world d caller w' provider' =>
    refine Or.inr ?_
    rcases disconnectIntegration_cases x world d caller w' provider' p.db with
      ⟨hfails, hsame⟩ | ⟨t, b, ht, hdisconnect⟩
    · refine ⟨hkept (congrArg Database.integrationConnections hsame) hc, ?_⟩
      rintro ⟨_, _, _, _, heq, -, hsucc⟩
      obtain ⟨rfl, rfl, rfl, rfl, rfl⟩ := Request.disconnectIntegration.inj heq
      exact Bool.false_ne_true (hfails.symm.trans hsucc)
    · have hsingle : Single t := by
        unfold Single
        rw [ht]
        exact hp.single
      obtain ⟨hbefore, hother⟩ := connected_of_disconnectProvider hsingle hdisconnect hc
      refine ⟨hkept ht hbefore, ?_⟩
      rintro ⟨_, _, _, _, heq, rfl, -⟩
      obtain ⟨rfl, rfl, rfl, rfl, rfl⟩ := Request.disconnectIntegration.inj heq
      exact hother ⟨rfl, rfl⟩
  | sync world payload =>
    refine Or.inr ⟨hkept ?_ hc, hno fun _ _ _ _ _ => Request.noConfusion⟩
    refine Prog.settle_inv (p := executeSyncJob { world.toEnv with lower := x.lower } payload)
      (I := fun t => t.integrationConnections = p.db.integrationConnections)
      rfl fun result s' h => ?_
    obtain ⟨call, -, -, hpersist⟩ := Sync.Durability.returns_executeSyncJob.mp h
    obtain ⟨y, -, hsave⟩ := Sync.Results.returns_persist.mp hpersist
    obtain ⟨-, T, -, rfl⟩ := Sync.Accounts.returns_saveAll.mp hsave
    rfl
  | publish env platform account content assets =>
    refine Or.inr ⟨?_, hno fun _ _ _ _ _ => Request.noConfusion⟩
    exact hkept (congrArg Database.integrationConnections
      (publishContent_db hp.named account [])) hc
  | other body =>
    exact Or.inr ⟨hkept (body.property p.db) hc, hno fun _ _ _ _ _ => Request.noConfusion⟩
  | restart => exact Or.inr ⟨hc, hno fun _ _ _ _ _ => Request.noConfusion⟩

/-! ### Runs -/

theorem sound_run (x : Texts) (l : List Request) (hp : Sound p) : Sound (run (step x) p l) :=
  inv_run (sound_step x) l hp

theorem since_of_waits {l : List Request} (hstates : p.states = Waiting.empty)
    (h : Waits state data (run (step x) p l)) :
    Since (step x) (HandsOutData x state data) (fun _ q => ¬ TakesBack state q) p l := by
  rcases since_of_holds (I := fun _ => True) (fun _ _ _ => trivial) (fun _ _ _ => waits_step)
    trivial h with hsince | ⟨hstart, -⟩
  · exact hsince
  · rw [Waits, hstates] at hstart
    exact absurd hstart (by simp [Waiting.empty])

/-- **Every connection was authorised.** In every run of the process that starts with no connection
and no state, by whomever and in whatever order, a provider that is connected has been so since a
callback redeemed a state, and that state was handed out, for that workspace and provider, to a user
who could then enter the workspace and manage its integrations; nothing took the state back in
between, and nobody disconnected the provider since. -/
theorem connections_authorised (x : Texts) {p₀ : Process} (hstates : p₀.states = Waiting.empty)
    (hdb : p₀.db.integrationConnections.rows = []) (l : List Request)
    (hc : Connected w provider (run (step x) p₀ l).db) : Authorised x w provider p₀ l := by
  have hsound : Sound p₀ := by
    constructor
    · unfold Named
      rw [hdb]
      exact fun c hc => absurd hc List.not_mem_nil
    · unfold Single
      rw [hdb]
      exact fun c hc => absurd hc List.not_mem_nil
  rcases since_of_holds (H := fun p : Process => Connected w provider p.db)
    (fun _ _ => sound_step x _ _) (fun _ _ hp => connected_step hp) hsound hc with
    hsince | ⟨⟨c, hmem, -⟩, -⟩
  · obtain ⟨pre, q, post, rfl, hredeems, hpost⟩ := hsince
    obtain ⟨world, d, state, code, data, rfl, hwaits, hid, rfl⟩ := hredeems
    refine ⟨pre, world, d, state, code, post, rfl, ?_, hpost⟩
    obtain ⟨pre', q', mid, rfl, ⟨w', htext, hout⟩, hmid⟩ := since_of_waits hstates hwaits
    rw [htext, x.uuidOf_strOf] at hid
    obtain rfl := Option.some.inj hid
    exact ⟨pre', q', mid, rfl, hout, hmid⟩
  · rw [hdb] at hmem
    exact absurd hmem List.not_mem_nil

/-! ### A flow -/

/-- An id is written as that many letters. -/
def letters : Texts where
  chars := ⟨fun _ => false, fun _ => false⟩
  strOf
    | .id w => String.ofList (List.replicate w 'i')
    | _ => ""
  uuidOf text := some text.length
  uuidOf_strOf w := by simp

theorem verifier_ne_empty : "verifier" ≠ "" := by decide

/-- The owner of the first workspace connects Slack. -/
def slackFlow : List Request :=
  [.getOauthUrl OAuth.zeroDigest (drawsFrom 50 0 "") (.ok ⟨.id 1, some "owner@example.com"⟩) 10
      "Slack" "https://suite.example" "state" ⟨"verifier", verifier_ne_empty⟩,
    .oauthCallback OAuth.zeroDigest (drawsFrom 60 0 "") "state" "code"]

theorem connections_authorised_slack :
    Authorised letters 10 "slack" ⟨twoStudios, Waiting.empty⟩ slackFlow :=
  connections_authorised letters rfl rfl slackFlow (by decide)

end MarketingSuite.Integrations.Authority
