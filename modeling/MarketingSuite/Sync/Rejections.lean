import MarketingSuite.Integrations.TokenErrors
import MarketingSuite.Sync.Durability

/-! # Connections whose token is rejected

The engine marks a connection expired for an `OAuthTokenError` and for nothing else. The engines for
Meta raise one when the token is rejected; the others raise an error of their own, so that the
connections of these providers stay as they are. -/

namespace MarketingSuite.Sync.Rejections

open MarketingSuite.Lib.Programs MarketingSuite.Lib.Tables
open MarketingSuite.Base.Values MarketingSuite.Base.Models MarketingSuite.Base.Schema
open MarketingSuite.Base.Payloads MarketingSuite.Base.Http MarketingSuite.Repositories.Base
open MarketingSuite.Integrations.SyncEngines MarketingSuite.Integrations.TokenErrors
open MarketingSuite.Sync.Engine MarketingSuite.Sync.Durability

/-- The connectors of the five providers in front of the web that answers a token, and the others as
they are. -/
def onWeb (env : Env) (web : String → Web) : Env :=
  { env with
    connector := fun provider token syncType =>
      match SyncProvider.ofName provider with
      | some p => (p.sync env.strOf web token syncType []).1
      | none => env.connector provider token syncType }

variable (env : Env) (web : String → Web) (payload : Dict) (s : Database) (p : SyncProvider)

/-- The connection that the payload leads to, if there is one, is of this provider. -/
def OfProvider : Prop :=
  ∀ call, callOf (onWeb env web) payload s = .ok call →
    SyncProvider.ofName (env.lower call.connection.provider) = some p

/-- What the provider answers when its connector is called. -/
def heard (call : Call) : List Response :=
  (p.sync env.strOf web (call.connection.accessToken.map (decryptToken env))
    ((payload.lookup "sync_type").getD (.str "full")) []).2

/-- A rejected token expires the connection, and its error is raised again; a job that fails for
anything else leaves the connections as they are. -/
structure Expires : Prop where
  rejected : ∀ call, callOf (onWeb env web) payload s = .ok call →
    (∃ r ∈ heard env web payload p call, Rejects p r) →
    ∃ e v, call.outcome = .error e ∧ (executeSyncJob (onWeb env web) payload).Raises s e v ∧
      { call.connection with status := .expired } ∈ v.integrationConnections.rows
  other : (∀ call, callOf (onWeb env web) payload s = .ok call →
      ∀ r ∈ heard env web payload p call, ¬ Rejects p r) →
    ∀ e v, (executeSyncJob (onWeb env web) payload).Raises s e v →
      v.integrationConnections = s.integrationConnections

/-- The provider is one of Meta's; or it does not reject the token; or the connection is expired
already and the token is not rejected by the second answer of LinkedIn alone. -/
def Handled (call : Call) : Prop :=
  isMeta p = true ∨ (∀ r ∈ heard env web payload p call, ¬ Rejects p r) ∨
    call.connection.status = .expired ∧
      (p = .linkedin → firstStatus (heard env web payload p call) = some 401)

variable {env web payload s p}

/-! ### The writes of a sync -/

theorem frames_saveAccount {w : Uuid} {provider : ApiProvider} {refresh : Refresh}
    {read : Except Exc (Option AccountData)} :
    (saveAccount env w provider refresh read).Frames Database.integrationConnections := by
  rcases read with e | _ | a
  · exact Prog.frames_raise e
  · exact Prog.frames_pure ()
  · refine Prog.frames_bind (Prog.frames_bind (Prog.frames_gets _) fun _ => Prog.frames_pure _)
      fun existing => ?_
    rcases existing.head? with _ | account
    · exact Prog.frames_bind (frames_create fun _ _ => rfl) fun _ => Prog.frames_pure ()
    · exact Prog.frames_bind (frames_update fun _ _ => rfl) fun _ => Prog.frames_pure ()

theorem frames_saveLocations {w : Uuid} {connection : IntegrationConnection} {token : String}
    {account : Json} :
    (saveLocations env w connection token account).Frames Database.integrationConnections := by
  refine Prog.frames_bind (Prog.frames_ofExcept _) fun locations => ?_
  refine Prog.frames_bind (Prog.frames_ofExcept _) fun locations => ?_
  exact Prog.frames_forEach (fun _ => frames_saveAccount) locations

theorem frames_saveBusinessAccounts {w : Uuid} {connection : IntegrationConnection}
    {accounts : Json} : (saveBusinessAccounts env w connection accounts).Frames
      Database.integrationConnections := by
  unfold saveBusinessAccounts
  rcases connection.accessToken with _ | token
  · exact Prog.frames_pure ()
  · refine Prog.frames_ite (Prog.frames_pure ()) ?_
    refine Prog.frames_bind (Prog.frames_ofExcept _) fun accounts => ?_
    exact Prog.frames_forEach (fun _ => frames_saveLocations) accounts

theorem frames_bridge {result : Dict} {key : String} {save : Json → Svc Unit}
    (h : ∀ value, (save value).Frames Database.integrationConnections) :
    (bridge result key save).Frames Database.integrationConnections := by
  unfold bridge
  rcases result.lookup key with _ | value
  · exact Prog.frames_pure ()
  · exact h value

/-- **What a sync stores is no connection.** -/
theorem frames_persist {w : Uuid} {connection : IntegrationConnection} {result : Dict} :
    (persist env w connection result).Frames Database.integrationConnections := by
  refine Prog.frames_ite (frames_bridge fun pages => ?_) ?_
  · exact Prog.frames_bind (Prog.frames_ofExcept _) fun pages =>
      Prog.frames_forEach (fun _ => frames_saveAccount) _
  refine Prog.frames_ite (frames_bridge fun profiles => ?_) ?_
  · exact Prog.frames_bind (Prog.frames_ofExcept _) fun profiles =>
      Prog.frames_forEach (fun _ => frames_saveAccount) _
  refine Prog.frames_ite (frames_bridge fun _ => frames_saveAccount) ?_
  refine Prog.frames_ite (frames_bridge fun _ => frames_saveAccount) ?_
  exact Prog.frames_ite (frames_bridge fun _ => frames_saveBusinessAccounts) (Prog.frames_pure ())

/-! ### The errors of a sync -/

theorem marked {c : IntegrationConnection} (hc : c ∈ s.integrationConnections.rows) :
    ∃ v, (update c.id fun c : IntegrationConnection => { c with status := .expired }).Returns s
        { c with status := .expired } v ∧
      { c with status := .expired } ∈ v.integrationConnections.rows := by
  obtain ⟨T, hT⟩ := Table.exists_modify (T := s.integrationConnections) (k := c.id)
    (f := fun c : IntegrationConnection => { c with status := .expired }) (fun _ => rfl)
    fun _ _ => rfl
  exact ⟨_, returns_update.mpr ⟨c, hc, rfl, rfl, rfl, T, hT, rfl⟩, Table.mem_modify_self hT hc rfl⟩

theorem raises_of_tokenError {call : Call} {text : String} (h : callOf env payload s = .ok call)
    (hout : call.outcome = .error (.oauthToken text)) :
    ∃ v, (executeSyncJob env payload).Raises s (.oauthToken text) v ∧
      { call.connection with status := .expired } ∈ v.integrationConnections.rows := by
  obtain ⟨v, hmark, hv⟩ := marked (mem_of_callOf h)
  refine ⟨v, ?_, hv⟩
  have hconclude : (conclude env call).Raises s (.oauthToken text) v := by
    unfold conclude
    rw [hout]
    exact Prog.raises_bind.mpr (Or.inr ⟨_, v, hmark, rfl⟩)
  unfold Prog.Raises
  rw [executeSyncJob_eq, h]
  exact hconclude

theorem unchanged_of_plain {e : Exc} {v : Database}
    (hplain : ∀ call text, callOf env payload s = .ok call →
      call.outcome ≠ .error (.oauthToken text))
    (h : (executeSyncJob env payload).Raises s e v) :
    v.integrationConnections = s.integrationConnections := by
  unfold Prog.Raises at h
  rw [executeSyncJob_eq] at h
  rcases hcall : callOf env payload s with e' | call
  · rw [hcall] at h
    rw [← (Prod.mk.inj h).2]
  · rw [hcall] at h
    have h : (conclude env call).Raises s e v := h
    unfold conclude at h
    rcases hout : call.outcome with e' | result
    · rw [hout] at h
      cases e' with
      | oauthToken text => exact absurd hout (hplain call text hcall)
      | _ => rw [← (Prod.mk.inj h).2]
    · rw [hout] at h
      exact (Prog.frames_bind frames_persist fun _ => Prog.frames_pure _).raises h

theorem raises_of_plain {call : Call} {e : Exc} (h : callOf env payload s = .ok call)
    (hout : call.outcome = .error e) (hplain : ∀ text, e ≠ .oauthToken text) :
    (executeSyncJob env payload).Raises s e s := by
  unfold Prog.Raises
  rw [executeSyncJob_eq, h]
  show conclude env call s = _
  unfold conclude
  rw [hout]
  cases e with
  | oauthToken text => exact absurd rfl (hplain text)
  | _ => rfl

/-! ### When a rejected token expires the connection -/

theorem connector_onWeb {provider : String} {token : Option String} {syncType : Json}
    (h : SyncProvider.ofName provider = some p) :
    (onWeb env web).connector provider token syncType =
      (p.sync env.strOf web token syncType []).1 := by
  simp only [onWeb, h]

theorem outcome_of_provider (hp : OfProvider env web payload s p) {call : Call}
    (h : callOf (onWeb env web) payload s = .ok call) :
    call.outcome = (p.sync env.strOf web (call.connection.accessToken.map (decryptToken env))
      ((payload.lookup "sync_type").getD (.str "full")) []).1 := by
  have hout : call.outcome = (onWeb env web).connector (env.lower call.connection.provider)
      (call.connection.accessToken.map (decryptToken env))
      ((payload.lookup "sync_type").getD (.str "full")) := (callOf_spec h).2
  rw [hout, connector_onWeb (hp call h)]

/-- A provider that translates the rejection, or a connection that is expired already. -/
theorem rejected_of_handled (hp : OfProvider env web payload s p) {call : Call}
    (hcall : callOf (onWeb env web) payload s = .ok call) (h : Handled env web payload p call)
    (hrejects : ∃ r ∈ heard env web payload p call, Rejects p r) :
    ∃ e v, call.outcome = .error e ∧ (executeSyncJob (onWeb env web) payload).Raises s e v ∧
      { call.connection with status := .expired } ∈ v.integrationConnections.rows := by
  have hout := outcome_of_provider hp hcall
  rcases hmeta : isMeta p with _ | _
  · rcases h with hmeta' | hnone | ⟨hexpired, hfirst⟩
    · rw [hmeta] at hmeta'
      exact absurd hmeta' Bool.false_ne_true
    · obtain ⟨r, hr, hbad⟩ := hrejects
      exact absurd hbad (hnone r hr)
    · rcases unauthorized_cases hmeta hrejects with ⟨-, e, he⟩ | ⟨hlinkedin, hne, -⟩
      · rw [he] at hout
        refine ⟨e, s, hout, raises_of_plain hcall hout fun text htext => ?_, ?_⟩
        · rw [htext] at he
          exact plain_sync hmeta text he
        · have hsame : { call.connection with status := .expired } = call.connection := by
            rw [← hexpired]
          rw [hsame]
          exact mem_of_callOf hcall
      · exact absurd (hfirst hlinkedin) hne
  · obtain ⟨text, htext⟩ := (tokenError_iff_of_meta hmeta).mp hrejects
    rw [htext] at hout
    obtain ⟨v, hraises, hv⟩ := raises_of_tokenError hcall hout
    exact ⟨_, v, hout, hraises, hv⟩

theorem unchanged_of_quiet (hp : OfProvider env web payload s p)
    (hquiet : ∀ call, callOf (onWeb env web) payload s = .ok call →
      ∀ r ∈ heard env web payload p call, ¬ Rejects p r) {e : Exc} {v : Database}
    (h : (executeSyncJob (onWeb env web) payload).Raises s e v) :
    v.integrationConnections = s.integrationConnections := by
  refine unchanged_of_plain (fun call text hcall hout => ?_) h
  rw [outcome_of_provider hp hcall] at hout
  rcases hmeta : isMeta p with _ | _
  · exact plain_sync hmeta text hout
  · obtain ⟨r, hr, hbad⟩ := (tokenError_iff_of_meta hmeta).mpr ⟨text, hout⟩
    exact hquiet call hcall r hr hbad

/-- The connection of another provider than Meta's stays as it is, whatever it is answered. -/
theorem handled_of_expires (hp : OfProvider env web payload s p) {call : Call}
    (hcall : callOf (onWeb env web) payload s = .ok call) (h : Expires env web payload s p) :
    Handled env web payload p call := by
  rcases hmeta : isMeta p with _ | _
  · by_cases hrejects : ∃ r ∈ heard env web payload p call, Rejects p r
    · obtain ⟨e, v, hout, hraises, hv⟩ := h.rejected call hcall hrejects
      have hsync := hout
      rw [outcome_of_provider hp hcall] at hsync
      have hplain : ∀ text, e ≠ .oauthToken text := by
        intro text htext
        rw [htext] at hsync
        exact plain_sync hmeta text hsync
      have hv' : v = s := (Prod.mk.inj (hraises.symm.trans (raises_of_plain hcall hout hplain))).2
      rw [hv'] at hv
      have hsame := s.integrationConnections.eq_of_key_eq hv (mem_of_callOf hcall) rfl
      refine Or.inr (Or.inr ⟨by rw [← hsame], fun hlinkedin => ?_⟩)
      rcases unauthorized_cases hmeta hrejects with ⟨hfirst, -⟩ | ⟨-, -, result, hok⟩
      · exact hfirst hlinkedin
      · exact absurd (hsync.symm.trans hok) (by simp)
    · exact Or.inr (Or.inl fun r hr hbad => hrejects ⟨r, hr, hbad⟩)
  · exact Or.inl hmeta

/-- **A rejected token expires the connection exactly if the provider is one of Meta's**, or there
is nothing to be done. -/
theorem expires_iff (env : Env) (web : String → Web) (payload : Dict) (s : Database) :
    (∀ p, OfProvider env web payload s p → Expires env web payload s p) ↔
      ∀ p, OfProvider env web payload s p →
        ∀ call, callOf (onWeb env web) payload s = .ok call → Handled env web payload p call := by
  constructor
  · intro h p hp call hcall
    exact handled_of_expires hp hcall (h p hp)
  · intro h p hp
    exact ⟨fun call hcall hrejects => rejected_of_handled hp hcall (h p hp call hcall) hrejects,
      fun hquiet _ _ hraises => unchanged_of_quiet hp hquiet hraises⟩

/-! ### A connection that stays connected -/

/-- The workspace 10 is connected to Twitter. -/
def connectedToTwitter : Database :=
  { twoStudios with
    integrationConnections := ⟨[⟨50, 10, "twitter", .connected, some "AAAA", none, none⟩],
      List.pairwise_singleton _ _⟩ }

/-- Nobody knows the token. -/
def unauthorized : String → Web := fun _ _ _ =>
  .ok ⟨401, fun _ => none, "Unauthorized", .error "Expecting value: line 1 column 1 (char 0)"⟩

/-- The sync of the workspace. -/
def syncTwitter : Dict := [("workspace_id", .id 10), ("provider", .str "twitter")]

/-- Twitter rejects the token, and the connection stays connected. -/
theorem stays_connected : ¬ ∀ p, OfProvider onePage unauthorized syncTwitter connectedToTwitter p →
    Expires onePage unauthorized syncTwitter connectedToTwitter p := by
  intro h
  have hcall : ∃ outcome, callOf (onWeb onePage unauthorized) syncTwitter connectedToTwitter =
      .ok ⟨10, ⟨50, 10, "twitter", .connected, some "AAAA", none, none⟩, outcome⟩ := ⟨_, rfl⟩
  obtain ⟨outcome, hcall⟩ := hcall
  have hp : OfProvider onePage unauthorized syncTwitter connectedToTwitter .twitter := by
    intro call h
    obtain rfl := Except.ok.inj (hcall.symm.trans h)
    rfl
  obtain ⟨e, v, -, hraises, hv⟩ := (h .twitter hp).rejected _ hcall
    ⟨_, List.mem_singleton_self _, rfl⟩
  have hsame : ((executeSyncJob (onWeb onePage unauthorized) syncTwitter).run
      connectedToTwitter).2.integrationConnections.rows =
        [⟨50, 10, "twitter", .connected, some "AAAA", none, none⟩] := rfl
  have hrun : ((executeSyncJob (onWeb onePage unauthorized) syncTwitter).run
      connectedToTwitter).2 = v := congrArg Prod.snd hraises
  rw [← hrun, hsame] at hv
  have hstatus : ConnectionStatus.expired = .connected :=
    congrArg IntegrationConnection.status (List.mem_singleton.mp hv)
  exact absurd hstatus (by decide)

end MarketingSuite.Sync.Rejections
