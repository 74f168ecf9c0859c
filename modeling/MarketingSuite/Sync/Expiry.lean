import MarketingSuite.Sync.Credentials

/-! # The expiry of a token on its way

An expiry is an aware datetime when the provider returns it, a naive one in UTC in the connection,
and an aware one again in the account, whose column takes a naive value for the server's local time.
So the instant that the providers compare with the time is off by the server's offset from UTC. -/

namespace MarketingSuite.Sync.Expiry

open MarketingSuite.Lib.Programs MarketingSuite.Lib.Tables
open MarketingSuite.Base.Values MarketingSuite.Base.Models MarketingSuite.Base.Schema
open MarketingSuite.Base.Payloads MarketingSuite.Repositories.Base
open MarketingSuite.Sync.Engine MarketingSuite.Sync.Accounts
open MarketingSuite.Sync.Durability MarketingSuite.Sync.Entries MarketingSuite.Sync.Idempotence
open MarketingSuite.Sync.Credentials
open MarketingSuite.Integrations.Service
open MarketingSuite.Social.Providers (expiresSoon)

variable {world : Integrations.Service.Env} {env : Sync.Engine.Env} {d : Draws} {w : Uuid}
  {provider authCode : String} {codeVerifier : Option String} {tokens : Tokens} {e : DateTime}
  {s s₁ s₂ : Database} {c : IntegrationConnection} {payload result : Dict} {call : Call}
  {r : SocialAccount}

/-! ### The connection that a sync finds -/

/-- **After `connect_provider` a sync of the workspace and the provider finds its connection.** -/
theorem found_of_saveConnection (h : (saveConnection env d w provider tokens).Returns s c s₁) :
    (s₁.integrationConnections.select fun c => c.workspaceId = w &&
      some c.provider = some provider).head? = some c := by
  unfold saveConnection at h
  obtain ⟨found, t, hget, hsave⟩ := Prog.returns_bind.mp h
  obtain ⟨rfl, hfound, hnone⟩ := getByWorkspaceAndProvider_spec hget
  obtain ⟨rows, hsel, hhead⟩ := Prog.returns_bind_pure.mp hget
  obtain ⟨rfl, -⟩ := Prog.returns_gets.mp hsel
  rcases found with _ | old
  · obtain ⟨rfl, -, T, hT, rfl⟩ := returns_create.mp hsave
    have hrows : T.rows = t.integrationConnections.rows ++
        [tokens.write env (Integrations.Service.blank d w provider)] := Table.insert_eq_some.mp hT
    have hold : t.integrationConnections.rows.filter (fun c => c.workspaceId = w &&
        some c.provider = some provider) = [] := List.head?_eq_none_iff.mp hhead.symm
    show (T.rows.filter _).head? = _
    rw [hrows, List.filter_append, hold, List.nil_append, List.filter_singleton]
    simp [Tokens.write, Integrations.Service.blank]
  · obtain ⟨q, hq, hk, rfl, -, T, hT, rfl⟩ := returns_update.mp hsave
    obtain rfl : q = old := t.integrationConnections.eq_of_key_eq hq (hfound old rfl).1 hk
    show (T.select _).head? = _
    rw [Table.select_modify (f := tokens.write env) (fun _ => rfl) hT, List.head?_map, ← hhead,
      Option.map_some, if_pos hk]

/-! ### What the reader compares -/

/-- The provider of the account compares the instant `e` with the time: it renews the token exactly
if `e` is less than five minutes ahead. -/
def Compares (r : SocialAccount) (e : Time) : Prop :=
  r.expiresAt.map DateTime.instant = some e ∧
    ∀ reader : Social.Providers.Env, expiresSoon reader r = true ↔ e < reader.now + minutes 5

theorem compares_iff {t : DateTime} {e : Time} (h : r.expiresAt = some t) :
    Compares r e ↔ t.instant = e := by
  unfold Compares
  rw [h, Option.map_some, Option.some.injEq]
  refine ⟨fun h => h.1, fun heq => ⟨heq, fun reader => ?_⟩⟩
  simp only [expiresSoon, h, Option.any_some, decide_eq_true_eq, heq]

theorem expiresAt_of_touched
    (hprovider : call.connection.provider = "twitter" ∨ call.connection.provider = "google")
    {T T' : Table SocialAccount} (hsaved : Saved env call.workspaceId
      (listed env call.connection result).provider (listed env call.connection result).refresh
      (listed env call.connection result).accounts T T')
    (hr : Touched env call result T' r) :
    r.expiresAt = call.connection.expiresAt.map (DateTime.storedIn env.zone) := by
  obtain ⟨account, last, -, rfl⟩ := (touched_iff hsaved).mp hr
  rw [refresh_listed hprovider]
  rfl

/-- **An expiry keeps its instant** exactly if the server's local time is UTC, or the sync has no
account to write it to. -/
theorem expiry_iff
    (hconnect : (connectProvider world d w provider authCode codeVerifier).Returns s c s₁)
    (hgranted : callConnect world (world.lower provider) authCode codeVerifier = .ok tokens)
    (hexpires : tokens.expiresAt = some e)
    (hname : world.lower provider = "twitter" ∨ world.lower provider = "google")
    (hcall : callOf env payload s₁ = .ok call) (hworkspace : call.workspaceId = w)
    (hsame : call.connection.provider = world.lower provider)
    (hsync : (executeSyncJob env payload).Returns s₁ result s₂) :
    (∀ r, Touched env call result s₂.socialAccounts r → Compares r e.instant) ↔
      (listed env call.connection result).accounts = [] ∨ env.zone = 0 := by
  obtain ⟨call', hcall', hout, -⟩ := returns_executeSyncJob.mp hsync
  obtain rfl := Except.ok.inj (hcall.symm.trans hcall')
  obtain ⟨-, -, T, hsaved, rfl⟩ := (returns_iff hcall hout).mp hsync
  obtain ⟨-, tokens', htokens, hsave⟩ := connectProvider_spec hconnect
  obtain rfl := Except.ok.inj (hgranted.symm.trans htokens)
  have hc : call.connection = c := by
    have hfound := (callOf_spec hcall).1
    rw [hworkspace, hsame, found_of_saveConnection hsave] at hfound
    exact (Option.some.inj hfound).symm
  have hnaive : call.connection.expiresAt = some { e with aware := false } := by
    obtain ⟨old, -, rfl, -⟩ := saveConnection_spec hsave
    rw [hc, Tokens.write, hexpires]
    rfl
  have hwritten : ∀ r, Touched env call result T r →
      (Compares r e.instant ↔ env.zone = 0) := by
    intro r hr
    have hexpiry := expiresAt_of_touched (by rw [hsame]; exact hname) hsaved hr
    rw [hnaive, Option.map_some] at hexpiry
    exact (compares_iff hexpiry).trans sub_zone_eq_self
  constructor
  · intro h
    by_cases hnil : (listed env call.connection result).accounts = []
    · exact Or.inl hnil
    · obtain ⟨a, ha⟩ := List.exists_mem_of_ne_nil _ hnil
      obtain ⟨r, hr⟩ := stored_of_mem hsaved ha
      exact Or.inr ((hwritten r ⟨a, ha, hr⟩).mp (h r ⟨a, ha, hr⟩))
  · rintro (hnil | hzone) r hr
    · obtain ⟨a, ha, -⟩ := hr
      rw [hnil] at ha
      exact absurd ha List.not_mem_nil
    · exact (hwritten r hr).mpr hzone

/-! ### Two hours ahead -/

open Social.Refresh (firstTokens twitter)

/-- The workspace 10 with its connection to Twitter, until the minute 120. -/
def granted : Database :=
  ((connectProvider firstTokens (drawsFrom 50 0 "") 10 "Twitter" "code" (some "verifier")).run
    Workspaces.System.founded).2

/-- A server whose local time is two hours ahead of UTC. -/
def eastern : Sync.Engine.Env := { twitter.toEnv with zone := minutes 120 }

/-- The sync of the workspace. -/
def syncTwitter : Dict := [("workspace_id", .id 10), ("provider", .str "twitter")]

/-- On a server in UTC the account expires when Twitter said. -/
theorem expiry_iff_utc : (executeSyncJob twitter.toEnv syncTwitter).succeeds granted ∧
    ∀ r, Touched twitter.toEnv profileCall profile
      ((executeSyncJob twitter.toEnv syncTwitter).run granted).2.socialAccounts r →
      Compares r (minutes 120) := by
  have hconnect : (connectProvider firstTokens (drawsFrom 50 0 "") 10 "Twitter" "code"
      (some "verifier")).Returns Workspaces.System.founded profileCall.connection granted := rfl
  have hsync : (executeSyncJob twitter.toEnv syncTwitter).Returns granted profile
      ((executeSyncJob twitter.toEnv syncTwitter).run granted).2 := Prog.returns_of_fst rfl
  have hcall : callOf twitter.toEnv syncTwitter granted = .ok profileCall := rfl
  exact ⟨rfl, (expiry_iff (e := ⟨minutes 120, true⟩) hconnect rfl rfl (Or.inl rfl) hcall rfl rfl
    hsync).mpr (Or.inr rfl)⟩

/-- There the account seems to expire at the instant 0, two hours early. -/
theorem expiry_two_hours_early : ¬ ∀ r, Touched eastern profileCall profile
    ((executeSyncJob eastern syncTwitter).run granted).2.socialAccounts r →
    Compares r (minutes 120) := by
  intro h
  have hinstant := (h _ ⟨⟨"42", "studio", "gAAAAaccess1"⟩, by decide, rfl⟩).1
  exact absurd (Option.some.inj hinstant) (by decide)

end MarketingSuite.Sync.Expiry
