import MarketingSuite.Sync.Idempotence

/-! # The credentials that a sync hands on

The accounts of LinkedIn, Twitter and Google publish with the credentials of their connection, of
which the sync gives them copies. The branch of LinkedIn copies the access token only: the refresh
token and the expiry of an account are what they were before, or null. -/

namespace MarketingSuite.Sync.Credentials

open MarketingSuite.Lib.Programs MarketingSuite.Lib.Tables MarketingSuite.Lib.Upserts
open MarketingSuite.Base.Values MarketingSuite.Base.Models MarketingSuite.Base.Schema
open MarketingSuite.Base.Payloads
open MarketingSuite.Sync.Engine MarketingSuite.Sync.Accounts
open MarketingSuite.Sync.Durability MarketingSuite.Sync.Entries MarketingSuite.Sync.Idempotence
open MarketingSuite.Integrations.Connections (Fernet decrypt_encryptToken)

/-! ### What a row carries -/

/-- The plaintext of a stored token; an empty one is none. -/
def secret (env : Env) (token : Option String) : Option String :=
  (token.map (decryptToken env)).filter fun t => t ≠ ""

/-- A refresh token and an expiry that are those of the connection. -/
structure SameLifetime (env : Env) (connection : IntegrationConnection)
    (refreshToken : Option String) (expiresAt : Option DateTime) : Prop where
  refreshToken : secret env refreshToken = secret env connection.refreshToken
  expiresAt : expiresAt.map DateTime.instant = connection.expiresAt.map DateTime.instant

/-- An account with credentials equivalent to those of the connection. -/
structure Carries (env : Env) (connection : IntegrationConnection) (r : SocialAccount) : Prop where
  accessToken : some (decryptToken env r.accessToken) =
    connection.accessToken.map (decryptToken env)
  lifetime : SameLifetime env connection r.refreshToken r.expiresAt

/-- A row that a sync with this call and result has created or updated, in the table that it left.
-/
def Touched (env : Env) (call : Call) (result : Dict) (T : Table SocialAccount)
    (r : SocialAccount) : Prop :=
  ∃ a ∈ (listed env call.connection result).accounts,
    stored T call.workspaceId (listed env call.connection result).provider a.accountId = some r

variable {env : Env} {connection : IntegrationConnection} {payload result : Dict}
  {s v : Database} {call : Call} {a : AccountData} {r : SocialAccount}

/-! ### What the branches write -/

theorem decrypt_of_bridged (hfernet : Fernet env) {token : String}
    (h : bridged env connection = some token) :
    some (decryptToken env token) = connection.accessToken.map (decryptToken env) := by
  unfold bridged at h
  rcases hold : connection.accessToken with _ | t
  · rw [hold] at h
    cases h
  rw [hold] at h
  by_cases hempty : t = ""
  · rw [hempty] at h
    cases h
  · have htoken : encryptToken env 0 (decryptToken env t) = token := by
      simpa only [if_neg hempty, Option.some.injEq] using h
    rw [← htoken, decrypt_encryptToken hfernet]
    rfl

theorem listed_linkedin (h : connection.provider = "linkedin") : listed env connection result =
    found result "profile" .linkedin none fun j => (linkedinEntry env connection j).toList := by
  unfold listed
  rw [h]
  rfl

theorem listed_twitter (h : connection.provider = "twitter") : listed env connection result =
    found result "profile" .twitter (refreshOf env connection) fun j =>
      (twitterEntry env connection j).toList := by
  unfold listed
  rw [h]
  rfl

theorem listed_google (h : connection.provider = "google") : listed env connection result =
    found result "business_accounts" .google (refreshOf env connection)
      (businessEntries env connection) := by
  unfold listed
  rw [h]
  rfl

/-- The branches of Twitter and Google write the refresh token and the expiry. -/
theorem refresh_listed
    (h : connection.provider = "twitter" ∨ connection.provider = "google") :
    (listed env connection result).refresh = refreshOf env connection := by
  rcases h with h | h
  · rw [listed_twitter h]
    rfl
  · rw [listed_google h]
    rfl

theorem mem_found {key : String} {provider : ApiProvider} {refresh : Refresh}
    {entries : Json → List AccountData} : a ∈ (found result key provider refresh entries).accounts ↔
      ∃ value, result.lookup key = some value ∧ a ∈ entries value := by
  unfold found
  rcases result.lookup key with _ | value
  · simp
  · simp

theorem bridged_of_mem_listed
    (hprovider : connection.provider = "linkedin" ∨ connection.provider = "twitter" ∨
      connection.provider = "google")
    (ha : a ∈ (listed env connection result).accounts) :
    bridged env connection = some a.accessToken := by
  rcases hprovider with h | h | h
  · rw [listed_linkedin h, mem_found] at ha
    obtain ⟨profile, -, ha⟩ := ha
    rw [Option.mem_toList, linkedinEntry] at ha
    split_ifs at ha
    obtain ⟨token, htoken, rfl⟩ := Option.map_eq_some_iff.mp ha
    exact htoken
  · rw [listed_twitter h, mem_found] at ha
    obtain ⟨profile, -, ha⟩ := ha
    rw [Option.mem_toList, twitterEntry] at ha
    split_ifs at ha
    obtain ⟨token, htoken, rfl⟩ := Option.map_eq_some_iff.mp ha
    exact htoken
  · rw [listed_google h, mem_found] at ha
    obtain ⟨accounts, -, ha⟩ := ha
    unfold businessEntries at ha
    rcases hbridged : bridged env connection with _ | token
    · rw [hbridged] at ha
      exact absurd ha List.not_mem_nil
    · rw [hbridged] at ha
      obtain ⟨accountData, -, ha⟩ := List.mem_flatMap.mp ha
      obtain ⟨location, -, ha⟩ := List.mem_filterMap.mp ha
      unfold locationEntry at ha
      split_ifs at ha
      obtain rfl := Option.some.inj ha
      rfl

theorem sub_zone_eq_self {t zone : Time} : t - zone = t ↔ zone = 0 := by
  unfold Time at *
  omega

/-- A column with a time zone keeps the instant of a naive datetime in UTC if the server's local time
is UTC. -/
theorem instant_storedIn {zone : Time} (o : Option DateTime) :
    (o.map (DateTime.storedIn zone)).map DateTime.instant = o.map DateTime.instant ↔
      ∀ e, o = some e → e.aware = false → zone = 0 := by
  rcases o with _ | e
  · simp
  · simp only [Option.map_some, Option.some.injEq, forall_eq', DateTime.storedIn]
    rcases haware : e.aware with _ | _
    · simp only [Bool.false_eq_true, if_false, forall_const]
      exact sub_zone_eq_self
    · simp

/-- What the branches of Twitter and Google write is the lifetime of the connection. -/
theorem sameLifetime_refreshOf (hfernet : Fernet env) {token : Option String}
    {expiresAt : Option DateTime} (h : refreshOf env connection = some (token, expiresAt)) :
    SameLifetime env connection token expiresAt ↔
      ∀ e, connection.expiresAt = some e → e.aware = false → env.zone = 0 := by
  unfold refreshOf at h
  obtain ⟨htoken, rfl⟩ := Prod.mk.inj (Option.some.inj h)
  have hsecret : secret env token = secret env connection.refreshToken := by
    rw [← htoken]
    rcases connection.refreshToken with _ | t
    · rfl
    by_cases hempty : t = ""
    · simp only [hempty, if_true, secret, Option.map_none, Option.map_some, decryptToken]
      rfl
    · simp only [if_neg hempty, secret, Option.map_some, decrypt_encryptToken hfernet]
  rw [← instant_storedIn]
  exact ⟨fun h => h.expiresAt, fun h => ⟨hsecret, h⟩⟩

/-! ### The rows -/

/-- What has to hold for the copies to be complete: in the branch of LinkedIn, that the rows have the
lifetime of the connection before the sync, and in the others, that the server's local time is UTC
if there is an expiry to copy. -/
def Lossless (env : Env) (call : Call) (result : Dict) (T : Table SocialAccount) : Prop :=
  if call.connection.provider = "linkedin" then
    ∀ a ∈ (listed env call.connection result).accounts, SameLifetime env call.connection
      ((stored T call.workspaceId .linkedin a.accountId).bind SocialAccount.refreshToken)
      ((stored T call.workspaceId .linkedin a.accountId).bind SocialAccount.expiresAt)
  else (listed env call.connection result).accounts ≠ [] →
    ∀ e, call.connection.expiresAt = some e → e.aware = false → env.zone = 0

variable {T T' : Table SocialAccount} {w : Uuid} {p : ApiProvider} {refresh : Refresh}
  {l : List AccountData}

theorem carries_put (hfernet : Fernet env)
    (hprovider : connection.provider = "linkedin" ∨ connection.provider = "twitter" ∨
      connection.provider = "google")
    (ha : a ∈ (listed env connection result).accounts) (o : Option SocialAccount) :
    Carries env connection (put env w p refresh a o) ↔ SameLifetime env connection
      (put env w p refresh a o).refreshToken (put env w p refresh a o).expiresAt :=
  ⟨fun h => h.lifetime,
    fun h => ⟨decrypt_of_bridged hfernet (bridged_of_mem_listed hprovider ha), h⟩⟩

theorem put_none (env : Env) (w : Uuid) (p : ApiProvider) (a : AccountData)
    (o : Option SocialAccount) :
    (put env w p none a o).refreshToken = o.bind SocialAccount.refreshToken ∧
      (put env w p none a o).expiresAt = o.bind SocialAccount.expiresAt := by
  rcases o with _ | r
  · exact ⟨rfl, rfl⟩
  · exact ⟨rfl, rfl⟩

/-- **The rows that were touched** are those that the last entries made of the rows before. -/
theorem touched_iff (hsaved : Saved env call.workspaceId
      (listed env call.connection result).provider (listed env call.connection result).refresh
      (listed env call.connection result).accounts T T') {r : SocialAccount} :
    Touched env call result T' r ↔ ∃ account last,
      lastFor AccountData.accountId (listed env call.connection result).accounts account =
        some last ∧
      put env call.workspaceId (listed env call.connection result).provider
        (listed env call.connection result).refresh last
        (stored T call.workspaceId (listed env call.connection result).provider account) = r := by
  constructor
  · rintro ⟨a, ha, hr⟩
    obtain ⟨last, hlast⟩ : ∃ last, lastFor AccountData.accountId
        (listed env call.connection result).accounts a.accountId = some last := exists_lastFor ha
    rw [stored_of_saved hsaved, upserts_apply put_put, hlast] at hr
    exact ⟨a.accountId, last, hlast, Option.some.inj hr⟩
  · rintro ⟨account, last, hlast, rfl⟩
    obtain ⟨hmem, hid⟩ := mem_of_lastFor hlast
    refine ⟨last, hmem, ?_⟩
    rw [hid, stored_of_saved hsaved, upserts_apply put_put, hlast]

theorem carries_touched_iff (hsaved : Saved env call.workspaceId
      (listed env call.connection result).provider (listed env call.connection result).refresh
      (listed env call.connection result).accounts T T') :
    (∀ r, Touched env call result T' r → Carries env call.connection r) ↔ ∀ account last,
      lastFor AccountData.accountId (listed env call.connection result).accounts account =
          some last → Carries env call.connection
        (put env call.workspaceId (listed env call.connection result).provider
          (listed env call.connection result).refresh last
          (stored T call.workspaceId (listed env call.connection result).provider account)) := by
  constructor
  · intro h account last hlast
    exact h _ ((touched_iff hsaved).mpr ⟨account, last, hlast, rfl⟩)
  · intro h r hr
    obtain ⟨account, last, hlast, rfl⟩ := (touched_iff hsaved).mp hr
    exact h account last hlast

/-- **A sync copies the whole credential** exactly under this condition. -/
theorem copies_iff (hfernet : Fernet env) (hcall : callOf env payload s = .ok call)
    (hprovider : call.connection.provider = "linkedin" ∨ call.connection.provider = "twitter" ∨
      call.connection.provider = "google")
    (hret : (executeSyncJob env payload).Returns s result v) :
    (∀ r, Touched env call result v.socialAccounts r → Carries env call.connection r) ↔
      Lossless env call result s.socialAccounts := by
  obtain ⟨call', hcall', hout, -⟩ := returns_executeSyncJob.mp hret
  obtain rfl := Except.ok.inj (hcall.symm.trans hcall')
  obtain ⟨-, -, T, hsaved, rfl⟩ := (returns_iff hcall hout).mp hret
  refine (carries_touched_iff hsaved).trans ?_
  unfold Lossless
  by_cases hlinkedin : call.connection.provider = "linkedin"
  · have hnone : (listed env call.connection result).refresh = none ∧
        (listed env call.connection result).provider = .linkedin := by
      rw [listed_linkedin hlinkedin]
      exact ⟨rfl, rfl⟩
    rw [if_pos hlinkedin, hnone.1, hnone.2]
    refine (forall₃_congr fun account last hlast => ?_).trans (forall_lastFor_iff
      (P := fun account => SameLifetime env call.connection
        ((stored s.socialAccounts call.workspaceId .linkedin account).bind
          SocialAccount.refreshToken)
        ((stored s.socialAccounts call.workspaceId .linkedin account).bind
          SocialAccount.expiresAt)))
    obtain ⟨htoken, hexpiry⟩ := put_none env call.workspaceId .linkedin last
      (stored s.socialAccounts call.workspaceId .linkedin account)
    rw [carries_put hfernet hprovider (mem_of_lastFor hlast).1, htoken, hexpiry]
  · rw [if_neg hlinkedin, refresh_listed (hprovider.resolve_left hlinkedin)]
    have hall : (∀ a ∈ (listed env call.connection result).accounts,
        ∀ e, call.connection.expiresAt = some e → e.aware = false → env.zone = 0) ↔
        ((listed env call.connection result).accounts ≠ [] →
          ∀ e, call.connection.expiresAt = some e → e.aware = false → env.zone = 0) := by
      refine ⟨fun h hne => ?_, fun h a ha => h (List.ne_nil_of_mem ha)⟩
      obtain ⟨a, ha⟩ := List.exists_mem_of_ne_nil _ hne
      exact h a ha
    refine (forall₃_congr fun account last hlast => ?_).trans ((forall_lastFor_iff
      (P := fun _ => ∀ e, call.connection.expiresAt = some e → e.aware = false →
        env.zone = 0)).trans hall)
    rw [carries_put hfernet hprovider (mem_of_lastFor hlast).1]
    exact sameLifetime_refreshOf hfernet rfl

/-! ### A member of LinkedIn -/

/-- The workspace 10 is connected to LinkedIn, with a refresh token and until the minute 120. -/
def connectedLinkedin : Database :=
  { twoStudios with
    integrationConnections := ⟨[⟨50, 10, "linkedin", .connected, some "gAAAAaccess1",
      some "gAAAArefresh1", some ⟨minutes 120, false⟩⟩], by decide⟩ }

/-- LinkedIn answers with the profile of a member. -/
def member : Env :=
  { Social.Refresh.twitter.toEnv with
    connector := fun _ _ _ => .ok [("profile", .obj [("sub", .str "42")])] }

/-- The sync of the workspace. -/
def syncLinkedin : Dict := [("workspace_id", .id 10), ("provider", .str "linkedin")]

/-- The call of LinkedIn's connector. -/
def memberCall : Call :=
  ⟨10, ⟨50, 10, "linkedin", .connected, some "gAAAAaccess1", some "gAAAArefresh1",
    some ⟨minutes 120, false⟩⟩, .ok [("profile", .obj [("sub", .str "42")])]⟩

/-- What Twitter's connector answers. -/
def profile : Dict := [("profile", .obj [("id", .str "42"), ("username", .str "studio")])]

/-- The call of Twitter's connector, after `connect_provider`. -/
def profileCall : Call :=
  ⟨10, ⟨50, 10, "twitter", .connected, some "gAAAAaccess1", some "gAAAArefresh1",
    some ⟨minutes 120, false⟩⟩, .ok profile⟩

/-- The sync of a Twitter account copies the whole credential. -/
theorem copies_iff_twitter :
    (executeSyncJob Social.Refresh.twitter.toEnv
      [("workspace_id", .id 10), ("provider", .str "twitter")]).succeeds Social.Refresh.connected ∧
    ∀ r, Touched Social.Refresh.twitter.toEnv profileCall profile
      ((executeSyncJob Social.Refresh.twitter.toEnv
        [("workspace_id", .id 10), ("provider", .str "twitter")]).run
          Social.Refresh.connected).2.socialAccounts r →
      Carries Social.Refresh.twitter.toEnv profileCall.connection r := by
  have hret : (executeSyncJob Social.Refresh.twitter.toEnv
      [("workspace_id", .id 10), ("provider", .str "twitter")]).Returns Social.Refresh.connected
      profile _ := Prog.returns_of_fst rfl
  refine ⟨rfl, ?_⟩
  refine (copies_iff Integrations.Connections.fernet_suite rfl (Or.inr (Or.inl rfl)) hret).mpr ?_
  exact fun _ _ _ _ => rfl

/-- The account of the member gets no refresh token and no expiry. -/
theorem member_loses_lifetime : ¬ ∀ r, Touched member memberCall
    [("profile", .obj [("sub", .str "42")])]
    ((executeSyncJob member syncLinkedin).run connectedLinkedin).2.socialAccounts r →
    Carries member memberCall.connection r := by
  intro h
  have hexpiry := (h _ ⟨⟨"urn:li:person:42", "LinkedIn Member", "gAAAAaccess1"⟩, by decide,
    rfl⟩).lifetime.expiresAt
  cases hexpiry

end MarketingSuite.Sync.Credentials
