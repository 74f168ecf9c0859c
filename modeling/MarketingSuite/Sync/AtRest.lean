import MarketingSuite.Analytics.Metrics
import MarketingSuite.Lib.Origins
import MarketingSuite.Sync.TokenChain

/-! # Tokens at rest

The rows of a workspace store tokens in two tables. Whatever becomes of connections and accounts,
each of them is encrypted under the key of the application, and a provider granted what is under the
encryption to that very workspace, which has stored it ever since. The placeholders that
`connect_account` writes are the only texts in these columns that nobody encrypted. -/

namespace MarketingSuite.Sync.AtRest

open MarketingSuite.Lib.Programs MarketingSuite.Lib.Tables MarketingSuite.Lib.Upserts
open MarketingSuite.Lib.Runs MarketingSuite.Lib.Origins
open MarketingSuite.Base.Values MarketingSuite.Base.Models MarketingSuite.Base.Schema
open MarketingSuite.Base.Texts (CharProperties)
open MarketingSuite.Base.Payloads
open MarketingSuite.Repositories.Base
open MarketingSuite.Sync.Engine MarketingSuite.Sync.Accounts MarketingSuite.Sync.Durability
open MarketingSuite.Sync.Entries MarketingSuite.Sync.Idempotence MarketingSuite.Sync.Credentials
open MarketingSuite.Sync.TokenChain (IsEncrypted tokensIn tokensIn_eq clearEntry)
open MarketingSuite.Integrations.Service (Tokens callConnect connectProvider connectProvider_spec
  saveConnection_spec disconnectProvider disconnectProvider_spec encryptOptional)
open MarketingSuite.Integrations.Connections (Fernet decrypt_encryptToken)
open MarketingSuite.Analytics.Metrics (connectAccount accountOf)
open MarketingSuite.Social.Providers (Platform Asset)
open MarketingSuite.Social.Refresh (Named named_step publishContent_db)

/-! ### What is stored -/

/-- The tokens of a connection. -/
def connectionSecrets (c : IntegrationConnection) : List String :=
  c.accessToken.toList ++ c.refreshToken.toList

/-- What `connect_account` writes instead of tokens. -/
def placeholders : List String := ["mock_access_token_value", "mock_refresh_token_value"]

/-- The tokens of an account, deleted or not. -/
def accountSecrets (r : SocialAccount) : List String :=
  (r.accessToken :: r.refreshToken.toList).filter fun x => x ∉ placeholders

/-- All the tokens that the rows of a workspace store. -/
def atRest (w : Uuid) (s : Database) : List String :=
  (s.integrationConnections.select fun c => c.workspaceId = w).flatMap connectionSecrets ++
    (s.socialAccounts.select fun r => r.workspaceId = w).flatMap accountSecrets

/-! ### What can happen to it -/

variable {decrypt : String → Option String}

/-- A world with this key. -/
structure HasKey (decrypt : String → Option String) (env : Env) : Prop where
  fernet : Fernet env
  oneKey : env.decrypt = decrypt

/-- A request of another part of the system, which leaves connections and accounts alone. -/
abbrev Other : Type :=
  { p : Svc Unit // p.Frames fun s => (s.integrationConnections, s.socialAccounts) }

/-- What can happen to connections and accounts, in processes with one key. -/
inductive Event (decrypt : String → Option String)
  | connect (env : Integrations.Service.Env) (key : HasKey decrypt env.toEnv) (d : Draws) (w : Uuid)
      (provider authCode : String) (codeVerifier : Option String)
  | disconnect (env : Env) (w : Uuid) (provider : String)
  | sync (env : Env) (key : HasKey decrypt env) (payload : Dict)
  | publish (env : Social.Providers.Env) (platform : Platform) (account : SocialAccount)
      (content : CampaignContent) (assets : List Asset)
  | connectAccount (d : Draws) (hex : String) (linkedin : Except Exc (String × String)) (w : Uuid)
      (provider : ApiProvider)
  | other (body : Other)

/-- The state after an event. -/
def step (lower : String → String) (s : Database) : Event decrypt → Database
  | .connect env _ d w provider authCode codeVerifier =>
    Social.Refresh.step lower s (.connect env d w provider authCode codeVerifier)
  | .disconnect env w provider => Social.Refresh.step lower s (.disconnect env w provider)
  | .sync env _ payload => Social.Refresh.step lower s (.sync env payload)
  | .publish env platform account content assets =>
    Social.Refresh.step lower s (.publish env platform account content assets)
  | .connectAccount d hex linkedin w provider =>
    (connectAccount d hex linkedin w provider).settle s
  | .other body => (body.val s).2

/-- The accounts and tokens that the result of a sync brings along. -/
def brought (env : Env) (connection : IntegrationConnection) (result : Dict) :
    List (String × String) :=
  if connection.provider = "facebook" then tokensIn env "pages" pageToken result
  else if connection.provider = "instagram" then
    tokensIn env "instagram_accounts" profileToken result
  else []

/-- **A provider grants the token to the workspace**: it answers an authorization code of the
workspace with it, or a sync of the workspace. -/
inductive Grants (lower : String → String) (w : Uuid) (t : String) (s : Database) :
    Event decrypt → Prop
  | connect {env key d provider authCode codeVerifier} {tokens : Tokens}
      (hcall : callConnect { env with lower := lower } (lower provider) authCode codeVerifier =
        .ok tokens)
      (ht : tokens.accessToken = some t ∨ tokens.refreshToken = some t) :
      Grants lower w t s (.connect env key d w provider authCode codeVerifier)
  | sync {env key payload} {call : Call} {result : Dict} {account : String}
      (hcall : callOf { env with lower := lower } payload s = .ok call)
      (hw : call.workspaceId = w) (hout : call.outcome = .ok result)
      (ht : (account, t) ∈ brought { env with lower := lower } call.connection result) :
      Grants lower w t s (.sync env key payload)

/-- The workspace stores the token, encrypted. -/
def Held (decrypt : String → Option String) (w : Uuid) (t : String) (s : Database) : Prop :=
  ∃ x ∈ atRest w s, IsEncrypted decrypt t x

/-- **The invariant**: what is stored is encrypted. -/
def Sealed (decrypt : String → Option String) (s : Database) : Prop :=
  ∀ w, ∀ x ∈ atRest w s, ∃ t, IsEncrypted decrypt t x

variable {lower : String → String} {env : Env} {s s' : Database} {e : Event decrypt} {w : Uuid}
  {t t' x y : String} {c : IntegrationConnection} {r : SocialAccount}

/-! ### Encrypted tokens -/

theorem isEncrypted_encryptToken (key : HasKey decrypt env) (k : ℕ) (t : String) :
    IsEncrypted decrypt t (encryptToken env k t) := ⟨env, k, key.fernet, key.oneKey, rfl⟩

theorem decryptToken_of_isEncrypted (key : HasKey decrypt env) (h : IsEncrypted decrypt t x) :
    decryptToken env x = t := by
  obtain ⟨env', k, hfernet, hkey, rfl⟩ := h
  have hsame : decryptToken env (encryptToken env' k t) =
      decryptToken env' (encryptToken env' k t) := by
    unfold decryptToken
    rw [key.oneKey, hkey]
  rw [hsame, decrypt_encryptToken hfernet]

theorem isEncrypted_unique (h : IsEncrypted decrypt t x) (h' : IsEncrypted decrypt t' x) :
    t = t' := by
  obtain ⟨env, k, hfernet, hkey, hx⟩ := h
  have key : HasKey decrypt env := ⟨hfernet, hkey⟩
  rw [← decryptToken_of_isEncrypted key ⟨env, k, hfernet, hkey, hx⟩,
    decryptToken_of_isEncrypted key h']

/-! ### The rows of a workspace -/

theorem mem_atRest : x ∈ atRest w s ↔
    (∃ c ∈ s.integrationConnections.rows, c.workspaceId = w ∧ x ∈ connectionSecrets c) ∨
      ∃ r ∈ s.socialAccounts.rows, r.workspaceId = w ∧ x ∈ accountSecrets r := by
  simp only [atRest, List.mem_append, List.mem_flatMap, Table.mem_select, decide_eq_true_eq,
    and_assoc]

theorem mem_atRest_of_connection (hc : c ∈ s.integrationConnections.rows)
    (hx : x ∈ connectionSecrets c) : x ∈ atRest c.workspaceId s :=
  mem_atRest.mpr (Or.inl ⟨c, hc, rfl, hx⟩)

theorem mem_accountSecrets : x ∈ accountSecrets r ↔
    (x = r.accessToken ∨ r.refreshToken = some x) ∧ x ∉ placeholders := by
  rw [accountSecrets, List.mem_filter, List.mem_cons, Option.mem_toList, decide_eq_true_eq]

theorem mem_connectionSecrets :
    x ∈ connectionSecrets c ↔ c.accessToken = some x ∨ c.refreshToken = some x := by
  rw [connectionSecrets, List.mem_append, Option.mem_toList, Option.mem_toList]

/-- After the event the text comes from before, or it encrypts a token that the event granted or
that was stored before. -/
def Explained (lower : String → String) (s : Database) (e : Event decrypt) (w : Uuid) (x : String) :
    Prop :=
  x ∈ atRest w s ∨ ∃ t, IsEncrypted decrypt t x ∧ (Grants lower w t s e ∨ Held decrypt w t s)

/-! ### Connecting and disconnecting -/

theorem encryptOptional_eq_some {k : ℕ} {token : Option String}
    (h : encryptOptional env k token = some x) :
    ∃ t, token = some t ∧ x = encryptToken env k t := by
  unfold encryptOptional at h
  split_ifs at h
  obtain ⟨t, ht, hx⟩ := Option.map_eq_some_iff.mp h
  exact ⟨t, ht, hx.symm⟩

theorem mem_secrets_write (key : HasKey decrypt env) {tokens : Tokens}
    (h : x ∈ connectionSecrets (tokens.write env c)) : ∃ t, IsEncrypted decrypt t x ∧
      (tokens.accessToken = some t ∨ tokens.refreshToken = some t) := by
  rcases mem_connectionSecrets.mp h with hx | hx
  · obtain ⟨t, ht, rfl⟩ := encryptOptional_eq_some hx
    exact ⟨t, isEncrypted_encryptToken key 0 t, Or.inl ht⟩
  · obtain ⟨t, ht, rfl⟩ := encryptOptional_eq_some hx
    exact ⟨t, isEncrypted_encryptToken key 1 t, Or.inr ht⟩

theorem explained_of_account (hr : r ∈ s.socialAccounts.rows) (hw : r.workspaceId = w)
    (hx : x ∈ accountSecrets r) : Explained lower s e w x :=
  Or.inl (mem_atRest.mpr (Or.inr ⟨r, hr, hw, hx⟩))

theorem explained_of_connection (hc : c ∈ s.integrationConnections.rows) (hw : c.workspaceId = w)
    (hx : x ∈ connectionSecrets c) : Explained lower s e w x :=
  Or.inl (mem_atRest.mpr (Or.inl ⟨c, hc, hw, hx⟩))

theorem explained_connect {world : Integrations.Service.Env} {key : HasKey decrypt world.toEnv}
    {d : Draws} {w' : Uuid} {provider authCode : String} {codeVerifier : Option String}
    (h : (connectProvider { world with lower := lower } d w' provider authCode codeVerifier).Returns
      s c s') (hx : x ∈ atRest w s') :
    Explained lower s (.connect world key d w' provider authCode codeVerifier) w x := by
  obtain ⟨-, tokens, hcall, hsave⟩ := connectProvider_spec h
  obtain ⟨c₀, T, rfl, hw, -, rfl, hwhere⟩ := saveConnection_spec hsave
  have hnew : ∀ c₁ : IntegrationConnection, c₁.workspaceId = w' →
      (tokens.write { world with lower := lower }.toEnv c₁).workspaceId = w →
      x ∈ connectionSecrets (tokens.write { world with lower := lower }.toEnv c₁) →
      Explained lower s (.connect world key d w' provider authCode codeVerifier) w x := by
    intro c₁ hw₁ hww hsecret
    obtain rfl : w' = w := hw₁.symm.trans hww
    have key' : HasKey decrypt { world with lower := lower }.toEnv :=
      ⟨⟨key.fernet.ne_empty, key.fernet.decrypt_encrypt⟩, key.oneKey⟩
    obtain ⟨t, hencrypted, ht⟩ := mem_secrets_write key' hsecret
    exact Or.inr ⟨t, hencrypted, Or.inl (.connect hcall ht)⟩
  rcases mem_atRest.mp hx with ⟨c₁, hc₁, hw₁, hsecret⟩ | ⟨r, hr, hwr, hsecret⟩
  · rcases hwhere with ⟨hmem, hT⟩ | ⟨rfl, hT, -⟩
    · rcases (Table.mem_modify hT).mp hc₁ with ⟨hold, -⟩ | ⟨c₂, hc₂, hid, rfl⟩
      · exact explained_of_connection hold hw₁ hsecret
      · obtain rfl : c₂ = c₀ := s.integrationConnections.eq_of_key_eq hc₂ hmem hid
        exact hnew c₂ hw hw₁ hsecret
    · rcases (Table.mem_insert hT).mp hc₁ with hold | rfl
      · exact explained_of_connection hold hw₁ hsecret
      · exact hnew _ hw hw₁ hsecret
  · exact explained_of_account hr hwr hsecret

theorem explained_disconnect {world : Env} {w' : Uuid} {provider : String} {b : Bool}
    (h : (disconnectProvider { world with lower := lower } w' provider).Returns s b s')
    (hx : x ∈ atRest w s') : Explained lower s e w x := by
  obtain ⟨i, T, rfl, hT⟩ := disconnectProvider_spec h
  rcases mem_atRest.mp hx with ⟨c, hc, hw, hsecret⟩ | ⟨r, hr, hw, hsecret⟩
  · rcases (Table.mem_modify hT).mp hc with ⟨hold, -⟩ | ⟨c₀, -, -, rfl⟩
    · exact explained_of_connection hold hw hsecret
    · exact absurd hsecret List.not_mem_nil
  · exact explained_of_account hr hw hsecret

/-! ### Syncs -/

theorem token_of_entry (key : HasKey decrypt env) {name' : String} {result : Dict} {p : ApiProvider}
    (token name : Json → Json) {a : AccountData}
    (ha : a ∈ (found result name' p none fun value => (elements env value).zipIdx.filterMap fun q =>
      entryAccount env q.2 q.1 (token q.1) (name q.1)).accounts) :
    ∃ t, IsEncrypted decrypt t a.accessToken ∧
      (a.accountId, t) ∈ tokensIn env name' token result := by
  have hclear := List.mem_map_of_mem (f := clearEntry env) ha
  rw [← tokensIn_eq key.fernet p name] at hclear
  obtain ⟨value, -, hvalue⟩ := mem_found.mp ha
  obtain ⟨q, -, hq⟩ := List.mem_filterMap.mp hvalue
  unfold entryAccount at hq
  split_ifs at hq
  obtain rfl := Option.some.inj hq
  have hencrypted := isEncrypted_encryptToken key q.2 (text env (token q.1))
  refine ⟨text env (token q.1), hencrypted, ?_⟩
  rwa [clearEntry, decryptToken_of_isEncrypted key hencrypted] at hclear

/-- **The token of an account of a sync** is encrypted; the result brought it along, or it is the
one of the connection. -/
theorem token_of_listed (key : HasKey decrypt env) {result : Dict} {a : AccountData}
    (ha : a ∈ (listed env c result).accounts) : ∃ t, IsEncrypted decrypt t a.accessToken ∧
      ((a.accountId, t) ∈ brought env c result ∨
        ∃ y ∈ connectionSecrets c, t = decryptToken env y) := by
  by_cases hfacebook : c.provider = "facebook"
  · unfold listed at ha
    rw [if_pos hfacebook] at ha
    obtain ⟨t, hencrypted, ht⟩ :=
      token_of_entry key pageToken (fun page => field page "name" .null) ha
    refine ⟨t, hencrypted, Or.inl ?_⟩
    rw [brought, if_pos hfacebook]
    exact ht
  by_cases hinstagram : c.provider = "instagram"
  · unfold listed at ha
    rw [if_neg hfacebook, if_pos hinstagram] at ha
    obtain ⟨t, hencrypted, ht⟩ :=
      token_of_entry key profileToken (fun profile => userName profile "Unknown") ha
    refine ⟨t, hencrypted, Or.inl ?_⟩
    rw [brought, if_neg hfacebook, if_pos hinstagram]
    exact ht
  have hprovider : c.provider = "linkedin" ∨ c.provider = "twitter" ∨ c.provider = "google" := by
    by_contra hother
    push Not at hother
    obtain ⟨hlinkedin, htwitter, hgoogle⟩ := hother
    unfold listed at ha
    rw [if_neg hfacebook, if_neg hinstagram, if_neg hlinkedin, if_neg htwitter,
      if_neg hgoogle] at ha
    exact absurd ha List.not_mem_nil
  have hbridged := bridged_of_mem_listed hprovider ha
  unfold bridged at hbridged
  rcases hy : c.accessToken with _ | y
  · rw [hy] at hbridged
    exact absurd hbridged (by simp)
  · rw [hy] at hbridged
    dsimp only at hbridged
    split_ifs at hbridged
    rw [← Option.some.inj hbridged]
    have hmem : y ∈ connectionSecrets c := mem_connectionSecrets.mpr (Or.inl hy)
    exact ⟨_, isEncrypted_encryptToken key 0 _, Or.inr ⟨y, hmem, rfl⟩⟩

/-- The refresh token of an account of a sync is the one of the connection, or the row had it. -/
theorem refresh_of_put (key : HasKey decrypt env) {result : Dict} {a : AccountData}
    {p : ApiProvider} {o : Option SocialAccount}
    (hx : (put env w p (listed env c result).refresh a o).refreshToken = some x) :
    (∃ r, o = some r ∧ r.refreshToken = some x) ∨
      ∃ y ∈ connectionSecrets c, IsEncrypted decrypt (decryptToken env y) x := by
  have hrefresh : (listed env c result).refresh = none ∨
      (listed env c result).refresh = refreshOf env c := by
    unfold listed found
    split_ifs <;> simp
  rcases hrefresh with hnone | hsome
  · rcases o with _ | r
    · rw [hnone] at hx
      exact absurd hx (by simp [put, AccountData.write, blank])
    · rw [hnone] at hx
      exact Or.inl ⟨r, rfl, hx⟩
  · rw [hsome] at hx
    rcases hy : c.refreshToken with _ | y
    · have hnone : (put env w p (refreshOf env c) a o).refreshToken = none := by
        simp [put, AccountData.write, refreshOf, hy]
      rw [hnone] at hx
      exact absurd hx (by simp)
    · have htoken : (put env w p (refreshOf env c) a o).refreshToken =
          if y = "" then none else some (encryptToken env 1 (decryptToken env y)) := by
        simp [put, AccountData.write, refreshOf, hy]
      rw [htoken] at hx
      split_ifs at hx
      rw [← Option.some.inj hx]
      exact Or.inr ⟨y, mem_connectionSecrets.mpr (Or.inr hy), isEncrypted_encryptToken key 1 _⟩

theorem held_of_call {call : Call} {payload : Dict} (key : HasKey decrypt env)
    (hs : Sealed decrypt s) (hcall : callOf env payload s = .ok call)
    (hy : y ∈ connectionSecrets call.connection) :
    Held decrypt call.workspaceId (decryptToken env y) s := by
  have hmem := mem_of_callOf hcall
  have hw : call.connection.workspaceId = call.workspaceId := by
    have hsel := (Table.mem_select.mp (List.mem_of_mem_head? (callOf_spec hcall).1)).2
    rw [Bool.and_eq_true, decide_eq_true_eq] at hsel
    exact hsel.1
  have hrest := mem_atRest_of_connection hmem hy
  rw [hw] at hrest
  obtain ⟨t, hencrypted⟩ := hs _ _ hrest
  refine ⟨y, hrest, ?_⟩
  rwa [decryptToken_of_isEncrypted key hencrypted]

theorem explained_sync {world : Env} {key : HasKey decrypt world} {payload result : Dict}
    (hs : Sealed decrypt s)
    (h : (executeSyncJob { world with lower := lower } payload).Returns s result s')
    (hx : x ∈ atRest w s') : Explained lower s (.sync world key payload) w x := by
  have key' : HasKey decrypt { world with lower := lower } :=
    ⟨⟨key.fernet.ne_empty, key.fernet.decrypt_encrypt⟩, key.oneKey⟩
  obtain ⟨call, hcall, hout, -⟩ := returns_executeSyncJob.mp h
  obtain ⟨-, -, T, hsaved, rfl⟩ := (returns_iff hcall hout).mp h
  rcases mem_atRest.mp hx with ⟨c, hc, hw, hsecret⟩ | ⟨r, hr, hw, hsecret⟩
  · exact explained_of_connection hc hw hsecret
  rcases mem_of_saved hsaved hr with hold | ⟨account, hstored⟩
  · exact explained_of_account hold hw hsecret
  obtain rfl : call.workspaceId = w :=
    (isAccount_iff.mp (stored_eq_some hstored).2).2.1.symm.trans hw
  rw [stored_of_saved hsaved, upserts_apply put_put] at hstored
  rcases hlast : lastFor AccountData.accountId
    (listed { world with lower := lower } call.connection result).accounts account with _ | last
  · rw [hlast] at hstored
    exact explained_of_account (stored_eq_some hstored).1 hw hsecret
  rw [hlast] at hstored
  obtain rfl := Option.some.inj hstored
  obtain ⟨hx, hplain⟩ := mem_accountSecrets.mp hsecret
  rcases hx with rfl | hrefresh
  · obtain ⟨t, hencrypted, hbrought | ⟨y, hy, rfl⟩⟩ :=
      token_of_listed key' (mem_of_lastFor hlast).1
    · exact Or.inr ⟨t, hencrypted, Or.inl (.sync hcall rfl hout hbrought)⟩
    · exact Or.inr ⟨_, hencrypted, Or.inr (held_of_call key' hs hcall hy)⟩
  · rcases refresh_of_put key' hrefresh with ⟨r, hr, hold⟩ | ⟨y, hy, hencrypted⟩
    · obtain ⟨hmem, hacc⟩ := stored_eq_some hr
      exact explained_of_account hmem (isAccount_iff.mp hacc).2.1
        (mem_accountSecrets.mpr ⟨Or.inr hold, hplain⟩)
    · exact Or.inr ⟨_, hencrypted, Or.inr (held_of_call key' hs hcall hy)⟩

/-! ### The other events -/

theorem explained_connectAccount {d : Draws} {hex : String}
    {linkedin : Except Exc (String × String)} {w' : Uuid} {provider : ApiProvider}
    (h : (connectAccount d hex linkedin w' provider).Returns s r s') (hx : x ∈ atRest w s') :
    Explained lower s e w x := by
  obtain ⟨info, t, hinfo, hcreate⟩ := Prog.returns_bind.mp h
  obtain ⟨-, rfl⟩ := Prog.returns_ofExcept.mp hinfo
  obtain ⟨rfl, -, T, hT, rfl⟩ := returns_create.mp hcreate
  rcases mem_atRest.mp hx with ⟨c, hc, hw, hsecret⟩ | ⟨r, hr, hw, hsecret⟩
  · exact explained_of_connection hc hw hsecret
  · rcases (Table.mem_insert hT).mp hr with hold | rfl
    · exact explained_of_account hold hw hsecret
    · have hnone : accountSecrets (accountOf d w' provider info) = [] := by
        simp [accountSecrets, accountOf, placeholders]
      rw [hnone] at hsecret
      exact absurd hsecret List.not_mem_nil

theorem atRest_congr (hc : s'.integrationConnections = s.integrationConnections)
    (hr : s'.socialAccounts = s.socialAccounts) : atRest w s' = atRest w s := by
  unfold atRest
  rw [hc, hr]

/-- A transaction explains what it leaves, if it does so where it returns. -/
theorem explained_of_settle {α : Type} {p : Svc α} (hx : x ∈ atRest w (p.settle s))
    (h : ∀ a s', p.Returns s a s' → x ∈ atRest w s' → Explained lower s e w x) :
    Explained lower s e w x := by
  rcases p.settle_cases s with ⟨a, hret⟩ | ⟨hsame, -⟩
  · exact h a _ hret hx
  · rw [hsame] at hx
    exact Or.inl hx

/-- **Every event explains what is stored after it.** -/
theorem explained_step (hnamed : Named s) (hs : Sealed decrypt s)
    (hx : x ∈ atRest w (step lower s e)) : Explained lower s e w x := by
  cases e with
  | connect env key d w' provider authCode codeVerifier =>
    exact explained_of_settle hx fun _ _ h hx => explained_connect h hx
  | disconnect env w' provider =>
    exact explained_of_settle hx fun _ _ h hx => explained_disconnect h hx
  | sync env key payload =>
    exact explained_of_settle hx fun _ _ h hx => explained_sync hs h hx
  | publish env platform account content assets =>
    have hdb : step lower s (.publish env platform account content assets : Event decrypt) = s :=
      publishContent_db hnamed account []
    rw [hdb] at hx
    exact Or.inl hx
  | connectAccount d hex linkedin w' provider =>
    exact explained_of_settle hx fun _ _ h hx => explained_connectAccount h hx
  | other body =>
    have hsame := Prod.mk.inj (body.property s)
    rw [step, atRest_congr hsame.1 hsame.2] at hx
    exact Or.inl hx

theorem sealed_step (hnamed : Named s) (hs : Sealed decrypt s) (e : Event decrypt) :
    Sealed decrypt (step lower s e) := by
  intro w x hx
  rcases explained_step hnamed hs hx with hold | ⟨t, hencrypted, -⟩
  · exact hs w x hold
  · exact ⟨t, hencrypted⟩

/-- **A token that is stored** was granted by the step, or was stored before. -/
theorem held_step (hnamed : Named s) (hs : Sealed decrypt s)
    (h : Held decrypt w t (step lower s e)) : Grants lower w t s e ∨ Held decrypt w t s := by
  obtain ⟨x, hx, hencrypted⟩ := h
  rcases explained_step hnamed hs hx with hold | ⟨t', hencrypted', hsource⟩
  · exact Or.inr ⟨x, hold, hencrypted⟩
  · obtain rfl := isEncrypted_unique hencrypted hencrypted'
    exact hsource

theorem named_of_step (u : CharProperties) (hnamed : Named s) (e : Event decrypt) :
    Named (step (Base.Texts.lower u) s e) := by
  cases e with
  | connect env key d w' provider authCode codeVerifier =>
    exact named_step u s (.connect env d w' provider authCode codeVerifier) hnamed
  | disconnect env w' provider => exact named_step u s (.disconnect env w' provider) hnamed
  | sync env key payload => exact named_step u s (.sync env payload) hnamed
  | publish env platform account content assets =>
    exact named_step u s (.publish env platform account content assets) hnamed
  | connectAccount d hex linkedin w' provider =>
    refine Prog.settle_inv (I := Named) hnamed fun r s' h => ?_
    obtain ⟨info, t, hinfo, hcreate⟩ := Prog.returns_bind.mp h
    obtain ⟨-, rfl⟩ := Prog.returns_ofExcept.mp hinfo
    obtain ⟨-, -, T, -, rfl⟩ := returns_create.mp hcreate
    exact hnamed
  | other body =>
    have hsame := (Prod.mk.inj (body.property s)).1
    intro c hc
    exact hnamed c (hsame ▸ hc)

/-- **Tokens at rest.** After any run that began without connections and accounts, what the rows of
a workspace store of a token is encrypted under the key, and a provider granted the token under the
encryption to this workspace, which has stored it ever since. -/
theorem tokens_at_rest (u : CharProperties) {s₀ : Database}
    (hconnections : s₀.integrationConnections.rows = []) (haccounts : s₀.socialAccounts.rows = [])
    (l : List (Event decrypt)) (hx : x ∈ atRest w (run (step (Base.Texts.lower u)) s₀ l)) :
    ∃ t, IsEncrypted decrypt t x ∧
      Since (step (Base.Texts.lower u)) (Grants (Base.Texts.lower u) w t)
        (fun s _ => Held decrypt w t s) s₀ l := by
  have hempty : ∀ w, atRest w s₀ = [] := by
    intro w
    simp [atRest, Table.select, hconnections, haccounts]
  have hstart : Named s₀ ∧ Sealed decrypt s₀ := by
    refine ⟨?_, fun w x hx => ?_⟩
    · unfold Named
      rw [hconnections]
      simp
    · rw [hempty w] at hx
      exact absurd hx List.not_mem_nil
  have hinv : ∀ (s : Database) (e : Event decrypt), Named s ∧ Sealed decrypt s →
      Named (step (Base.Texts.lower u) s e) ∧ Sealed decrypt (step (Base.Texts.lower u) s e) :=
    fun s e h => ⟨named_of_step u h.1 e, sealed_step h.1 h.2 e⟩
  obtain ⟨-, hsealed⟩ := inv_run (I := fun s => Named s ∧ Sealed decrypt s) hinv l hstart
  obtain ⟨t, hencrypted⟩ := hsealed w x hx
  refine ⟨t, hencrypted, ?_⟩
  have hsince := since_of_holds (H := Held decrypt w t) (Q := fun s _ => Held decrypt w t s) hinv
    (fun s e hs h => (held_step hs.1 hs.2 h).imp_right fun hheld => ⟨hheld, hheld⟩) hstart
    ⟨x, hx, hencrypted⟩
  refine hsince.resolve_right ?_
  rintro ⟨⟨y, hy, -⟩, -⟩
  rw [hempty w] at hy
  exact absurd hy List.not_mem_nil

/-! ### A token that outlives its connection -/

theorem hasKey_twitter : HasKey Social.Refresh.twitter.decrypt Social.Refresh.twitter.toEnv :=
  ⟨⟨Integrations.Connections.fernet_suite.ne_empty,
    Integrations.Connections.fernet_suite.decrypt_encrypt⟩, rfl⟩

/-- The workspace 10 connects Twitter, synchronises its account, and disconnects Twitter. -/
def connectAndDisconnect : List (Event Social.Refresh.twitter.decrypt) :=
  [.connect Social.Refresh.firstTokens hasKey_twitter (drawsFrom 50 0 "") 10 "Twitter" "code"
      (some "verifier"),
    .sync Social.Refresh.twitter.toEnv hasKey_twitter
      [("workspace_id", .id 10), ("provider", .str "twitter")],
    .disconnect Social.Refresh.twitter.toEnv 10 "Twitter"]

/-- The account still stores the token. -/
theorem tokens_at_rest_disconnected : ∃ t,
    IsEncrypted Social.Refresh.twitter.decrypt t "gAAAAaccess1" ∧
      Since (step (Base.Texts.lower Social.Refresh.plain))
        (Grants (Base.Texts.lower Social.Refresh.plain) 10 t)
        (fun s _ => Held Social.Refresh.twitter.decrypt 10 t s) Workspaces.System.founded
        connectAndDisconnect :=
  tokens_at_rest Social.Refresh.plain rfl rfl connectAndDisconnect (by decide)

end MarketingSuite.Sync.AtRest
