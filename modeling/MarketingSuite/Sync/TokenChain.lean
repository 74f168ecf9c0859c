import MarketingSuite.Lib.Runs
import MarketingSuite.Publishing.Tokens
import MarketingSuite.Sync.Credentials

/-! # From a token to a publisher

A token comes to a sync encrypted, in the connection, or in the clear, in a page of the result. The
sync stores it encrypted, anew at every time, with the account, and the provider of the account
builds its publisher with what it decrypts. Under one key these layers cancel out, whatever other
syncs there are before and after. -/

namespace MarketingSuite.Sync.TokenChain

open MarketingSuite.Lib.Programs MarketingSuite.Lib.Upserts MarketingSuite.Lib.Runs
open MarketingSuite.Base.Values MarketingSuite.Base.Models MarketingSuite.Base.Schema
open MarketingSuite.Base.Payloads
open MarketingSuite.Sync.Engine MarketingSuite.Sync.Accounts MarketingSuite.Sync.Durability
open MarketingSuite.Sync.Entries MarketingSuite.Sync.Idempotence MarketingSuite.Sync.Credentials
open MarketingSuite.Integrations.Connections (Fernet fernet_suite)
open MarketingSuite.Social.Providers (startsWith expiresSoon)
open MarketingSuite.Social.Factory (MediaAsset SocialProvider getProvider tokenOf imageAsset)
open MarketingSuite.Publishing.Truth (start)
open MarketingSuite.Publishing.Tokens

/-- A sync in a world with this key: how it encrypts may differ from call to call and from process
to process. -/
structure Round (decrypt : String → Option String) where
  env : Env
  payload : Dict
  fernet : Fernet env
  oneKey : env.decrypt = decrypt

variable {decrypt : String → Option String}

/-- The state after a sync, which is a transaction. -/
def step (s : Database) (r : Round decrypt) : Database :=
  (executeSyncJob r.env r.payload).settle s

/-- The sync completes with this call of the connector and this result, which names an account. -/
structure Names (r : Round decrypt) (s : Database) (w : Uuid) (p : ApiProvider) (account : String)
    (call : Call) (result : Dict) : Prop where
  called : callOf r.env r.payload s = .ok call
  completes : ∃ v, (executeSyncJob r.env r.payload).Returns s result v
  workspace : call.workspaceId = w
  provider : (listed r.env call.connection result).provider = p
  account : ∃ a ∈ (listed r.env call.connection result).accounts, a.accountId = account

/-- The id and the token of an entry, if it has a token. -/
def idAndToken (env : Env) (token : Json → Json) (entry : Json) : Option (String × String) :=
  if isTruthy (token entry) = true then
    some (text env (field entry "id" .null), text env (token entry))
  else none

/-- The ids and tokens under a key of the result. -/
def tokensIn (env : Env) (key : String) (token : Json → Json) (result : Dict) :
    List (String × String) :=
  match result.lookup key with
  | some value => (elements env value).filterMap (idAndToken env token)
  | none => []

/-- `encrypt_token(t)`, in any process with the key. -/
def IsEncrypted (decrypt : String → Option String) (t ciphertext : String) : Prop :=
  ∃ (env : Env) (k : ℕ), Fernet env ∧ env.decrypt = decrypt ∧ ciphertext = encryptToken env k t

/-- Where the token of an account comes from: for Facebook and Instagram it is the page token of the
last entry for the account, and for the others the connection holds it in the database `s`. -/
def Source (s : Database) (r : Round decrypt) (call : Call) (result : Dict) (account t : String) :
    Prop :=
  if call.connection.provider = "facebook" then
    lastFor Prod.fst (tokensIn r.env "pages" pageToken result) account = some (account, t)
  else if call.connection.provider = "instagram" then
    lastFor Prod.fst (tokensIn r.env "instagram_accounts" profileToken result) account =
      some (account, t)
  else ∃ c ∈ s.integrationConnections.rows, c.id = call.connection.id ∧
    ∃ ciphertext, c.accessToken = some ciphertext ∧ IsEncrypted decrypt t ciphertext

/-- The contents that the provider of the platform publishes. -/
def publishable (content : CampaignContent) (assets : List MediaAsset) : ApiProvider → Bool
  | .meta => true
  | .instagram => (imageAsset assets).any fun asset => truthy asset.publicUrl
  | .linkedin | .twitter => hasText content
  | .google => hasText content ∧ takesAssets (assets.map MediaAsset.toAsset)
  | .mock | .openai | .claude | .gemini | .stripe => false

/-- The account is stored with one layer of encryption around `t`. As long as no refresh is due, its
provider builds its publisher with `t` for every content that it publishes, and with no other token
for any; and nothing is sent with another token. -/
structure PublishesWith (decrypt : String → Option String) (r : SocialAccount) (t : String) :
    Prop where
  stored : decrypt r.accessToken = some t
  built : ∀ (env : Social.Factory.Env) content assets s, env.decrypt = decrypt →
    expiresSoon env.toProviders r = false → ∀ token,
      (∃ stage, (publisherToken env content assets (getProvider r.provider)).Returns (start s r)
        (some token) stage) ↔ publishable content assets r.provider = true ∧ token = t
  sent : ∀ (env : Social.Factory.Env) content assets s, env.decrypt = decrypt →
    expiresSoon env.toProviders r = false →
      ∀ q ∈ ((getProvider r.provider).body env content assets (start s r)).2.asked, q.token = t

variable {s : Database} {r : Round decrypt} {w : Uuid} {p : ApiProvider} {account t : String}
  {call : Call} {result : Dict} {env : Env}

/-! ### One layer of encryption -/

theorem decrypt_encryptToken_of_ne (hfernet : Fernet env) (ht : t ≠ "") (k : ℕ) :
    encryptToken env k t ≠ "" ∧ env.decrypt (encryptToken env k t) = some t := by
  unfold encryptToken
  rw [if_neg ht]
  exact ⟨hfernet.ne_empty k t, hfernet.decrypt_encrypt k t⟩

theorem decrypt_of_isEncrypted {x : String} (h : IsEncrypted decrypt t x) (ht : t ≠ "") :
    x ≠ "" ∧ decrypt x = some t := by
  obtain ⟨env, k, hfernet, rfl, rfl⟩ := h
  exact decrypt_encryptToken_of_ne hfernet ht k

/-- The token of an entry, in the clear. -/
def clearEntry (env : Env) (a : AccountData) : String × String :=
  (a.accountId, decryptToken env a.accessToken)

theorem map_clearEntry (hfernet : Fernet env) (l : List Json) (token name : Json → Json) :
    (l.zipIdx.filterMap fun q => entryAccount env q.2 q.1 (token q.1) (name q.1)).map
      (clearEntry env) = l.filterMap (idAndToken env token) := by
  have hone : ∀ q : Json × ℕ, (entryAccount env q.2 q.1 (token q.1) (name q.1)).map
      (clearEntry env) = (idAndToken env token ∘ Prod.fst) q := by
    intro q
    unfold entryAccount
    simp only [Function.comp, idAndToken]
    split_ifs
    · rw [Option.map_some, clearEntry, Integrations.Connections.decrypt_encryptToken hfernet]
    · rfl
  rw [List.map_filterMap, List.filterMap_congr fun q _ => hone q, ← List.filterMap_map,
    List.zipIdx_map_fst]

theorem tokensIn_eq (hfernet : Fernet env) {key : String} {token : Json → Json}
    (p : ApiProvider) (name : Json → Json) : tokensIn env key token result =
      (found result key p none fun value => (elements env value).zipIdx.filterMap fun q =>
        entryAccount env q.2 q.1 (token q.1) (name q.1)).accounts.map (clearEntry env) := by
  unfold tokensIn found
  rcases result.lookup key with _ | value
  · rfl
  · exact (map_clearEntry hfernet _ token name).symm

theorem decrypt_of_page (hfernet : Fernet env) {key : String} {token : Json → Json}
    (name : Json → Json) {last : AccountData} (ht : t ≠ "")
    (hsource : lastFor Prod.fst (tokensIn env key token result) account = some (account, t))
    (hlast : lastFor AccountData.accountId (found result key p none fun value =>
      (elements env value).zipIdx.filterMap fun q =>
        entryAccount env q.2 q.1 (token q.1) (name q.1)).accounts account = some last) :
    last.accessToken ≠ "" ∧ env.decrypt last.accessToken = some t := by
  have hids : ∀ a : AccountData, (clearEntry env a).1 = a.accountId := fun _ => rfl
  rw [tokensIn_eq hfernet p name, lastFor_map hids, hlast] at hsource
  have hclear : decryptToken env last.accessToken = t :=
    (Prod.mk.inj (Option.some.inj hsource)).2
  obtain ⟨value, -, hmem⟩ := mem_found.mp (mem_of_lastFor hlast).1
  obtain ⟨q, -, hentry⟩ := List.mem_filterMap.mp hmem
  unfold entryAccount at hentry
  split_ifs at hentry
  obtain rfl := Option.some.inj hentry
  rw [Integrations.Connections.decrypt_encryptToken hfernet] at hclear
  rw [hclear]
  exact decrypt_encryptToken_of_ne hfernet ht q.2

theorem decrypt_of_connection (hfernet : Fernet env) {last : AccountData} {x : String} (ht : t ≠ "")
    (hx : call.connection.accessToken = some x) (hencrypted : IsEncrypted env.decrypt t x)
    (hbridged : bridged env call.connection = some last.accessToken) :
    last.accessToken ≠ "" ∧ env.decrypt last.accessToken = some t := by
  obtain ⟨hne, hdecrypt⟩ := decrypt_of_isEncrypted hencrypted ht
  have hclear : decryptToken env x = t := by
    unfold decryptToken
    rw [if_neg hne, hdecrypt, Option.getD_some]
  have htoken : encryptToken env 0 t = last.accessToken := by
    simpa only [bridged, hx, if_neg hne, hclear, Option.some.injEq] using hbridged
  rw [← htoken]
  exact decrypt_encryptToken_of_ne hfernet ht 0

/-- **The token that a sync writes** for an account is the encryption of its source. -/
theorem decrypt_of_source {last : AccountData} (ht : t ≠ "")
    (hcall : call.connection ∈ s.integrationConnections.rows)
    (hsource : Source s r call result account t)
    (hlast : lastFor AccountData.accountId (listed r.env call.connection result).accounts account =
      some last) : last.accessToken ≠ "" ∧ decrypt last.accessToken = some t := by
  have hmem := (mem_of_lastFor hlast).1
  rw [← r.oneKey]
  unfold Source at hsource
  by_cases hfacebook : call.connection.provider = "facebook"
  · rw [if_pos hfacebook] at hsource
    unfold listed at hlast
    rw [if_pos hfacebook] at hlast
    exact decrypt_of_page r.fernet (fun page => field page "name" .null) ht hsource hlast
  rw [if_neg hfacebook] at hsource
  by_cases hinstagram : call.connection.provider = "instagram"
  · rw [if_pos hinstagram] at hsource
    unfold listed at hlast
    rw [if_neg hfacebook, if_pos hinstagram] at hlast
    exact decrypt_of_page r.fernet (fun profile => userName profile "Unknown") ht hsource hlast
  rw [if_neg hinstagram] at hsource
  obtain ⟨c, hc, hid, x, hx, hencrypted⟩ := hsource
  have hsame : c = call.connection := s.integrationConnections.eq_of_key_eq hc hcall hid
  rw [hsame] at hx
  rw [← r.oneKey] at hencrypted
  have hprovider : call.connection.provider = "linkedin" ∨ call.connection.provider = "twitter" ∨
      call.connection.provider = "google" := by
    by_contra hother
    push Not at hother
    obtain ⟨hlinkedin, htwitter, hgoogle⟩ := hother
    unfold listed at hmem
    rw [if_neg hfacebook, if_neg hinstagram, if_neg hlinkedin, if_neg htwitter,
      if_neg hgoogle] at hmem
    exact absurd hmem List.not_mem_nil
  exact decrypt_of_connection r.fernet ht hx hencrypted (bridged_of_mem_listed hprovider hmem)

/-! ### The syncs before and after -/

/-- A sync leaves the connections alone: the one that marks one of them raises. -/
theorem connections_step (s : Database) (r : Round decrypt) :
    (step s r).integrationConnections = s.integrationConnections := by
  unfold step
  rcases (executeSyncJob r.env r.payload).returns_or_raises s with ⟨result, v, hret⟩ |
    ⟨e, v, hraise⟩
  · obtain ⟨call, hcall, hout, -⟩ := returns_executeSyncJob.mp hret
    obtain ⟨-, -, T, -, rfl⟩ := (returns_iff hcall hout).mp hret
    rw [Prog.settle_of_returns hret]
  · rw [Prog.settle_of_raises hraise]

theorem connections_run (s : Database) (l : List (Round decrypt)) :
    (run step s l).integrationConnections = s.integrationConnections := by
  induction l generalizing s with
  | nil => rfl
  | cons r l ih => rw [run_cons, ih, connections_step]

/-- **A sync that names the account** stores it with the token of its last entry. -/
theorem stored_step_of_names (h : Names r s w p account call result) : ∃ last,
    lastFor AccountData.accountId (listed r.env call.connection result).accounts account =
        some last ∧
      stored (step s r).socialAccounts w p account =
        some (put r.env w p (listed r.env call.connection result).refresh last
          (stored s.socialAccounts w p account)) := by
  obtain ⟨v, hret⟩ := h.completes
  obtain ⟨call', hcall', hout, -⟩ := returns_executeSyncJob.mp hret
  obtain rfl := Except.ok.inj (h.called.symm.trans hcall')
  obtain ⟨-, -, T, hsaved, rfl⟩ := (returns_iff h.called hout).mp hret
  rw [h.workspace, h.provider] at hsaved
  obtain ⟨a, ha, hid⟩ := h.account
  obtain ⟨last, hlast⟩ : ∃ last, lastFor AccountData.accountId
      (listed r.env call.connection result).accounts a.accountId = some last := exists_lastFor ha
  rw [hid] at hlast
  refine ⟨last, hlast, ?_⟩
  rw [step, Prog.settle_of_returns hret]
  show stored T w p account = _
  rw [stored_of_saved hsaved, upserts_apply put_put, hlast]

/-- **A sync that does not name it** leaves it as it is. -/
theorem stored_step_of_not_names (h : ∀ call result, ¬ Names r s w p account call result) :
    stored (step s r).socialAccounts w p account = stored s.socialAccounts w p account := by
  unfold step
  rcases (executeSyncJob r.env r.payload).returns_or_raises s with ⟨result, v, hret⟩ |
    ⟨e, v, hraise⟩
  · obtain ⟨call, hcall, hout, -⟩ := returns_executeSyncJob.mp hret
    obtain ⟨-, -, T, hsaved, rfl⟩ := (returns_iff hcall hout).mp hret
    rw [Prog.settle_of_returns hret]
    show stored T w p account = _
    by_cases hsame : w = call.workspaceId ∧ p = (listed r.env call.connection result).provider
    · obtain ⟨hw, hp⟩ := hsame
      rw [hw, hp, stored_of_saved hsaved, upserts_apply put_put]
      rcases hlast : lastFor AccountData.accountId (listed r.env call.connection result).accounts
        account with _ | last
      · rfl
      · obtain ⟨hmem, hid⟩ := mem_of_lastFor hlast
        exact absurd ⟨hcall, ⟨_, hret⟩, hw.symm, hp.symm, last, hmem, hid⟩ (h call result)
    · exact stored_of_saved_of_ne hsaved hsame account
  · rw [Prog.settle_of_raises hraise]

theorem stored_run_of_not_named {l : List (Round decrypt)}
    (h : Along step (fun s r => ∀ call result, ¬ Names r s w p account call result) s l) :
    stored (run step s l).socialAccounts w p account = stored s.socialAccounts w p account := by
  induction l generalizing s with
  | nil => rfl
  | cons r l ih =>
    obtain ⟨hr, hl⟩ := h
    rw [run_cons, ih hl, stored_step_of_not_names hr]

/-! ### The publisher -/

theorem startsWith_append (s s' : String) : startsWith (s ++ s') s = true := by
  unfold startsWith
  rw [List.isPrefixOf_iff_prefix, String.toList_append]
  exact List.prefix_append _ _

theorem person_of_listed {connection : IntegrationConnection} {a : AccountData}
    (hp : (listed env connection result).provider = .linkedin)
    (ha : a ∈ (listed env connection result).accounts) :
    startsWith a.accountId "urn:li:person:" = true := by
  by_cases hlinkedin : connection.provider = "linkedin"
  · rw [listed_linkedin hlinkedin, mem_found] at ha
    obtain ⟨profile, -, ha⟩ := ha
    rw [Option.mem_toList, linkedinEntry] at ha
    split_ifs at ha
    obtain ⟨token, -, rfl⟩ := Option.map_eq_some_iff.mp ha
    exact startsWith_append _ _
  · unfold listed at hp
    rw [if_neg hlinkedin] at hp
    split_ifs at hp <;> simp only [found, reduceCtorEq] at hp

variable {row : SocialAccount} {publishing : Social.Factory.Env} {content : CampaignContent}
  {assets : List MediaAsset}

/-- For an account with a token, as long as no refresh is due, the content decides. -/
theorem passes_eq (htoken : row.accessToken ≠ "") (hclear : tokenOf publishing row ≠ "")
    (hlasts : expiresSoon publishing.toProviders row = false)
    (hperson : row.provider = .linkedin → startsWith row.accountId "urn:li:person:" = true) :
    passes publishing row content assets (getProvider row.provider) =
      publishable content assets row.provider := by
  cases hp : row.provider with
  | linkedin => simp [getProvider, passes, ready, publishable, htoken, hlasts, hperson hp]
  | twitter => simp [getProvider, passes, ready, publishable, htoken, hlasts, hclear]
  | google => simp [getProvider, passes, publishable, htoken, hlasts]
  | «meta» => simp [getProvider, passes, ready, publishable, htoken]
  | instagram => simp [getProvider, passes, ready, publishable, htoken]
  | _ => rfl

/-- **A row with one layer of encryption** publishes with what is under it. -/
theorem publishesWith_of_stored (ht : t ≠ "") (htoken : row.accessToken ≠ "")
    (hdecrypt : decrypt row.accessToken = some t)
    (hperson : row.provider = .linkedin → startsWith row.accountId "urn:li:person:" = true) :
    PublishesWith decrypt row t := by
  have hbuilt : ∀ (env : Social.Factory.Env) content assets s, env.decrypt = decrypt →
      expiresSoon env.toProviders row = false → ∀ token,
        (∃ stage, (publisherToken env content assets (getProvider row.provider)).Returns
          (start s row) (some token) stage) ↔
            publishable content assets row.provider = true ∧ token = t := by
    intro env content assets s hkey hlasts token
    have hclear : tokenOf env row = t := by
      unfold tokenOf decryptToken
      rw [if_neg htoken, hkey, hdecrypt, Option.getD_some]
    have hne : tokenOf env row ≠ "" := by
      rw [hclear]
      exact ht
    rw [publisherToken_returns_of (unrefreshed_of_lasting hlasts),
      passes_eq htoken hne hlasts hperson, hclear]
  refine ⟨hdecrypt, hbuilt, fun env content assets s hkey hlasts q hq => ?_⟩
  have hasked := token_of_asked (t := start s row) rfl hq
  exact ((hbuilt env content assets s hkey hlasts q.token).mp hasked).2

/-- **The text of a token survives the whole chain.** Whatever other syncs there are before, and
after it such that do not name the account, a sync that names an account with the token `t` leaves
an account that publishes with exactly `t`. -/
theorem token_survives {before after : List (Round decrypt)} (ht : t ≠ "")
    (hnames : Names r (run step s before) w p account call result)
    (hlast : Along step (fun s r => ∀ call result, ¬ Names r s w p account call result)
      (run step s (before ++ [r])) after)
    (hsource : Source s r call result account t) :
    ∃ row, stored (run step s (before ++ r :: after)).socialAccounts w p account = some row ∧
      PublishesWith decrypt row t := by
  have hconnection : call.connection ∈ s.integrationConnections.rows := by
    rw [← connections_run s before]
    exact mem_of_callOf hnames.called
  obtain ⟨last, hlastFor, hstored⟩ := stored_step_of_names hnames
  obtain ⟨hne, hdecrypt⟩ := decrypt_of_source ht hconnection hsource hlastFor
  have hrun : run step s (before ++ r :: after) = run step (run step s (before ++ [r])) after := by
    rw [← run_append, List.append_assoc, List.singleton_append]
  have hone : run step s (before ++ [r]) = step (run step s before) r := run_append s before [r]
  have hfinal : stored (run step s (before ++ r :: after)).socialAccounts w p account =
      some (put r.env w p (listed r.env call.connection result).refresh last
        (stored (run step s before).socialAccounts w p account)) := by
    rw [hrun, stored_run_of_not_named hlast, hone, hstored]
  refine ⟨_, hfinal, ?_⟩
  obtain ⟨-, -, hprovider, haccount⟩ := isAccount_iff.mp (stored_eq_some hfinal).2
  refine publishesWith_of_stored ht hne hdecrypt fun hlinkedin => ?_
  obtain ⟨hmem, hid⟩ := mem_of_lastFor hlastFor
  rw [haccount, ← hid]
  exact person_of_listed (hnames.provider.trans (hprovider.symm.trans hlinkedin)) hmem

/-- The sync of the member's account, and one of a provider without a connection. -/
def memberRound : Round Social.Refresh.twitter.decrypt where
  env := member
  payload := syncLinkedin
  fernet := ⟨fernet_suite.ne_empty, fernet_suite.decrypt_encrypt⟩
  oneKey := rfl

def lostRound : Round Social.Refresh.twitter.decrypt :=
  { memberRound with payload := [("workspace_id", .id 10), ("provider", .str "twitter")] }

/-- Two syncs of LinkedIn, and one that fails. -/
theorem token_survives_twice : ∃ row,
    stored (run step connectedLinkedin ([memberRound] ++ memberRound :: [lostRound])).socialAccounts
      10 .linkedin "urn:li:person:42" = some row ∧
    PublishesWith Social.Refresh.twitter.decrypt row "access1" := by
  have hnames : Names memberRound (run step connectedLinkedin [memberRound]) 10 .linkedin
      "urn:li:person:42" memberCall [("profile", .obj [("sub", .str "42")])] :=
    ⟨rfl, ⟨_, Prog.returns_of_fst rfl⟩, rfl, rfl,
      ⟨"urn:li:person:42", "LinkedIn Member", "gAAAAaccess1"⟩, by decide, rfl⟩
  refine token_survives (by decide) hnames ⟨fun call result h => ?_, trivial⟩ ?_
  · have hlost : callOf lostRound.env lostRound.payload
        (run step connectedLinkedin ([memberRound] ++ [memberRound])) =
          .error (.raised "Connection lost before sync could execute.") := rfl
    exact absurd (hlost.symm.trans h.called) (by simp)
  · exact ⟨_, List.mem_singleton_self _, rfl, "gAAAAaccess1", rfl, member, 0, memberRound.fernet,
      rfl, rfl⟩

end MarketingSuite.Sync.TokenChain
