import MarketingSuite.Integrations.Connections

/-! # A refresh is all or nothing

The refresh of an expired token, with a failure at any point of its dedicated session: when it is
opened, at a lookup, at the commit, in the rollback. The connection, the account row and the account
object end with the credentials that the token endpoint gave, or nothing has changed and the
provider raises; but Google's handler does not hand on the refresh token of the answer, so that a
new one is lost where all else is stored. -/

namespace MarketingSuite.Social.AllOrNothing

open MarketingSuite.Lib.Programs MarketingSuite.Lib.Tables MarketingSuite.Lib.Sessions
open MarketingSuite.Base.Values MarketingSuite.Base.Models MarketingSuite.Base.Schema
open MarketingSuite.Repositories.Base
open MarketingSuite.Sync.Engine (encryptToken decryptToken getByWorkspaceAndProvider)
open MarketingSuite.Integrations.Service (strOfExc getByWorkspaceAndProvider_spec)
open MarketingSuite.Integrations.Connections (Fernet fernet_suite decrypt_encryptToken)
open MarketingSuite.Integrations.Connectors (isDatetime expiry)
open MarketingSuite.Social.Providers
open MarketingSuite.Social.Refresh

/-! ### A session that may fail -/

/-- Where the dedicated session fails, and with what. -/
structure Faults where
  opening : Option Exc := none
  connection : Option Exc := none
  account : Option Exc := none
  commit : Option Exc := none
  rollback : Option Exc := none

/-- A point at which the work may fail. -/
def failing {σ : Type} : Option Exc → Prog σ Exc Unit
  | none => pure ()
  | some e => Prog.raise e

variable (f : Faults) (env : Env) (platform : Platform)

/-- `updateBoth` up to its commit. -/
def writeBoth (account : SocialAccount) (x : Secrets) : Prog (Session Database) Exc Unit := do
  failing f.connection
  let conn ← Session.exec
    (getByWorkspaceAndProvider account.workspaceId (some platform.provider.value))
  failing f.account
  let socAccount ← Session.exec (getById SocialAccount account.id)
  match conn, socAccount with
  | some conn, some socAccount =>
    Session.exec do
      let _ ← update conn.id x.writeConnection
      let token ← orRaise x.accessToken .integrity
      let _ ← update socAccount.id (x.writeAccount token)
      pure ()
  | _, _ => Prog.raise (.integration "Missing database records for token persistence.")

/-- `updateBoth`; a commit that fails has published nothing. -/
def updateBothUnder (account : SocialAccount) (x : Secrets) :
    Prog (Session Database) Exc Unit := do
  writeBoth f platform account x
  failing f.commit
  Session.commit

/-- `except Exception as e`. -/
def abandon (e : Exc) : Prog (Session Database) Exc Unit := do
  failing f.rollback
  Session.rollback
  Prog.raise (.integration ("Failed to persist refreshed tokens: " ++ strOfExc env.toEnv e))

/-- The dedicated session. -/
def persistUnder (account : SocialAccount) (x : Secrets) : Svc Unit := do
  failing f.opening
  Session.serve ((updateBothUnder f platform account x).handle (abandon f env))

/-- `refreshTokens` of an account whose token expires soon. -/
def renewUnder (account : SocialAccount) : Work Unit := do
  Prog.require (truthy account.refreshToken = true)
    (.integration (platform.name ++ " token expired and no refresh token available."))
  let decryptedRefresh := decryptToken env.toEnv (account.refreshToken.getD "")
  let newTokens ← ask (.refresh platform decryptedRefresh)
    (refreshOf env platform decryptedRefresh)
  let x := newTokens.encrypted env account
  onDatabase (persistUnder f env platform account x)
  Prog.modify fun k => { k with account := x.writeAccount (x.accessToken.getD "") k.account }

/-- `refreshTokens`. -/
def refreshTokensUnder : Work Unit := do
  let account ← Prog.gets Desk.account
  if expiresSoon env account = true then renewUnder f env platform account else pure ()

/-- `publish_content` of the provider of a platform. -/
def publishContentUnder (content : CampaignContent) (assets : List Asset) : Work String := do
  let account ← Prog.gets Desk.account
  checkInput account content assets platform
  refreshTokensUnder f env platform
  publishAs env platform content assets

variable {f env platform} {s s' : Database} {k : Desk} {account : SocialAccount}
  {content : CampaignContent} {assets : List Asset} {x : Secrets}

theorem updateBothUnder_none : updateBothUnder {} platform account x =
    updateBoth platform account x := by
  unfold updateBothUnder writeBoth updateBoth
  simp only [Prog.bind_assoc, failing, Prog.pure_bind]
  refine congrArg _ (funext fun conn => congrArg _ (funext fun socAccount => ?_))
  rcases conn with _ | conn <;> rcases socAccount with _ | socAccount <;> rfl

theorem persistUnder_none : persistUnder {} env platform account x =
    persist env platform account x := by
  unfold persistUnder persist
  rw [updateBothUnder_none]
  rfl

/-- **Without a fault this is the code.** -/
theorem publishContentUnder_none : publishContentUnder {} env platform content assets =
    publishContent env platform content assets := by
  have hrefresh : refreshTokensUnder {} env platform = refreshTokens env platform := by
    unfold refreshTokensUnder renewUnder refreshTokens
    simp only [persistUnder_none]
  rw [publishContent_eq, publishContentUnder, hrefresh]

/-! ### The dedicated session -/

/-- Both rows were found, and have the new credentials. -/
def Stored (platform : Platform) (account : SocialAccount) (x : Secrets) (s s' : Database) : Prop :=
  ∃ conn socAccount token T A,
    (getByWorkspaceAndProvider account.workspaceId (some platform.provider.value)).Returns s
      (some conn) s ∧
    socAccount ∈ s.socialAccounts.rows ∧ socAccount.id = account.id ∧ socAccount.deletedAt = none ∧
    s.workspaces.has socAccount.workspaceId = true ∧ x.accessToken = some token ∧
    s.integrationConnections.modify conn.id x.writeConnection = some T ∧
    s.socialAccounts.modify socAccount.id (x.writeAccount token) = some A ∧
    s' = { s with integrationConnections := T, socialAccounts := A }

/-- Nothing fails in the dedicated session, and it finds both rows. -/
structure Storable (f : Faults) (platform : Platform) (account : SocialAccount) (s : Database) :
    Prop where
  faultless : f.opening = none ∧ f.connection = none ∧ f.account = none ∧ f.commit = none
  connection : ∃ c ∈ s.integrationConnections.rows, c.workspaceId = account.workspaceId ∧
    c.provider = platform.provider.value
  account : ∃ a ∈ s.socialAccounts.rows, a.id = account.id ∧ a.deletedAt = none ∧
    s.workspaces.has a.workspaceId = true

theorem returns_failing {σ : Type} {o : Option Exc} {t t' : σ} {u : Unit} :
    (failing o : Prog σ Exc Unit).Returns t u t' ↔ o = none ∧ t' = t := by
  rcases o with _ | e
  · simp [failing, Prog.returns_pure, eq_comm]
  · simp [failing]

theorem frames_failing {σ β : Type} {g : σ → β} (o : Option Exc) :
    (failing o : Prog σ Exc Unit).Frames g := by
  rcases o with _ | e
  · exact Prog.frames_pure _
  · exact Prog.frames_raise _

theorem stored_of_writeBoth {t : Session Database} {u : Unit}
    (h : (writeBoth f platform account x).Returns (Session.fresh s) u t) :
    f.connection = none ∧ f.account = none ∧ Stored platform account x s t.view := by
  unfold writeBoth at h
  rw [Prog.returns_bind] at h
  obtain ⟨_, t₁, hfault, h⟩ := h
  obtain ⟨hnone, rfl⟩ := returns_failing.mp hfault
  refine ⟨hnone, ?_⟩
  rw [Prog.returns_bind] at h
  obtain ⟨conn, t₂, hexec, h⟩ := h
  obtain ⟨v, hconn, rfl⟩ := Session.returns_exec.mp hexec
  obtain ⟨hsame, -, -⟩ := getByWorkspaceAndProvider_spec hconn
  rw [Session.view_fresh] at hconn hsame
  subst hsame
  rw [Prog.returns_bind] at h
  obtain ⟨_, t₃, hfault, h⟩ := h
  obtain ⟨hnone, rfl⟩ := returns_failing.mp hfault
  refine ⟨hnone, ?_⟩
  rw [Prog.returns_bind] at h
  obtain ⟨socAccount, t₄, hexec, h⟩ := h
  obtain ⟨v', hacc, rfl⟩ := Session.returns_exec.mp hexec
  obtain ⟨rfl, hrow⟩ := getById_spec hacc
  rcases conn with _ | conn
  · exact absurd h (by simp)
  rcases socAccount with _ | socAccount
  · exact absurd h (by simp)
  obtain ⟨v', hboth, rfl⟩ := Session.returns_exec.mp h
  rw [Prog.returns_bind] at hboth
  obtain ⟨_, v₁, hup, hboth⟩ := hboth
  obtain ⟨-, -, -, -, -, T, hT, rfl⟩ := returns_update.mp hup
  rw [Prog.returns_bind] at hboth
  obtain ⟨token, v₂, htoken, hboth⟩ := hboth
  obtain ⟨hsome, rfl⟩ := returns_orRaise.mp htoken
  obtain ⟨_, hup, -⟩ := Prog.returns_bind_pure.mp hboth
  obtain ⟨r, hr, hkey, -, hworkspace, A, hA, rfl⟩ := returns_update.mp hup
  obtain ⟨hmem, hid, hd⟩ := (hrow socAccount).mp rfl
  obtain rfl : r = socAccount := Table.eq_of_key_eq _ hr hmem hkey
  exact ⟨conn, r, token, T, A, hconn, hmem, hid, hd, hworkspace, hsome, hT, hA, rfl⟩

theorem exists_connection (hs : Storable f platform account s) :
    ∃ conn, (getByWorkspaceAndProvider account.workspaceId (some platform.provider.value)).Returns s
      (some conn) s := by
  obtain ⟨c, hc, hw, hp⟩ := hs.connection
  obtain ⟨o, ho⟩ : ∃ o, (getByWorkspaceAndProvider account.workspaceId
      (some platform.provider.value)).Returns s o s :=
    ⟨_, Prog.returns_bind_pure.mpr ⟨_, Prog.returns_gets.mpr ⟨rfl, rfl⟩, rfl⟩⟩
  rcases o with _ | conn
  · exact absurd (congrArg some hp) ((getByWorkspaceAndProvider_spec ho).2.2 rfl c hc hw)
  · exact ⟨conn, ho⟩

theorem returns_writeBoth {token : String} (hs : Storable f platform account s)
    (htoken : x.accessToken = some token) :
    ∃ t, (writeBoth f platform account x).Returns (Session.fresh s) () t := by
  obtain ⟨-, hconnection, haccount, -⟩ := hs.faultless
  obtain ⟨conn, hconn⟩ := exists_connection hs
  obtain ⟨a, ha, hid, hd, hworkspace⟩ := hs.account
  have hrow : conn ∈ s.integrationConnections.rows :=
    ((getByWorkspaceAndProvider_spec hconn).2.1 conn rfl).1
  obtain ⟨T, hT⟩ := Table.exists_modify (T := s.integrationConnections) (k := conn.id)
    (f := x.writeConnection) (fun _ => rfl) fun _ _ => rfl
  obtain ⟨A, hA⟩ := Table.exists_modify (T := s.socialAccounts) (k := a.id)
    (f := x.writeAccount token) (fun _ => rfl) fun _ _ => rfl
  have hfirst : (update conn.id x.writeConnection).Returns s (x.writeConnection conn)
      { s with integrationConnections := T } :=
    returns_update.mpr ⟨conn, hrow, rfl, rfl, rfl, T, hT, rfl⟩
  have hsecond : (update a.id (x.writeAccount token)).Returns { s with integrationConnections := T }
      (x.writeAccount token a) { s with integrationConnections := T, socialAccounts := A } :=
    returns_update.mpr ⟨a, ha, rfl, rfl, hworkspace, A, hA, rfl⟩
  have hboth : (do
      let _ ← update conn.id x.writeConnection
      let token ← orRaise x.accessToken .integrity
      let _ ← update a.id (x.writeAccount token)
      pure () : Svc Unit).Returns s () { s with integrationConnections := T, socialAccounts := A } :=
    Prog.returns_bind.mpr ⟨_, _, hfirst, Prog.returns_bind.mpr
      ⟨token, _, returns_orRaise.mpr ⟨htoken, rfl⟩, Prog.returns_bind_pure.mpr ⟨_, hsecond, rfl⟩⟩⟩
  unfold writeBoth
  refine ⟨⟨s, some { s with integrationConnections := T, socialAccounts := A }⟩, ?_⟩
  refine Prog.returns_bind.mpr ⟨(), _, returns_failing.mpr ⟨hconnection, rfl⟩, ?_⟩
  refine Prog.returns_bind.mpr ⟨some conn, _, Session.returns_exec.mpr ⟨s, hconn, rfl⟩, ?_⟩
  refine Prog.returns_bind.mpr ⟨(), _, returns_failing.mpr ⟨haccount, rfl⟩, ?_⟩
  refine Prog.returns_bind.mpr ⟨some a, _,
    Session.returns_exec.mpr ⟨s, getById_returns ha hid hd, rfl⟩, ?_⟩
  exact Session.returns_exec.mpr ⟨_, hboth, rfl⟩

theorem uncommitted_writeBoth : Session.Uncommitted (writeBoth f platform account x) := by
  refine Prog.frames_bind (frames_failing _) fun _ => ?_
  refine Prog.frames_bind (Session.uncommitted_exec _) fun conn => ?_
  refine Prog.frames_bind (frames_failing _) fun _ => ?_
  refine Prog.frames_bind (Session.uncommitted_exec _) fun socAccount => ?_
  rcases conn with _ | conn
  · exact Prog.frames_raise _
  rcases socAccount with _ | socAccount
  · exact Prog.frames_raise _
  exact Session.uncommitted_exec _

theorem updateBothUnder_cases (f : Faults) (platform : Platform) (account : SocialAccount)
    (x : Secrets) (s : Database) :
    (∃ s', (updateBothUnder f platform account x).Returns (Session.fresh s) () ⟨s', none⟩ ∧
      f.connection = none ∧ f.account = none ∧ f.commit = none ∧ Stored platform account x s s') ∨
    (∃ e t, (updateBothUnder f platform account x).Raises (Session.fresh s) e t ∧
      t.committed = s) ∧ ∀ token, x.accessToken = some token → ¬ Storable f platform account s := by
  unfold updateBothUnder
  rcases (writeBoth f platform account x).returns_or_raises (Session.fresh s) with
    ⟨u, t, hwrite⟩ | ⟨e, t, hwrite⟩
  · rcases hcommit : f.commit with _ | e
    · obtain ⟨hconnection, haccount, hstored⟩ := stored_of_writeBoth hwrite
      refine Or.inl ⟨t.view, Prog.returns_bind.mpr ⟨(), t, hwrite, ?_⟩, hconnection, haccount, rfl,
        hstored⟩
      exact Prog.returns_bind.mpr ⟨(), t, returns_failing.mpr ⟨rfl, rfl⟩,
        Session.returns_commit.mpr rfl⟩
    · refine Or.inr ⟨⟨e, t, (Prog.raises_bind_of_returns hwrite).mpr rfl, ?_⟩, fun _ _ hs => ?_⟩
      · exact uncommitted_writeBoth.returns hwrite
      · exact absurd (hcommit.symm.trans hs.faultless.2.2.2) (by simp)
  · refine Or.inr ⟨⟨e, t, Prog.raises_bind.mpr (Or.inl hwrite),
      uncommitted_writeBoth.raises hwrite⟩, fun token htoken hs => ?_⟩
    obtain ⟨t', hret⟩ := returns_writeBoth hs htoken
    exact Prog.not_raises_of_returns hret hwrite

theorem abandon_raises (f : Faults) (env : Env) (e : Exc) (t : Session Database) :
    ∃ e' t', (abandon f env e).Raises t e' t' ∧ t'.committed = t.committed := by
  unfold abandon
  rcases f.rollback with _ | e'
  · exact ⟨_, ⟨t.committed, none⟩, rfl, rfl⟩
  · exact ⟨e', t, rfl, rfl⟩

/-- **The dedicated session stores both or nothing**, whatever fails. -/
theorem persistUnder_cases (f : Faults) (env : Env) (platform : Platform) (account : SocialAccount)
    (x : Secrets) (s : Database) :
    (∃ s', (persistUnder f env platform account x).Returns s () s' ∧
      Storable f platform account s ∧ Stored platform account x s s') ∨
    (∃ e, (persistUnder f env platform account x).Raises s e s) ∧
      ∀ token, x.accessToken = some token → ¬ Storable f platform account s := by
  unfold persistUnder
  rcases hopening : f.opening with _ | e
  swap
  · refine Or.inr ⟨⟨e, rfl⟩, fun _ _ hs => ?_⟩
    exact absurd (hopening.symm.trans hs.faultless.1) (by simp)
  have hopened : (failing none : Svc Unit).Returns s () s := returns_failing.mpr ⟨rfl, rfl⟩
  rcases updateBothUnder_cases f platform account x s with
    ⟨s', hboth, hconnection, haccount, hcommit, hstored⟩ | ⟨⟨e, t, hboth, hsame⟩, hno⟩
  · refine Or.inl ⟨s', Prog.returns_bind.mpr ⟨(), s, hopened, ?_⟩, ?_, hstored⟩
    · exact Session.returns_serve.mpr ⟨_, Prog.returns_handle.mpr (Or.inl hboth), rfl⟩
    · obtain ⟨conn, a, -, -, -, hconn, ha, hid, hd, hworkspace, -⟩ := hstored
      obtain ⟨hrow, hw, hp⟩ := (getByWorkspaceAndProvider_spec hconn).2.1 conn rfl
      exact ⟨⟨hopening, hconnection, haccount, hcommit⟩, ⟨conn, hrow, hw, Option.some.inj hp⟩,
        ⟨a, ha, hid, hd, hworkspace⟩⟩
  · obtain ⟨e', t', hhandler, hkept⟩ := abandon_raises f env e t
    refine Or.inr ⟨⟨e', Prog.raises_bind.mpr (Or.inr ⟨(), s, hopened, ?_⟩)⟩, hno⟩
    exact Session.raises_serve.mpr
      ⟨t', Prog.raises_handle.mpr ⟨e, t, hboth, hhandler⟩, hkept.trans hsame⟩

/-! ### The answer of the token endpoint -/

/-- The lifetime in an answer, in seconds; Google's handler has a default. -/
def lifetimeOf (platform : Platform) (r : TokenResponse) : Option ℤ :=
  match platform with
  | .twitter | .linkedin => r.expiresIn.join
  | .google => r.expiresIn.getD (some 3599)

/-- The token endpoint answers to a refresh token with an access token and a lifetime of `n` seconds
that ends at a date. -/
structure Usable (env : Env) (platform : Platform) (old : String) (r : TokenResponse)
    (token : String) (n : ℤ) : Prop where
  answer : env.tokenEndpoint platform old = .ok r
  accessToken : r.accessToken = some token
  lifetime : lifetimeOf platform r = some n
  ends : isDatetime (env.answeredAt + seconds n) = true

/-- The refresh token that the handler of a platform hands on. -/
def handedOn (platform : Platform) (r : TokenResponse) (old : String) : Option String :=
  match platform with
  | .twitter => r.refreshToken
  | .linkedin => some (orElse r.refreshToken old)
  | .google => none

variable {old token : String} {r : TokenResponse} {n : ℤ} {tokens : NewTokens}

theorem expiry_eq_ok {now : Time} {e : DateTime} : expiry now n = .ok e ↔
    isDatetime (now + seconds n) = true ∧ e = ⟨now + seconds n, true⟩ := by
  unfold expiry
  dsimp only
  split_ifs with h
  · simp [h, eq_comm]
  · simp [h]

/-- **What the handlers make of a usable answer.** -/
theorem refreshOf_of_usable (h : Usable env platform old r token n) :
    refreshOf env platform old =
      .ok ⟨some token, handedOn platform r old, ⟨env.answeredAt + seconds n, true⟩⟩ := by
  have hexpiry : expiryAfter env (some n) = .ok ⟨env.answeredAt + seconds n, true⟩ :=
    expiry_eq_ok.mpr ⟨h.ends, rfl⟩
  have hvalid : r.expiresIn = some (some n) → r.validated = .ok (token, n) := by
    intro hn
    rw [TokenResponse.validated, h.accessToken, hn]
  have hlife := h.lifetime
  cases platform with
  | twitter =>
    rw [refreshOf, twitterRefresh, h.answer, Prog.ok_bind, hvalid (Option.join_eq_some_iff.mp hlife),
      Prog.ok_bind]
    dsimp only
    rw [hexpiry]
    rfl
  | linkedin =>
    rw [refreshOf, linkedinRefresh, h.answer, Prog.ok_bind,
      hvalid (Option.join_eq_some_iff.mp hlife), Prog.ok_bind]
    dsimp only
    rw [hexpiry]
    rfl
  | google =>
    have hdefault : r.expiresIn.getD (some 3599) = some n := hlife
    rw [refreshOf, googleRefresh, h.answer, Prog.ok_bind, hdefault, hexpiry, h.accessToken]
    rfl

theorem validated_eq_ok (h : r.validated = .ok (token, n)) :
    r.accessToken = some token ∧ r.expiresIn = some (some n) := by
  unfold TokenResponse.validated at h
  split at h
  · obtain ⟨rfl, rfl⟩ := Prod.mk.inj (Except.ok.inj h)
    exact ⟨‹_›, ‹_›⟩
  · exact absurd h (by simp)

theorem usable_of_refreshOf (h : refreshOf env platform old = .ok tokens)
    (htoken : tokens.accessToken = some token) : ∃ r n, Usable env platform old r token n := by
  cases platform with
  | twitter | linkedin =>
    obtain ⟨r, hr, h⟩ := Prog.bind_eq_ok.mp h
    obtain ⟨⟨access, n⟩, hvalid, h⟩ := Prog.bind_eq_ok.mp h
    obtain ⟨e, hexpiry, h⟩ := Prog.bind_eq_ok.mp h
    obtain ⟨haccess, hn⟩ := validated_eq_ok hvalid
    obtain rfl := Except.ok.inj h
    obtain rfl := Option.some.inj htoken
    exact ⟨r, n, hr, haccess, congrArg Option.join hn, (expiry_eq_ok.mp hexpiry).1⟩
  | google =>
    obtain ⟨r, hr, h⟩ := Prog.bind_eq_ok.mp h
    obtain ⟨e, hexpiry, h⟩ := Prog.bind_eq_ok.mp h
    obtain rfl := Except.ok.inj h
    rcases hn : r.expiresIn.getD (some 3599) with _ | n
    · rw [hn] at hexpiry
      exact absurd hexpiry (by simp [expiryAfter])
    · rw [hn] at hexpiry
      exact ⟨r, n, hr, htoken, hn, (expiry_eq_ok.mp hexpiry).1⟩

/-! ### The refresh -/

/-- The refresh token that a provider spends. -/
def oldToken (env : Env) (account : SocialAccount) : String :=
  decryptToken env.toEnv (account.refreshToken.getD "")

/-- There is a refresh token, the endpoint's answer `r` to it is usable, and the new credentials can
be stored. -/
structure Renewable (f : Faults) (env : Env) (platform : Platform) (k : Desk) (r : TokenResponse)
    (n : ℤ) : Prop where
  refreshToken : truthy k.account.refreshToken = true
  usable : ∃ token, Usable env platform (oldToken env k.account) r token n
  storable : Storable f platform k.account k.db

/-- A refresh that went through: what the handler gave is stored, and the account object has it too.
-/
structure Went (env : Env) (platform : Platform) (k : Desk) (tokens : NewTokens) (k' : Desk) :
    Prop where
  answer : refreshOf env platform (oldToken env k.account) = .ok tokens
  stored : Stored platform k.account (tokens.encrypted env k.account) k.db k'.db
  memory : k'.account = (tokens.encrypted env k.account).writeAccount
    ((tokens.encrypted env k.account).accessToken.getD "") k.account
  calls : k'.calls = .refresh platform (oldToken env k.account) :: k.calls

/-- A call that raised, with everything but the calls as it was; and nothing was published. -/
def Failed {α : Type} (p : Work α) (platform : Platform) (k : Desk) : Prop :=
  ∃ e calls, p.Raises k e { k with calls := calls } ∧
    (calls = k.calls ∨ ∃ token, calls = .refresh platform token :: k.calls)

theorem Failed.bind {α β : Type} {p : Work α} {q : α → Work β} (h : Failed p platform k) :
    Failed (p >>= q) platform k := by
  obtain ⟨e, calls, hraise, hcalls⟩ := h
  exact ⟨e, calls, Prog.raises_bind.mpr (Or.inl hraise), hcalls⟩

theorem Failed.bind_of_returns {α β : Type} {p : Work α} {q : α → Work β} {a : α}
    (hp : p.Returns k a k) (h : Failed (q a) platform k) : Failed (p >>= q) platform k := by
  obtain ⟨e, calls, hraise, hcalls⟩ := h
  exact ⟨e, calls, (Prog.raises_bind_of_returns hp).mpr hraise, hcalls⟩

theorem failed_of_frames {α : Type} {p : Work α} {e : Exc} {k' : Desk} (hp : p.Frames id)
    (h : p.Raises k e k') : Failed p platform k := by
  obtain rfl : k' = k := hp.raises h
  exact ⟨e, k'.calls, h, Or.inl rfl⟩

/-- **What a renewal comes to**: it goes through, or it raises with everything as it was. -/
theorem renewUnder_cases (f : Faults) (env : Env) (platform : Platform) (k : Desk) :
    (∃ r n tokens k', Renewable f env platform k r n ∧
      (renewUnder f env platform k.account).Returns k () k' ∧ Went env platform k tokens k') ∨
    Failed (renewUnder f env platform k.account) platform k ∧
      ∀ r n, ¬ Renewable f env platform k r n := by
  unfold renewUnder
  by_cases hren : truthy k.account.refreshToken = true
  swap
  · exact Or.inr ⟨Failed.bind (failed_of_frames (Prog.frames_require _ _)
      (Prog.raises_require.mpr ⟨hren, rfl, rfl⟩)), fun _ _ h => hren h.refreshToken⟩
  have hreq : (Prog.require (truthy k.account.refreshToken = true)
      (.integration (platform.name ++ " token expired and no refresh token available.")) :
      Work Unit).Returns k () k := Prog.returns_require.mpr ⟨hren, rfl⟩
  rcases hans : refreshOf env platform (oldToken env k.account) with e | tokens
  · refine Or.inr ⟨Failed.bind_of_returns hreq (Failed.bind ?_), fun r n h => ?_⟩
    · refine ⟨e, .refresh platform (oldToken env k.account) :: k.calls, ?_, Or.inr ⟨_, rfl⟩⟩
      unfold oldToken at hans ⊢
      rw [hans]
      rfl
    · obtain ⟨token, husable⟩ := h.usable
      exact absurd ((refreshOf_of_usable husable).symm.trans hans) (by simp)
  have hask : (ask (.refresh platform (oldToken env k.account))
      (refreshOf env platform (oldToken env k.account))).Returns k tokens
      { k with calls := .refresh platform (oldToken env k.account) :: k.calls } := ask_returns hans
  rcases persistUnder_cases f env platform k.account (tokens.encrypted env k.account) k.db with
    ⟨s', hret, hstorable, hstored⟩ | ⟨⟨e, hraise⟩, hno⟩
  · obtain ⟨-, -, token, -, -, -, -, -, -, -, htoken, -⟩ := id hstored
    obtain ⟨access, haccess, -⟩ := Option.map_eq_some_iff.mp htoken
    obtain ⟨r, n, husable⟩ := usable_of_refreshOf hans haccess
    refine Or.inl ⟨r, n, tokens,
      ⟨s', _, .refresh platform (oldToken env k.account) :: k.calls⟩,
      ⟨hren, ⟨access, husable⟩, hstorable⟩, ?_, hans, hstored, rfl, rfl⟩
    refine Prog.returns_bind.mpr ⟨(), k, hreq, Prog.returns_bind.mpr ⟨tokens, _, hask, ?_⟩⟩
    exact Prog.returns_bind.mpr ⟨(), _, Prog.returns_focus.mpr ⟨s', hret, rfl⟩,
      Prog.returns_modify.mpr rfl⟩
  · refine Or.inr ⟨Failed.bind_of_returns hreq
      ⟨e, .refresh platform (oldToken env k.account) :: k.calls, ?_, Or.inr ⟨_, rfl⟩⟩,
      fun r n h => ?_⟩
    · refine Prog.raises_bind.mpr (Or.inr ⟨tokens, _, hask, ?_⟩)
      exact Prog.raises_bind.mpr (Or.inl (Prog.raises_focus.mpr ⟨k.db, hraise, rfl⟩))
    · obtain ⟨token, husable⟩ := h.usable
      obtain rfl := Except.ok.inj (hans.symm.trans (refreshOf_of_usable husable))
      exact hno _ rfl h.storable

/-! ### The credentials -/

/-- The credentials that a row or an object holds: the stored tokens, and the instant at which they
expire. -/
structure Credentials where
  accessToken : Option String
  refreshToken : Option String
  expiresAt : Option Time
deriving DecidableEq, Repr

def ofConnection (c : IntegrationConnection) : Credentials :=
  ⟨c.accessToken, c.refreshToken, c.expiresAt.map DateTime.instant⟩

def ofAccount (a : SocialAccount) : Credentials :=
  ⟨some a.accessToken, a.refreshToken, a.expiresAt.map DateTime.instant⟩

/-- The connection that the provider finds, the row of the account and the account object all hold
`x`. -/
structure Holds (platform : Platform) (k k' : Desk) (x : Credentials) : Prop where
  connection : ∃ conn, (getByWorkspaceAndProvider k.account.workspaceId
      (some platform.provider.value)).Returns k.db (some conn) k.db ∧
    ∃ c ∈ k'.db.integrationConnections.rows, c.id = conn.id ∧ ofConnection c = x
  account : ∃ a ∈ k'.db.socialAccounts.rows, a.id = k.account.id ∧ ofAccount a = x
  memory : ofAccount k'.account = x

/-- `x` is what the token endpoint answered to the old refresh token, encrypted: its access token,
its refresh token or the old one where it gave none, and its expiry. -/
def Renewed (env : Env) (platform : Platform) (account : SocialAccount) (x : Credentials) : Prop :=
  ∃ r n, env.tokenEndpoint platform (oldToken env account) = .ok r ∧
    lifetimeOf platform r = some n ∧
    x.accessToken.map (decryptToken env.toEnv) = r.accessToken ∧
    x.refreshToken.map (decryptToken env.toEnv) =
      (if truthy r.refreshToken = true then r.refreshToken else some (oldToken env account)) ∧
    x.expiresAt = some (env.answeredAt + seconds n)

/-- The call raised, with everything but the calls as it was and nothing published; or the three
copies hold what the token endpoint answered. -/
def RenewsOrFails (f : Faults) (env : Env) (platform : Platform) (content : CampaignContent)
    (assets : List Asset) (k : Desk) : Prop :=
  (∃ x, Renewed env platform k.account x ∧
    Holds platform k (publishContentUnder f env platform content assets k).2 x) ∨
  Failed (publishContentUnder f env platform content assets) platform k

/-- The checks of the input pass, and the refresh goes through. -/
structure GoesThrough (f : Faults) (env : Env) (platform : Platform) (content : CampaignContent)
    (assets : List Asset) (k : Desk) (r : TokenResponse) (n : ℤ) : Prop
    extends Renewable f env platform k r n where
  input : (checkInput k.account content assets platform).succeeds k = true

/-- The refresh of a Google account goes through, and the answer has another refresh token than the
one that was spent. -/
def LosesToken (f : Faults) (env : Env) (platform : Platform) (content : CampaignContent)
    (assets : List Asset) (k : Desk) : Prop :=
  platform = .google ∧ ∃ r n, GoesThrough f env platform content assets k r n ∧
    truthy r.refreshToken = true ∧ r.refreshToken ≠ some (oldToken env k.account)

variable {k' : Desk}

theorem decrypt_encrypt_map (hfernet : Fernet env.toEnv) (n : ℕ) (token : Option String) :
    (token.map (encryptToken env.toEnv n)).map (decryptToken env.toEnv) = token := by
  rcases token with _ | token
  · rfl
  · exact congrArg some (decrypt_encryptToken hfernet n token)

theorem decrypt_encrypted (hfernet : Fernet env.toEnv) (tokens : NewTokens)
    (account : SocialAccount) :
    (tokens.encrypted env account).refreshToken.map (decryptToken env.toEnv) =
      if truthy tokens.refreshToken = true then tokens.refreshToken
        else account.refreshToken.map (decryptToken env.toEnv) := by
  unfold NewTokens.encrypted
  split_ifs with hnew
  · exact decrypt_encrypt_map hfernet 1 tokens.refreshToken
  · rfl

/-- **What the handler hands on is what the endpoint gave**, or else the old refresh token, unless
it is Google's and the endpoint gave another one. -/
theorem handedOn_iff (platform : Platform) (r : TokenResponse) (old : String) :
    (if truthy (handedOn platform r old) = true then handedOn platform r old else some old) =
      (if truthy r.refreshToken = true then r.refreshToken else some old) ↔
    ¬ (platform = .google ∧ truthy r.refreshToken = true ∧ r.refreshToken ≠ some old) := by
  cases platform with
  | twitter => exact iff_of_true rfl (by simp)
  | linkedin =>
    refine iff_of_true ?_ (by simp)
    rcases hgiven : r.refreshToken with _ | given
    · simp [handedOn, hgiven, orElse, truthy]
    · by_cases hempty : given = ""
      · simp [handedOn, hgiven, orElse, truthy, hempty]
      · simp [handedOn, hgiven, orElse, truthy, hempty]
  | google =>
    have hnone : handedOn .google r old = none := rfl
    rw [hnone, if_neg (by simp [truthy])]
    by_cases hgiven : truthy r.refreshToken = true
    · simp [hgiven, eq_comm]
    · simp [hgiven]

/-- **What is stored is what the endpoint answered**, unless a refresh token was lost. -/
theorem renewed_iff_of_went (hfernet : Fernet env.toEnv) (hr : Renewable f env platform k r n)
    (h : Went env platform k tokens k') : Renewed env platform k.account (ofAccount k'.account) ↔
      ¬ (platform = .google ∧ truthy r.refreshToken = true ∧
        r.refreshToken ≠ some (oldToken env k.account)) := by
  obtain ⟨token, husable⟩ := hr.usable
  obtain rfl := Except.ok.inj (h.answer.symm.trans (refreshOf_of_usable husable))
  have hold : k.account.refreshToken.map (decryptToken env.toEnv) =
      some (oldToken env k.account) := by
    have hren := hr.refreshToken
    rcases hsome : k.account.refreshToken with _ | old
    · rw [hsome] at hren
      exact absurd hren (by simp [truthy])
    · rw [oldToken, hsome]
      rfl
  have hrefresh : (ofAccount k'.account).refreshToken.map (decryptToken env.toEnv) =
      if truthy (handedOn platform r (oldToken env k.account)) = true
        then handedOn platform r (oldToken env k.account) else some (oldToken env k.account) := by
    rw [h.memory, ← hold]
    exact decrypt_encrypted hfernet _ k.account
  have haccess : (ofAccount k'.account).accessToken.map (decryptToken env.toEnv) =
      r.accessToken := by
    rw [h.memory, husable.accessToken]
    exact decrypt_encrypt_map hfernet 0 (some token)
  have hexpires : (ofAccount k'.account).expiresAt = some (env.answeredAt + seconds n) := by
    rw [h.memory]
    rfl
  rw [← handedOn_iff platform r (oldToken env k.account), ← hrefresh]
  constructor
  · rintro ⟨r', -, hanswer, -, -, hnew, -⟩
    obtain rfl := Except.ok.inj (husable.answer.symm.trans hanswer)
    exact hnew
  · intro hnew
    exact ⟨r, n, husable.answer, husable.lifetime, haccess, hnew, hexpires⟩

theorem holds_of_went (h : Went env platform k tokens k') :
    Holds platform k k' (ofAccount k'.account) := by
  obtain ⟨conn, socAccount, token, T, A, hconn, hmem, hid, -, -, htoken, hT, hA, hdb⟩ := h.stored
  have hrow : conn ∈ k.db.integrationConnections.rows :=
    ((getByWorkspaceAndProvider_spec hconn).2.1 conn rfl).1
  have hmemory : ofAccount k'.account =
      ⟨(tokens.encrypted env k.account).accessToken, (tokens.encrypted env k.account).refreshToken,
        some (tokens.encrypted env k.account).expiresAt.instant⟩ := by
    rw [h.memory, htoken]
    rfl
  have hc := Table.mem_modify_self hT hrow rfl
  have ha := Table.mem_modify_self hA hmem rfl
  have haccount : ofAccount ((tokens.encrypted env k.account).writeAccount token socAccount) =
      ofAccount k'.account := by
    rw [hmemory, htoken]
    rfl
  refine ⟨⟨conn, hconn, (tokens.encrypted env k.account).writeConnection conn, ?_, rfl,
    hmemory.symm⟩, ⟨(tokens.encrypted env k.account).writeAccount token socAccount, ?_, hid,
    haccount⟩, rfl⟩
  · rw [hdb]
    exact hc
  · rw [hdb]
    exact ha

/-! ### The whole call -/

theorem frames_publishAs :
    (publishAs env platform content assets).Frames fun k => (k.db, k.account) := by
  refine Prog.frames_bind (Prog.frames_gets _) fun account => ?_
  exact Prog.frames_bind (Prog.frames_modify fun _ => rfl) fun _ => Prog.frames_ofExcept _

theorem calls_publishAs (env : Env) (platform : Platform) (content : CampaignContent)
    (assets : List Asset) (k : Desk) :
    (publishAs env platform content assets k).2.calls =
      .publish platform (decryptToken env.toEnv k.account.accessToken) :: k.calls := by
  have hget : (Prog.gets Desk.account : Work SocialAccount).Returns k k.account k :=
    Prog.returns_gets.mpr ⟨rfl, rfl⟩
  rw [publishAs, Prog.bind_of_returns hget]
  exact congrArg Desk.calls (Prog.frames_ofExcept (f := id) _ _)

/-- **What a publication with an expired token comes to**: the refresh goes through, the three
copies agree and the platform is asked, or the call raises with everything as it was. -/
theorem publishContentUnder_cases (f : Faults) (env : Env) (platform : Platform)
    (content : CampaignContent) (assets : List Asset) (k : Desk)
    (hexp : expiresSoon env k.account = true) :
    (∃ r n tokens k', GoesThrough f env platform content assets k r n ∧
      Went env platform k tokens k' ∧ publishContentUnder f env platform content assets k =
        publishAs env platform content assets k') ∨
    Failed (publishContentUnder f env platform content assets) platform k ∧
      ∀ r n, ¬ GoesThrough f env platform content assets k r n := by
  have hget : (Prog.gets Desk.account : Work SocialAccount).Returns k k.account k :=
    Prog.returns_gets.mpr ⟨rfl, rfl⟩
  have hrenew : refreshTokensUnder f env platform k = renewUnder f env platform k.account k := by
    rw [refreshTokensUnder, Prog.bind_of_returns hget, if_pos hexp]
  rcases (checkInput k.account content assets platform).returns_or_raises k with
    ⟨u, k₁, hcheck⟩ | ⟨e, k₁, hcheck⟩
  swap
  · refine Or.inr ⟨Failed.bind_of_returns hget (failed_of_frames frames_checkInput hcheck).bind,
      fun r n h => ?_⟩
    obtain ⟨u, k₂, hret⟩ := Prog.succeeds_iff.mp h.input
    exact Prog.not_raises_of_returns hret hcheck
  obtain rfl : k₁ = k := frames_checkInput.returns hcheck
  rcases renewUnder_cases f env platform k₁ with
    ⟨r, n, tokens, k', hren, hret, hwent⟩ | ⟨hfailed, hno⟩
  · refine Or.inl ⟨r, n, tokens, k', ⟨hren, Prog.succeeds_of_returns hcheck⟩, hwent, ?_⟩
    rw [publishContentUnder, Prog.bind_of_returns hget, Prog.bind_of_returns hcheck,
      Prog.bind_of_returns (hrenew.trans hret)]
  · refine Or.inr ⟨Failed.bind_of_returns hget (Failed.bind_of_returns hcheck (Failed.bind ?_)),
      fun r n h => hno r n h.toRenewable⟩
    obtain ⟨e, calls, hraise, hcalls⟩ := hfailed
    exact ⟨e, calls, hrenew.trans hraise, hcalls⟩

/-- A call that has asked the platform to publish has not failed so. -/
theorem not_failed_of_went (h : Went env platform k tokens k')
    (hrun : publishContentUnder f env platform content assets k =
      publishAs env platform content assets k') :
    ¬ Failed (publishContentUnder f env platform content assets) platform k := by
  rintro ⟨e, calls, hraise, hcalls⟩
  have hasked := calls_publishAs env platform content assets k'
  rw [← hrun, hraise, h.calls] at hasked
  rcases hcalls with rfl | ⟨token, rfl⟩
  · have hlength : k.calls.length = k.calls.length + 1 + 1 := congrArg List.length hasked
    omega
  · exact absurd (List.cons.inj hasked).1 (by simp)

/-- **A refresh is all or nothing**, at whatever point the refresh, a lookup or the commit fails,
unless it is Google's and a new refresh token is lost. -/
theorem all_or_nothing_iff (f : Faults) (env : Env) (hfernet : Fernet env.toEnv)
    (platform : Platform) (content : CampaignContent) (assets : List Asset) (k : Desk)
    (hexp : expiresSoon env k.account = true) :
    RenewsOrFails f env platform content assets k ↔
      ¬ LosesToken f env platform content assets k := by
  rcases publishContentUnder_cases f env platform content assets k hexp with
    ⟨r, n, tokens, k', hgoes, hwent, hrun⟩ | ⟨hfailed, hno⟩
  swap
  · refine iff_of_true (Or.inr hfailed) ?_
    rintro ⟨-, r, n, hgoes, -⟩
    exact hno r n hgoes
  have hloses : LosesToken f env platform content assets k ↔ platform = .google ∧
      truthy r.refreshToken = true ∧ r.refreshToken ≠ some (oldToken env k.account) := by
    constructor
    · rintro ⟨hgoogle, r', n', hgoes', hnew⟩
      obtain ⟨token, husable⟩ := hgoes.usable
      obtain ⟨token', husable'⟩ := hgoes'.usable
      obtain rfl := Except.ok.inj (husable.answer.symm.trans husable'.answer)
      exact ⟨hgoogle, hnew⟩
    · rintro ⟨hgoogle, hnew⟩
      exact ⟨hgoogle, r, n, hgoes, hnew⟩
  rw [hloses, ← renewed_iff_of_went hfernet hgoes.toRenewable hwent]
  have hsame : (publishAs env platform content assets k').2.db = k'.db ∧
      (publishAs env platform content assets k').2.account = k'.account :=
    Prod.mk.inj (frames_publishAs k')
  unfold RenewsOrFails
  rw [hrun]
  constructor
  · rintro (⟨x, hrenewed, hholds⟩ | hfailed)
    · obtain rfl : ofAccount k'.account = x := by
        rw [← hholds.memory, hsame.2]
      exact hrenewed
    · exact absurd hfailed (not_failed_of_went hwent hrun)
  · intro hrenewed
    obtain ⟨hconnection, haccount, -⟩ := holds_of_went hwent
    refine Or.inl ⟨ofAccount k'.account, hrenewed, ?_, ?_, congrArg ofAccount hsame.2⟩
    · rw [hsame.1]
      exact hconnection
    · rw [hsame.1]
      exact haccount

/-- The workspace with its connection under another name. -/
def renamed (name : String) : Database :=
  { connected with integrationConnections :=
      ⟨connected.integrationConnections.rows.map fun c => { c with provider := name },
        List.pairwise_singleton _ _⟩ }

theorem all_or_nothing_iff_renamed :
    RenewsOrFails {} twitter .twitter post [] ⟨renamed "TWITTER", studioAccount, []⟩ :=
  (all_or_nothing_iff {} twitter fernet_suite .twitter post []
    ⟨renamed "TWITTER", studioAccount, []⟩ (by decide)).mpr fun h => absurd h.1 (by decide)

/-- **Google's new refresh token is lost**: the three copies keep the old one beside the new access
token. -/
theorem google_loses_token :
    ¬ RenewsOrFails {} twitter .google post [] ⟨renamed "GOOGLE", studioAccount, []⟩ := by
  rintro (⟨x, ⟨r, n, hanswer, -, -, hrefresh, -⟩, hholds⟩ | ⟨e, calls, hraise, -⟩)
  · obtain rfl := Except.ok.inj hanswer
    obtain rfl := hholds.memory
    revert hrefresh
    decide
  · have hret : (publishContentUnder {} twitter .google post []
        ⟨renamed "GOOGLE", studioAccount, []⟩).1 = .ok "1000" := by decide
    rw [hraise] at hret
    cases hret

end MarketingSuite.Social.AllOrNothing
