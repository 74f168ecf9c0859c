import MarketingSuite.Sync.Accounts

/-! # What a result names

The accounts that a branch reads off a result, as a list, apart from the writes. The branches read
an entry, write it and go on to the next one; a branch that returns has read what `accountsOf` reads
and written all of it. -/

namespace MarketingSuite.Sync.Results

open MarketingSuite.Lib.Programs
open MarketingSuite.Base.Values MarketingSuite.Base.Models MarketingSuite.Base.Schema
open MarketingSuite.Base.Payloads MarketingSuite.Repositories.Base
open MarketingSuite.Sync.Engine

variable (env : Env) (connection : IntegrationConnection)

/-- The accounts that a result names, at which provider, and the refresh token written with them. -/
structure Listed where
  provider : ApiProvider
  refresh : Refresh
  accounts : List AccountData

/-- An entry that may name no account. -/
def one (read : Except Exc (Option AccountData)) : Except Exc (List AccountData) :=
  read.map Option.toList

/-- The accounts in the list of pages. -/
def pagesIn (pages : Json) : Except Exc (List AccountData) := do
  let pages ← iterate env.strOf pages
  Prog.collect (fun p => one (pageAccount env p.1 p.2)) pages.zipIdx

/-- The accounts in the list of profiles. -/
def instagramAccountsIn (profiles : Json) : Except Exc (List AccountData) := do
  let profiles ← iterate env.strOf profiles
  Prog.collect (fun p => one (instagramAccount env p.1 p.2)) profiles.zipIdx

/-- The accounts that are the locations of a business account. -/
def locationsIn (encryptedToken : String) (accountData : Json) : Except Exc (List AccountData) := do
  let locations ← get accountData "locations" (.arr [])
  let locations ← iterate env.strOf locations
  Prog.collect (fun location => one (locationAccount env encryptedToken accountData location))
    locations

/-- The accounts in the list of business accounts. -/
def businessAccountsIn (businessAccounts : Json) : Except Exc (List AccountData) :=
  match connection.accessToken with
  | none => .ok []
  | some token =>
    if token = "" then .ok []
    else do
      let accounts ← iterate env.strOf businessAccounts
      Prog.collect (locationsIn env (encryptToken env 0 (decryptToken env token))) accounts

/-- The accounts under a key of the result. -/
def under (result : Dict) (key : String) (provider : ApiProvider) (refresh : Refresh)
    (accounts : Json → Except Exc (List AccountData)) : Except Exc Listed :=
  match result.lookup key with
  | some value => (accounts value).map fun l => ⟨provider, refresh, l⟩
  | none => .ok ⟨provider, refresh, []⟩

/-- The accounts that a result names. -/
def accountsOf (result : Dict) : Except Exc Listed :=
  if connection.provider = "facebook" then under result "pages" .meta none (pagesIn env)
  else if connection.provider = "instagram" then
    under result "instagram_accounts" .instagram none (instagramAccountsIn env)
  else if connection.provider = "linkedin" then
    under result "profile" .linkedin none fun j => one (linkedinAccount env connection j)
  else if connection.provider = "twitter" then
    under result "profile" .twitter (refreshOf env connection) fun j =>
      one (twitterAccount env connection j)
  else if connection.provider = "google" then
    under result "business_accounts" .google (refreshOf env connection)
      (businessAccountsIn env connection)
  else .ok ⟨.mock, none, []⟩

variable {env connection} {w : Uuid} {p : ApiProvider} {refresh : Refresh} {s s' : Database}

/-- Upsert a list of accounts. -/
def saveAll (env : Env) (w : Uuid) (p : ApiProvider) (refresh : Refresh) (l : List AccountData) :
    Svc Unit :=
  Prog.forEach (upsertAccount env w p refresh) l

/-- A program that upserts what `read` reads. -/
def Saves (env : Env) (w : Uuid) (p : ApiProvider) (refresh : Refresh)
    (read : Except Exc (List AccountData)) (q : Svc Unit) : Prop :=
  ∀ s s', q.Returns s () s' ↔ ∃ l, read = .ok l ∧ (saveAll env w p refresh l).Returns s () s'

theorem saves_saveAccount (read : Except Exc (Option AccountData)) :
    Saves env w p refresh (one read) (saveAccount env w p refresh read) := by
  intro s s'
  rcases read with e | _ | a
  · simp [saveAccount, one, Except.map]
  · simp [saveAccount, one, Except.map, saveAll, Prog.forEach]
  · simp only [saveAccount, one, Except.map, saveAll, Option.toList_some]
    constructor
    · intro h
      exact ⟨[a], rfl, Prog.returns_bind.mpr ⟨(), s', h, Prog.returns_pure.mpr ⟨rfl, rfl⟩⟩⟩
    · rintro ⟨l, hl, h⟩
      obtain rfl := Except.ok.inj hl
      obtain ⟨_, t, h, h'⟩ := Prog.returns_bind.mp h
      obtain ⟨-, rfl⟩ := Prog.returns_pure.mp h'
      exact h

theorem saves_bind {α : Type} {x : Except Exc α} {read : α → Except Exc (List AccountData)}
    {q : α → Svc Unit} (h : ∀ a, Saves env w p refresh (read a) (q a)) :
    Saves env w p refresh (x >>= read) (Prog.ofExcept x >>= q) := by
  intro s s'
  simp only [Prog.returns_bind, Prog.returns_ofExcept]
  rcases x with e | a
  · simp [bind, Except.bind]
  · constructor
    · rintro ⟨_, _, ⟨ha, rfl⟩, hq⟩
      obtain rfl := Except.ok.inj ha
      exact (h _ _ _).mp hq
    · intro hl
      exact ⟨a, s, ⟨rfl, rfl⟩, (h a s s').mpr hl⟩

theorem saves_forEach {γ : Type} {f : γ → Except Exc (List AccountData)} {q : γ → Svc Unit}
    (h : ∀ c, Saves env w p refresh (f c) (q c)) (l : List γ) :
    Saves env w p refresh (Prog.collect f l) (Prog.forEach q l) :=
  fun _ _ => Prog.returns_forEach_collect fun c s s' => h c s s'

theorem saves_none : Saves env w p refresh (.ok []) (pure ()) := by
  intro s s'
  simp [saveAll, Prog.forEach]

theorem saves_pages (j : Json) : Saves env w .meta none (pagesIn env j) (savePages env w j) :=
  saves_bind fun l => saves_forEach (fun _ => saves_saveAccount _) l.zipIdx

theorem saves_instagramAccounts (j : Json) :
    Saves env w .instagram none (instagramAccountsIn env j) (saveInstagramAccounts env w j) :=
  saves_bind fun l => saves_forEach (fun _ => saves_saveAccount _) l.zipIdx

theorem saves_businessAccounts (j : Json) :
    Saves env w .google (refreshOf env connection) (businessAccountsIn env connection j)
      (saveBusinessAccounts env w connection j) := by
  unfold businessAccountsIn saveBusinessAccounts
  rcases connection.accessToken with _ | token
  · exact saves_none
  · by_cases htoken : token = ""
    · simp only [htoken, if_pos]
      exact saves_none
    · simp only [if_neg htoken]
      refine saves_bind fun l => saves_forEach (fun _ => ?_) l
      exact saves_bind fun _ => saves_bind fun l => saves_forEach (fun _ => saves_saveAccount _) l

theorem returns_bridge {result : Dict} {key : String} {read : Json → Except Exc (List AccountData)}
    {q : Json → Svc Unit} (h : ∀ j, Saves env w p refresh (read j) (q j)) :
    (bridge result key q).Returns s () s' ↔ ∃ x, under result key p refresh read = .ok x ∧
      (saveAll env w x.provider x.refresh x.accounts).Returns s () s' := by
  unfold bridge under
  rcases result.lookup key with _ | j
  · simp [saveAll, Prog.forEach]
  · simp only [h j s s']
    rcases read j with e | l
    · simp [Except.map]
    · simp [Except.map]

/-- **The bridges**: the result can be read, and all that it names is upserted. -/
theorem returns_persist {result : Dict} : (persist env w connection result).Returns s () s' ↔
    ∃ x, accountsOf env connection result = .ok x ∧
      (saveAll env w x.provider x.refresh x.accounts).Returns s () s' := by
  unfold persist accountsOf
  split_ifs
  · exact returns_bridge saves_pages
  · exact returns_bridge saves_instagramAccounts
  · exact returns_bridge fun _ => saves_saveAccount _
  · exact returns_bridge fun _ => saves_saveAccount _
  · exact returns_bridge saves_businessAccounts
  · simp [saveAll, Prog.forEach]

end MarketingSuite.Sync.Results
