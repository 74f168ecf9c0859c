import MarketingSuite.Sync.Results

/-! # The entries of a result

Which results a branch of the sync can read, and the accounts that it finds in them, field by field
and without the exceptions. An entry without a token, or in some branches without an id, names no
account. -/

namespace MarketingSuite.Sync.Entries

open MarketingSuite.Lib.Programs
open MarketingSuite.Base.Values MarketingSuite.Base.Models
open MarketingSuite.Base.Payloads
open MarketingSuite.Sync.Engine MarketingSuite.Sync.Results

/-! ### Fields -/

/-- The value under a key of a dictionary, or `default`. -/
def field (j : Json) (key : String) (default : Json) : Json :=
  match j with
  | .obj l => (l.lookup key).getD default
  | _ => default

/-- A dictionary has the key. -/
def hasKey (j : Json) (key : String) : Bool :=
  match j with
  | .obj l => (l.lookup key).isSome
  | _ => false

variable (env : Env)

/-- The text of a string. -/
def text (j : Json) : String := (asStr env.strOf j).getD ""

/-- What a loop over `j` goes through. -/
def elements (j : Json) : List Json :=
  match iterate env.strOf j with
  | .ok l => l
  | .error _ => []

/-- A loop can go through `j`, and all that it finds satisfies `P`. -/
def Each (P : Json → Prop) (j : Json) : Prop :=
  (∃ l, iterate env.strOf j = .ok l) ∧ ∀ x ∈ elements env j, P x

variable {env} {j entry token name : Json} {key : String} {default v : Json} {k : ℕ}

theorem get_eq_ok : Base.Payloads.get j key default = .ok v ↔
    isObject j = true ∧ v = field j key default := by
  cases j <;> simp [Base.Payloads.get, isObject, field, eq_comm]

theorem get_of_isObject (h : isObject j = true) (key : String) (default : Json) :
    Base.Payloads.get j key default = .ok (field j key default) := get_eq_ok.mpr ⟨h, rfl⟩

theorem subscript_eq_ok : subscript j key = .ok v ↔ hasKey j key = true ∧ v = field j key .null := by
  cases j with
  | obj l => rcases hl : l.lookup key with _ | u <;> simp [subscript, item, hasKey, field, hl, eq_comm]
  | _ => simp [subscript, hasKey]

theorem asStr_eq_some {t : String} :
    asStr env.strOf j = some t ↔ isText j = true ∧ t = text env j := by
  cases j <;> simp [asStr, isText, text, eq_comm]

theorem storeText_eq_ok {t : String} :
    storeText env.strOf j = .ok t ↔ isText j = true ∧ t = text env j := by
  cases j <;> simp [storeText, bindText, asStr, isText, text, eq_comm]

theorem bindText_eq_ok_some {t : String} :
    bindText env.strOf j = .ok (some t) ↔ isText j = true ∧ t = text env j := by
  cases j <;> simp [bindText, asStr, isText, text, eq_comm]

theorem hasKey_of_isText (h : isText (field j key .null) = true) : hasKey j key = true := by
  cases j with
  | obj l =>
    rcases hl : l.lookup key with _ | u
    · simp [field, hl, isText] at h
    · simp [hasKey, hl]
  | _ => simp [field, isText] at h

theorem ok_eq_ok {α : Type} {a b : α} : (.ok a : Except Exc α) = .ok b ↔ b = a :=
  ⟨fun h => (Except.ok.inj h).symm, fun h => by rw [h]⟩

theorem map_eq_ok {α β : Type} {x : Except Exc α} {f : α → β} {b : β} :
    x.map f = .ok b ↔ ∃ a, x = .ok a ∧ b = f a := by
  rcases x with e | a
  · simp [Except.map]
  · simp only [Except.map, Except.ok.injEq, exists_eq_left', eq_comm]

/-! ### One entry -/

section Entry

variable (env) (connection : IntegrationConnection)

/-- An entry with a token has an id and a name. -/
def Complete (entry token name : Json) : Prop :=
  isTruthy token = true →
    isText token = true ∧ isText (field entry "id" .null) = true ∧ isText name = true

/-- The account that an entry names, if it has a token. -/
def entryAccount (k : ℕ) (entry token name : Json) : Option AccountData :=
  if isTruthy token = true then
    some ⟨text env (field entry "id" .null), text env name, encryptToken env k (text env token)⟩
  else none

def pageToken (page : Json) : Json := field page "access_token" .null

def profileToken (profile : Json) : Json := field profile "page_access_token" .null

/-- `profile.get("username") or profile.get("name") or default`. -/
def userName (profile : Json) (default : String) : Json :=
  either (either (field profile "username" .null) (field profile "name" .null)) (.str default)

/-- The token that an account gets from its connection. -/
def bridged : Option String :=
  match connection.accessToken with
  | none => none
  | some token => if token = "" then none else some (encryptToken env 0 (decryptToken env token))

/-- The name of the member of LinkedIn. -/
def memberName (profile : Json) : String :=
  orElse (some (strip (env.strOf (field profile "localizedFirstName" (.str "")) ++ " " ++
    env.strOf (field profile "localizedLastName" (.str ""))))) "LinkedIn Member"

def linkedinEntry (profile : Json) : Option AccountData :=
  if isTruthy (field profile "sub" .null) = true then
    (bridged env connection).map fun token =>
      ⟨"urn:li:person:" ++ env.strOf (field profile "sub" .null), memberName env profile, token⟩
  else none

def twitterEntry (profile : Json) : Option AccountData :=
  if isTruthy (field profile "id" .null) = true then
    (bridged env connection).map fun token =>
      ⟨env.strOf (field profile "id" .null), text env (userName profile "X Member"), token⟩
  else none

def locationName (location : Json) : Json :=
  either (field location "location_name" .null) (.str "GBP Location")

def locationEntry (token : String) (accountData location : Json) : Option AccountData :=
  if isTruthy (field location "location_id" .null) = true then
    some ⟨"accounts/" ++ env.strOf (field accountData "account_id" .null) ++ "/locations/" ++
      env.strOf (field location "location_id" .null), text env (locationName location), token⟩
  else none

end Entry

variable {connection : IntegrationConnection} {o : Option AccountData}

theorem ofEntry_eq_ok {read : Except Exc Json}
    (hread : ∀ t, (read >>= storeText env.strOf) = .ok t ↔ isText name = true ∧ t = text env name) :
    ofEntry env k entry token read = .ok o ↔
      Complete entry token name ∧ o = entryAccount env k entry token name := by
  unfold ofEntry Complete entryAccount
  rcases htruthy : isTruthy token with _ | _
  · exact ⟨fun h => ⟨fun h => by simp at h, (Except.ok.inj h).symm⟩, fun h => by rw [h.2]; rfl⟩
  simp only [Bool.true_eq_false, if_false, if_true, forall_const, Prog.bind_eq_ok]
  constructor
  · rintro ⟨id, hid, accountId, hbind, h⟩
    obtain ⟨-, rfl⟩ := subscript_eq_ok.mp hid
    rcases hstr : asStr env.strOf token with _ | tokenText
    · rw [hstr] at h
      cases h
    rw [hstr] at h
    obtain ⟨htokenText, rfl⟩ := asStr_eq_some.mp hstr
    obtain ⟨accessToken, haccess, h⟩ := Prog.bind_eq_ok.mp h
    obtain rfl := Except.ok.inj haccess
    obtain ⟨name', hname', h⟩ := Prog.bind_eq_ok.mp h
    rcases accountId with _ | accountId
    · cases h
    obtain ⟨_, haccount, h⟩ := Prog.bind_eq_ok.mp h
    obtain rfl := Except.ok.inj haccount
    obtain ⟨hidText, rfl⟩ := bindText_eq_ok_some.mp hbind
    obtain ⟨n, hn, h⟩ := Prog.bind_eq_ok.mp h
    obtain ⟨hnameText, rfl⟩ := (hread n).mp (Prog.bind_eq_ok.mpr ⟨name', hname', hn⟩)
    exact ⟨⟨htokenText, hidText, hnameText⟩, (Except.ok.inj h).symm⟩
  · rintro ⟨⟨htokenText, hidText, hnameText⟩, rfl⟩
    obtain ⟨name', hname', hn⟩ := Prog.bind_eq_ok.mp ((hread _).mpr ⟨hnameText, rfl⟩)
    refine ⟨_, subscript_eq_ok.mpr ⟨hasKey_of_isText hidText, rfl⟩, _,
      bindText_eq_ok_some.mpr ⟨hidText, rfl⟩, ?_⟩
    rw [asStr_eq_some.mpr ⟨htokenText, rfl⟩]
    exact Prog.bind_eq_ok.mpr ⟨_, rfl, Prog.bind_eq_ok.mpr
      ⟨name', hname', Prog.bind_eq_ok.mpr ⟨_, rfl, Prog.bind_eq_ok.mpr ⟨_, hn, rfl⟩⟩⟩⟩

theorem pageAccount_eq_ok : pageAccount env entry k = .ok o ↔
    (isObject entry = true ∧ Complete entry (pageToken entry) (field entry "name" .null)) ∧
      o = entryAccount env k entry (pageToken entry) (field entry "name" .null) := by
  have hread : ∀ t, (subscript entry "name" >>= storeText env.strOf) = .ok t ↔
      isText (field entry "name" .null) = true ∧ t = text env (field entry "name" .null) := by
    intro t
    rw [Prog.bind_eq_ok]
    constructor
    · rintro ⟨v, hv, ht⟩
      obtain ⟨-, rfl⟩ := subscript_eq_ok.mp hv
      exact storeText_eq_ok.mp ht
    · rintro ⟨hname, rfl⟩
      exact ⟨_, subscript_eq_ok.mpr ⟨hasKey_of_isText hname, rfl⟩, storeText_eq_ok.mpr ⟨hname, rfl⟩⟩
  unfold pageAccount
  rw [Prog.bind_eq_ok]
  constructor
  · rintro ⟨token, htoken, h⟩
    obtain ⟨hentry, rfl⟩ := get_eq_ok.mp htoken
    obtain ⟨hcomplete, rfl⟩ := (ofEntry_eq_ok hread).mp h
    exact ⟨⟨hentry, hcomplete⟩, rfl⟩
  · rintro ⟨⟨hentry, hcomplete⟩, rfl⟩
    exact ⟨_, get_eq_ok.mpr ⟨hentry, rfl⟩, (ofEntry_eq_ok hread).mpr ⟨hcomplete, rfl⟩⟩

theorem instagramAccount_eq_ok : instagramAccount env entry k = .ok o ↔
    (isObject entry = true ∧
        Complete entry (profileToken entry) (userName entry "Unknown")) ∧
      o = entryAccount env k entry (profileToken entry) (userName entry "Unknown") := by
  unfold instagramAccount
  rw [Prog.bind_eq_ok]
  constructor
  · rintro ⟨token, htoken, h⟩
    obtain ⟨hentry, rfl⟩ := get_eq_ok.mp htoken
    rw [get_of_isObject hentry, get_of_isObject hentry] at h
    obtain ⟨hcomplete, rfl⟩ := (ofEntry_eq_ok fun _ => storeText_eq_ok).mp h
    exact ⟨⟨hentry, hcomplete⟩, rfl⟩
  · rintro ⟨⟨hentry, hcomplete⟩, rfl⟩
    refine ⟨_, get_eq_ok.mpr ⟨hentry, rfl⟩, ?_⟩
    rw [get_of_isObject hentry, get_of_isObject hentry]
    exact (ofEntry_eq_ok fun _ => storeText_eq_ok).mpr ⟨hcomplete, rfl⟩

theorem linkedinAccount_eq_ok : linkedinAccount env connection entry = .ok o ↔
    isObject entry = true ∧ o = linkedinEntry env connection entry := by
  have hread : isObject entry = true →
      linkedinAccount env connection entry = .ok (linkedinEntry env connection entry) := by
    intro hentry
    simp only [linkedinAccount, linkedinEntry, bridged, get_of_isObject hentry, Prog.ok_bind]
    rcases isTruthy (field entry "sub" .null) with _ | _
    · rfl
    · rcases connection.accessToken with _ | token
      · rfl
      · by_cases hempty : token = ""
        · simp only [hempty, if_true]
          rfl
        · simp only [hempty, if_false]
          rfl
  constructor
  · intro h
    obtain ⟨sub, hsub, -⟩ := Prog.bind_eq_ok.mp h
    obtain ⟨hentry, -⟩ := get_eq_ok.mp hsub
    exact ⟨hentry, Except.ok.inj (h.symm.trans (hread hentry))⟩
  · rintro ⟨hentry, rfl⟩
    exact hread hentry

/-- Twitter's profile is read as this is: its id, the token, its name. -/
theorem twitterAccount_eq (hentry : isObject entry = true) :
    twitterAccount env connection entry = if isTruthy (field entry "id" .null) = true then
      match bridged env connection with
      | none => .ok none
      | some token => (storeText env.strOf (userName entry "X Member")).map fun name =>
          some ⟨env.strOf (field entry "id" .null), name, token⟩
      else .ok none := by
  simp only [twitterAccount, bridged, get_of_isObject hentry, Prog.ok_bind]
  rcases isTruthy (field entry "id" .null) with _ | _
  · rfl
  · rcases connection.accessToken with _ | token
    · rfl
    · by_cases hempty : token = ""
      · simp only [hempty, if_true]
        rfl
      · simp only [hempty, if_false]
        rfl

theorem twitterAccount_eq_ok : twitterAccount env connection entry = .ok o ↔
    (isObject entry = true ∧ (isTruthy (field entry "id" .null) = true →
        (bridged env connection).isSome = true → isText (userName entry "X Member") = true)) ∧
      o = twitterEntry env connection entry := by
  have hread : isObject entry = true → (twitterAccount env connection entry = .ok o ↔
      (isTruthy (field entry "id" .null) = true → (bridged env connection).isSome = true →
        isText (userName entry "X Member") = true) ∧ o = twitterEntry env connection entry) := by
    intro hentry
    rw [twitterAccount_eq hentry, twitterEntry]
    rcases isTruthy (field entry "id" .null) with _ | _
    · rw [if_neg (by decide), if_neg (by decide), ok_eq_ok]
      simp only [Bool.false_eq_true, false_implies, true_and]
    rcases bridged env connection with _ | token
    · simp only [if_true, ok_eq_ok, Option.map_none, Option.isSome_none, Bool.false_eq_true,
        false_implies, implies_true, true_and]
    simp only [if_true, Option.map_some, Option.isSome_some, forall_const]
    rw [map_eq_ok]
    constructor
    · rintro ⟨name, hname, rfl⟩
      obtain ⟨htext, rfl⟩ := storeText_eq_ok.mp hname
      exact ⟨htext, rfl⟩
    · rintro ⟨htext, rfl⟩
      exact ⟨_, storeText_eq_ok.mpr ⟨htext, rfl⟩, rfl⟩
  constructor
  · intro h
    obtain ⟨sub, hsub, -⟩ := Prog.bind_eq_ok.mp h
    obtain ⟨hentry, -⟩ := get_eq_ok.mp hsub
    obtain ⟨hname, ho⟩ := (hread hentry).mp h
    exact ⟨⟨hentry, hname⟩, ho⟩
  · rintro ⟨⟨hentry, hname⟩, ho⟩
    exact (hread hentry).mpr ⟨hname, ho⟩

theorem locationAccount_eq_ok {token : String} {accountData location : Json} :
    locationAccount env token accountData location = .ok o ↔
      (isObject location = true ∧ (isTruthy (field location "location_id" .null) = true →
        hasKey accountData "account_id" = true ∧ isText (locationName location) = true)) ∧
      o = locationEntry env token accountData location := by
  have hread : isObject location = true → (locationAccount env token accountData location = .ok o ↔
      (isTruthy (field location "location_id" .null) = true →
        hasKey accountData "account_id" = true ∧ isText (locationName location) = true) ∧
      o = locationEntry env token accountData location) := by
    intro hlocation
    simp only [locationAccount, get_of_isObject hlocation, Prog.ok_bind, locationEntry]
    rcases isTruthy (field location "location_id" .null) with _ | _
    · rw [if_pos rfl, if_neg (by decide)]
      refine ok_eq_ok.trans ?_
      simp only [Bool.false_eq_true, false_implies, true_and]
    simp only [Bool.true_eq_false, if_false, if_true, forall_const, Prog.bind_eq_ok]
    constructor
    · rintro ⟨id, hid, name, hname, h⟩
      obtain ⟨hkey, rfl⟩ := subscript_eq_ok.mp hid
      obtain ⟨htext, rfl⟩ := storeText_eq_ok.mp hname
      exact ⟨⟨hkey, htext⟩, (Except.ok.inj h).symm⟩
    · rintro ⟨⟨hkey, htext⟩, rfl⟩
      exact ⟨_, subscript_eq_ok.mpr ⟨hkey, rfl⟩, _, storeText_eq_ok.mpr ⟨htext, rfl⟩, rfl⟩
  constructor
  · intro h
    obtain ⟨id, hid, -⟩ := Prog.bind_eq_ok.mp h
    obtain ⟨hlocation, -⟩ := get_eq_ok.mp hid
    obtain ⟨hcomplete, ho⟩ := (hread hlocation).mp h
    exact ⟨⟨hlocation, hcomplete⟩, ho⟩
  · rintro ⟨⟨hlocation, hcomplete⟩, ho⟩
    exact (hread hlocation).mpr ⟨hcomplete, ho⟩

/-! ### The whole result -/

section Result

variable (env) (connection : IntegrationConnection) (result : Dict)

def PageOk (page : Json) : Prop :=
  isObject page = true ∧ Complete page (pageToken page) (field page "name" .null)

def InstagramOk (profile : Json) : Prop :=
  isObject profile = true ∧ Complete profile (profileToken profile) (userName profile "Unknown")

def TwitterOk (profile : Json) : Prop :=
  isObject profile = true ∧ (isTruthy (field profile "id" .null) = true →
    (bridged env connection).isSome = true → isText (userName profile "X Member") = true)

def LocationOk (accountData location : Json) : Prop :=
  isObject location = true ∧ (isTruthy (field location "location_id" .null) = true →
    hasKey accountData "account_id" = true ∧ isText (locationName location) = true)

def BusinessOk (accountData : Json) : Prop :=
  isObject accountData = true ∧
    Each env (LocationOk accountData) (field accountData "locations" (.arr []))

/-- **A readable result**: under the key of the branch there is what the branch goes through, and
every entry with a token, or with an id where the branch asks for that first, has what the branch
subscripts and writes as a text. -/
def Readable : Prop :=
  if connection.provider = "facebook" then
    ∀ pages, result.lookup "pages" = some pages → Each env PageOk pages
  else if connection.provider = "instagram" then
    ∀ profiles, result.lookup "instagram_accounts" = some profiles → Each env InstagramOk profiles
  else if connection.provider = "linkedin" then
    ∀ profile, result.lookup "profile" = some profile → isObject profile = true
  else if connection.provider = "twitter" then
    ∀ profile, result.lookup "profile" = some profile → TwitterOk env connection profile
  else if connection.provider = "google" then
    ∀ accounts, result.lookup "business_accounts" = some accounts →
      (bridged env connection).isSome = true → Each env (BusinessOk env) accounts
  else True

/-- The accounts that the pages of Facebook name. -/
def pageEntries (pages : Json) : List AccountData :=
  (elements env pages).zipIdx.filterMap fun p =>
    entryAccount env p.2 p.1 (pageToken p.1) (field p.1 "name" .null)

/-- The accounts that the profiles of Instagram name. -/
def instagramEntries (profiles : Json) : List AccountData :=
  (elements env profiles).zipIdx.filterMap fun p =>
    entryAccount env p.2 p.1 (profileToken p.1) (userName p.1 "Unknown")

/-- The accounts that the locations of Google's business accounts name. -/
def businessEntries (accounts : Json) : List AccountData :=
  match bridged env connection with
  | none => []
  | some token => (elements env accounts).flatMap fun accountData =>
    (elements env (field accountData "locations" (.arr []))).filterMap
      (locationEntry env token accountData)

/-- What a branch finds under its key. -/
def found (key : String) (provider : ApiProvider) (refresh : Refresh)
    (entries : Json → List AccountData) : Listed :=
  ⟨provider, refresh, match result.lookup key with
    | some value => entries value
    | none => []⟩

/-- **The accounts that a result names**, in the order of their entries. -/
def listed : Listed :=
  if connection.provider = "facebook" then found result "pages" .meta none (pageEntries env)
  else if connection.provider = "instagram" then
    found result "instagram_accounts" .instagram none (instagramEntries env)
  else if connection.provider = "linkedin" then
    found result "profile" .linkedin none fun j => (linkedinEntry env connection j).toList
  else if connection.provider = "twitter" then
    found result "profile" .twitter (refreshOf env connection) fun j =>
      (twitterEntry env connection j).toList
  else if connection.provider = "google" then
    found result "business_accounts" .google (refreshOf env connection)
      (businessEntries env connection)
  else ⟨.mock, none, []⟩

end Result

variable {result : Dict} {x : Listed} {l : List AccountData}

theorem one_eq_ok {read : Except Exc (Option AccountData)} {P : Prop} {o : Option AccountData}
    (h : ∀ b, read = .ok b ↔ P ∧ b = o) : one read = .ok l ↔ P ∧ l = o.toList := by
  unfold one
  simp only [map_eq_ok, h]
  constructor
  · rintro ⟨_, ⟨hP, rfl⟩, rfl⟩
    exact ⟨hP, rfl⟩
  · rintro ⟨hP, rfl⟩
    exact ⟨_, ⟨hP, rfl⟩, rfl⟩

theorem iterate_bind_eq_ok {f : List Json → Except Exc (List AccountData)} {P : Json → Prop}
    {g : List Json → List AccountData}
    (h : ∀ entries l, f entries = .ok l ↔ (∀ x ∈ entries, P x) ∧ l = g entries) :
    (iterate env.strOf j >>= f) = .ok l ↔ Each env P j ∧ l = g (elements env j) := by
  unfold Each elements
  rcases iterate env.strOf j with e | entries
  · simp [bind, Except.bind]
  · simp only [Prog.ok_bind, h, Except.ok.injEq, exists_eq', true_and]

theorem collect_zipIdx_eq_ok {read : Json × ℕ → Except Exc (Option AccountData)} {P : Json → Prop}
    {g : Json × ℕ → Option AccountData} (h : ∀ p b, read p = .ok b ↔ P p.1 ∧ b = g p)
    (entries : List Json) (l : List AccountData) :
    Prog.collect (fun p => one (read p)) entries.zipIdx = .ok l ↔
      (∀ x ∈ entries, P x) ∧ l = entries.zipIdx.filterMap g := by
  rw [Prog.collect_eq_ok fun p _ => one_eq_ok (h p), List.filterMap_eq_flatMap_toList]
  have hall : (∀ p ∈ entries.zipIdx, P p.1) ↔ ∀ x ∈ entries, P x := by
    rw [← List.forall_mem_map, List.zipIdx_map_fst]
  rw [hall]

theorem collect_one_eq_ok {read : Json → Except Exc (Option AccountData)} {P : Json → Prop}
    {g : Json → Option AccountData} (h : ∀ j b, read j = .ok b ↔ P j ∧ b = g j)
    (entries : List Json) (l : List AccountData) :
    Prog.collect (fun j => one (read j)) entries = .ok l ↔
      (∀ x ∈ entries, P x) ∧ l = entries.filterMap g := by
  rw [Prog.collect_eq_ok fun j _ => one_eq_ok (h j), List.filterMap_eq_flatMap_toList]

theorem locationsIn_eq_ok {token : String} : locationsIn env token j = .ok l ↔
    BusinessOk env j ∧
      l = (elements env (field j "locations" (.arr []))).filterMap (locationEntry env token j) := by
  have hloop : ∀ locations l, (iterate env.strOf locations >>= fun entries => Prog.collect
      (fun location => one (locationAccount env token j location)) entries) = .ok l ↔
        Each env (LocationOk j) locations ∧
          l = (elements env locations).filterMap (locationEntry env token j) :=
    fun _ _ => iterate_bind_eq_ok (collect_one_eq_ok fun _ _ => locationAccount_eq_ok)
  unfold locationsIn BusinessOk
  rw [Prog.bind_eq_ok]
  constructor
  · rintro ⟨locations, hget, h⟩
    obtain ⟨hobject, rfl⟩ := get_eq_ok.mp hget
    obtain ⟨heach, rfl⟩ := (hloop _ _).mp h
    exact ⟨⟨hobject, heach⟩, rfl⟩
  · rintro ⟨⟨hobject, heach⟩, rfl⟩
    exact ⟨_, get_eq_ok.mpr ⟨hobject, rfl⟩, (hloop _ _).mpr ⟨heach, rfl⟩⟩

theorem businessAccountsIn_eq_ok :
    businessAccountsIn env connection j = .ok l ↔
      ((bridged env connection).isSome = true → Each env (BusinessOk env) j) ∧
        l = businessEntries env connection j := by
  have hloop : ∀ token, (iterate env.strOf j >>= Prog.collect (locationsIn env token)) = .ok l ↔
      Each env (BusinessOk env) j ∧ l = (elements env j).flatMap fun accountData =>
        (elements env (field accountData "locations" (.arr []))).filterMap
          (locationEntry env token accountData) :=
    fun token => iterate_bind_eq_ok fun _ _ => Prog.collect_eq_ok fun _ _ => locationsIn_eq_ok
  unfold businessAccountsIn businessEntries bridged
  rcases connection.accessToken with _ | token
  · simp only [Option.isSome_none, Bool.false_eq_true, false_implies, true_and]
    exact ok_eq_ok
  by_cases hempty : token = ""
  · simp only [if_pos hempty, Option.isSome_none, Bool.false_eq_true, false_implies, true_and]
    exact ok_eq_ok
  · simp only [if_neg hempty, Option.isSome_some, forall_const]
    exact hloop _

theorem under_eq_ok {key : String} {provider : ApiProvider} {refresh : Refresh}
    {read : Json → Except Exc (List AccountData)} {P : Json → Prop} {g : Json → List AccountData}
    (h : ∀ j l, read j = .ok l ↔ P j ∧ l = g j) :
    under result key provider refresh read = .ok x ↔
      (∀ value, result.lookup key = some value → P value) ∧ x = found result key provider refresh g := by
  unfold under found
  rcases result.lookup key with _ | value
  · simp only [reduceCtorEq, false_implies, implies_true, true_and]
    exact ok_eq_ok
  · simp only [map_eq_ok, h, Option.some.injEq, forall_eq']
    constructor
    · rintro ⟨_, ⟨hP, rfl⟩, rfl⟩
      exact ⟨hP, rfl⟩
    · rintro ⟨hP, rfl⟩
      exact ⟨_, ⟨hP, rfl⟩, rfl⟩

/-- **What a branch reads off a result**: the result is readable, and names these accounts. -/
theorem accountsOf_eq_ok : accountsOf env connection result = .ok x ↔
    Readable env connection result ∧ x = listed env connection result := by
  unfold accountsOf Readable listed
  split_ifs
  · exact under_eq_ok fun j l => iterate_bind_eq_ok (collect_zipIdx_eq_ok fun _ _ =>
      pageAccount_eq_ok)
  · exact under_eq_ok fun j l => iterate_bind_eq_ok (collect_zipIdx_eq_ok fun _ _ =>
      instagramAccount_eq_ok)
  · exact under_eq_ok fun j l => one_eq_ok fun _ => linkedinAccount_eq_ok
  · exact under_eq_ok fun j l => one_eq_ok fun _ => twitterAccount_eq_ok
  · exact under_eq_ok fun j l => businessAccountsIn_eq_ok
  · simp only [true_and]
    exact ok_eq_ok

end MarketingSuite.Sync.Entries
