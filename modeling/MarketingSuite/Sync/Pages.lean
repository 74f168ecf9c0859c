import MarketingSuite.Integrations.Meta
import MarketingSuite.Sync.Idempotence

/-! # The pages that a sync stores

Of the pages that Meta's `/me/accounts` lists, the engine skips those without a token. But before
that the connector validates the whole list against a schema which requires a token of every page,
so that one page without a token stops the sync of all of them. -/

namespace MarketingSuite.Sync.Pages

open MarketingSuite.Lib.Programs MarketingSuite.Lib.Tables MarketingSuite.Lib.Upserts
open MarketingSuite.Base.Values MarketingSuite.Base.Models MarketingSuite.Base.Schema
open MarketingSuite.Base.Payloads
open MarketingSuite.Sync.Engine MarketingSuite.Sync.Accounts
open MarketingSuite.Sync.Durability MarketingSuite.Sync.Entries MarketingSuite.Sync.Idempotence
open MarketingSuite.Integrations.Meta
open MarketingSuite.Integrations.Connections (Fernet decrypt_encryptToken)

/-! ### What a schema accepts -/

/-- A value of type `Optional[str]`. -/
def isOptionalText : Json → Bool
  | .null => true
  | j => isText j

/-- A value of type `List[str]`. -/
def isTextList : Json → Bool
  | .arr vs => vs.all isText
  | _ => false

/-- A value of type `Optional[Dict[str, str]]`. -/
def isOptionalTextDict : Json → Bool
  | .null => true
  | .obj vs => vs.all fun p => isText p.2
  | _ => false

variable {l : Dict} {key : String} {v u : Json}

theorem field_obj (default : Json) : field (.obj l) key default = (l.lookup key).getD default := rfl

theorem always_eq_ok {c : Prop} (h : c) : (.ok u : Except Exc Json) = .ok v ↔ c ∧ v = u :=
  ok_eq_ok.trans (and_iff_right h).symm

theorem never_eq_ok {c : Prop} {e : Exc} (h : ¬ c) :
    (.error e : Except Exc Json) = .ok v ↔ c ∧ v = u := by
  constructor
  · intro heq
    cases heq
  · rintro ⟨hc, -⟩
    exact absurd hc h

theorem ite_eq_ok {c : Prop} [Decidable c] {e : Exc} :
    (if c then .ok u else .error e : Except Exc Json) = .ok v ↔ c ∧ v = u := by
  by_cases h : c
  · rw [if_pos h]
    exact always_eq_ok h
  · rw [if_neg h]
    exact never_eq_ok h

theorem strField_eq_ok : strField l key = .ok v ↔
    isText (field (.obj l) key .null) = true ∧ v = field (.obj l) key .null := by
  unfold strField
  rw [field_obj]
  rcases l.lookup key with _ | u
  · exact never_eq_ok Bool.false_ne_true
  · exact ite_eq_ok

theorem optionalStrField_eq_ok : optionalStrField l key = .ok v ↔
    isOptionalText (field (.obj l) key .null) = true ∧ v = field (.obj l) key .null := by
  unfold optionalStrField
  rw [field_obj]
  rcases l.lookup key with _ | u
  · exact always_eq_ok rfl
  · cases u with
    | null => exact always_eq_ok rfl
    | _ => exact ite_eq_ok

theorem strListField_eq_ok : strListField l key = .ok v ↔
    isTextList (field (.obj l) key (.arr [])) = true ∧ v = field (.obj l) key (.arr []) := by
  unfold strListField
  rw [field_obj]
  rcases l.lookup key with _ | u
  · exact always_eq_ok rfl
  · cases u with
    | arr vs => exact ite_eq_ok
    | _ => exact never_eq_ok Bool.false_ne_true

theorem optionalStrDictField_eq_ok : optionalStrDictField l key = .ok v ↔
    isOptionalTextDict (field (.obj l) key .null) = true ∧ v = field (.obj l) key .null := by
  unfold optionalStrDictField
  rw [field_obj]
  rcases l.lookup key with _ | u
  · exact always_eq_ok rfl
  · cases u with
    | null => exact always_eq_ok rfl
    | obj vs => exact ite_eq_ok
    | _ => exact never_eq_ok Bool.false_ne_true

/-! ### The two providers -/

/-- The providers whose sync reads the pages of `/me/accounts`. -/
inductive MetaProvider
  | facebook
  | instagram

/-- Its name. -/
def MetaProvider.name : MetaProvider → String
  | .facebook => "facebook"
  | .instagram => "instagram"

/-- The provider of the accounts that its branch stores. -/
def MetaProvider.platform : MetaProvider → ApiProvider
  | .facebook => .meta
  | .instagram => .instagram

/-- `perform_sync` of its connector. -/
def MetaProvider.performSync (g : Graph) : MetaProvider → Json → Except Exc Dict
  | .facebook => facebookPerformSync g
  | .instagram => instagramPerformSync g

/-- The business account that is linked to a page. -/
def businessAccount (page : Json) : Json := field page "instagram_business_account" .null

def linkedId (page : Json) : Json := field (businessAccount page) "id" .null

/-- A page with an id and a name, with or without a token. -/
structure IsPage (page : Json) : Prop where
  isObject : isObject page = true
  id : isText (field page "id" .null) = true
  name : isText (field page "name" .null) = true

/-- A page has a token, which may be empty, and its other fields are absent or of their types. -/
def MetaProvider.accepts : MetaProvider → Json → Bool
  | .facebook, page => isText (pageToken page) && isOptionalText (field page "category" .null) &&
      isTextList (field page "tasks" (.arr []))
  | .instagram, page => isText (pageToken page) && isOptionalTextDict (businessAccount page)

/-- What `model_dump` gives for a page of Facebook. -/
def facebookDump (page : Json) : Json :=
  .obj [("id", field page "id" .null), ("name", field page "name" .null),
    ("access_token", pageToken page), ("category", field page "category" .null),
    ("tasks", field page "tasks" (.arr []))]

/-- What `model_dump` gives for a page that may have an Instagram account. -/
def instagramDump (page : Json) : Json :=
  .obj [("id", field page "id" .null), ("name", field page "name" .null),
    ("access_token", pageToken page), ("instagram_business_account", businessAccount page)]

variable {page : Json}

theorem facebookPageInfo_eq_ok : facebookPageInfo page = .ok v ↔
    (IsPage page ∧ MetaProvider.facebook.accepts page = true) ∧ v = facebookDump page := by
  cases page with
  | obj l =>
    simp only [facebookPageInfo, Prog.bind_eq_ok, strField_eq_ok, optionalStrField_eq_ok,
      strListField_eq_ok, MetaProvider.accepts, Bool.and_eq_true]
    constructor
    · rintro ⟨_, ⟨hid, rfl⟩, _, ⟨hname, rfl⟩, _, ⟨htoken, rfl⟩, _, ⟨hcategory, rfl⟩, _, ⟨htasks, rfl⟩,
        h⟩
      exact ⟨⟨⟨rfl, hid, hname⟩, ⟨htoken, hcategory⟩, htasks⟩, (Except.ok.inj h).symm⟩
    · rintro ⟨⟨⟨-, hid, hname⟩, ⟨htoken, hcategory⟩, htasks⟩, rfl⟩
      exact ⟨_, ⟨hid, rfl⟩, _, ⟨hname, rfl⟩, _, ⟨htoken, rfl⟩, _, ⟨hcategory, rfl⟩, _, ⟨htasks, rfl⟩,
        rfl⟩
  | _ =>
    constructor
    · intro h
      cases h
    · rintro ⟨⟨h, -⟩, -⟩
      cases h.isObject

theorem facebookPageWithInstagram_eq_ok : facebookPageWithInstagram page = .ok v ↔
    (IsPage page ∧ MetaProvider.instagram.accepts page = true) ∧ v = instagramDump page := by
  cases page with
  | obj l =>
    simp only [facebookPageWithInstagram, Prog.bind_eq_ok, strField_eq_ok, optionalStrDictField_eq_ok,
      MetaProvider.accepts, Bool.and_eq_true]
    constructor
    · rintro ⟨_, ⟨hid, rfl⟩, _, ⟨hname, rfl⟩, _, ⟨htoken, rfl⟩, _, ⟨haccount, rfl⟩, h⟩
      exact ⟨⟨⟨rfl, hid, hname⟩, htoken, haccount⟩, (Except.ok.inj h).symm⟩
    · rintro ⟨⟨⟨-, hid, hname⟩, htoken, haccount⟩, rfl⟩
      exact ⟨_, ⟨hid, rfl⟩, _, ⟨hname, rfl⟩, _, ⟨htoken, rfl⟩, _, ⟨haccount, rfl⟩, rfl⟩
  | _ =>
    constructor
    · intro h
      cases h
    · rintro ⟨⟨h, -⟩, -⟩
      cases h.isObject

/-- **The validation of a response**: it goes through if every page does. -/
theorem dataField_eq_ok {element : Json → Except Exc Json} {Ok : Json → Prop} {dump : Json → Json}
    (h : ∀ page v, element page = .ok v ↔ Ok page ∧ v = dump page) {pages dumps : List Json}
    (hdata : l.lookup "data" = some (.arr pages)) : dataField element (.obj l) = .ok dumps ↔
      (∀ page ∈ pages, Ok page) ∧ dumps = pages.map dump := by
  have hread : ∀ page x, (element page).map (fun v => [v]) = .ok x ↔ Ok page ∧ x = [dump page] := by
    intro page x
    rw [map_eq_ok]
    constructor
    · rintro ⟨v, hv, rfl⟩
      obtain ⟨hok, rfl⟩ := (h page v).mp hv
      exact ⟨hok, rfl⟩
    · rintro ⟨hok, rfl⟩
      exact ⟨_, (h page _).mpr ⟨hok, rfl⟩, rfl⟩
  have hdataField : dataField element (.obj l) =
      Prog.collect (fun page => (element page).map fun v => [v]) pages := by
    simp only [dataField, hdata]
  rw [hdataField, Prog.collect_eq_ok hread, List.map_eq_flatMap]

/-! ### What a connector returns -/

section Connector

variable (env : Env) (g : Graph)

/-- What Instagram answers about the business account of a page. -/
def profileOf (page : Json) : Dict :=
  match g.profile (linkedId page) with
  | .ok (.obj l) => l
  | _ => []

/-- The Graph API answers about the business account of a page: an object with its id, and with a
username and a name where it has one. -/
structure Answers (page : Json) : Prop where
  linked : hasKey (businessAccount page) "id" = true
  profile : g.profile (linkedId page) = .ok (.obj (profileOf g page))
  id : field (.obj (profileOf g page)) "id" .null = linkedId page
  username : isOptionalText (field (.obj (profileOf g page)) "username" .null) = true
  name : isOptionalText (field (.obj (profileOf g page)) "name" .null) = true

/-- The profile of a linked account, with its page. -/
def linkedDump (page : Json) : Dict :=
  setItem "page_access_token" (pageToken page)
    (setItem "linked_page_id" (field page "id" .null) (profileOf g page))

/-- **The account that a page should get**, with its token in plain text, if it has one. -/
def MetaProvider.wantedOf : MetaProvider → Json → Option AccountData
  | .facebook, page =>
    if isTruthy (pageToken page) = true then
      some ⟨text env (field page "id" .null), text env (field page "name" .null),
        text env (pageToken page)⟩
    else none
  | .instagram, page =>
    if isNotNull (businessAccount page) = true ∧ isTruthy (pageToken page) = true then
      some ⟨text env (linkedId page), text env (userName (.obj (profileOf g page)) "Unknown"),
        text env (pageToken page)⟩
    else none

/-- What `perform_sync` returns for these pages, after a profile of Facebook. -/
def MetaProvider.resultOf (profile : Json) (pages : List Json) : MetaProvider → Dict
  | .facebook => [("profile", profile), ("pages", .arr (pages.map facebookDump)),
      ("records_synced", .int (1 + (pages.map facebookDump).length))]
  | .instagram =>
    let profiles := (pages.filter fun page => isNotNull (businessAccount page)).map
      fun page => Json.obj (linkedDump g page)
    [("instagram_accounts", .arr profiles), ("records_synced", .int profiles.length)]

end Connector

variable {env : Env} {g : Graph} {pages : List Json} {result : Dict}

theorem linkedProfile_instagramDump (hpage : Answers g page) :
    linkedProfile g (instagramDump page) = .ok (.obj (linkedDump g page)) := by
  have haccount : subscript (instagramDump page) "instagram_business_account" =
      .ok (businessAccount page) := rfl
  have hid : subscript (businessAccount page) "id" = .ok (linkedId page) :=
    subscript_eq_ok.mpr ⟨hpage.linked, rfl⟩
  unfold linkedProfile
  rw [haccount, Prog.ok_bind, hid, Prog.ok_bind, hpage.profile]
  rfl

theorem facebookPerformSync_eq_ok {profile : Json} (hme : g.me = .ok profile)
    (haccounts : g.accounts = .ok (.obj l)) (hdata : l.lookup "data" = some (.arr pages))
    (hpages : ∀ page ∈ pages, IsPage page) : facebookPerformSync g (.str "full") = .ok result ↔
      (∀ page ∈ pages, MetaProvider.facebook.accepts page = true) ∧
        result = MetaProvider.facebook.resultOf g profile pages := by
  have hfull : facebookPerformSync g (.str "full") = (g.me >>= fun profile =>
      (g.accounts >>= dataField facebookPageInfo) >>= fun pages => .ok [("profile", profile),
        ("pages", .arr pages), ("records_synced", .int (1 + pages.length))]) := rfl
  rw [hfull, hme, haccounts, Prog.ok_bind, Prog.ok_bind, Prog.bind_eq_ok]
  constructor
  · rintro ⟨dumps, hdumps, h⟩
    obtain ⟨hall, rfl⟩ := (dataField_eq_ok (fun _ _ => facebookPageInfo_eq_ok) hdata).mp hdumps
    exact ⟨fun page hpage => (hall page hpage).2, (Except.ok.inj h).symm⟩
  · rintro ⟨hall, rfl⟩
    exact ⟨_, (dataField_eq_ok (fun _ _ => facebookPageInfo_eq_ok) hdata).mpr
      ⟨fun page hpage => ⟨hpages page hpage, hall page hpage⟩, rfl⟩, rfl⟩

theorem fetchPagesWithInstagram_eq_ok (haccounts : g.accounts = .ok (.obj l))
    (hdata : l.lookup "data" = some (.arr pages)) (hpages : ∀ page ∈ pages, IsPage page)
    {linked : List Json} : fetchPagesWithInstagram g = .ok linked ↔
      (∀ page ∈ pages, MetaProvider.instagram.accepts page = true) ∧
        linked = (pages.filter fun page => isNotNull (businessAccount page)).map instagramDump := by
  have hlinked : Prog.collect (fun page => do
      let account ← subscript page "instagram_business_account"
      return if isNotNull account = true then [page] else []) (pages.map instagramDump) =
      .ok ((pages.filter fun page => isNotNull (businessAccount page)).map instagramDump) := by
    have heach : ∀ dump ∈ pages.map instagramDump, (do
        let account ← subscript dump "instagram_business_account"
        return if isNotNull account = true then [dump] else [] : Except Exc (List Json)) =
        .ok ([dump].filter fun page => isNotNull (businessAccount page)) := by
      intro dump hdump
      obtain ⟨page, -, rfl⟩ := List.mem_map.mp hdump
      rw [List.filter_singleton, cond_eq_ite]
      rfl
    rw [Prog.collect_of_forall heach, ← List.filter_flatMap, List.flatMap_singleton',
      List.filter_map]
    rfl
  unfold fetchPagesWithInstagram
  rw [haccounts, Prog.ok_bind, Prog.bind_eq_ok]
  constructor
  · rintro ⟨dumps, hdumps, h⟩
    obtain ⟨hall, rfl⟩ := (dataField_eq_ok (fun _ _ => facebookPageWithInstagram_eq_ok) hdata).mp
      hdumps
    rw [hlinked] at h
    exact ⟨fun page hpage => (hall page hpage).2, (Except.ok.inj h).symm⟩
  · rintro ⟨hall, rfl⟩
    refine ⟨_, (dataField_eq_ok (fun _ _ => facebookPageWithInstagram_eq_ok) hdata).mpr
      ⟨fun page hpage => ⟨hpages page hpage, hall page hpage⟩, rfl⟩, ?_⟩
    rw [hlinked]

theorem instagramPerformSync_eq_ok (profile : Json)
    (haccounts : g.accounts = .ok (.obj l)) (hdata : l.lookup "data" = some (.arr pages))
    (hpages : ∀ page ∈ pages, IsPage page)
    (hprofiles : ∀ page ∈ pages, isNotNull (businessAccount page) = true → Answers g page) :
    instagramPerformSync g (.str "full") = .ok result ↔
      (∀ page ∈ pages, MetaProvider.instagram.accepts page = true) ∧
        result = MetaProvider.instagram.resultOf g profile pages := by
  have hread : Prog.collect (fun page => (linkedProfile g page).map fun x => [x])
      ((pages.filter fun page => isNotNull (businessAccount page)).map instagramDump) =
      .ok ((pages.filter fun page => isNotNull (businessAccount page)).map
        fun page => Json.obj (linkedDump g page)) := by
    have heach : ∀ dump ∈ (pages.filter fun page => isNotNull (businessAccount page)).map
        instagramDump, (linkedProfile g dump).map (fun x => [x]) =
          .ok [Json.obj (linkedDump g dump)] := by
      intro dump hdump
      obtain ⟨page, hpage, rfl⟩ := List.mem_map.mp hdump
      obtain ⟨hpage, hlinked⟩ := List.mem_filter.mp hpage
      rw [linkedProfile_instagramDump (hprofiles page hpage hlinked)]
      rfl
    rw [Prog.collect_of_forall heach, ← List.map_eq_flatMap, List.map_map]
    rfl
  have hfull : instagramPerformSync g (.str "full") = (fetchPagesWithInstagram g >>= fun linked =>
      Prog.collect (fun page => (linkedProfile g page).map fun x => [x]) linked >>= fun profiles =>
        .ok [("instagram_accounts", .arr profiles), ("records_synced", .int profiles.length)]) := rfl
  rw [hfull, Prog.bind_eq_ok]
  constructor
  · rintro ⟨linked, hlinked, h⟩
    obtain ⟨hall, rfl⟩ := (fetchPagesWithInstagram_eq_ok haccounts hdata hpages).mp hlinked
    rw [hread] at h
    exact ⟨hall, (Except.ok.inj h).symm⟩
  · rintro ⟨hall, rfl⟩
    refine ⟨_, (fetchPagesWithInstagram_eq_ok haccounts hdata hpages).mpr ⟨hall, rfl⟩, ?_⟩
    rw [hread]
    rfl

/-! ### What the engine makes of it -/

theorem userName_isText {profile : Json} {default : String}
    (husername : isOptionalText (field profile "username" .null) = true)
    (hname : isOptionalText (field profile "name" .null) = true) :
    isText (userName profile default) = true := by
  have htext : ∀ j, isOptionalText j = true → isTruthy j = true → isText j = true := by
    intro j hj htruthy
    cases j with
    | null => cases htruthy
    | _ => exact hj
  unfold userName either
  by_cases husertruthy : isTruthy (field profile "username" .null) = true
  · rw [if_pos husertruthy, if_pos husertruthy]
    exact htext _ husername husertruthy
  · rw [if_neg husertruthy]
    by_cases hnametruthy : isTruthy (field profile "name" .null) = true
    · rw [if_pos hnametruthy]
      exact htext _ hname hnametruthy
    · rw [if_neg hnametruthy]
      rfl

theorem map_plain_entries (hfernet : Fernet env) (token name : Json → Json) (entries : List Json) :
    (entries.zipIdx.filterMap fun p => entryAccount env p.2 p.1 (token p.1) (name p.1)).map
        (plainEntry env) =
      entries.filterMap fun entry => if isTruthy (token entry) = true then
        some ⟨text env (field entry "id" .null), text env (name entry), text env (token entry)⟩
      else none := by
  have hplain : ∀ p : Json × ℕ,
      (entryAccount env p.2 p.1 (token p.1) (name p.1)).map (plainEntry env) =
        if isTruthy (token p.1) = true then
          some ⟨text env (field p.1 "id" .null), text env (name p.1), text env (token p.1)⟩
        else none := by
    intro p
    unfold entryAccount
    split_ifs
    · exact congrArg (fun t => some (AccountData.mk _ _ t)) (decrypt_encryptToken hfernet p.2 _)
    · rfl
  rw [List.map_filterMap, List.filterMap_congr fun p _ => hplain p]
  conv_rhs => rw [← List.zipIdx_map_fst 0 entries, List.filterMap_map]
  rfl

theorem field_setItem {k : String} {default : Json} : field (.obj (setItem key v l)) k default =
    if k = key then v else field (.obj l) k default := by
  rw [field_obj, field_obj, lookup_setItem]
  split_ifs <;> rfl

/-- The profile of a linked account keeps its fields besides the two that are added. -/
theorem field_linkedDump (hpage : key ≠ "linked_page_id") (htoken : key ≠ "page_access_token")
    (default : Json) :
    field (.obj (linkedDump g page)) key default = field (.obj (profileOf g page)) key default := by
  unfold linkedDump
  rw [field_setItem, if_neg htoken, field_setItem, if_neg hpage]

theorem profileToken_linkedDump : profileToken (.obj (linkedDump g page)) = pageToken page := by
  unfold linkedDump profileToken
  rw [field_setItem, if_pos rfl]

theorem id_linkedDump (hpage : Answers g page) :
    field (.obj (linkedDump g page)) "id" .null = linkedId page := by
  rw [field_linkedDump (by decide) (by decide), hpage.id]

theorem userName_linkedDump (default : String) :
    userName (.obj (linkedDump g page)) default = userName (.obj (profileOf g page)) default := by
  unfold userName
  rw [field_linkedDump (by decide) (by decide), field_linkedDump (by decide) (by decide)]

theorem isText_of_textDict {dict : Json} (h : isOptionalTextDict dict = true)
    (hkey : hasKey dict key = true) : isText (field dict key .null) = true := by
  cases dict with
  | obj vs =>
    obtain ⟨u, hu⟩ := Option.isSome_iff_exists.mp hkey
    obtain ⟨before, rest, rfl, -⟩ := List.lookup_eq_some_iff.mp hu
    rw [field_obj, hu]
    exact List.all_eq_true.mp h (key, u) (by simp)
  | _ => cases hkey

variable {connection : IntegrationConnection} {profile : Json}

/-- **The engine reads what Facebook's connector returns**, and finds the accounts of the pages with
a token. -/
theorem reads_facebook (hfernet : Fernet env) (hprovider : connection.provider = "facebook")
    (hpages : ∀ page ∈ pages, IsPage page)
    (haccepts : ∀ page ∈ pages, MetaProvider.facebook.accepts page = true) :
    Readable env connection (MetaProvider.facebook.resultOf g profile pages) ∧ ∃ l,
      listed env connection (MetaProvider.facebook.resultOf g profile pages) = ⟨.meta, none, l⟩ ∧
        l.map (plainEntry env) = pages.filterMap (MetaProvider.facebook.wantedOf env g) := by
  have hlookup : (MetaProvider.facebook.resultOf g profile pages).lookup "pages" =
      some (.arr (pages.map facebookDump)) := rfl
  refine ⟨?_, pageEntries env (.arr (pages.map facebookDump)), ?_, ?_⟩
  · unfold Readable
    rw [if_pos hprovider, hlookup]
    intro value hvalue
    obtain rfl := Option.some.inj hvalue
    refine ⟨⟨_, rfl⟩, fun dump hdump => ?_⟩
    have hdump : dump ∈ pages.map facebookDump := hdump
    obtain ⟨page, hpage, rfl⟩ := List.mem_map.mp hdump
    have htoken := haccepts page hpage
    rw [MetaProvider.accepts, Bool.and_eq_true, Bool.and_eq_true] at htoken
    exact ⟨rfl, fun _ => ⟨htoken.1.1, (hpages page hpage).id, (hpages page hpage).name⟩⟩
  · unfold listed found
    rw [if_pos hprovider, hlookup]
  · have hplain := map_plain_entries hfernet pageToken (fun entry => field entry "name" .null)
      (pages.map facebookDump)
    rw [List.filterMap_map] at hplain
    exact hplain

theorem reads_instagram (hfernet : Fernet env) (hprovider : connection.provider = "instagram")
    (haccepts : ∀ page ∈ pages, MetaProvider.instagram.accepts page = true)
    (hprofiles : ∀ page ∈ pages, isNotNull (businessAccount page) = true → Answers g page) :
    Readable env connection (MetaProvider.instagram.resultOf g profile pages) ∧ ∃ l,
      listed env connection (MetaProvider.instagram.resultOf g profile pages) =
          ⟨.instagram, none, l⟩ ∧
        l.map (plainEntry env) = pages.filterMap (MetaProvider.instagram.wantedOf env g) := by
  have hlookup : (MetaProvider.instagram.resultOf g profile pages).lookup "instagram_accounts" =
      some (.arr ((pages.filter fun page => isNotNull (businessAccount page)).map
        fun page => Json.obj (linkedDump g page))) := rfl
  have hname : connection.provider ≠ "facebook" := by
    rw [hprovider]
    decide
  refine ⟨?_, instagramEntries env (.arr ((pages.filter fun page =>
    isNotNull (businessAccount page)).map fun page => Json.obj (linkedDump g page))), ?_, ?_⟩
  · unfold Readable
    rw [if_neg hname, if_pos hprovider, hlookup]
    intro value hvalue
    obtain rfl := Option.some.inj hvalue
    refine ⟨⟨_, rfl⟩, fun dump hdump => ?_⟩
    obtain ⟨page, hpage, rfl⟩ := List.mem_map.mp hdump
    obtain ⟨hpage, hlinked⟩ := List.mem_filter.mp hpage
    have hanswers := hprofiles page hpage hlinked
    have htoken := haccepts page hpage
    rw [MetaProvider.accepts, Bool.and_eq_true] at htoken
    refine ⟨rfl, fun _ => ?_⟩
    rw [profileToken_linkedDump, id_linkedDump hanswers, userName_linkedDump]
    exact ⟨htoken.1, isText_of_textDict htoken.2 hanswers.linked,
      userName_isText hanswers.username hanswers.name⟩
  · unfold listed found
    rw [if_neg hname, if_pos hprovider, hlookup]
  · have hplain := map_plain_entries hfernet profileToken (fun entry => userName entry "Unknown")
      ((pages.filter fun page => isNotNull (businessAccount page)).map
        fun page => Json.obj (linkedDump g page))
    rw [List.filterMap_map, List.filterMap_filter] at hplain
    refine hplain.trans (List.filterMap_congr fun page hpage => ?_)
    by_cases hlinked : isNotNull (businessAccount page) = true
    · simp only [MetaProvider.wantedOf, hlinked, if_true, true_and, Function.comp_apply,
        profileToken_linkedDump, id_linkedDump (hprofiles page hpage hlinked), userName_linkedDump]
    · have hnone : MetaProvider.wantedOf env g .instagram page = none := if_neg fun h => hlinked h.1
      rw [if_neg hlinked, hnone]

/-! ### The whole sync -/

/-- The accounts that the pages of a response should get, in their order. -/
def wanted (env : Env) (g : Graph) (m : MetaProvider) (pages : List Json) : List AccountData :=
  pages.filterMap (m.wantedOf env g)

/-- Every account that is wanted is stored, active and with the name and the token of the last page
for it, and the rows of other accounts are as they were. -/
structure Stores (env : Env) (w : Uuid) (p : ApiProvider) (l : List AccountData)
    (T T' : Table SocialAccount) : Prop where
  saved : ∀ a ∈ l, ∃ last r, lastFor AccountData.accountId l a.accountId = some last ∧
    stored T' w p a.accountId = some r ∧ r.isActive = true ∧ r.name = last.name ∧
    decryptToken env r.accessToken = last.accessToken
  skipped : ∀ r, (∀ a ∈ l, isAccount w p a.accountId r = false) → (r ∈ T'.rows ↔ r ∈ T.rows)

/-- **The job skips the pages without a token**: it returns, with the others stored. -/
def Skips (env : Env) (g : Graph) (m : MetaProvider) (payload : Dict) (s : Database) (w : Uuid)
    (pages : List Json) : Prop :=
  ∃ result T, (executeSyncJob env payload).Returns s result { s with socialAccounts := T } ∧
    Stores env w m.platform (wanted env g m pages) s.socialAccounts T

/-- A full sync of a connection with a token, to which the Graph API answers with these pages. -/
structure Answered (env : Env) (g : Graph) (m : MetaProvider) (payload : Dict) (s : Database)
    (call : Call) (pages : List Json) : Prop where
  called : callOf env payload s = .ok call
  full : (payload.lookup "sync_type").getD (.str "full") = .str "full"
  provider : call.connection.provider = m.name
  connector : env.connector (env.lower m.name) = connectorSync (m.performSync g)
  token : truthy (call.connection.accessToken.map (decryptToken env)) = true
  workspace : s.workspaces.has call.workspaceId = true
  me : m = .facebook → ∃ profile, g.me = .ok profile
  accounts : ∃ l, g.accounts = .ok (.obj l) ∧ l.lookup "data" = some (.arr pages)
  listed : ∀ page ∈ pages, IsPage page
  profiles : m = .instagram →
    ∀ page ∈ pages, isNotNull (businessAccount page) = true → Answers g page

variable {m : MetaProvider} {payload : Dict} {s : Database} {call : Call}
  {w : Uuid} {p : ApiProvider} {accounts accounts' : List AccountData} {T T' : Table SocialAccount}

theorem outcome_of_answered (h : Answered env g m payload s call pages) :
    call.outcome = m.performSync g (.str "full") := by
  rw [(callOf_spec h.called).2, h.full, h.provider, h.connector]
  exact if_pos h.token

theorem performSync_of_answered (h : Answered env g m payload s call pages) : ∃ profile,
    ∀ result, m.performSync g (.str "full") = .ok result ↔
      (∀ page ∈ pages, m.accepts page = true) ∧ result = m.resultOf g profile pages := by
  obtain ⟨l, haccounts, hdata⟩ := h.accounts
  cases m with
  | facebook =>
    obtain ⟨profile, hme⟩ := h.me rfl
    exact ⟨profile, fun _ => facebookPerformSync_eq_ok hme haccounts hdata h.listed⟩
  | instagram =>
    exact ⟨.null, fun _ => instagramPerformSync_eq_ok .null haccounts hdata h.listed (h.profiles rfl)⟩

theorem reads_of_answered (hfernet : Fernet env) (h : Answered env g m payload s call pages)
    (profile : Json) (haccepts : ∀ page ∈ pages, m.accepts page = true) :
    Readable env call.connection (m.resultOf g profile pages) ∧ ∃ l,
      listed env call.connection (m.resultOf g profile pages) = ⟨m.platform, none, l⟩ ∧
        l.map (plainEntry env) = wanted env g m pages := by
  cases m with
  | facebook => exact reads_facebook hfernet h.provider h.listed haccepts
  | instagram => exact reads_instagram hfernet h.provider haccepts (h.profiles rfl)

theorem stores_of_saved (h : Saved env w p none accounts T T') :
    Stores env w p (accounts.map (plainEntry env)) T T' := by
  refine ⟨fun a ha => ?_, fun r hr => mem_iff_of_saved h fun a ha =>
    hr (plainEntry env a) (List.mem_map_of_mem ha)⟩
  obtain ⟨b, hb, rfl⟩ := List.mem_map.mp ha
  obtain ⟨last, hlast⟩ : ∃ last, lastFor AccountData.accountId accounts b.accountId = some last :=
    exists_lastFor hb
  have hst : stored T' w p b.accountId =
      some (put env w p none last (stored T w p b.accountId)) := by
    rw [stored_of_saved h, upserts_apply put_put, hlast]
  refine ⟨plainEntry env last, _, ?_, hst, rfl, rfl, rfl⟩
  rw [lastFor_map (f := plainEntry env) fun _ => rfl]
  exact congrArg (Option.map (plainEntry env)) hlast

/-- The ids of new rows are new for entries of the same accounts. -/
theorem newIds_of_map (h : NewIds env w p (accounts.map (plainEntry env)) T) :
    NewIds env w p accounts T := by
  obtain ⟨hnew, hdiff⟩ := h
  refine ⟨fun a ha => hnew (plainEntry env a) (List.mem_map_of_mem ha), fun a ha b hb => ?_⟩
  exact hdiff (plainEntry env a) (List.mem_map_of_mem ha) (plainEntry env b)
    (List.mem_map_of_mem hb)

/-- **A page without a token is skipped exactly if the schema lets it pass**: if every page, also
one that is not linked to an account, has a token, were it an empty one. -/
theorem skips_iff (hfernet : Fernet env) (h : Answered env g m payload s call pages)
    (hids : NewIds env call.workspaceId m.platform (wanted env g m pages) s.socialAccounts) :
    Skips env g m payload s call.workspaceId pages ↔ ∀ page ∈ pages, m.accepts page = true := by
  obtain ⟨profile, hsync⟩ := performSync_of_answered h
  constructor
  · rintro ⟨result, T, hret, -⟩
    obtain ⟨call', hcall', hout, -⟩ := returns_executeSyncJob.mp hret
    obtain rfl := Except.ok.inj (h.called.symm.trans hcall')
    rw [outcome_of_answered h] at hout
    exact ((hsync result).mp hout).1
  · intro haccepts
    have hout : call.outcome = .ok (m.resultOf g profile pages) := by
      rw [outcome_of_answered h]
      exact (hsync _).mpr ⟨haccepts, rfl⟩
    obtain ⟨hreadable, accounts, hlisted, hplain⟩ := reads_of_answered hfernet h profile haccepts
    rw [← hplain] at hids
    obtain ⟨T, hsaved⟩ : ∃ T, Saved env call.workspaceId m.platform none accounts s.socialAccounts T :=
      exists_saved.mpr (newIds_of_map hids)
    refine ⟨_, T, (returns_iff h.called hout).mpr ⟨hreadable, fun _ => h.workspace, T, ?_, rfl⟩, ?_⟩
    · rw [hlisted]
      exact hsaved
    · rw [← hplain]
      exact stores_of_saved hsaved

/-! ### One page without a token -/

/-- The Graph API with these pages. -/
def graphOf (pages : List Json) : Graph where
  me := .ok (.obj [("id", .str "1"), ("name", .str "Studio")])
  accounts := .ok (.obj [("data", .arr pages)])
  profile id := .ok (.obj [("id", id), ("username", .str "studio")])

/-- The connector in front of it. -/
def world (m : MetaProvider) (pages : List Json) : Env :=
  { Social.Refresh.twitter.toEnv with
    connector := fun _ => connectorSync (m.performSync (graphOf pages)) }

/-- The workspace 10 is connected to the provider. -/
def connectedTo (m : MetaProvider) : Database :=
  { twoStudios with
    integrationConnections := ⟨[⟨50, 10, m.name, .connected, some "gAAAAEAAB", none, none⟩],
      List.pairwise_singleton _ _⟩ }

/-- The sync of the workspace. -/
def syncOf (m : MetaProvider) : Dict := [("workspace_id", .id 10), ("provider", .str m.name)]

/-- A page with a linked account and these further fields. -/
def pageWith (id : String) (fields : Dict) : Json :=
  .obj ([("id", .str id), ("name", .str "Studio"),
    ("instagram_business_account", .obj [("id", .str ("178" ++ id))])] ++ fields)

/-- A page with a token, and one with an empty one. -/
def emptyToken : List Json :=
  [pageWith "100" [("access_token", .str "EAAC")], pageWith "101" [("access_token", .str "")]]

/-- A page with a token, and one without. -/
def tokenless : List Json := [pageWith "100" [("access_token", .str "EAAC")], pageWith "101" []]

/-- The call of the connector. -/
def callWith (m : MetaProvider) (pages : List Json) : Call :=
  ⟨10, ⟨50, 10, m.name, .connected, some "gAAAAEAAB", none, none⟩,
    m.performSync (graphOf pages) (.str "full")⟩

theorem answered_emptyToken (m : MetaProvider) : Answered (world m emptyToken) (graphOf emptyToken) m
    (syncOf m) (connectedTo m) (callWith m emptyToken) emptyToken where
  called := by cases m <;> rfl
  full := rfl
  provider := rfl
  connector := rfl
  token := rfl
  workspace := rfl
  me _ := ⟨_, rfl⟩
  accounts := ⟨_, rfl, rfl⟩
  listed := by
    intro page hpage
    rcases List.mem_cons.mp hpage with rfl | hpage
    · exact ⟨rfl, rfl, rfl⟩
    · rw [List.mem_singleton.mp hpage]
      exact ⟨rfl, rfl, rfl⟩
  profiles := by
    intro _ page hpage _
    rcases List.mem_cons.mp hpage with rfl | hpage
    · exact ⟨rfl, rfl, rfl, rfl, rfl⟩
    · rw [List.mem_singleton.mp hpage]
      exact ⟨rfl, rfl, rfl, rfl, rfl⟩

theorem fernet_world (m : MetaProvider) (pages : List Json) : Fernet (world m pages) :=
  ⟨Integrations.Connections.fernet_suite.ne_empty,
    Integrations.Connections.fernet_suite.decrypt_encrypt⟩

theorem newIds_emptyToken (m : MetaProvider) : NewIds (world m emptyToken) 10 m.platform
    (wanted (world m emptyToken) (graphOf emptyToken) m emptyToken)
    (connectedTo m).socialAccounts := by
  have hone : ∃ a, wanted (world m emptyToken) (graphOf emptyToken) m emptyToken = [a] := by
    cases m
    · exact ⟨⟨"100", "Studio", "EAAC"⟩, by decide⟩
    · exact ⟨⟨"178100", "studio", "EAAC"⟩, by decide⟩
  obtain ⟨a, ha⟩ := hone
  rw [ha]
  refine ⟨fun b _ _ => rfl, fun b hb c hc _ _ _ => ?_⟩
  rw [List.mem_singleton.mp hb, List.mem_singleton.mp hc]

theorem skips_iff_emptyToken :
    Skips (world .facebook emptyToken) (graphOf emptyToken) .facebook (syncOf .facebook)
      (connectedTo .facebook) 10 emptyToken ∧
    Skips (world .instagram emptyToken) (graphOf emptyToken) .instagram (syncOf .instagram)
      (connectedTo .instagram) 10 emptyToken := by
  have haccepts : ∀ m : MetaProvider, ∀ page ∈ emptyToken, m.accepts page = true := by
    intro m page hpage
    rcases List.mem_cons.mp hpage with rfl | hpage
    · cases m <;> rfl
    · rw [List.mem_singleton.mp hpage]
      cases m <;> rfl
  exact ⟨(skips_iff (fernet_world _ _) (answered_emptyToken .facebook)
      (newIds_emptyToken .facebook)).mpr (haccepts .facebook),
    (skips_iff (fernet_world _ _) (answered_emptyToken .instagram)
      (newIds_emptyToken .instagram)).mpr (haccepts .instagram)⟩

/-- The page with a token is not stored, because of the other one. -/
theorem tokenless_page_stops_sync :
    ¬ Skips (world .facebook tokenless) (graphOf tokenless) .facebook (syncOf .facebook)
      (connectedTo .facebook) 10 tokenless ∧
    ¬ Skips (world .instagram tokenless) (graphOf tokenless) .instagram (syncOf .instagram)
      (connectedTo .instagram) 10 tokenless := by
  have hstops : ∀ m : MetaProvider, ¬ Skips (world m tokenless) (graphOf tokenless) m (syncOf m)
      (connectedTo m) 10 tokenless := by
    rintro m ⟨result, T, hret, -⟩
    have hraise : ((executeSyncJob (world m tokenless) (syncOf m)).run (connectedTo m)).1 =
        .error .validation := by
      cases m <;> rfl
    rw [Prog.run, hret] at hraise
    cases hraise
  exact ⟨hstops .facebook, hstops .instagram⟩

end MarketingSuite.Sync.Pages
