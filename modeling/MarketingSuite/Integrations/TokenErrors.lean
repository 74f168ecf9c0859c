import MarketingSuite.Integrations.SyncEngines

/-! # Which answers make an engine raise an `OAuthTokenError`

For Meta a token is rejected by an `OAuthException` under the status 400 or 401, and the two engines
raise an `OAuthTokenError` for that and for nothing else. The three other engines raise none; of the
401 that they are answered, one is not even raised. -/

namespace MarketingSuite.Integrations.TokenErrors

open MarketingSuite.Lib.Programs MarketingSuite.Lib.Traces
open MarketingSuite.Base.Values MarketingSuite.Base.Payloads MarketingSuite.Base.Http
open MarketingSuite.Integrations.Meta MarketingSuite.Integrations.SyncEngines

/-- An `OAuthTokenError`. -/
def IsTokenError (e : Exc) : Prop := ∃ text, e = .oauthToken text

/-- `x` does not raise an `OAuthTokenError`. -/
abbrev Plain {α : Type} (x : Except Exc α) : Prop := Prog.ErrorsOnly (fun e => ¬ IsTokenError e) x

/-- `err_type` of the body is "OAuthException". -/
def SaysOAuth (response : Response) : Prop := errorType response = .ok (.str "OAuthException")

/-- The answer is that the access token is not valid. -/
def Rejects : SyncProvider → Response → Prop
  | .facebook, response | .instagram, response =>
    (response.status = 400 ∨ response.status = 401) ∧ SaysOAuth response
  | .linkedin, response | .twitter, response | .google, response => response.status = 401

/-! ### The readers -/

variable {α : Type} {strOf : Json → String} {response : Response} {j : Json} {l : Dict}
  {key : String}

theorem plain_error {e : Exc} (h : ∀ text, e ≠ .oauthToken text) :
    Plain (.error e : Except Exc α) :=
  Prog.errorsOnly_error fun ⟨text, ht⟩ => h text ht

theorem plain_parse : Plain response.parse := by
  unfold Response.parse
  rcases response.json with text | j
  · exact plain_error (by simp)
  · exact Prog.errorsOnly_ok j

theorem plain_get (default : Json) : Plain (get j key default) := by
  cases j with
  | obj l => exact Prog.errorsOnly_ok _
  | _ => exact plain_error (by simp)

theorem plain_subscript : Plain (subscript j key) := by
  cases j with
  | obj l =>
    show Plain (item l key)
    unfold item
    rcases l.lookup key with _ | v
    · exact plain_error (by simp)
    · exact Prog.errorsOnly_ok v
  | _ => exact plain_error (by simp)

theorem plain_iterate : Plain (iterate strOf j) := by
  cases j with
  | str s => exact Prog.errorsOnly_ok _
  | id i => exact Prog.errorsOnly_ok _
  | time t => exact Prog.errorsOnly_ok _
  | arr l => exact Prog.errorsOnly_ok _
  | obj l => exact Prog.errorsOnly_ok _
  | _ => exact plain_error (by simp)

theorem plain_assign (v : Json) : Plain (assign j key v) := by
  cases j with
  | obj l => exact Prog.errorsOnly_ok _
  | _ => exact plain_error (by simp)

theorem plain_valid (c : Prop) [Decidable c] (v : Json) :
    Plain (if c then .ok v else .error .validation) :=
  Prog.errorsOnly_ite (Prog.errorsOnly_ok v) (plain_error (by simp))

theorem plain_strField : Plain (strField l key) := by
  unfold strField
  rcases l.lookup key with _ | v
  · exact plain_error (by simp)
  · exact plain_valid _ v

theorem plain_optionalStrField : Plain (optionalStrField l key) := by
  unfold optionalStrField
  rcases l.lookup key with _ | v
  · exact Prog.errorsOnly_ok _
  · cases v with
    | null => exact Prog.errorsOnly_ok _
    | _ => exact plain_valid _ _

theorem plain_strListField : Plain (strListField l key) := by
  unfold strListField
  rcases l.lookup key with _ | v
  · exact Prog.errorsOnly_ok _
  · cases v with
    | arr vs => exact plain_valid _ _
    | _ => exact plain_error (by simp)

theorem plain_optionalStrDictField : Plain (optionalStrDictField l key) := by
  unfold optionalStrDictField
  rcases l.lookup key with _ | v
  · exact Prog.errorsOnly_ok _
  · cases v with
    | null => exact Prog.errorsOnly_ok _
    | obj vs => exact plain_valid _ _
    | _ => exact plain_error (by simp)

theorem plain_boolField : Plain (Google.boolField l key) := by
  unfold Google.boolField
  rcases l.lookup key with _ | v
  · exact plain_error (by simp)
  · cases v with
    | bool b => exact Prog.errorsOnly_ok _
    | int n =>
      exact Prog.errorsOnly_ite (Prog.errorsOnly_ok _) (plain_valid _ _)
    | str s => exact Prog.errorsOnly_ite (Prog.errorsOnly_ok _) (plain_valid _ _)
    | _ => exact plain_error (by simp)

theorem plain_facebookPageInfo : Plain (facebookPageInfo j) := by
  cases j with
  | obj l =>
    refine Prog.errorsOnly_bind plain_strField fun _ => ?_
    refine Prog.errorsOnly_bind plain_strField fun _ => ?_
    refine Prog.errorsOnly_bind plain_strField fun _ => ?_
    refine Prog.errorsOnly_bind plain_optionalStrField fun _ => ?_
    exact Prog.errorsOnly_bind plain_strListField fun _ => Prog.errorsOnly_ok _
  | _ => exact plain_error (by simp)

theorem plain_facebookPageWithInstagram : Plain (facebookPageWithInstagram j) := by
  cases j with
  | obj l =>
    refine Prog.errorsOnly_bind plain_strField fun _ => ?_
    refine Prog.errorsOnly_bind plain_strField fun _ => ?_
    refine Prog.errorsOnly_bind plain_strField fun _ => ?_
    exact Prog.errorsOnly_bind plain_optionalStrDictField fun _ => Prog.errorsOnly_ok _
  | _ => exact plain_error (by simp)

theorem plain_dataField {element : Json → Except Exc Json} (h : ∀ v, Plain (element v)) :
    Plain (dataField element j) := by
  cases j with
  | obj l =>
    unfold dataField
    dsimp only
    rcases l.lookup "data" with _ | v
    · exact Prog.errorsOnly_ok _
    · cases v with
      | arr vs => exact Prog.errorsOnly_collect (fun v => Prog.errorsOnly_map (h v)) vs
      | _ => exact plain_error (by simp)
  | _ => exact plain_error (by simp)

theorem plain_linkedPages : Plain (Instagram.linkedPages j) := by
  refine Prog.errorsOnly_bind (plain_dataField fun _ => plain_facebookPageWithInstagram)
    fun pages => ?_
  refine Prog.errorsOnly_collect (fun page => ?_) pages
  exact Prog.errorsOnly_bind plain_subscript fun _ => Prog.errorsOnly_ok _

theorem plain_attach (page : Json) : Plain (Instagram.attach page j) := by
  refine Prog.errorsOnly_bind plain_subscript fun _ => ?_
  refine Prog.errorsOnly_bind (plain_assign _) fun _ => ?_
  exact Prog.errorsOnly_bind plain_subscript fun _ => plain_assign _

theorem plain_lengthOf : Plain (LinkedIn.lengthOf strOf j) := by
  cases j with
  | str s => exact Prog.errorsOnly_ok _
  | id i => exact Prog.errorsOnly_ok _
  | time t => exact Prog.errorsOnly_ok _
  | arr l => exact Prog.errorsOnly_ok _
  | obj l => exact Prog.errorsOnly_ok _
  | _ => exact plain_error (by simp)

theorem plain_profileResponse : Plain (Google.profileResponse j) := by
  cases j with
  | obj l =>
    refine Prog.errorsOnly_bind plain_strField fun _ => ?_
    refine Prog.errorsOnly_bind plain_strField fun _ => ?_
    refine Prog.errorsOnly_bind plain_boolField fun _ => ?_
    refine Prog.errorsOnly_bind plain_strField fun _ => ?_
    refine Prog.errorsOnly_bind plain_strField fun _ => ?_
    refine Prog.errorsOnly_bind plain_strField fun _ => ?_
    refine Prog.errorsOnly_bind plain_strField fun _ => ?_
    exact Prog.errorsOnly_bind plain_strField fun _ => Prog.errorsOnly_ok _
  | _ => exact plain_error (by simp)

theorem plain_textOf : Plain (Google.textOf strOf j) := by
  unfold Google.textOf
  rcases asStr strOf j with _ | s
  · exact plain_error (by simp)
  · exact Prog.errorsOnly_ok s

theorem plain_parsedLocation : Plain (Google.parsedLocation strOf j) := by
  refine Prog.errorsOnly_bind (plain_get _) fun name => ?_
  refine Prog.errorsOnly_ite (Prog.errorsOnly_ok _) ?_
  refine Prog.errorsOnly_bind plain_textOf fun _ => ?_
  exact Prog.errorsOnly_bind (plain_get _) fun _ => Prog.errorsOnly_ok _

theorem plain_listOf (denied failed : String) :
    Plain (Google.listOf key denied failed response) := by
  refine Prog.errorsOnly_ite (plain_error (by simp)) ?_
  refine Prog.errorsOnly_ite (plain_error (by simp)) ?_
  exact Prog.errorsOnly_bind plain_parse fun _ => plain_get _

/-! ### Meta -/

theorem plain_errorType : Plain (errorType response) := by
  refine Prog.errorsOnly_bind plain_parse fun _ => ?_
  exact Prog.errorsOnly_bind (plain_get _) fun _ => plain_get _

theorem isOAuthException_iff : isOAuthException j = true ↔ j = .str "OAuthException" := by
  cases j with
  | str s => simp [isOAuthException]
  | _ => simp [isOAuthException]

theorem graphBody_of_rejects {rejected failed : String} (h : Rejects .facebook response) :
    graphBody rejected failed response = .error (.oauthToken rejected) := by
  obtain ⟨hstatus, hsays⟩ := h
  have hne : response.status ≠ 200 := by
    rcases hstatus with h | h <;> rw [h] <;> decide
  have hoauth : isOAuthException (.str "OAuthException") = true := isOAuthException_iff.mpr rfl
  unfold graphBody graphError
  rw [if_pos hne, hsays]
  simp only [hstatus, hoauth, and_self, if_true]

theorem plain_graphBody {rejected failed : String} (h : ¬ Rejects .facebook response) :
    Plain (graphBody rejected failed response) := by
  refine Prog.errorsOnly_ite ?_ plain_parse
  refine Prog.errorsOnly_error ?_
  unfold graphError
  rcases htype : errorType response with e | errType
  · have hplain := plain_errorType e htype
    cases e with
    | valueError text => rintro ⟨_, h⟩; cases h
    | _ => exact hplain
  · dsimp only
    split_ifs with hc
    · rw [isOAuthException_iff] at hc
      exact absurd ⟨hc.1, by rw [SaysOAuth, htype, hc.2]⟩ h
    · rintro ⟨_, h⟩
      cases h

variable {web : Web} {syncType : Json}

theorem heeds_fetch {Bad : Response → Prop} {Q : Exc → Prop} {request : Request}
    {body : Response → Except Exc α} (hbad : ∀ r, Bad r → ∃ e, Q e ∧ body r = .error e)
    (hbody : ∀ r, ¬ Bad r → Plain (body r)) :
    Heeds Bad Q IsTokenError (fetch web request body) := by
  refine heeds_hear (fun s e h ⟨text, he⟩ => ?_) (fun r hr s => ?_) fun r hr =>
    heeds_ofExcept (hbody r hr)
  · rcases hweb : web s.length request with t | r
    · rw [hweb, he] at h
      cases h
    · rw [hweb] at h
      cases h
  · obtain ⟨e, he, hout⟩ := hbad r hr
    exact ⟨e, he, by rw [hout]; rfl⟩

theorem fullOnly_cases (syncType : Json) (sync : Heard Dict) :
    fullOnly syncType sync = sync ∨ fullOnly syncType sync = pure skipped := by
  unfold fullOnly
  cases syncType with
  | str s =>
    dsimp only
    split_ifs
    · exact Or.inl rfl
    · exact Or.inr rfl
  | _ => exact Or.inr rfl

theorem heeds_fullOnly {Bad : Response → Prop} {Q : Exc → Prop} {sync : Heard Dict}
    (h : Heeds Bad Q IsTokenError sync) : Heeds Bad Q IsTokenError (fullOnly syncType sync) := by
  rcases fullOnly_cases syncType sync with hfull | hskip
  · rw [hfull]
    exact h
  · rw [hskip]
    exact heeds_pure skipped

/-- **A program for Meta**: an `OAuthTokenError` at an answer that rejects the token, and only then.
-/
abbrev Translates (p : Heard α) : Prop := Heeds (Rejects .facebook) IsTokenError IsTokenError p

theorem translates_graph {β : Type} {request : Request} {rejected failed : String}
    {read : Json → Except Exc β} (hread : ∀ j, Plain (read j)) :
    Translates (fetch web request fun r => graphBody rejected failed r >>= read) := by
  refine heeds_fetch (fun r hr => ⟨.oauthToken rejected, ⟨rejected, rfl⟩, ?_⟩) fun r hr =>
    Prog.errorsOnly_bind (plain_graphBody hr) hread
  rw [graphBody_of_rejects hr]
  rfl

theorem translates_graphBody {request : Request} {rejected failed : String} :
    Translates (fetch web request (graphBody rejected failed)) :=
  heeds_fetch (fun _ hr => ⟨.oauthToken rejected, ⟨rejected, rfl⟩, graphBody_of_rejects hr⟩)
    fun _ hr => plain_graphBody hr

theorem translates_facebook : Translates (Facebook.performSync web syncType) := by
  refine heeds_fullOnly ?_
  refine heeds_bind translates_graphBody fun profile => ?_
  refine heeds_bind (translates_graph fun _ => plain_dataField fun _ => plain_facebookPageInfo)
    fun pages => ?_
  exact heeds_pure _

theorem translates_linkedProfile (page : Json) :
    Translates (Instagram.linkedProfile strOf web page) := by
  refine heeds_bind (heeds_ofExcept plain_subscript) fun account => ?_
  refine heeds_bind (heeds_ofExcept plain_subscript) fun igId => ?_
  refine heeds_bind translates_graphBody fun profile => ?_
  exact heeds_bind (heeds_ofExcept (plain_attach page)) fun profile => heeds_pure _

theorem translates_instagram : Translates (Instagram.performSync strOf web syncType) := by
  refine heeds_fullOnly ?_
  refine heeds_bind (translates_graph fun _ => plain_linkedPages) fun pages => ?_
  exact heeds_bind (heeds_gather translates_linkedProfile pages) fun _ => heeds_pure _

/-! ### The other providers -/

/-- **A program for another provider**: some other exception at a 401, and no `OAuthTokenError`. -/
abbrev Stops (p : Heard α) : Prop :=
  Heeds (fun r => r.status = 401) (fun e => ¬ IsTokenError e) IsTokenError p

theorem not_isTokenError {text : String} : ¬ IsTokenError (.integration text) := by
  rintro ⟨_, h⟩
  cases h

theorem stops_fetch {request : Request} {failed : Response → String}
    {read : Response → Except Exc α} (hread : ∀ r, Plain (read r)) :
    Stops (fetch web request fun r =>
      if r.status ≠ 200 then .error (.integration (failed r)) else read r) := by
  refine heeds_fetch (fun r hr => ⟨.integration (failed r), not_isTokenError, ?_⟩) fun r _ => ?_
  · rw [if_pos (by rw [hr]; decide)]
  · exact Prog.errorsOnly_ite (plain_error (by simp)) (hread r)

theorem stops_listOf {request : Request} {denied failed : String} :
    Stops (fetch web request (Google.listOf key denied failed)) := by
  refine heeds_fetch (fun r hr => ⟨.integration (denied ++ r.text), not_isTokenError, ?_⟩)
    fun r _ => plain_listOf denied failed
  exact if_pos (Or.inl hr)

theorem stops_twitter : Stops (Twitter.sync web) := by
  refine heeds_bind (stops_fetch fun r => ?_) fun profileData => heeds_pure _
  exact Prog.errorsOnly_bind plain_parse fun _ => plain_get _

theorem stops_businessAccount (account : Json) :
    Stops (Google.businessAccount strOf web account) := by
  refine heeds_bind (heeds_ofExcept (plain_get _)) fun name => heeds_ite (heeds_pure _) ?_
  refine heeds_bind (heeds_ofExcept plain_textOf) fun name => ?_
  refine heeds_bind stops_listOf fun locations => ?_
  refine heeds_bind (heeds_ofExcept plain_iterate) fun locations => ?_
  refine heeds_bind (heeds_ofExcept
    (Prog.errorsOnly_collect (fun _ => plain_parsedLocation) locations)) fun parsed => ?_
  exact heeds_bind (heeds_ofExcept (plain_get _)) fun accountName => heeds_pure _

theorem stops_google : Stops (Google.performSync strOf web syncType) := by
  refine heeds_fullOnly ?_
  refine heeds_bind (stops_fetch fun r => ?_) fun profile => ?_
  · exact Prog.errorsOnly_bind plain_parse fun _ => plain_profileResponse
  refine heeds_bind stops_listOf fun accounts => ?_
  refine heeds_bind (heeds_ofExcept plain_iterate) fun accounts => ?_
  exact heeds_bind (heeds_gather stops_businessAccount accounts) fun _ => heeds_pure _

/-! ### LinkedIn -/

section Fetch

variable {request : Request} {body : Response → Except Exc α} {s : List Response}

theorem fetch_of_lost {text : String} (h : web s.length request = .error text) :
    fetch web request body s = (.error (.raised text), s) := by
  have hhear : (hear fun s => (web s.length request).mapError Exc.raised) s =
      (.error (.raised text), s) := by
    simp only [hear, h, Except.mapError]
  exact Prog.bind_of_raises hhear

theorem fetch_of_answered (h : web s.length request = .ok response) :
    fetch web request body s = (body response, s ++ [response]) := by
  have hhear : (hear fun s => (web s.length request).mapError Exc.raised) s =
      (.ok response, s ++ [response]) := by
    simp only [hear, h, Except.mapError]
  exact Prog.bind_of_returns hhear

end Fetch

theorem plain_linkedin {text : String} :
    (LinkedIn.performSync strOf web syncType []).1 ≠ .error (.oauthToken text) := by
  have hquiet : Heeds (fun _ => False) IsTokenError IsTokenError
      (LinkedIn.performSync strOf web syncType) := by
    refine heeds_fullOnly ?_
    refine heeds_bind (heeds_fetch (fun _ h => absurd h not_false) fun r _ => ?_) fun profile => ?_
    · exact Prog.errorsOnly_ite (plain_error (by simp)) plain_parse
    refine heeds_bind (heeds_fetch (fun _ h => absurd h not_false) fun r _ => ?_) fun orgs => ?_
    · refine Prog.errorsOnly_ite (Prog.errorsOnly_ok _) ?_
      exact Prog.errorsOnly_bind plain_parse fun _ => plain_get _
    exact heeds_bind (heeds_ofExcept plain_lengthOf) fun count => heeds_pure _
  intro h
  obtain ⟨_, _, hfalse⟩ := (heeds_start hquiet).2 _ ⟨text, rfl⟩ h
  exact hfalse

/-- The status of the first answer. -/
def firstStatus (heard : List Response) : Option ℕ := heard.head?.map Response.status

/-- What the engine has of the first request: nothing, or an answer, which a 401 makes an error. -/
theorem fetchProfile_cases (web : Web) :
    (∃ e, LinkedIn.fetchProfile web [] = (.error e, [])) ∨
    ∃ r x, LinkedIn.fetchProfile web [] = (x, [r]) ∧ (r.status = 401 → ∃ e, x = .error e) := by
  unfold LinkedIn.fetchProfile
  rcases hweb : web 0 ⟨"https://api.linkedin.com/v2/userinfo", ""⟩ with text | r
  · exact Or.inl ⟨_, fetch_of_lost hweb⟩
  · refine Or.inr ⟨r, _, fetch_of_answered hweb, fun hr => ?_⟩
    have hne : r.status ≠ 200 := by
      rw [hr]
      decide
    exact ⟨_, if_pos hne⟩

theorem organizations_cases (strOf : Json → String) (web : Web) (s : List Response)
    (profile : Json) :
    let rest : Heard Dict := do
      let orgs ← LinkedIn.fetchOrganizations web
      let count ← Prog.ofExcept (LinkedIn.lengthOf strOf orgs)
      pure [("profile", profile), ("organizations", orgs), ("records_synced", .int (1 + count))]
    (rest s).2 = s ∨ ∃ r, (rest s).2 = s ++ [r] ∧
      (r.status = 401 → ∃ result, (rest s).1 = .ok result) := by
  intro rest
  have hrest : (rest s).2 = (LinkedIn.fetchOrganizations web s).2 :=
    Prog.snd_bind_of_frames (f := id) (fun orgs => Prog.frames_bind (Prog.frames_ofExcept _)
      fun count => Prog.frames_pure _) s
  unfold LinkedIn.fetchOrganizations at hrest
  rcases hweb : web s.length
    ⟨"https://api.linkedin.com/v2/organizationalEntityAcls?q=roleAssignee", ""⟩ with text | r
  · rw [fetch_of_lost hweb] at hrest
    exact Or.inl hrest
  · rw [fetch_of_answered hweb] at hrest
    refine Or.inr ⟨r, hrest, fun hr => ?_⟩
    have horgs : LinkedIn.fetchOrganizations web s = (.ok (.arr []), s ++ [r]) := by
      unfold LinkedIn.fetchOrganizations
      rw [fetch_of_answered hweb, if_pos (by rw [hr]; decide)]
    exact ⟨_, congrArg Prod.fst (Prog.bind_of_returns horgs)⟩

/-- **A 401 of LinkedIn**: to the first request it is an error, to the second it is passed over. -/
theorem unauthorized_linkedin
    (h : ∃ r ∈ (LinkedIn.performSync strOf web syncType []).2, r.status = 401) :
    (firstStatus (LinkedIn.performSync strOf web syncType []).2 = some 401 ∧
      ∃ e, (LinkedIn.performSync strOf web syncType []).1 = .error e) ∨
    (firstStatus (LinkedIn.performSync strOf web syncType []).2 ≠ some 401 ∧
      ∃ result, (LinkedIn.performSync strOf web syncType []).1 = .ok result) := by
  unfold LinkedIn.performSync at h ⊢
  rcases fullOnly_cases syncType _ with hfull | hskip
  swap
  · rw [hskip] at h
    obtain ⟨_, hr, _⟩ := h
    exact absurd hr List.not_mem_nil
  rw [hfull] at h ⊢
  rcases fetchProfile_cases web with ⟨e, hprofile⟩ | ⟨r, e | profile, hprofile, herror⟩
  · rw [Prog.bind_of_raises hprofile] at h
    obtain ⟨_, hr, _⟩ := h
    exact absurd hr List.not_mem_nil
  · rw [Prog.bind_of_raises hprofile] at h ⊢
    obtain ⟨_, hr, h401⟩ := h
    rw [List.mem_singleton.mp hr] at h401
    exact Or.inl ⟨congrArg some h401, e, rfl⟩
  · have hne : r.status ≠ 401 := by
      intro hr
      obtain ⟨e, he⟩ := herror hr
      cases he
    rw [Prog.bind_of_returns hprofile] at h ⊢
    obtain ⟨r', hr', h401⟩ := h
    rcases organizations_cases strOf web [r] profile with hrest | ⟨q, hrest, hq⟩
    · rw [hrest] at hr'
      rw [List.mem_singleton.mp hr'] at h401
      exact absurd h401 hne
    · rw [hrest] at hr'
      rcases List.mem_append.mp hr' with hr' | hr'
      · rw [List.mem_singleton.mp hr'] at h401
        exact absurd h401 hne
      · rw [List.mem_singleton.mp hr'] at h401
        refine Or.inr ⟨fun hfirst => hne ?_, hq h401⟩
        rw [hrest] at hfirst
        exact Option.some.inj hfirst

/-! ### The connectors -/

/-- The providers that answer over the Graph API. -/
def isMeta : SyncProvider → Bool
  | .facebook | .instagram => true
  | .linkedin | .twitter | .google => false

variable {webOf : String → Web} {token : Option String}

/-- A connector heeds what its engine does; without a token it asks nothing. -/
theorem heeds_sync {Bad : Response → Prop} {Q : Exc → Prop} {p : SyncProvider}
    (h : ∀ web, Heeds Bad Q IsTokenError (p.performSync strOf web syncType)) :
    Heeds Bad Q IsTokenError (p.sync strOf webOf token syncType) := by
  refine heeds_ite (h _) (heeds_raise ?_)
  cases p with
  | _ => rintro ⟨_, h⟩; cases h

/-- **Meta**: an `OAuthTokenError` exactly if the token is rejected. -/
theorem tokenError_iff_of_meta {p : SyncProvider} (hp : isMeta p = true) :
    (∃ r ∈ (p.sync strOf webOf token syncType []).2, Rejects p r) ↔
      ∃ text, (p.sync strOf webOf token syncType []).1 = .error (.oauthToken text) := by
  have hheeds : Heeds (Rejects p) IsTokenError IsTokenError (p.sync strOf webOf token syncType) := by
    cases p with
    | facebook => exact heeds_sync fun _ => translates_facebook
    | instagram => exact heeds_sync fun _ => translates_instagram
    | _ => exact absurd hp Bool.false_ne_true
  obtain ⟨hbad, honly⟩ := heeds_start hheeds
  constructor
  · intro h
    obtain ⟨_, ⟨text, rfl⟩, hout⟩ := hbad h
    exact ⟨text, hout⟩
  · rintro ⟨text, hout⟩
    exact honly _ ⟨text, rfl⟩ hout

/-- **The others**: no `OAuthTokenError`, whatever they are answered. -/
theorem plain_sync {p : SyncProvider} (hp : isMeta p = false) (text : String) :
    (p.sync strOf webOf token syncType []).1 ≠ .error (.oauthToken text) := by
  have hstops : Stops (p.sync strOf webOf token syncType) →
      (p.sync strOf webOf token syncType []).1 ≠ .error (.oauthToken text) := by
    intro h hout
    obtain ⟨hbad, honly⟩ := heeds_start h
    obtain ⟨e, he, hout'⟩ := hbad (honly _ ⟨text, rfl⟩ hout)
    rw [hout] at hout'
    exact he ⟨text, (Except.error.inj hout').symm⟩
  cases p with
  | linkedin =>
    unfold SyncProvider.sync
    split_ifs
    · exact plain_linkedin
    · intro h
      cases h
  | twitter => exact hstops (heeds_sync fun _ => stops_twitter)
  | google => exact hstops (heeds_sync fun _ => stops_google)
  | _ => exact absurd hp.symm Bool.false_ne_true

/-- **A 401 to another provider** is an error, unless it is the answer to LinkedIn's second request,
where it is passed over. -/
theorem unauthorized_cases {p : SyncProvider} (hp : isMeta p = false)
    (h : ∃ r ∈ (p.sync strOf webOf token syncType []).2, Rejects p r) :
    ((p = .linkedin → firstStatus (p.sync strOf webOf token syncType []).2 = some 401) ∧
      ∃ e, (p.sync strOf webOf token syncType []).1 = .error e) ∨
    (p = .linkedin ∧ firstStatus (p.sync strOf webOf token syncType []).2 ≠ some 401 ∧
      ∃ result, (p.sync strOf webOf token syncType []).1 = .ok result) := by
  cases p with
  | linkedin =>
    unfold SyncProvider.sync at h ⊢
    split_ifs at h ⊢
    · rcases unauthorized_linkedin h with ⟨hfirst, hout⟩ | hout
      · exact Or.inl ⟨fun _ => hfirst, hout⟩
      · exact Or.inr ⟨rfl, hout⟩
    · obtain ⟨_, hr, _⟩ := h
      exact absurd hr List.not_mem_nil
  | twitter =>
    obtain ⟨e, -, hout⟩ := (heeds_start (heeds_sync fun _ => stops_twitter)).1 h
    exact Or.inl ⟨fun hp => (by cases hp), e, hout⟩
  | google =>
    obtain ⟨e, -, hout⟩ := (heeds_start (heeds_sync fun _ => stops_google)).1 h
    exact Or.inl ⟨fun hp => (by cases hp), e, hout⟩
  | _ => exact absurd hp.symm Bool.false_ne_true

end MarketingSuite.Integrations.TokenErrors
