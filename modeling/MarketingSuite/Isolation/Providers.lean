import MarketingSuite.Isolation.Services
import MarketingSuite.Publishing.Truth

/-! # The providers, twice

A provider that publishes for an account of a workspace reads and writes rows of that workspace
only: it looks the connection up by the workspace and the account up by its id, and stores renewed
tokens in these two rows. So two runs of it, with one world around them, stand together. -/

namespace MarketingSuite.Isolation.Providers

open MarketingSuite.Lib.Programs MarketingSuite.Lib.Tables MarketingSuite.Lib.Shares
open MarketingSuite.Lib.Relations MarketingSuite.Lib.Sessions
open MarketingSuite.Base.Values MarketingSuite.Base.Models MarketingSuite.Base.Schema
open MarketingSuite.Repositories.Base MarketingSuite.Isolation.Rows
open MarketingSuite.Isolation.Services
open MarketingSuite.Sync.Engine (getByWorkspaceAndProvider)
open MarketingSuite.Social.Providers (Desk Work Platform Secrets PlatformCall ask onDatabase persist
  updateBoth refreshTokens checkText checkAuthor checkAssets checkAsset)
open MarketingSuite.Social.Factory
open MarketingSuite.Publishing.Truth (start dispatch)

variable {w i : Uuid} {o₁ o₂ s t : Database} {α : Type}

/-! ### Storing renewed tokens -/

/-- The account with this id, in a database where it is one of the workspace. -/
def Holds (w i : Uuid) (s : Database) : Prop :=
  ∃ a ∈ s.socialAccounts.rows, a.id = i ∧ own w a = true

theorem Holds.agree (h : Holds w i s) (hagree : Agree w s t) : Holds w i t := by
  obtain ⟨a, ha, hid, hw⟩ := h
  exact ⟨a, (mem_iff_of_agree hagree hw).mp ha, hid, hw⟩

theorem own_of_holds (h : Holds w i s) {a : SocialAccount} (ha : a ∈ s.socialAccounts.rows)
    (hid : a.id = i) : own w a = true := by
  obtain ⟨b, hb, hbid, hw⟩ := h
  exact own_of_key hb hbid hw a ha hid

theorem looks_connection (hagree : Agree w s t) {provider : Option String} :
    Looks (getByWorkspaceAndProvider w provider) s t fun found => ∀ c, found = some c →
      c ∈ s.integrationConnections.rows ∧ own w c = true := by
  have hown : ∀ c : IntegrationConnection,
      (c.workspaceId = w && some c.provider = provider : Bool) = true → own w c = true := by
    intro c hc
    simp only [Bool.and_eq_true, decide_eq_true_eq] at hc
    exact own_iff.mpr hc.1
  refine looks_bind (looks_gets (select_of_share hagree.connections (fun c _ => hown c)
    fun c _ => hown c) rfl) fun rows hrows => looks_pure fun c hc => ?_
  have hmem : c ∈ rows := List.mem_of_head? hc
  rw [← hrows] at hmem
  obtain ⟨hc, hp⟩ := Table.mem_select.mp hmem
  exact ⟨hc, hown c hp⟩

theorem looks_account (hagree : Agree w s t) (h : Holds w i s) :
    Looks (getById SocialAccount i) s t fun found => ∀ a, found = some a →
      a ∈ s.socialAccounts.rows ∧ own w a = true := by
  have hkey : ∀ a : SocialAccount,
      (Keyed.key a = i && (Model.deletedAt a).isNone : Bool) = true → a.id = i := by
    intro a ha
    simp only [Bool.and_eq_true, decide_eq_true_eq] at ha
    exact ha.1
  have hsel : (table s : Table SocialAccount).select
        (fun a => Keyed.key a = i && (Model.deletedAt a).isNone) =
      (table t : Table SocialAccount).select
        fun a => Keyed.key a = i && (Model.deletedAt a).isNone :=
    select_of_share hagree.accounts (fun a ha hp => own_of_holds h ha (hkey a hp))
      fun a ha hp => own_of_holds (h.agree hagree) ha (hkey a hp)
  refine (looks_selectOne hsel).mono fun found hfound a ha => ?_
  have hmem : a ∈ (table s : Table SocialAccount).select
      fun a => Keyed.key a = i && (Model.deletedAt a).isNone := by
    rw [hfound, ha]
    exact List.mem_singleton_self a
  obtain ⟨ha, hp⟩ := Table.mem_select.mp hmem
  exact ⟨ha, own_of_holds h ha (hkey a hp)⟩

theorem together_writes {x : Secrets} {conn : IntegrationConnection} {acct : SocialAccount}
    (hst : Standing w none o₁ o₂ s t) (hc : conn ∈ s.integrationConnections.rows)
    (hcw : own w conn = true) (ha : acct ∈ s.socialAccounts.rows) (haw : own w acct = true) :
    Together (do
        let _ ← update conn.id x.writeConnection
        let token ← orRaise x.accessToken .integrity
        let _ ← update acct.id (x.writeAccount token)
        pure () : Svc Unit) s t (fun _ => Standing w none o₁ o₂) (Standing w none o₁ o₂) := by
  have hsound : ∀ {u : Database} (T : Table IntegrationConnection), Sound u →
      Sound { u with integrationConnections := T } := fun T hu =>
    sound_of_grows hu { Grows.refl _ with } rfl rfl rfl
  refine together_bind (together_update (f := x.writeConnection) hst hc rfl hcw (fun _ => rfl)
    (fun _ => rfl) rfl (fun _ T _ => hsound T hst.sound₁) fun _ T _ => hsound T hst.sound₂)
    fun _ s' t' h => ?_
  obtain ⟨-, hst', ⟨T, -, rfl⟩, -⟩ := h
  refine looks_orRaise.bind (fun token _ => ?_) hst'
  have hw : acct.workspaceId = w := own_iff.mp haw
  have hid : ∀ a : SocialAccount, (x.writeAccount token a).id = a.id := fun _ => rfl
  have hgrows : ∀ {u : Database} {T : Table SocialAccount},
      u.socialAccounts.modify acct.id (x.writeAccount token) = some T → Sound u →
      Sound { u with socialAccounts := T } := by
    intro u T hT hu
    refine sound_of_grows hu (grows_accounts fun j hj => ?_) rfl rfl rfl
    rw [has_modify (f := x.writeAccount token) hid hT]
    exact hj
  refine together_bind_pure ((together_update (f := x.writeAccount token) hst' ha rfl haw hid
    (fun _ => rfl) ?_ (fun _ T hT => hgrows hT hst'.sound₁)
    fun _ T hT => hgrows hT hst'.sound₂).mono (fun _ _ _ h => h.2.1) fun _ _ h => h)
  simp only [Model.references, Secrets.writeAccount, hw]
  exact has_workspace hst'.agree

/-- What a dedicated session does: it commits both writes, or it fails before it committed. -/
theorem together_updateBoth {platform : Platform} {account : SocialAccount} {x : Secrets}
    (hst : Standing w none o₁ o₂ s t) (hw : account.workspaceId = w)
    (hrow : Holds w account.id s) :
    Together (updateBoth platform account x) (Session.fresh s) (Session.fresh t)
      (fun _ y z => Standing w none o₁ o₂ y.committed z.committed)
      fun y z => y.committed = s ∧ z.committed = t := by
  rw [updateBoth, hw]
  refine Looks.exec_bind (looks_connection hst.agree) (fun conn hconn => ?_) ⟨rfl, rfl⟩
  refine Looks.exec_bind (looks_account hst.agree hrow) (fun acct hacct => ?_) ⟨rfl, rfl⟩
  rcases conn with _ | conn
  · exact together_raise ⟨rfl, rfl⟩
  rcases acct with _ | acct
  · exact together_raise ⟨rfl, rfl⟩
  obtain ⟨hc, hcw⟩ := hconn conn rfl
  obtain ⟨ha, haw⟩ := hacct acct rfl
  refine together_bind (S := fun _ y z => Standing w none o₁ o₂ y.view z.view)
    (together_exec ((together_writes hst hc hcw ha haw).mono (fun _ _ _ h => h)
      fun _ _ _ => ⟨rfl, rfl⟩)) fun _ y z h => ?_
  exact together_commit h

theorem together_persist {e : Social.Providers.Env} {platform : Platform} {account : SocialAccount}
    {x : Secrets} (hst : Standing w none o₁ o₂ s t) (hw : account.workspaceId = w)
    (hrow : Holds w account.id s) :
    Together (persist e platform account x) s t (fun _ => Standing w none o₁ o₂)
      (Standing w none o₁ o₂) := by
  refine together_serve (together_handle (together_updateBoth hst hw hrow) fun exc y z h => ?_)
  refine together_bind (S := fun _ y z => Standing w none o₁ o₂ y.committed z.committed)
    (together_rollback ?_) fun _ y z h => together_raise h
  rw [h.1, h.2]
  exact hst

/-! ### A provider at work -/

/-- Two desks that differ in the database only, and there stand together. -/
structure Desks (w : Uuid) (o₁ o₂ : Database) (x y : Desk) : Prop where
  db : Standing w none o₁ o₂ x.db y.db
  account : x.account = y.account
  calls : x.calls = y.calls

/-- Two stages likewise. -/
structure Stages (w : Uuid) (o₁ o₂ : Database) (x y : Stage) : Prop where
  desk : Desks w o₁ o₂ x.desk y.desk
  asked : x.asked = y.asked

variable {x y : Desk} {u v : Stage}

theorem together_ask {call : PlatformCall} {answer : Except Exc α} (h : Desks w o₁ o₂ x y) :
    Together (ask call answer) x y
      (fun _ x' y' => Desks w o₁ o₂ x' y' ∧ x'.db = x.db ∧ x'.account = x.account)
      (Desks w o₁ o₂) := by
  have hnext : Desks w o₁ o₂ { x with calls := call :: x.calls } { y with calls := call :: y.calls } :=
    ⟨h.db, h.account, congrArg (call :: ·) h.calls⟩
  refine together_bind (S := fun _ x' y' => x' = { x with calls := call :: x.calls } ∧
    y' = { y with calls := call :: y.calls }) (together_modify ⟨rfl, rfl⟩) ?_
  rintro _ _ _ ⟨rfl, rfl⟩
  exact together_ofExcept (fun _ _ => ⟨hnext, rfl, rfl⟩) hnext

theorem together_refreshTokens {e : Social.Providers.Env} {platform : Platform}
    (h : Desks w o₁ o₂ x y) (hw : x.account.workspaceId = w) (hrow : Holds w x.account.id x.db) :
    Together (refreshTokens e platform) x y (fun _ => Desks w o₁ o₂) (Desks w o₁ o₂) := by
  have hread : Looks (Prog.gets Desk.account : Work SocialAccount) x y fun a => a = x.account :=
    looks_gets h.account rfl
  refine hread.bind (fun account hacc => ?_) h
  subst hacc
  refine together_ite (fun _ => ?_) fun _ => together_pure h
  refine looks_require.bind (fun _ _ => ?_) h
  refine together_bind (together_ask h) fun tokens x' y' h' => ?_
  obtain ⟨hd, hdb, -⟩ := h'
  have hrow' : Holds w x.account.id x'.db := by
    rw [hdb]
    exact hrow
  refine together_bind (S := fun _ => Desks w o₁ o₂)
    (together_focus ((together_persist hd.db hw hrow').mono ?_ ?_)) fun _ x₂ y₂ h₂ => ?_
  · exact fun _ s' t' hst => ⟨hst, hd.account, hd.calls⟩
  · exact fun s' t' hst => ⟨hst, hd.account, hd.calls⟩
  · exact together_modify ⟨h₂.db, by rw [h₂.account], h₂.calls⟩

theorem together_onDesk {p : Work α} (h : Stages w o₁ o₂ u v)
    (hp : Together p u.desk v.desk (fun _ => Desks w o₁ o₂) (Desks w o₁ o₂)) :
    Together (onDesk p) u v (fun _ => Stages w o₁ o₂) (Stages w o₁ o₂) :=
  together_focus (hp.mono (fun _ _ _ hd => ⟨hd, h.asked⟩) fun _ _ hd => ⟨hd, h.asked⟩)

theorem looks_readAccount (h : Stages w o₁ o₂ u v) :
    Looks readAccount u v fun a => a = u.desk.account := looks_gets h.desk.account rfl

variable {env : Env} {content : CampaignContent} {assets : List MediaAsset}

theorem together_askPublisher {token : String} {post : Post} (h : Stages w o₁ o₂ u v) :
    Together (askPublisher env token post) u v (fun _ => Stages w o₁ o₂) (Stages w o₁ o₂) := by
  refine together_bind (S := fun _ => Stages w o₁ o₂) (together_modify ⟨h.desk, ?_⟩)
    fun _ u' v' h' => together_ofExcept (fun _ _ => h') h'
  rw [h.asked]

theorem together_deliver {post : Post} {missing : Exc} (h : Stages w o₁ o₂ u v) :
    Together (deliver env post missing) u v (fun _ => Stages w o₁ o₂) (Stages w o₁ o₂) := by
  refine (looks_readAccount h).bind (fun account _ => ?_) h
  refine together_bind (together_askPublisher h) fun postId u' v' h' => ?_
  exact looks_require.bind (fun _ _ => together_pure h') h'

theorem looks_onDesk {p : Work α} {P : α → Prop} (hp : Looks p u.desk v.desk P) :
    Looks (onDesk p) u v P :=
  together_focus (hp.together (S := fun a k k' => ({ u with desk := k } : Stage) = u ∧
    ({ v with desk := k' } : Stage) = v ∧ P a) (fun _ ha => ⟨rfl, rfl, ha⟩) ⟨rfl, rfl⟩)

theorem looks_checkText {platform : Platform} {account : SocialAccount} :
    Looks (checkText platform account content) x y fun _ => True :=
  looks_bind looks_require fun _ _ => looks_require.mono fun _ _ => trivial

theorem looks_googleChecks {account : SocialAccount} :
    Looks (googleChecks account content assets) x y fun _ => True := by
  refine looks_bind looks_checkText fun _ _ => ?_
  rcases assets with _ | ⟨asset, _ | ⟨asset', l⟩⟩
  · exact looks_pure trivial
  · refine looks_bind looks_require fun _ _ => ?_
    exact looks_bind looks_require fun _ _ => looks_require.mono fun _ _ => trivial
  · exact looks_raise

/-- A provider begins with the account object of the caller, which is one of the workspace. -/
structure Begins (w : Uuid) (u : Stage) : Prop where
  workspace : u.desk.account.workspaceId = w
  row : Holds w u.desk.account.id u.desk.db

theorem together_refresh {platform : Platform} (h : Stages w o₁ o₂ u v) (hu : Begins w u) :
    Together (onDesk (refreshTokens env.toProviders platform)) u v (fun _ => Stages w o₁ o₂)
      (Stages w o₁ o₂) :=
  together_onDesk h (together_refreshTokens h.desk hu.workspace hu.row)

/-- **Every provider keeps two runs together.** -/
theorem together_body (p : SocialProvider) (h : Stages w o₁ o₂ u v) (hu : Begins w u) :
    Together (p.body env content assets) u v (fun _ => Stages w o₁ o₂) (Stages w o₁ o₂) := by
  cases p with
  | mock => exact together_pure h
  | facebook =>
    refine (looks_readAccount h).bind (fun account _ => ?_) h
    refine looks_require.bind (fun _ _ => ?_) h
    exact looks_ofExcept.bind (fun _ _ => together_deliver h) h
  | instagram =>
    refine (looks_readAccount h).bind (fun account _ => ?_) h
    refine looks_require.bind (fun _ _ => ?_) h
    exact looks_ofExcept.bind (fun _ _ => together_deliver h) h
  | linkedin =>
    refine (looks_readAccount h).bind (fun account _ => ?_) h
    refine (looks_onDesk looks_checkText).bind (fun _ _ => ?_) h
    refine (looks_onDesk looks_require).bind (fun _ _ => ?_) h
    refine together_bind (together_refresh h hu) fun _ u' v' h' => ?_
    refine looks_ofExcept.bind (fun _ _ => ?_) h'
    exact looks_ofExcept.bind (fun _ _ => together_deliver h') h'
  | google =>
    refine (looks_readAccount h).bind (fun account _ => ?_) h
    refine (looks_onDesk looks_googleChecks).bind (fun _ _ => ?_) h
    refine together_bind (together_refresh h hu) fun _ u' v' h' => ?_
    refine (looks_readAccount h').bind (fun account _ => ?_) h'
    exact together_bind (together_askPublisher h') fun _ _ _ h'' => together_pure h''
  | twitter =>
    refine (looks_readAccount h).bind (fun account _ => ?_) h
    refine (looks_onDesk looks_checkText).bind (fun _ _ => ?_) h
    refine together_bind (together_refresh h hu) fun _ u' v' h' => ?_
    refine (looks_readAccount h').bind (fun account _ => ?_) h'
    refine looks_require.bind (fun _ _ => ?_) h'
    exact looks_ofExcept.bind (fun _ _ => together_deliver h') h'

theorem publisher_returns {account : SocialAccount} {id : String}
    (h : (dispatch env account content).Returns (start s account) id u) :
    ((Publishing.Truth.publisher env).publish account content).Returns s id u.desk.db := by
  unfold Prog.Returns at h ⊢
  simp only [Publishing.Truth.publisher, h]

theorem publisher_raises {account : SocialAccount} {e : Exc}
    (h : (dispatch env account content).Raises (start s account) e u) :
    ((Publishing.Truth.publisher env).publish account content).Raises s e u.desk.db := by
  unfold Prog.Raises at h ⊢
  simp only [Publishing.Truth.publisher, h]

/-- **The provider of the publishing service**, for an account of the workspace. -/
theorem together_publish {account : SocialAccount} (hst : Standing w none o₁ o₂ s t)
    (hw : account.workspaceId = w) (hrow : account ∈ s.socialAccounts.rows) :
    Together ((Publishing.Truth.publisher env).publish account content) s t
      (fun _ => Standing w none o₁ o₂) (Standing w none o₁ o₂) := by
  have hstages : Stages w o₁ o₂ (start s account) (start t account) := ⟨⟨hst, rfl, rfl⟩, rfl⟩
  have hbegins : Begins w (start s account) := ⟨hw, account, hrow, rfl, own_iff.mpr hw⟩
  have hrun : Together (dispatch env account content) (start s account) (start t account)
      (fun _ => Stages w o₁ o₂) (Stages w o₁ o₂) :=
    together_ite (fun _ => together_body _ hstages hbegins) fun _ => together_raise hstages
  rcases hrun with ⟨a, u, v, hu, hv, h⟩ | ⟨e, u, v, hu, hv, h⟩
  · exact together_of_returns (publisher_returns hu) (publisher_returns hv) h.desk.db
  · exact together_of_raises (publisher_raises hu) (publisher_raises hv) h.desk.db

end MarketingSuite.Isolation.Providers
