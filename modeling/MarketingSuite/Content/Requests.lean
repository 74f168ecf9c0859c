import MarketingSuite.Content.Service
import MarketingSuite.Lib.Transactions

/-! # Requests about contents, statement by statement

`create_campaign_content`, `update_content` and `delete_content` as transactions. A new version
looks the latest one up in one statement and retires it in a later one. A flush writes the columns
whose values differ from those of the row object, so an update may leave columns alone that it
sets. -/

namespace MarketingSuite.Content.Requests

open MarketingSuite.Lib.Programs MarketingSuite.Lib.Tables MarketingSuite.Lib.Transactions
open MarketingSuite.Base.Values MarketingSuite.Base.Models MarketingSuite.Base.Schema
open MarketingSuite.Repositories.Base MarketingSuite.Content.Service
open MarketingSuite.Campaigns.Service (getCampaign frames_getCampaign)

/-! ### What a flush writes -/

/-- Two values of a nullable column are taken for the same. -/
def sameValue {α : Type} (same : α → α → Bool) : Option α → Option α → Bool
  | none, none => true
  | some a, some b => same a b
  | _, _ => false

/-- A field is written if it is set, to another value than the row object has. -/
def written {α : Type} (same : α → α → Bool) (loaded : Option α) (field : PatchField α) :
    PatchField α :=
  field.filter fun value => !sameValue same value loaded

/-- Values that are equal are the same. -/
def equal {α : Type} [DecidableEq α] (a b : α) : Bool := decide (a = b)

/-- The part of an update that the flush writes; `same` compares JSON documents. -/
def writtenOf (same : Json → Json → Bool) (loaded : CampaignContent)
    (data : CampaignContentUpdate) : CampaignContentUpdate where
  title := written equal (some loaded.title) data.title
  contentType := written equal (some loaded.contentType) data.contentType
  status := written equal (some loaded.status) data.status
  language := written equal loaded.language data.language
  body := written equal loaded.body data.body
  summary := written equal loaded.summary data.summary
  hashtags := written equal loaded.hashtags data.hashtags
  cta := written equal loaded.cta data.cta
  seoTitle := written equal loaded.seoTitle data.seoTitle
  seoDescription := written equal loaded.seoDescription data.seoDescription
  scheduledPlaceholder := written equal loaded.scheduledPlaceholder data.scheduledPlaceholder
  metadata := written same loaded.metadata data.metadata

/-! ### The transactions -/

/-- Where a request is: the statement that comes next, with the objects it holds. -/
inductive Phase
  | getCampaign
  | getLatest
  | retire (latest : Option CampaignContent)
  | create (latest : Option CampaignContent)
  | getContent
  | update (content : CampaignContent)
  | getById (content : CampaignContent)
  | mark (content : CampaignContent)
  | other
  | commit (latest : Option CampaignContent)

/-- A request of another part of the system, which leaves the contents alone. -/
abbrev Other : Type := { p : Svc Unit // p.Frames Database.campaignContents }

/-- A request to the content service, or another one. -/
inductive Request
  | create (d : Draws) (workspaceId : Uuid) (data : CampaignContentCreate)
  | update (workspaceId campaignId contentId : Uuid) (data : CampaignContentUpdate)
  | delete (d : Draws) (workspaceId campaignId contentId : Uuid)
  | other (body : Other)

/-- The statements of `create_campaign_content`. -/
def createNext (d : Draws) (workspaceId : Uuid) (data : CampaignContentCreate) :
    Phase → Statement Database Exc Phase
  | .getCampaign => .ask do
    let _ ← getCampaign workspaceId data.campaignId
    pure .getLatest
  | .getLatest => .ask do
    let latest ← getLatestVersion data.campaignId data.contentType (orElse data.language "en")
    pure (.retire latest)
  | .retire latest => .write (Service.retire latest) (.create latest)
  | .create latest =>
    .write (do let _ ← Repositories.Base.create (contentOf d workspaceId data latest); pure ())
      (.commit latest)
  | _ => .commit

/-- The statements of `update_content`. -/
def updateNext (same : Json → Json → Bool) (workspaceId campaignId contentId : Uuid)
    (data : CampaignContentUpdate) : Phase → Statement Database Exc Phase
  | .getContent => .ask do
    let content ← Service.getContent workspaceId campaignId contentId
    pure (.update content)
  | .update content =>
    .write (do
      Prog.require data.storable .integrity
      let _ ← Repositories.Base.update content.id (patch (writtenOf same content data))
      pure ()) (.commit none)
  | _ => .commit

/-- The statements of `delete_content`; the repository reads the row again. -/
def deleteNext (d : Draws) (workspaceId campaignId contentId : Uuid) :
    Phase → Statement Database Exc Phase
  | .getContent => .ask do
    let content ← Service.getContent workspaceId campaignId contentId
    pure (.getById content)
  | .getById content => .ask do
    let found ← Repositories.Base.getById CampaignContent content.id
    Prog.require (found.isSome = true) (.http 404 "Content not found")
    pure (.mark content)
  | .mark content =>
    .write (do
      let _ ← Repositories.Base.update content.id fun r : CampaignContent =>
        { r with deletedAt := some (d.now 0) }
      pure ()) (.commit none)
  | _ => .commit

/-- Another request, all its statements at once. -/
def otherNext (body : Other) : Phase → Statement Database Exc Phase
  | .other => .write body.val (.commit none)
  | _ => .commit

namespace Request

/-- The first statement. -/
def first : Request → Phase
  | .create .. => .getCampaign
  | .update .. | .delete .. => .getContent
  | .other _ => .other

/-- The statements of a request. -/
def next (same : Json → Json → Bool) : Request → Phase → Statement Database Exc Phase
  | .create d w data => createNext d w data
  | .update w c i data => updateNext same w c i data
  | .delete d w c i => deleteNext d w c i
  | .other body => otherNext body

/-- The call of the service. -/
def serve : Request → Svc Unit
  | .create d w data => do
    let _ ← createCampaignContent d w data
    pure ()
  | .update w c i data => do
    let _ ← updateContent w c i data
    pure ()
  | .delete d w c i => do
    let _ ← deleteContent d w c i
    pure ()
  | .other body => body.val

end Request

/-! ### A request alone -/

variable {same : Json → Json → Bool} {d : Draws} {w c i : Uuid} {data : CampaignContentCreate}
  {upd : CampaignContentUpdate} {r : CampaignContent} {s s' : Database}

theorem eq_of_sameValue {α : Type} {same : α → α → Bool} (h : ∀ a b, same a b = true → a = b)
    {x y : Option α} (hxy : sameValue same x y = true) : x = y := by
  cases x with
  | none =>
    cases y with
    | none => rfl
    | some b => exact absurd hxy Bool.false_ne_true
  | some a =>
    cases y with
    | none => exact absurd hxy Bool.false_ne_true
    | some b => rw [h a b hxy]

theorem getD_written {α : Type} {same : α → α → Bool} (h : ∀ a b, same a b = true → a = b)
    (loaded : Option α) (field : PatchField α) :
    (written same loaded field).getD loaded = field.getD loaded := by
  cases field with
  | none => rfl
  | some value =>
    rcases hs : sameValue same value loaded with _ | _
    · simp [written, Option.filter, hs]
    · simp only [written, Option.filter, hs]
      exact (eq_of_sameValue h hs).symm

theorem eq_of_equal {α : Type} [DecidableEq α] (a b : α) (h : equal a b = true) : a = b :=
  of_decide_eq_true h

/-- On the row object that it compares with, a flush sets what the update sets. -/
theorem patch_writtenOf (h : ∀ a b, same a b = true → a = b) (r : CampaignContent)
    (data : CampaignContentUpdate) : patch (writtenOf same r data) r = patch data r := by
  simp only [patch, writtenOf, getD_written eq_of_equal, getD_written h]

theorem update_congr {f g : CampaignContent → CampaignContent} (hr : r ∈ s.campaignContents.rows)
    (hi : r.id = i) (hfg : f r = g r) :
    Repositories.Base.update i f s = Repositories.Base.update i g s := by
  have hmodify : s.campaignContents.modify i f = s.campaignContents.modify i g := by
    refine Option.ext fun T => ?_
    show _ = some T ↔ _ = some T
    rw [Table.modify_eq_some, Table.modify_eq_some]
    have hrows : ∀ q ∈ s.campaignContents.rows,
        (if Keyed.key q = i then f q else q) = if Keyed.key q = i then g q else q := by
      intro q hq
      split_ifs with hk
      · obtain rfl := s.campaignContents.eq_of_key_eq hq hr (hk.trans hi.symm)
        exact hfg
      · rfl
    rw [List.map_congr_left hrows]
  have hfind : s.campaignContents.rows.find? (fun q => Keyed.key q = i) = some r :=
    find_row (s := s) hr hi
  have hmodify : (table s : Table CampaignContent).modify i f =
      (table s : Table CampaignContent).modify i g := hmodify
  have hfind : (table s : Table CampaignContent).rows.find? (fun q => Keyed.key q = i) = some r :=
    hfind
  unfold Repositories.Base.update
  simp [bind, Prog.gets, orRaise, hfind, hmodify, hfg, pure]

theorem solo_create (data : CampaignContentCreate) (n : ℕ) :
    solo (createNext d w data) (n + 4) .getCampaign = (do
    let _ ← getCampaign w data.campaignId
    let latest ← getLatestVersion data.campaignId data.contentType (orElse data.language "en")
    Service.retire latest
    let _ ← Repositories.Base.create (contentOf d w data latest)
    pure (.commit latest) : Svc Phase) := by
  have hcampaign : (do
      let _ ← getCampaign w data.campaignId
      pure .getLatest : Svc Phase).Frames id :=
    Prog.frames_bind frames_getCampaign fun _ => Prog.frames_pure _
  have hlatest : (do
      let latest ← getLatestVersion data.campaignId data.contentType (orElse data.language "en")
      pure (.retire latest) : Svc Phase).Frames id :=
    Prog.frames_bind frames_getLatestVersion fun _ => Prog.frames_pure _
  have hretire : ∀ latest, solo (createNext d w data) (n + 2) (.retire latest) = (do
      Service.retire latest
      let _ ← Repositories.Base.create (contentOf d w data latest)
      pure (.commit latest) : Svc Phase) := by
    intro latest
    have hcreate : solo (createNext d w data) (n + 1) (.create latest) = (do
        (do let _ ← Repositories.Base.create (contentOf d w data latest); pure ())
        solo (createNext d w data) n (.commit latest) : Svc Phase) := solo_write n rfl
    have hcommit : solo (createNext d w data) n (.commit latest) =
        (pure (.commit latest) : Svc Phase) := solo_commit n rfl
    have hwrite : solo (createNext d w data) (n + 2) (.retire latest) = (do
        Service.retire latest
        solo (createNext d w data) (n + 1) (.create latest) : Svc Phase) := solo_write (n + 1) rfl
    rw [hwrite, hcreate, hcommit, Prog.bind_assoc]
    rfl
  rw [solo_ask _ rfl hcampaign, Prog.bind_assoc]
  congr 1
  funext campaign
  rw [Prog.pure_bind, solo_ask _ rfl hlatest, Prog.bind_assoc]
  congr 1
  funext latest
  rw [Prog.pure_bind, hretire]

theorem solo_update (h : ∀ a b, same a b = true → a = b) (upd : CampaignContentUpdate) (n : ℕ) :
    solo (updateNext same w c i upd) (n + 2) .getContent = (do
      let _ ← updateContent w c i upd
      pure (.commit none) : Svc Phase) := by
  have hread : (do
      let content ← Service.getContent w c i
      pure (.update content) : Svc Phase).Frames id :=
    Prog.frames_bind frames_getContent fun _ => Prog.frames_pure _
  have hwrite : ∀ content, solo (updateNext same w c i upd) (n + 1) (.update content) = (do
      Prog.require upd.storable .integrity
      let _ ← Repositories.Base.update content.id (patch (writtenOf same content upd))
      pure (.commit none) : Svc Phase) := by
    intro content
    have hupdate : solo (updateNext same w c i upd) (n + 1) (.update content) = (do
        (do
          Prog.require upd.storable .integrity
          let _ ← Repositories.Base.update content.id (patch (writtenOf same content upd))
          pure ())
        solo (updateNext same w c i upd) n (.commit none) : Svc Phase) := solo_write n rfl
    have hcommit : solo (updateNext same w c i upd) n (.commit none) =
        (pure (.commit none) : Svc Phase) := solo_commit n rfl
    rw [hupdate, hcommit]
    simp only [Prog.bind_assoc, Prog.pure_bind]
  rw [solo_ask _ rfl hread, updateContent]
  simp only [Prog.bind_assoc, Prog.pure_bind, hwrite]
  funext s
  rcases (Service.getContent w c i).returns_or_raises s with ⟨r, s', hget⟩ | ⟨e, s', hget⟩
  · obtain ⟨rfl, hr⟩ := getContent_spec hget
    rw [Prog.bind_of_returns hget, Prog.bind_of_returns hget]
    have hsame : Repositories.Base.update r.id (patch (writtenOf same r upd)) s' =
        Repositories.Base.update r.id (patch upd) s' :=
      update_congr hr.1 rfl (patch_writtenOf h r upd)
    rcases (Prog.require upd.storable Exc.integrity).returns_or_raises s' with
      ⟨⟨⟩, t, hreq⟩ | ⟨e, t, hreq⟩
    · obtain ⟨-, rfl⟩ := Prog.returns_require.mp hreq
      rw [Prog.bind_of_returns hreq, Prog.bind_of_returns hreq]
      simp only [bind, hsame]
    · rw [Prog.bind_of_raises hreq, Prog.bind_of_raises hreq]
  · rw [Prog.bind_of_raises hget, Prog.bind_of_raises hget]

theorem solo_delete (n : ℕ) : solo (deleteNext d w c i) (n + 3) .getContent = (do
    let _ ← deleteContent d w c i
    pure (.commit none) : Svc Phase) := by
  have hread : (do
      let content ← Service.getContent w c i
      pure (.getById content) : Svc Phase).Frames id :=
    Prog.frames_bind frames_getContent fun _ => Prog.frames_pure _
  have hagain : ∀ content : CampaignContent, (do
      let found ← Repositories.Base.getById CampaignContent content.id
      Prog.require (found.isSome = true) (.http 404 "Content not found")
      pure (.mark content) : Svc Phase).Frames id := fun _ =>
    Prog.frames_bind frames_getById fun _ => Prog.frames_bind (Prog.frames_require _ _) fun _ =>
      Prog.frames_pure _
  have hmark : ∀ content, solo (deleteNext d w c i) (n + 1) (.mark content) = (do
      let _ ← Repositories.Base.update content.id fun r : CampaignContent =>
        { r with deletedAt := some (d.now 0) }
      pure (.commit none) : Svc Phase) := by
    intro content
    have hupdate : solo (deleteNext d w c i) (n + 1) (.mark content) = (do
        (do
          let _ ← Repositories.Base.update content.id fun r : CampaignContent =>
            { r with deletedAt := some (d.now 0) }
          pure ())
        solo (deleteNext d w c i) n (.commit none) : Svc Phase) := solo_write n rfl
    have hcommit : solo (deleteNext d w c i) n (.commit none) =
        (pure (.commit none) : Svc Phase) := solo_commit n rfl
    rw [hupdate, hcommit]
    simp only [Prog.bind_assoc, Prog.pure_bind]
  rw [solo_ask _ rfl hread, deleteContent, Prog.bind_assoc, Prog.bind_assoc]
  congr 1
  funext r
  rw [Prog.pure_bind, solo_ask _ rfl (hagain r), softDelete, updateWhere]
  simp only [Prog.bind_assoc, Prog.pure_bind, hmark]
  congr 1
  funext found
  rcases found with _ | row
  · rfl
  · simp [Prog.require, Prog.bind_assoc, Prog.pure_bind]

namespace Request

variable {r : Request}

/-- **The statements are the service**: all of them, one after another, do what the call does. -/
theorem serve_eq_solo (h : ∀ a b, same a b = true → a = b) (r : Request) :
    r.serve = (do let _ ← solo (r.next same) 4 r.first; pure () : Svc Unit) := by
  cases r with
  | create d w data =>
    have hsolo := solo_create (d := d) (w := w) data 0
    simp only [serve, next, first, hsolo, createCampaignContent, Prog.bind_assoc, Prog.pure_bind]
  | update w c i upd =>
    have hsolo := solo_update (w := w) (c := c) (i := i) h upd 2
    simp only [serve, next, first, hsolo, Prog.bind_assoc, Prog.pure_bind]
  | delete d w c i =>
    have hsolo := solo_delete (d := d) (w := w) (c := c) (i := i) 1
    simp only [serve, next, first, hsolo, Prog.bind_assoc, Prog.pure_bind]
  | other body =>
    have hwrite : solo (otherNext body) 4 .other =
        (do body.val; solo (otherNext body) 3 (.commit none) : Svc Phase) := solo_write 3 rfl
    have hcommit : solo (otherNext body) 3 (.commit none) = (pure (.commit none) : Svc Phase) :=
      solo_commit 3 rfl
    simp only [serve, next, first, hwrite, hcommit, Prog.bind_assoc, Prog.pure_bind]
    exact (Prog.bind_pure body.val).symm

theorem solo_returns_commit (h : ∀ a b, same a b = true → a = b) {φ : Phase}
    (hret : (solo (r.next same) 4 r.first).Returns s φ s') : r.next same φ = .commit := by
  cases r with
  | create d w data =>
    have hsolo := solo_create (d := d) (w := w) data 0
    simp only [next, first] at hret
    rw [hsolo] at hret
    obtain ⟨_, _, -, hret⟩ := Prog.returns_bind.mp hret
    obtain ⟨_, _, -, hret⟩ := Prog.returns_bind.mp hret
    obtain ⟨_, _, -, hret⟩ := Prog.returns_bind.mp hret
    obtain ⟨_, -, rfl⟩ := Prog.returns_bind_pure.mp hret
    rfl
  | update w c i upd =>
    have hsolo := solo_update (w := w) (c := c) (i := i) h upd 2
    simp only [next, first] at hret
    rw [hsolo] at hret
    obtain ⟨_, -, rfl⟩ := Prog.returns_bind_pure.mp hret
    rfl
  | delete d w c i =>
    have hsolo := solo_delete (d := d) (w := w) (c := c) (i := i) 1
    simp only [next, first] at hret
    rw [hsolo] at hret
    obtain ⟨_, -, rfl⟩ := Prog.returns_bind_pure.mp hret
    rfl
  | other body =>
    have hwrite : solo (otherNext body) 4 .other =
        (do body.val; solo (otherNext body) 3 (.commit none) : Svc Phase) := solo_write 3 rfl
    have hcommit : solo (otherNext body) 3 (.commit none) = (pure (.commit none) : Svc Phase) :=
      solo_commit 3 rfl
    simp only [next, first] at hret
    rw [hwrite, hcommit] at hret
    obtain ⟨_, -, rfl⟩ := Prog.returns_bind_pure.mp hret
    rfl

end Request

end MarketingSuite.Content.Requests
