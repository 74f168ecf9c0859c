import MarketingSuite.Api.Endpoints
import MarketingSuite.Lib.Runs

/-! # Durability of acknowledged writes

`create_campaign` and `delete_campaign` commit before they answer. The other endpoints leave that to
`get_db_session`, which only closes the session, so a later session sees what they report exactly if
it was there before. -/

namespace MarketingSuite.Api.Durability

open MarketingSuite.Lib.Programs MarketingSuite.Lib.Tables MarketingSuite.Lib.Sessions
open MarketingSuite.Lib.Runs
open MarketingSuite.Base.Values MarketingSuite.Base.Models MarketingSuite.Base.Schema
open MarketingSuite.Repositories.Base MarketingSuite.Repositories.Records
open MarketingSuite.Api.Dependencies MarketingSuite.Campaigns.Service
open MarketingSuite.Publishing.Service MarketingSuite.Scheduler.Service
open MarketingSuite.Scheduler.Acceptance MarketingSuite.Api.Endpoints

/-- The reported row is there. -/
def Reported (s : Database) : Answer → Prop
  | .campaign c => c ∈ s.campaigns.rows
  | .history h => h ∈ s.publishHistory.rows
  | .notification n => n ∈ s.notifications.rows
  | .schedule r => r ∈ s.campaignSchedules.rows

/-- The state after a request, as the next session sees it. -/
def step (texts : Texts) (s : Database) (q : Endpoints.Request) : Database :=
  ((respond texts q).run s).2

/-- If the request is answered with success, the next session sees what the answer reports. -/
def Durable (texts : Texts) (s : Database) (q : Endpoints.Request) : Prop :=
  ∀ a, ((respond texts q).run s).1 = .ok a → Reported (step texts s q) a

/-- A request that comes past its dependencies and is accepted asks for what is stored already, if
its endpoint does not commit. -/
def AlreadyStored (texts : Texts) (s : Database) (q : Endpoints.Request) : Prop :=
  match q.call with
  | .createCampaign _ _ => True
  | .deleteCampaign _ _ => True
  | .updateCampaign w i data => ∀ user t,
    (admitted texts.lower q.draws q.caller "campaign" "update" w).Returns s user t →
      ∀ c, IsCampaign t w i c → AcceptsUpdate t w c data → patch data c = c
  | .changeCampaignStatus w i new => ∀ user t,
    (admitted texts.lower q.draws q.caller "campaign" "update" w).Returns s user t →
      ∀ c, IsCampaign t w i c → AcceptsStatus t c new → c.status = new
  | .publishContent w _ request => ∀ user t,
    (admitted texts.lower q.draws q.caller "content" "publish" w).Returns s user t →
      ¬ AcceptsPublish t q.draws w request
  | .markNotificationAsRead w i => ∀ user t,
    (permitted texts.lower q.draws q.caller "notifications" "read" w).Returns s user t →
      ∀ n ∈ t.notifications.rows, n.id = i → n.userId = user.id → Model.references t n = true →
        n.readAt.isSome = true
  | .campaignSchedule c call => ∀ r, call.request = .ok r →
    Accepts s q.draws c (mockWorkspace q.draws) (mockUser q.draws) r →
      ∃ row, IsSchedule s c (mockWorkspace q.draws) row ∧ r.change (mockUser q.draws) row = row

variable {texts : Texts} {d : Draws} {caller : Caller} {s t t' : Database} {w i c : Uuid}
  {resource action : String} {user : User} {q : Endpoints.Request}

/-! ### Endpoints that do not commit -/

/-- A request whose body is one program, without a commit: the report is about the old state. -/
theorem durable_exec_iff {α : Type} {p : Svc α} {f : α → Answer}
    (h : endpoint texts q.draws q.caller q.call = Session.exec (f <$> p)) :
    Durable texts s q ↔ ∀ a t, p.Returns s a t → Reported s (f a) := by
  have hrun : (respond texts q).run s = (((f <$> p : Svc Answer) s).1, s) := by
    unfold respond Prog.run
    rw [h]
    rfl
  have hmap : ∀ a, ((f <$> p : Svc Answer) s).1 = .ok a ↔ ∃ b t, p.Returns s b t ∧ a = f b := by
    intro a
    rw [show (f <$> p : Svc Answer) = p >>= fun a => pure (f a) from rfl]
    constructor
    · intro ha
      obtain ⟨b, hb, rfl⟩ := Prog.returns_bind_pure.mp (Prog.returns_of_fst ha)
      exact ⟨b, _, hb, rfl⟩
    · rintro ⟨b, t, hb, rfl⟩
      have hret : (p >>= fun a => pure (f a)).Returns s (f b) t :=
        Prog.returns_bind_pure.mpr ⟨b, hb, rfl⟩
      exact congrArg Prod.fst hret
  unfold Durable step
  simp only [hrun, hmap]
  constructor
  · intro hd b t hb
    exact hd (f b) ⟨b, t, hb, rfl⟩
  · rintro hd a ⟨b, t, hb, rfl⟩
    exact hd b t hb

theorem tables_of_admitted
    (h : (admitted texts.lower d caller resource action w).Returns s user t) :
    t.campaigns = s.campaigns :=
  (frames_admitted (f := Database.campaigns) fun _ _ => rfl).returns h

theorem updateCampaign_durable_iff {data : CampaignUpdate}
    (hq : q.call = .updateCampaign w i data) :
    Durable texts s q ↔ AlreadyStored texts s q := by
  have h : endpoint texts q.draws q.caller q.call = Session.exec
      (Answer.campaign <$> Endpoints.updateCampaign texts q.draws q.caller w i data) := by
    rw [hq]; rfl
  rw [durable_exec_iff h]
  unfold AlreadyStored
  rw [hq]
  simp only [Endpoints.updateCampaign, Prog.returns_bind, Reported]
  constructor
  · intro hd user t hadm c hc hacc
    obtain ⟨a, t', hret⟩ := Prog.succeeds_iff.mp (updateCampaign_succeeds_iff.mpr ⟨c, hc, hacc⟩)
    obtain ⟨c', hc', -, rfl, -⟩ := returns_updateCampaign.mp hret
    obtain rfl := isCampaign_unique hc hc'
    have hmem := hd _ t' ⟨user, t, hadm, hret⟩
    rw [← tables_of_admitted hadm] at hmem
    exact t.campaigns.eq_of_key_eq hmem hc.1 rfl
  · rintro hs a t' ⟨user, t, hadm, hret⟩
    obtain ⟨c, hc, hacc, rfl, -⟩ := returns_updateCampaign.mp hret
    rw [hs user t hadm c hc hacc, ← tables_of_admitted hadm]
    exact hc.1

theorem changeStatus_durable_iff {new : CampaignStatus}
    (hq : q.call = .changeCampaignStatus w i new) :
    Durable texts s q ↔ AlreadyStored texts s q := by
  have h : endpoint texts q.draws q.caller q.call = Session.exec
      (Answer.campaign <$> changeCampaignStatus texts q.draws q.caller w i new) := by
    rw [hq]; rfl
  rw [durable_exec_iff h]
  unfold AlreadyStored
  rw [hq]
  simp only [changeCampaignStatus, Prog.returns_bind, Reported]
  constructor
  · intro hd user t hadm c hc hacc
    obtain ⟨a, t', hret⟩ := Prog.succeeds_iff.mp (changeStatus_succeeds_iff.mpr ⟨c, hc, hacc⟩)
    obtain ⟨c', hc', hcase⟩ := returns_changeStatus.mp hret
    obtain rfl := isCampaign_unique hc hc'
    rcases hcase with ⟨hst, -, -⟩ | ⟨-, -, rfl, -⟩
    · exact hst
    · have hmem := hd _ t' ⟨user, t, hadm, hret⟩
      rw [← tables_of_admitted hadm] at hmem
      have hsame : { c with status := new } = c := t.campaigns.eq_of_key_eq hmem hc.1 rfl
      exact (congrArg Campaign.status hsame).symm
  · rintro hs a t' ⟨user, t, hadm, hret⟩
    obtain ⟨c, hc, ⟨-, rfl, -⟩ | ⟨hst, hv, -, href, -⟩⟩ := returns_changeStatus.mp hret
    · rw [← tables_of_admitted hadm]
      exact hc.1
    · exact absurd (hs user t hadm c hc (Or.inr ⟨hv, href⟩)) hst

theorem markNotificationAsRead_durable_iff (hq : q.call = .markNotificationAsRead w i) :
    Durable texts s q ↔ AlreadyStored texts s q := by
  have h : endpoint texts q.draws q.caller q.call = Session.exec
      (Answer.notification <$> markNotificationAsRead texts q.draws q.caller w i) := by
    rw [hq]; rfl
  rw [durable_exec_iff h]
  unfold AlreadyStored
  rw [hq]
  simp only [markNotificationAsRead, Prog.returns_bind, Reported]
  have htable : ∀ user t,
      (permitted texts.lower q.draws q.caller "notifications" "read" w).Returns s user t →
        t.notifications = s.notifications := fun user t hperm =>
    (frames_permitted (f := Database.notifications) fun _ _ => rfl).returns hperm
  constructor
  · intro hd user t hperm n hn hid huser href
    by_contra hunread
    have hunread : n.readAt.isNone = true := by simpa using hunread
    obtain ⟨T, hT⟩ := Table.exists_modify (T := t.notifications) (k := i)
      (f := fun n : Notification => { n with readAt := some (q.draws.now 0) }) (fun _ => rfl)
      fun _ _ => rfl
    have hmark : (markAsRead (q.draws.now 0) i).Returns t
        (some { n with readAt := some (q.draws.now 0) }) { t with notifications := T } :=
      updateWhere_returns hn hid rfl hunread href hT
    have hget : (getById Notification i).Returns t (some n) t := getById_returns hn hid rfl
    have hmem := hd _ _ ⟨user, t, hperm, some n, t, hget, n, t, returns_orRaise.mpr ⟨rfl, rfl⟩, (), t,
      Prog.returns_require.mpr ⟨huser, rfl⟩, _, _, hmark, returns_orRaise.mpr ⟨rfl, rfl⟩⟩
    rw [← htable user t hperm] at hmem
    have hsame : { n with readAt := some (q.draws.now 0) } = n :=
      t.notifications.eq_of_key_eq hmem hn rfl
    have hread := congrArg Notification.readAt hsame
    rw [← hread] at hunread
    exact absurd hunread (by simp)
  · rintro hs a t' ⟨user, t, hperm, found, t₁, hget, n, t₂, hraise, _, t₃, hreq, read, t₄, hmark,
      hread⟩
    obtain ⟨rfl, hf⟩ := getById_spec hget
    obtain ⟨rfl, rfl⟩ := returns_orRaise.mp hraise
    obtain ⟨huser, rfl⟩ := Prog.returns_require.mp hreq
    obtain ⟨rfl, rfl⟩ := returns_orRaise.mp hread
    obtain ⟨hn, hid, -⟩ := (hf n).mp rfl
    rcases updateWhere_spec hmark with ⟨rfl, hsame⟩ | ⟨r, hr, hk, hdel, hunread, -, -⟩
    · obtain ⟨hsame, -⟩ := hsame n hn hid rfl
      obtain rfl := Option.some.inj hsame
      rw [← htable user _ hperm]
      exact hn
    · obtain rfl := t₃.notifications.eq_of_key_eq hr hn (hk.trans hid.symm)
      have href := references_of_updateWhere hmark hr hk hdel hunread
      have hread := hs user t₃ hperm r hr hid huser href
      rw [Option.isNone_iff_eq_none.mp hunread] at hread
      exact absurd hread (by simp)

/-- A request to a schedule reports a row that is stored exactly if it changes nothing. -/
theorem campaignSchedule_durable_iff {call : ScheduleCall}
    (hq : q.call = .campaignSchedule c call) :
    Durable texts s q ↔ AlreadyStored texts s q := by
  have h : endpoint texts q.draws q.caller q.call =
      Session.exec (Answer.schedule <$> campaignSchedule q.draws c call) := by
    rw [hq]; rfl
  rw [durable_exec_iff h]
  unfold AlreadyStored
  rw [hq]
  simp only [campaignSchedule, Prog.returns_bind, Prog.returns_ofExcept, Prog.returns_pure, Reported]
  constructor
  · intro hd r hr hacc
    obtain ⟨a, t, hret⟩ := Prog.succeeds_iff.mp (succeeds_iff_accepts.mpr hacc)
    have hmem := hd a.1 t ⟨r, s, ⟨hr, rfl⟩, a, t, hret, rfl, rfl⟩
    rcases (perform_spec hret).row with ⟨row, hrow, -, ha, -⟩ | ⟨-, -, -, -, T, hT, -⟩
    · rw [ha] at hmem
      exact ⟨row, hrow, s.campaignSchedules.eq_of_key_eq hmem hrow.1 (sets_change _ r row).2.1⟩
    · exact absurd rfl (Table.apart_of_insert hT hmem).1
  · rintro hs a t ⟨r, _, ⟨hr, rfl⟩, b, t', hret, rfl, rfl⟩
    have hacc := succeeds_iff_accepts.mp (Prog.succeeds_of_returns hret)
    obtain ⟨row, hrow, hsame⟩ := hs r hr hacc
    rcases (perform_spec hret).row with ⟨row', hrow', -, hb, -⟩ | ⟨-, hno, -⟩
    · obtain rfl := isSchedule_unique hrow hrow'
      rw [hb, hsame]
      exact hrow.1
    · exact absurd hrow (hno row)

/-! ### The publish -/

/-- The history row is new, so it was not there before, and it is not there afterwards. -/
theorem publishContent_durable_iff {provider : Publisher} {request : PublishRequest}
    (hq : q.call = .publishContent w provider request) :
    Durable texts s q ↔ AlreadyStored texts s q := by
  have hrun : (respond texts q).run s = Session.serve (Endpoints.publishContent texts q.draws q.caller
      w provider request) s := by
    unfold respond
    rw [hq]
    rfl
  have htable : ∀ user t,
      (admitted texts.lower q.draws q.caller "content" "publish" w).Returns s user t →
        t.publishHistory = s.publishHistory := fun user t hadm =>
    (frames_admitted (f := Database.publishHistory) fun _ _ => rfl).returns hadm
  unfold Durable step AlreadyStored
  rw [hq, hrun]
  constructor
  · intro hd user t hadm hacc
    obtain ⟨a, c', v, hret, hid, hkept⟩ := publishContent_returns texts.textOf provider s hacc
    have hexec : (Session.exec (admitted texts.lower q.draws q.caller "content" "publish" w)).Returns
        (.fresh s) user ⟨s, some t⟩ := Session.returns_exec.mpr ⟨t, hadm, rfl⟩
    have hserve : (Session.serve (Endpoints.publishContent texts q.draws q.caller w provider
        request)).Returns s (.history a) c' := by
      refine Session.returns_serve.mpr ⟨⟨c', some v⟩, ?_, rfl⟩
      exact Prog.returns_bind.mpr ⟨user, _, hexec, Prog.returns_bind.mpr ⟨a, _, hret,
        Prog.returns_pure.mpr ⟨rfl, rfl⟩⟩⟩
    unfold Prog.Returns at hserve
    have hmem := hd (.history a) (congrArg Prod.fst hserve)
    rw [hserve] at hmem
    have hmem : a ∈ c'.publishHistory.rows := hmem
    rw [hkept, ← htable user t hadm] at hmem
    obtain ⟨_, _, -, -, hnew⟩ := hacc
    exact hnew a hmem hid
  · intro hs a ha
    obtain ⟨s', hret, -⟩ := Session.returns_serve.mp (Prog.returns_of_fst ha)
    obtain ⟨user, s₁, hexec, h⟩ := Prog.returns_bind.mp hret
    obtain ⟨t, hadm, rfl⟩ := Session.returns_exec.mp hexec
    obtain ⟨b, s₂, hpub, -⟩ := Prog.returns_bind.mp h
    exact absurd (acceptsPublish_of_returns hpub) (hs user t hadm)

/-! ### Endpoints that commit -/

/-- What a program reports about the state it leaves is there, if the endpoint commits. -/
theorem durable_of_commit {p : Svc Campaign}
    (h : endpoint texts q.draws q.caller q.call = (do
      let campaign ← Session.exec p
      Session.commit
      pure (.campaign campaign)))
    (hp : ∀ a t, p.Returns s a t → a ∈ t.campaigns.rows) : Durable texts s q := by
  intro a ha
  have hret : (Session.serve (endpoint texts q.draws q.caller q.call)).Returns s a
      (step texts s q) := Prog.returns_of_fst ha
  rw [h] at hret
  obtain ⟨b, hb, rfl⟩ := Session.returns_serve_exec_commit.mp hret
  exact hp b _ hb

/-! ### Runs -/

/-- **One request** is durable exactly if it asks for what is stored already, or its endpoint
commits. -/
theorem request_durable_iff (texts : Texts) (s : Database) (q : Endpoints.Request) :
    Durable texts s q ↔ AlreadyStored texts s q := by
  rcases hq : q.call with ⟨w, data⟩ | ⟨w, i, data⟩ | ⟨w, i⟩ | ⟨w, i, new⟩ | ⟨w, provider, request⟩ |
    ⟨w, i⟩ | ⟨c, call⟩
  · have hdone : AlreadyStored texts s q := by unfold AlreadyStored; rw [hq]; trivial
    refine iff_of_true (durable_of_commit (by rw [hq]; rfl) fun a t hret => ?_) hdone
    obtain ⟨user, t', -, hcreate⟩ := Prog.returns_bind.mp hret
    exact mem_of_createCampaign hcreate
  · exact updateCampaign_durable_iff hq
  · have hdone : AlreadyStored texts s q := by unfold AlreadyStored; rw [hq]; trivial
    refine iff_of_true (durable_of_commit (by rw [hq]; rfl) fun a t hret => ?_) hdone
    obtain ⟨user, t', -, hdelete⟩ := Prog.returns_bind.mp hret
    exact mem_of_deleteCampaign hdelete
  · exact changeStatus_durable_iff hq
  · exact publishContent_durable_iff hq
  · exact markNotificationAsRead_durable_iff hq
  · exact campaignSchedule_durable_iff hq

/-- **Acknowledged writes are durable exactly in the runs** whose accepted requests ask for what is
stored already, those to `create_campaign` and `delete_campaign` apart. -/
theorem along_durable_iff (texts : Texts) (s : Database) (l : List Endpoints.Request) :
    Along (step texts) (Durable texts) s l ↔ Along (step texts) (AlreadyStored texts) s l :=
  along_congr (I := fun _ => True) (fun _ _ _ => trivial)
    (fun s q _ => request_durable_iff texts s q) trivial

/-! ### A name that is lost -/

/-- Plain ASCII texts. -/
def plainTexts : Texts := ⟨id, fun _ => ""⟩

/-- The owner of the workspace 10 renames its campaign. -/
def rename : Endpoints.Request where
  caller := .ok ⟨.id 1, some "owner@example.com"⟩
  draws := drawsFrom 90 0 ""
  call := .updateCampaign 10 30 { campaignName := some (some "Relaunch") }

/-- The answer shows the new name, and the next session the old one. -/
theorem rename_is_lost : ¬ Along (step plainTexts) (Durable plainTexts) launched [rename] := by
  rintro ⟨h, -⟩
  have hanswer : ((respond plainTexts rename).run launched).1 =
      .ok (.campaign { launch with campaignName := "Relaunch" }) := rfl
  have hlost : { launch with campaignName := "Relaunch" } ∉
      (step plainTexts launched rename).campaigns.rows := by decide
  exact hlost (h _ hanswer)

end MarketingSuite.Api.Durability
